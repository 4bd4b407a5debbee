import SourceAtlas.Text.Basic

/-!
# Cursors

A cursor is a place in a text together with the window that may be looked at
from there.  It keeps what has been passed, nearest character first, so that a
scanner can look behind without going back.
-/

namespace SourceAtlas.Text

/-- A place in a window of a text. -/
structure Cursor where
  /-- The characters of the window before the place, nearest first. -/
  before : List Char
  /-- The text from the place on, to the end of the whole text. -/
  after : List Char
  /-- The byte offset of the place. -/
  offset : Nat
  /-- The byte offset where the window ends. -/
  stop : Nat

namespace Cursor

def ofText (text : List Char) : Cursor :=
  { before := [], after := text, offset := 0, stop := byteWidth text }

/-- A window that begins at the cursor, forgets what stands before it and ends
at a later offset. -/
def window (cursor : Cursor) (stop : Nat) : Cursor :=
  { cursor with before := [], stop }

def head? (cursor : Cursor) : Option Char :=
  if cursor.offset < cursor.stop then cursor.after.head? else none

/-- The character just before the cursor, if the window has one. -/
def previous? (cursor : Cursor) : Option Char :=
  cursor.before.head?

/-- The last character before the cursor that is not white space. -/
def previousSolid? (cursor : Cursor) : Option Char :=
  (cursor.before.dropWhile isBlank).head?

def past (cursor : Cursor) (c : Char) (after : List Char) : Cursor :=
  { cursor with
    before := c :: cursor.before
    after
    offset := cursor.offset + c.utf8Size }

def next? (cursor : Cursor) : Option (Char × Cursor) :=
  match cursor.after with
  | [] => none
  | c :: after =>
      if cursor.offset < cursor.stop then some (c, cursor.past c after) else none

def skipLoop (test : Char → Bool) (stop : Nat) :
    List Char → Nat → List Char → Cursor
  | before, offset, [] => { before, after := [], offset, stop }
  | before, offset, c :: after =>
      if offset < stop && test c then
        skipLoop test stop (c :: before) (offset + c.utf8Size) after
      else { before, after := c :: after, offset, stop }

/-- The place past the longest run of characters of a class. -/
def skipWhile (test : Char → Bool) (cursor : Cursor) : Cursor :=
  skipLoop test cursor.stop cursor.before cursor.offset cursor.after

def skipWord? : List Char → Cursor → Option Cursor
  | [], cursor => some cursor
  | d :: word, cursor =>
      match cursor.next? with
      | some (c, next) => if c = d then skipWord? word next else none
      | none => none

def upTo (cursor : Cursor) (stop : Nat) : List Char :=
  takeBytes (stop - cursor.offset) cursor.after

end Cursor

end SourceAtlas.Text
