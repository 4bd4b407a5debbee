import SourceAtlas.Text.Basic

/-!
# Blocks

Without a grammar, the extent of a declaration is recovered by counting its
braces.  The text is expected to be masked, so that braces in comments and
literals do not count.  Offsets are byte offsets.
-/

namespace SourceAtlas.Text

/-- A block in braces. -/
structure Block where
  /-- Offset of the opening brace. -/
  opener : Nat
  /-- Offset of the matching closing brace, or the width of the text when the
  block is never closed. -/
  closer : Nat
  /-- Whether the closing brace was found. -/
  terminated : Bool
  deriving DecidableEq, Repr

namespace Block

def bodyStart (block : Block) : Nat :=
  min (block.opener + 1) block.closer

def past (block : Block) : Nat :=
  if block.terminated then block.closer + 1 else block.closer

def contains (block : Block) (offset : Nat) : Bool :=
  block.opener < offset && offset < block.closer

end Block

/-- Walks with a number of open delimiters to the one that closes the last of
them.  Answers its offset, or the offset of the end of the text. -/
def closerLoop (opener closer : Char) : Nat → Nat → List Char → Nat × Bool
  | _, offset, [] => (offset, false)
  | depth, offset, c :: text =>
      if c = opener then closerLoop opener closer (depth + 1) (offset + c.utf8Size) text
      else if c = closer then
        if depth ≤ 1 then (offset, true)
        else closerLoop opener closer (depth - 1) (offset + c.utf8Size) text
      else closerLoop opener closer depth (offset + c.utf8Size) text

/-- The offset of the delimiter that closes the one at the start of `text`,
which begins at `offset`. -/
def closerFrom? (opener closer : Char) (offset : Nat) : List Char → Option Nat
  | [] => none
  | c :: text =>
      if c = opener then
        match closerLoop opener closer 1 (offset + c.utf8Size) text with
        | (found, true) => some found
        | (_, false) => none
      else none

/-- The part of a text that begins exactly at a byte offset. -/
def suffixAt? (offset : Nat) : List Char → Option (List Char)
  | [] => if offset = 0 then some [] else none
  | c :: text =>
      if offset = 0 then some (c :: text)
      else if offset < c.utf8Size then none
      else suffixAt? (offset - c.utf8Size) text

/-- The offset of the delimiter closing the one at an offset, honouring
nesting.  There is none when another character stands there or when the text
ends first. -/
def closer? (text : List Char) (start : Nat) (opener closer : Char) : Option Nat :=
  (suffixAt? start text).bind (closerFrom? opener closer start)

/-- The block opened by the first opening brace of `text`, which begins at
`offset`. -/
def blockFrom? : Nat → List Char → Option Block
  | _, [] => none
  | offset, c :: text =>
      if c = '{' then
        let (closer, terminated) := closerLoop '{' '}' 1 (offset + 1) text
        some { opener := offset, closer, terminated }
      else blockFrom? (offset + c.utf8Size) text

/-- Moves to the first character that begins at or after an offset, with the
offset where it begins. -/
def seek (target : Nat) : Nat → List Char → Nat × List Char
  | offset, [] => (offset, [])
  | offset, c :: text =>
      if target ≤ offset then (offset, c :: text)
      else seek target (offset + c.utf8Size) text

/-- The block opened by the first opening brace at or after an offset. -/
def block? (text : List Char) (start : Nat) : Option Block :=
  let (offset, rest) := seek start 0 text
  blockFrom? offset rest

/-- Opening minus closing braces among the characters of `text`, which begins
at `offset`, that begin before `stop`. -/
def balanceFrom (balance : Int) (stop : Nat) : Nat → List Char → Int
  | _, [] => balance
  | offset, c :: text =>
      if stop ≤ offset then balance
      else
        let balance :=
          if c = '{' then balance + 1
          else if c = '}' then balance - 1
          else balance
        balanceFrom balance stop (offset + c.utf8Size) text

def balance (text : List Char) (start stop : Nat) : Int :=
  let (offset, rest) := seek start 0 text
  balanceFrom 0 stop offset rest

def opensBracket (c : Char) : Bool :=
  c = '<' || c = '(' || c = '[' || c = '{'

def closesBracket (c : Char) : Bool :=
  c = '>' || c = ')' || c = ']' || c = '}'

def piecesLoop : Int → List Char → List (List Char) → List Char → List (List Char)
  | _, piece, pieces, [] => (piece.reverse :: pieces).reverse
  | depth, piece, pieces, c :: text =>
      if opensBracket c then piecesLoop (depth + 1) (c :: piece) pieces text
      else if closesBracket c then piecesLoop (depth - 1) (c :: piece) pieces text
      else if c = ',' && depth ≤ 0 then piecesLoop depth [] (piece.reverse :: pieces) text
      else piecesLoop depth (c :: piece) pieces text

def pieces (text : List Char) : List (List Char) :=
  ((piecesLoop 0 [] [] text).map trim).filter (!·.isEmpty)

end SourceAtlas.Text
