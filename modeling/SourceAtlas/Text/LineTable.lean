import SourceAtlas.Text.Basic

/-!
# Line tables

A line table answers on which line an offset lies and gives back each line
with its line break.
-/

namespace SourceAtlas.Text

/-- A line of a text with the offset where it starts. -/
structure TextLine where
  start : Nat
  /-- The characters of the line, with the line break that ends it. -/
  text : List Char

/-- The lines of a text in order. -/
structure LineTable where
  entries : Array TextLine

namespace LineTable

/-- Collects lines while keeping the start and the reversed characters of the
line being read. -/
def build (entries : Array TextLine) (start offset : Nat) (line : List Char) :
    List Char → Array TextLine
  | [] => entries.push { start, text := line.reverse }
  | c :: text =>
      if c = '\n' then
        build (entries.push { start, text := (c :: line).reverse })
          (offset + 1) (offset + 1) [] text
      else build entries start (offset + c.utf8Size) (c :: line) text

/-- The line table of a text.  A text has one line more than line breaks. -/
def ofText (text : List Char) : LineTable :=
  { entries := build #[] 0 0 [] text }

/-- The index of the line that holds an offset: how many further lines start
at or before it. -/
def indexOf (table : LineTable) (offset : Nat) : Nat :=
  table.entries.foldl (fun count line => if line.start ≤ offset then count + 1 else count) 0 - 1

/-- The number of the line that holds an offset, counted from one. -/
def number (table : LineTable) (offset : Nat) : Nat :=
  table.indexOf offset + 1

def start (table : LineTable) (index : Nat) : Nat :=
  (table.entries[index]?.map (·.start)).getD 0

def line (table : LineTable) (index : Nat) : List Char :=
  (table.entries[index]?.map (·.text)).getD []

end LineTable

end SourceAtlas.Text
