import SourceAtlas.Text.LineTable
import SourceAtlas.Text.Mask

/-!
# Listings

A C# text beside its masked form.  Offsets agree between the two, so what is
found in the masked form can be read off the text.
-/

namespace SourceAtlas.CSharp

open Text

/-- A text, its masked form and its lines. -/
structure Listing where
  text : List Char
  masked : List Char
  lines : LineTable

namespace Listing

def ofText (text : List Char) : Listing :=
  { text, masked := mask text, lines := LineTable.ofText text }

/-- Takes the rest of a line, and so many lines behind it. -/
def firstLinesLoop (taken : List Char) : Nat → List Char → List Char × Bool
  | _, [] => (taken.reverse, false)
  | more, c :: text =>
      if c = '\n' then
        if text.isEmpty then ((c :: taken).reverse, false)
        else
          match more with
          | 0 => ((c :: taken).reverse, true)
          | more + 1 => firstLinesLoop (c :: taken) more text
      else firstLinesLoop (c :: taken) more text

/-- The first lines of a text, at least one, and whether any text is left
out. -/
def firstLines (limit : Nat) (text : List Char) : List Char × Bool :=
  firstLinesLoop [] (limit - 1) text

end Listing

end SourceAtlas.CSharp
