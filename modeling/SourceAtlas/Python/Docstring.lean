import SourceAtlas.Text.Basic

/-!
# Docstrings

The text of a string literal that documents what it opens.  Its first line is
taken without surrounding blanks; the other lines lose the indentation that all
of them share.  Empty lines at either end are dropped.
-/

namespace SourceAtlas.Python

open Text

def quotations : List (List Char) :=
  ["\"\"\"", "'''", "\"", "'"].map String.toList

def unquoted? (literal : List Char) : Option (List Char) :=
  let quoted := literal.dropWhile isAsciiLetter
  let fits (quotes : List Char) :=
    startsWith quoted quotes && 2 * quotes.length ≤ byteWidth quoted
  (quotations.find? fits).map fun quotes =>
    slice quoted quotes.length (byteWidth quoted - quotes.length)

/-- The bytes of white space at the start of a line. -/
def indentationWidth (line : List Char) : Nat :=
  byteWidth line - byteWidth (trimStart line)

/-- The indentation that all lines share which hold more than blanks. -/
def sharedIndentation (lines : List (List Char)) : Nat :=
  (((lines.filter fun line => !(trim line).isEmpty).map indentationWidth).min?).getD 0

/-- The line from a byte offset on, if one of its characters starts there. -/
def fromOffset? : Nat → List Char → Option (List Char)
  | 0, line => some line
  | _ + 1, [] => none
  | offset + 1, c :: line =>
      if offset + 1 < c.utf8Size then none else fromOffset? (offset + 1 - c.utf8Size) line

/-- A line without its indentation and the white space at its end.  Nothing is
left of a line that has no character at this indentation. -/
def outdent (indentation : Nat) (line : List Char) : List Char :=
  trimEnd ((fromOffset? indentation line).getD [])

def trimLines (lines : List (List Char)) : List (List Char) :=
  let rest := lines.dropWhile List.isEmpty
  (rest.reverse.dropWhile List.isEmpty).reverse

def cleanLines (body : List Char) : List (List Char) :=
  match lines body with
  | [] => []
  | first :: rest => trimLines (trim first :: rest.map (outdent (sharedIndentation rest)))

def docstring? (literal : String) : Option String :=
  (unquoted? literal.toList).bind fun body =>
    match cleanLines body with
    | [] => none
    | cleaned => some (String.ofList (join ['\n'] cleaned))

end SourceAtlas.Python
