import SourceAtlas.CSharp.Listing
import SourceAtlas.CSharp.Patterns
import SourceAtlas.Text.Block

/-!
# Documentation and attributes

What is written above a declaration: attributes in brackets and documentation
lines.  Both are read from the text itself, since masking blanks comments and
literals.
-/

namespace SourceAtlas.CSharp

open Text

/-- The inside of the summary, if the first one is opened before it is
closed. -/
def summaryOf (text : List Char) : List Char :=
  match cutAt? "<summary>".toList text, cutAt? "</summary>".toList text with
  | some (before, inside), some (untilCloser, _) =>
      if before.length < untilCloser.length then upToWord "</summary>".toList inside
      else text
  | _, _ => text

def solidLines (text : List Char) : List (List Char) :=
  ((lines text).map trim).filter (!·.isEmpty)

def paragraph? (lines : List (List Char)) : Option String :=
  if lines.isEmpty then none else some (String.ofList (join ['\n'] lines))

/-- The text of documentation lines without tags.  A summary stands for the
whole. -/
def cleanDocumentation (lines : List (List Char)) : Option String :=
  paragraph? (solidLines (Pattern.removeAll tagShape (summaryOf (join ['\n'] lines))))

/-- The lines of a block of documentation, up to the one that closes it. -/
def blockLines : List (List Char) → List (List Char)
  | [] => []
  | line :: rest =>
      let line := trim line
      let content :=
        (upToWord ['*', '/'] (trimStartWord ['/', '*', '*'] line)).dropWhile (· = '*')
      if occursIn ['*', '/'] line then [content] else content :: blockLines rest

/-- The documentation lines that a text starts with, without their slashes. -/
def documentationRun : List (List Char) → List (List Char)
  | [] => []
  | line :: rest =>
      match dropWord? ['/', '/', '/'] (trimStart line) with
      | some content => content :: documentationRun rest
      | none => []

/-- The first run of documentation lines or the first block of documentation,
wherever it stands. -/
def firstDocumentation? : List (List Char) → Option (List (List Char))
  | [] => none
  | line :: rest =>
      if startsWith (trimStart line) ['/', '/', '/'] then some (documentationRun (line :: rest))
      else if startsWith (trimStart line) ['/', '*', '*'] then some (blockLines (line :: rest))
      else firstDocumentation? rest

def leadingComment (lines : List (List Char)) : List (List Char) :=
  let trimmed := (lines.map trim).dropWhile (·.isEmpty)
  let comments := trimmed.takeWhile (startsWith · ['/', '/'])
  (comments.map fun line => trim (line.dropWhile (· = '/'))).filter (!·.isEmpty)

/-- The documentation of a file: its first documentation comment, or else the
comment lines at its top. -/
def fileDocumentation (text : List Char) : Option String :=
  let lines := lines text
  match firstDocumentation? lines with
  | some found => cleanDocumentation found
  | none => paragraph? (leadingComment lines)

/-- Adds the attributes of one group after the other to those already found. -/
def attributesLoop? : Nat → List Char → List String → Option (List String)
  | 0, text, found => if text.isEmpty then some found else none
  | fuel + 1, text, found =>
      match text with
      | [] => some found
      | '[' :: inside =>
          match closerLoop '[' ']' 1 1 inside with
          | (_, false) => none
          | (closer, true) =>
              let group := takeBytes (closer - 1) inside
              attributesLoop? fuel (trimStart (dropBytes closer inside))
                (found ++ (pieces group).map String.ofList)
      | _ => none

/-- The attributes of bracketed groups, or nothing if the text holds anything
else. -/
def attributes? (text : List Char) : Option (List String) :=
  let text := trim text
  attributesLoop? text.length text []

/-- What is written above a declaration. -/
structure Annotations where
  attributes : List String
  documentation : List (List Char)

/-- Reads lines upwards, the nearest one first, as long as they hold
documentation or attributes. -/
def Annotations.readUpwards (annotations : Annotations) : List (List Char) → Annotations
  | [] => annotations
  | line :: rest =>
      let line := trim line
      match dropWord? ['/', '/', '/'] line with
      | some content =>
          readUpwards
            { annotations with documentation := content :: annotations.documentation } rest
      | none =>
          if line.head? = some '[' then
            match attributes? line with
            | some found =>
                readUpwards { annotations with attributes := found ++ annotations.attributes }
                  rest
            | none => annotations
          else annotations

namespace Listing

def linesAbove (listing : Listing) (index : Nat) : List (List Char) :=
  (List.range index).reverse.map listing.lines.line

/-- The annotations of the declaration at an offset.  Anything else before it
on its line leaves it without. -/
def annotations (listing : Listing) (start : Nat) : Annotations :=
  let index := listing.lines.indexOf start
  let before := takeBytes (start - listing.lines.start index) (listing.lines.line index)
  match attributes? before with
  | none => { attributes := [], documentation := [] }
  | some found =>
      { attributes := found, documentation := [] : Annotations }.readUpwards
        (listing.linesAbove index)

end Listing

def Annotations.docComment (annotations : Annotations) : Option String :=
  cleanDocumentation annotations.documentation

end SourceAtlas.CSharp
