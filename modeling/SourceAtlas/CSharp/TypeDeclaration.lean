import SourceAtlas.CSharp.Listing
import SourceAtlas.CSharp.Patterns
import SourceAtlas.Model.Signature
import SourceAtlas.Text.Block

/-!
# Type declarations

The types that a listing declares outside every other reported type.  A
namespace is not a type, so a type in a namespace counts.  Whether a place lies
inside a type is decided by the braces opened since the declaration began.
-/

namespace SourceAtlas.CSharp

open Text

/-- A type declaration found in masked text. -/
structure TypeDeclaration where
  name : String
  kind : TypeKind
  /-- Where the modifiers begin, or the keyword if there are none. -/
  start : Nat
  headerStart : Nat
  /-- The text between the name and the first brace or semicolon. -/
  header : List Char
  /-- The body of the declaration with the place where its inside begins. -/
  body : Option (Block × Cursor)

namespace TypeDeclaration

def headerContains (declaration : TypeDeclaration) (offset : Nat) : Bool :=
  declaration.headerStart ≤ offset
    && offset < declaration.headerStart + byteWidth declaration.header

/-- Whether more braces are opened than closed between the start of the
declaration and an offset. -/
def enclosing (declaration : TypeDeclaration) (masked : List Char) (offset : Nat) : Bool :=
  0 < balance masked declaration.start offset

def followsRecordName (c : Char) : Bool :=
  c = '(' || c = '{' || c = ':' || c = '<' || c = ';'

/-- Whether the keyword of a match can be meant as one.  The word `record` is
also an ordinary name, so it needs a continuation that a type has. -/
def keywordFits (keyword : List Char) (afterName : List Char) : Bool :=
  !startsWith keyword "record".toList
    || ((trimStart afterName).head?.any followsRecordName)

def headerEnd (place : Cursor) : Cursor :=
  place.skipWhile fun c => !(c = '{' || c = ';')

def bodyAt? (place : Cursor) : Option (Block × Cursor) :=
  match place.after with
  | '{' :: after =>
      (blockFrom? place.offset place.after).map fun block =>
        (block, ((place.past '{' after).window block.closer))
  | _ => none

def ofMatch? (found : Match Mark) : Option TypeDeclaration :=
  match found.part? .modifiers, found.part? .keyword, found.part? .name with
  | some modifiers, some keyword, some name =>
      if isKeyword name.string then none
      else if !keywordFits keyword.text name.stop.after then none
      else
        let place := headerEnd name.stop
        some {
          name := name.string
          kind := TypeKind.ofKeyword keyword.text
          start := modifiers.start.offset
          headerStart := name.stop.offset
          header := name.stop.upTo place.offset
          body := bodyAt? place }
  | _, _, _ => none

/-- Whether a later declaration belongs to the one before it, as a part of its
header or of its body. -/
def nests (previous : TypeDeclaration) (masked : List Char) (later : Nat) : Bool :=
  previous.headerContains later || previous.enclosing masked later

/-- Keeps the declarations that do not belong to the last one kept. -/
def keepOutermost (masked : List Char) (kept : List TypeDeclaration) :
    List TypeDeclaration → List TypeDeclaration
  | [] => kept.reverse
  | declaration :: rest =>
      match kept with
      | [] => keepOutermost masked [declaration] rest
      | previous :: _ =>
          if previous.nests masked declaration.start then keepOutermost masked kept rest
          else keepOutermost masked (declaration :: kept) rest

def candidates (masked : List Char) : List TypeDeclaration :=
  (typeShape.findAll (Cursor.ofText masked)).filterMap ofMatch?

/-- The type declarations of a masked text that do not belong to an earlier
one. -/
def topLevel (masked : List Char) : List TypeDeclaration :=
  keepOutermost masked [] (candidates masked)

/-- The declarations that start before an offset, the nearest one first. -/
def preceding (types : List TypeDeclaration) (offset : Nat) : List TypeDeclaration :=
  (types.filter (·.start < offset)).reverse

def insideAny (types : List TypeDeclaration) (masked : List Char) (offset : Nat) : Bool :=
  match preceding types offset with
  | [] => false
  | nearest :: _ => nearest.enclosing masked offset

/-- The text behind a bracketed list at its start, if there is one.  A list
that is never closed leaves nothing to read. -/
def skipBracketed? (opener closer : Char) (text : List Char) : Option (List Char) :=
  if text.head? = some opener then
    (closerFrom? opener closer 0 text).map fun found => trimStart (dropBytes (found + 1) text)
  else some text

def withoutConstraints (text : List Char) : List Char :=
  let place := Cursor.ofText text
  match whereShape.find? place with
  | some found => place.upTo found.whole.start.offset
  | none => text

/-- The base types that a header lists behind its colon, past type parameters
and a primary constructor. -/
def baseTypesOf (header : List Char) : List String :=
  let rest := (skipBracketed? '<' '>' (trimStart header)).bind (skipBracketed? '(' ')')
  match rest with
  | some (':' :: list) =>
      (pieces (withoutConstraints list)).map fun piece => String.ofList (collapseBlanks piece)
  | _ => []

def baseTypes (declaration : TypeDeclaration) : List String :=
  baseTypesOf declaration.header

def signature (declaration : TypeDeclaration) (listing : Listing) : ClassSignature :=
  { ClassSignature.named declaration.name (listing.lines.number declaration.start) with
    kind := declaration.kind }

end TypeDeclaration

end SourceAtlas.CSharp
