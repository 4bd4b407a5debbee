import SourceAtlas.CSharp.TypeDeclaration

/-!
# Methods

Methods and constructors found in masked text.  A match becomes a method only
where a member or a statement can begin and where the parameter list is
followed by what a declaration continues with.
-/

namespace SourceAtlas.CSharp

open Text

def skipAttributes? : Nat → List Char → Option (List Char)
  | 0, text => some text
  | fuel + 1, text =>
      if text.head? = some '[' then
        match closerFrom? '[' ']' 0 text with
        | some found => skipAttributes? fuel (trimStart (dropBytes (found + 1) text))
        | none => none
      else some text

/-- The name of a parameter: the last word before its default value, without
the sign that lets a keyword be a name. -/
def parameterName? (parameter : List Char) : Option String :=
  let parameter := trim parameter
  (skipAttributes? parameter.length parameter).bind fun rest =>
    match (words (rest.takeWhile (· ≠ '='))).getLast? with
    | none => none
    | some name =>
        let bare := name.dropWhile (· = '@')
        if bare.isEmpty then none else some (String.ofList bare)

def parameterNames (list : List Char) : List String :=
  (pieces list).filterMap parameterName?

/-- A match that has the form of a method. -/
structure Method where
  name : String
  /-- Where the modifiers begin, or what follows them if there are none. -/
  start : Nat
  nameStart : Nat
  returnType : Option String
  isAsync : Bool
  parameters : List String
  body : Option Block

namespace Method

def mayFollow : Option Char → Bool
  | none => true
  | some c => c = '{' || c = '}' || c = ';' || c = ']'

/-- Whether a text begins with a word and not with a longer one. -/
def opensWithWord (text word : List Char) : Bool :=
  match dropWord? word text with
  | some rest => !rest.head?.any isWord
  | none => false

/-- Whether a declaration can continue with a text after its parameters.  Only
a constructor hands over to another one, behind a colon; only a method ends at
once or has type constraints. -/
def mayContinue (hasReturnType : Bool) (after : List Char) : Bool :=
  startsWith after ['{'] || startsWith after ['=', '>']
    || if hasReturnType then
        startsWith after [';'] || opensWithWord after "where".toList
      else startsWith after [':'] && !startsWith after [':', ':']

/-- The method that a match stands for.  The match ends behind the parenthesis
that opens the parameters. -/
def ofMatch? (found : Match Mark) : Option Method :=
  match found.part? .modifiers, found.part? .name with
  | some modifiers, some name =>
      let returnType := (found.part? .type).map fun type => String.ofList (trim type.text)
      if isKeyword name.string || returnType.any isKeyword then none
      else if !mayFollow modifiers.start.previousSolid? then none
      else
        let list := found.whole.stop
        match closerLoop '(' ')' 1 list.offset list.after with
        | (_, false) => none
        | (closer, true) =>
            let behind := dropBytes (closer + 1 - list.offset) list.after
            let after := trimStart behind
            if mayContinue returnType.isSome after then
              some {
                name := name.string
                start := modifiers.start.offset
                nameStart := name.start.offset
                returnType
                isAsync := (words modifiers.text).contains "async".toList
                parameters := parameterNames (list.upTo closer)
                body :=
                  if after.head? = some '{' then blockFrom? (closer + 1) behind else none }
            else none
  | _, _ => none

def allIn (place : Cursor) : List Method :=
  (methodShape.findAll place).filterMap ofMatch?

/-- The signature of the method with what is written above it. -/
def signature (method : Method) (listing : Listing) (decorators : List String)
    (docComment : Option String) : FunctionSignature :=
  { FunctionSignature.named method.name (listing.lines.number method.nameStart) with
    parameters := method.parameters
    returnType := method.returnType
    isAsync := method.isAsync
    decorators
    docComment }

end Method

end SourceAtlas.CSharp
