import SourceAtlas.Python.Extraction
import SourceAtlas.Python.Layout
import SourceAtlas.Python.Statement

/-!
# A parser of Python

The parser that the program runs with, where a parsing library could stand in
its place.  Nothing is claimed of it beyond what it answers; whatever is said of
models of Python files is said for every parser.  A text that cannot be read is
answered with a tree that holds one fault: a bracket that is never closed spoils
the whole text, unless one closing bracket in front of a token that cannot stand
inside would mend it; then only that is missing.
-/

namespace SourceAtlas.Python

open Text

/-- The tree of a text, or why the text has no tokens.  A text with tokens may
still have no tree. -/
def readTree (text : List Char) : Except LayoutFault (Option Node) :=
  (tokensOf text).map treeOf?

def isReadable (text : List Char) : Bool :=
  match readTree text with
  | .ok (some _) => true
  | _ => false

/-- The fault of a whole text, from its first character that is not blank. -/
def wholeFault (text : List Char) : Node :=
  let blanks := text.takeWhile isBlank
  .mk
    { kind := "ERROR", isNamed := true, isMissing := false, field := none
      position := Position.start.pastText blanks
      start := byteWidth blanks, stop := byteWidth text } []

/-- A bracket that has been opened, and what ends the text that it may hold: the
first token directly in it that cannot stand there, with the tokens before. -/
structure OpenBracket where
  closing : Char
  stop : Option (List Token × Token)

/-- Whether a token cannot stand directly in a bracket that a character closes.  A
colon can stand in an index and in a dictionary. -/
def isForeign (closing : Char) (token : Token) : Bool :=
  token.isWord ";" || (closing = ')' && token.isWord ":")

def opened? (token : Token) : Option Char :=
  match token.kind, token.text.toList with
  | .symbol, [c] => Layout.closingOf c
  | _, _ => none

/-- The open brackets, the innermost first, behind one more token.  What has
been passed before it has the last token first. -/
def bracketsBehind (passed : List Token) (token : Token) (brackets : List OpenBracket) :
    List OpenBracket :=
  match opened? token, brackets with
  | some closing, _ => { closing, stop := none } :: brackets
  | none, [] => []
  | none, bracket :: outer =>
      if token.isWord (String.singleton bracket.closing) then outer
      else if bracket.stop.isNone && isForeign bracket.closing token then
        { bracket with stop := some (passed, token) } :: outer
      else brackets

def openBrackets (passed : List Token) (brackets : List OpenBracket) :
    List Token → List OpenBracket
  | [] => brackets
  | token :: tokens =>
      openBrackets (token :: passed) (bracketsBehind passed token brackets) tokens

/-- Whether the parameters of a definition are open behind some tokens, the last
one first. -/
def isInParameters : List Token → Bool
  | [] => false
  | token :: rest =>
      if token.isWord "def" then true
      else if token.isWord ")" then false
      else isInParameters rest

def mendedAt (text : List Char) (token : Token) (closing : Char) : List Char :=
  takeBytes token.start text ++ closing :: dropBytes token.start text

/-- The fault of a text of which a single closing bracket is missing in front of
a token that cannot stand inside brackets. -/
def missingBracket? (text : List Char) (tokens : List Token) : Option Node :=
  match openBrackets [] [] tokens with
  | [{ closing, stop := some (passed, token) }] =>
      if !isInParameters passed && isReadable (mendedAt text token closing) then
        some
          (.mk
            { kind := String.singleton closing, isNamed := false, isMissing := true
              field := none, position := token.position
              start := token.start, stop := token.start } [])
      else none
  | _ => none

def layoutFault (text : List Char) : LayoutFault → Node
  | .malformed => wholeFault text
  | .unclosed tokens => (missingBracket? text tokens).getD (wholeFault text)

/-- The tree of a text, which may consist of a fault alone. -/
def parse : Parser := fun source =>
  let text := source.toList
  match readTree text with
  | .ok (some root) => some root
  | .ok none => some (wholeFault text)
  | .error fault => some (layoutFault text fault)

end SourceAtlas.Python
