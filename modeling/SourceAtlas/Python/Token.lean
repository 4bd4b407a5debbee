import SourceAtlas.Python.Word

/-!
# Tokens of Python

The parser that the program brings along reads a text in two steps.  First it
cuts the text into tokens, which are the nodes without children in the syntax
tree; layout is told by tokens that are no part of the tree.
-/

namespace SourceAtlas.Python

/-- What a token is. -/
inductive TokenKind
  | name
  | keyword
  | symbol
  | number
  /-- A whole string literal without replacement fields. -/
  | string
  /-- The opening quotes of a format string. -/
  | formatOpen
  /-- Literal text in a format string or a format specification. -/
  | formatText
  /-- The closing quotes of a format string. -/
  | formatClose
  /-- The end of a logical line. -/
  | newline
  | indent
  | dedent
  /-- The end of the file. -/
  | stop
  deriving DecidableEq, Repr, Inhabited

structure Token where
  kind : TokenKind
  text : String
  position : Position
  /-- Where the text of the token begins. -/
  start : Nat
  deriving DecidableEq, Repr, Inhabited

namespace Token

def stop (token : Token) : Nat :=
  token.start + token.text.utf8ByteSize

/-- Whether the token is a name, keyword or symbol of this spelling. -/
def isWord (token : Token) (spelling : String) : Bool :=
  (token.kind = .symbol || token.kind = .keyword || token.kind = .name)
    && token.text = spelling

def labelled (token : Token) (kind : String) (isNamed : Bool) : Label :=
  { kind, isNamed, isMissing := false, field := none, position := token.position,
    start := token.start, stop := token.stop }

/-- The part of a token between two of its characters as a node without children. -/
def part (token : Token) (kind : String) (start stop : Nat) : Node :=
  let text := token.text.toList
  let before := text.take start
  let inside := (text.drop start).take (stop - start)
  let first := token.start + Text.byteWidth before
  .mk
    { kind, isNamed := true, isMissing := false, field := none
      position := token.position.pastText before
      start := first, stop := first + Text.byteWidth inside } []

/-- A string literal with its quotes and what they enclose. -/
def stringNode (token : Token) : Node :=
  let length := token.text.length
  let opened := ((opening? token.text.toList).map (·.length)).getD 0
  let closed :=
    ((opening? token.text.toList).map fun opening =>
      length - opening.delimiter.quotes.length).getD length
  let content :=
    if opened < closed then [token.part "string_content" opened closed] else []
  .mk (token.labelled "string" true)
    (token.part "string_start" 0 opened :: content ++ [token.part "string_end" closed length])

def numberKind (text : List Char) : String :=
  let isBased := text.head? = some '0' && text.tail.head?.any isBaseMark
  if !isBased && text.any fun c => c = '.' || c = 'e' || c = 'E' then "float" else "integer"

/-- The kind of the node that a keyword or symbol makes, if it has a name of its own. -/
def wordKind? : String → Option String
  | "True" => some "true"
  | "False" => some "false"
  | "None" => some "none"
  | "..." => some "ellipsis"
  | _ => none

/-- The kind of a node that only tells how far the one around it reaches. -/
def hiddenKind : String := "_newline"

/-- The nodes that a token makes in the tree. -/
def nodes (token : Token) : List Node :=
  match token.kind with
  | .name => [.mk (token.labelled "identifier" true) []]
  | .keyword | .symbol =>
      match wordKind? token.text with
      | some kind => [.mk (token.labelled kind true) []]
      | none => [.mk (token.labelled token.text false) []]
  | .number => [.mk (token.labelled (numberKind token.text.toList) true) []]
  | .string => [token.stringNode]
  | .formatOpen => [.mk (token.labelled "string_start" true) []]
  | .formatText => [.mk (token.labelled "string_content" true) []]
  | .formatClose => [.mk (token.labelled "string_end" true) []]
  | .newline => [.mk { token.labelled hiddenKind false with stop := token.start } []]
  | .indent | .dedent | .stop => []

end Token

end SourceAtlas.Python
