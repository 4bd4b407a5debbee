import SourceAtlas.Python.Token

/-!
# Grammar forms

The grammar of the parser that the program brings along is kept as data: for
each rule a form, built from tokens and other rules.  Of several choices the
first that fits is taken for good, and a repetition takes all it can get, so a
form fits a list of tokens in at most one way.  What a form has taken is a list
of nodes.
-/

namespace SourceAtlas.Python

/-- The rules that refer to each other in cycles. -/
inductive Rule
  | statement
  | block
  /-- A value that may be an assignment itself. -/
  | assigned
  | expression
  /-- An expression that may start with `not`. -/
  | inversion
  /-- A value that may start with a sign. -/
  | factor
  /-- A value with attributes, indexes and arguments behind it. -/
  | primary
  /-- A replacement field of a format string. -/
  | interpolation
  /-- A pattern of a `case`. -/
  | pattern
  deriving DecidableEq, Repr

/-- What is made of the nodes that a form has taken, where the token comes first
that the form has seen. -/
abbrev Maker := Token → List Node → List Node

/-- What tokens may follow each other, and which nodes they make. -/
inductive Form
  | empty
  /-- A token of a kind. -/
  | token (expected : TokenKind)
  /-- A name, keyword or symbol of one spelling. -/
  | word (spelling : String)
  | rule (name : Rule)
  | seq (first second : Form)
  /-- The first form, or the second if the first does not fit. -/
  | choice (first second : Form)
  /-- The form as often as it fits. -/
  | many (body : Form)
  /-- Takes nothing, but fits only where the form does. -/
  | ahead (body : Form)
  /-- Something made of the nodes of the form. -/
  | build (make : Maker) (body : Form)
  /-- The first form, and something made of it and a tail if that fits. -/
  | extend (make : Maker) (first tail : Form)
  /-- The first form and all tails that fit, where something is made of each of
  them and what stands before it. -/
  | chain (make : Maker) (first tail : Form)
  /-- The form, if its nodes pass a test. -/
  | check (test : List Node → Bool) (body : Form)

/-- The nodes that a form has taken and the tokens behind them. -/
abbrev Taken := Option (List Node × List Token)

/-- Takes a form as often as it fits.  Every round passes a token, so the
tokens bound the number of rounds. -/
def manyLoop (round : List Token → Taken) (nodes : List Node) :
    (budget tokens : List Token) → List Node × List Token
  | [], tokens => (nodes.reverse, tokens)
  | _ :: budget, tokens =>
      match round tokens with
      | some (more, rest) => manyLoop round (more.reverse ++ nodes) budget rest
      | none => (nodes.reverse, tokens)

def chainLoop (make : List Node → List Node) (round : List Token → Taken) (nodes : List Node) :
    (budget tokens : List Token) → List Node × List Token
  | [], tokens => (nodes, tokens)
  | _ :: budget, tokens =>
      match round tokens with
      | some (more, rest) => chainLoop make round (make (nodes ++ more)) budget rest
      | none => (nodes, tokens)

namespace Form

def take (rules : Rule → List Token → Taken) : Form → List Token → Taken
  | empty, tokens => some ([], tokens)
  | token expected, tokens =>
      match tokens with
      | [] => none
      | next :: rest => if next.kind = expected then some (next.nodes, rest) else none
  | word spelling, tokens =>
      match tokens with
      | [] => none
      | next :: rest => if next.isWord spelling then some (next.nodes, rest) else none
  | rule name, tokens => rules name tokens
  | seq first second, tokens =>
      match take rules first tokens with
      | none => none
      | some (nodes, rest) =>
          match take rules second rest with
          | none => none
          | some (more, rest) => some (nodes ++ more, rest)
  | choice first second, tokens =>
      match take rules first tokens with
      | some taken => some taken
      | none => take rules second tokens
  | many body, tokens => some (manyLoop (take rules body) [] tokens tokens)
  | ahead body, tokens => (take rules body tokens).map fun _ => ([], tokens)
  | build make body, tokens =>
      match take rules body tokens with
      | some (nodes, rest) => some (make (tokens.headD default) nodes, rest)
      | none => none
  | extend make first tail, tokens =>
      match take rules first tokens with
      | none => none
      | some (nodes, rest) =>
          match take rules tail rest with
          | some (more, rest) => some (make (tokens.headD default) (nodes ++ more), rest)
          | none => some (nodes, rest)
  | chain make first tail, tokens =>
      match take rules first tokens with
      | none => none
      | some (nodes, rest) =>
          some (chainLoop (make (tokens.headD default)) (take rules tail) nodes rest rest)
  | check test body, tokens =>
      match take rules body tokens with
      | some (nodes, rest) => if test nodes then some (nodes, rest) else none
      | none => none

def all : List Form → Form
  | [] => empty
  | [form] => form
  | form :: forms => seq form (all forms)

def oneOf : List Form → Form
  | [] => check (fun _ => false) empty
  | [form] => form
  | form :: forms => choice form (oneOf forms)

def opt (form : Form) : Form :=
  choice form empty

def many1 (form : Form) : Form :=
  seq form (many form)

def anyWord (spellings : List String) : Form :=
  oneOf (spellings.map word)

def listed (form : Form) : Form :=
  seq form (many (seq (word ",") form))

/-- The form at least once, with commas between and perhaps one behind. -/
def listedOpen (form : Form) : Form :=
  seq (listed form) (opt (word ","))

end Form

namespace Node

def withField (field : String) : Node → Node
  | mk label children => mk { label with field } children

def withKind (kind : String) : Node → Node
  | mk label children => mk { label with kind } children

end Node

namespace Maker

/-- A node around some others, at their place or that of the token.  Hidden nodes
only count for how far it reaches. -/
def around (kind : String) : Maker := fun token nodes =>
  let children := nodes.filter (·.kind ≠ Token.hiddenKind)
  let first := (children.head?.map (·.label)).getD (token.labelled kind true)
  let stop := (nodes.getLast?.map (·.label.stop)).getD first.start
  [.mk
    { kind, isNamed := true, isMissing := false, field := none, position := first.position
      start := first.start, stop }
    children]

/-- A node whose kind depends on those inside of it. -/
def ofKind (kindOf : List Node → String) : Maker := fun token nodes =>
  around (kindOf nodes) token nodes

/-- A single node by itself, and a node around several. -/
def group (kind : String) : Maker := fun token nodes =>
  match nodes with
  | [node] => [node]
  | _ => around kind token nodes

end Maker

namespace Form

/-- A node around what the form makes. -/
def node (kind : String) (body : Form) : Form :=
  build (.around kind) body

/-- What the form makes, as a part of the node around it. -/
def field (name : String) (body : Form) : Form :=
  build (fun _ nodes => nodes.map (·.withField name)) body

end Form

/-- Takes a rule of a grammar.  The first argument bounds how deeply rules may
refer to each other. -/
def takeRule (grammar : Rule → Form) : Nat → Rule → List Token → Taken
  | 0, _, _ => none
  | depth + 1, name, tokens => (grammar name).take (takeRule grammar depth) tokens

/-- How deeply the rules of a grammar can be nested in some tokens.  Between two
uses of one rule, one inside the other, a token is passed. -/
def nestingBound (tokens : List Token) : Nat :=
  8 * (tokens.length + 1)

end SourceAtlas.Python
