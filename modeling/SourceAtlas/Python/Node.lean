import SourceAtlas.Text.Basic

/-!
# Nodes of syntax trees

What a parsing library answers about the syntax of a text.  A node has the name
of a rule of the grammar, or is a fixed piece of text such as a keyword; it says
which bytes of the text it covers, and holds the nodes inside of it.  A text
that does not follow the grammar has a tree as well, in which some nodes stand
for what could not be read and others for what is missing.
-/

namespace SourceAtlas.Python

/-- A place in a text: the number of line breaks before it, and of bytes since
the last of them. -/
structure Position where
  row : Nat
  column : Nat
  deriving DecidableEq, Repr, Inhabited

namespace Position

def start : Position := { row := 0, column := 0 }

def past (position : Position) (c : Char) : Position :=
  if c = '\n' then { row := position.row + 1, column := 0 }
  else { position with column := position.column + c.utf8Size }

def pastText (position : Position) (text : List Char) : Position :=
  text.foldl past position

end Position

/-- What is known of a node apart from those inside of it. -/
structure Label where
  /-- The name of a rule, or a fixed text itself. -/
  kind : String
  /-- Whether a rule of the grammar has made the node. -/
  isNamed : Bool
  /-- Whether the node stands for something that the text lacks. -/
  isMissing : Bool
  /-- The part that the node plays in the one around it. -/
  field : Option String
  position : Position
  /-- The offset of the first byte. -/
  start : Nat
  /-- The offset behind the last byte. -/
  stop : Nat
  deriving DecidableEq, Repr, Inhabited

/-- A piece of syntax. -/
inductive Node
  | mk (label : Label) (children : List Node)
  deriving Inhabited

namespace Node

def label : Node → Label
  | mk label _ => label

def children : Node → List Node
  | mk _ children => children

@[simp] theorem label_mk (label : Label) (children : List Node) :
    (mk label children).label = label := rfl

@[simp] theorem children_mk (label : Label) (children : List Node) :
    (mk label children).children = children := rfl

def kind (node : Node) : String := node.label.kind

@[simp] theorem kind_mk (label : Label) (children : List Node) :
    (mk label children).kind = label.kind := rfl

/-- The text that the node covers. -/
def text (source : String) (node : Node) : String :=
  String.Pos.Raw.extract source ⟨node.label.start⟩ ⟨node.label.stop⟩

def namedChildren (node : Node) : List Node :=
  node.children.filter (·.label.isNamed)

def childrenAs (field : String) (node : Node) : List Node :=
  node.children.filter (·.label.field = some field)

def childAs? (field : String) (node : Node) : Option Node :=
  node.children.find? (·.label.field = some field)

def textAs? (source field : String) (node : Node) : Option String :=
  (node.childAs? field).map (·.text source)

/-- Whether the node stands for what could not be read, or for what is missing. -/
def isFault (node : Node) : Bool :=
  node.kind = "ERROR" || node.label.isMissing

mutual

/-- The first fault in the order of the text. -/
def firstFault? : Node → Option Node
  | .mk label children =>
      if (mk label children).isFault then some (.mk label children)
      else firstFaultIn? children

def firstFaultIn? : List Node → Option Node
  | [] => none
  | node :: nodes =>
      match node.firstFault? with
      | some fault => some fault
      | none => firstFaultIn? nodes

end

end Node

end SourceAtlas.Python
