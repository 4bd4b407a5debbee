import SourceAtlas.Model.Signature
import SourceAtlas.Python.Docstring
import SourceAtlas.Python.Node

/-!
# Outlines of Python syntax

What one walk over a syntax tree finds.  Decisions and imports count wherever
they stand.  Definitions and assignments count only where they stand directly in
a file or in the body of a class; every other node hides those inside of it.
-/

namespace SourceAtlas.Python

variable (source : String)

/-- The string literal that a statement starts with, if it holds expressions. -/
def literalOf? (statement : Node) : Option String :=
  if statement.kind = "expression_statement" then
    statement.namedChildren.head?.bind fun value =>
      if value.kind = "string" then some (value.text source) else none
  else none

/-- The documentation at the start of a block or file: its first statement, if
that is a string literal. -/
def blockDocstring (block : Node) : Option String :=
  let first := block.namedChildren.find? (·.kind ≠ "comment")
  (first.bind (literalOf? source)).bind docstring?

def definitionDocstring (definition : Node) : Option String :=
  (definition.childAs? "body").bind (blockDocstring source)

def definedName (definition : Node) : String :=
  (definition.textAs? source "name").getD ""

def lineOf (node : Node) : Nat :=
  node.label.position.row + 1

/-- Parameters that are names, with or without stars. -/
def plainParameters : List String :=
  ["identifier", "list_splat_pattern", "dictionary_splat_pattern"]

def addHint (function : FunctionSignature) (name : String) (hint : Option String) :
    FunctionSignature :=
  match hint with
  | some hint => { function with typeHints := function.typeHints.insert name hint }
  | none => function

/-- The function with one more parameter.  Stars belong to the name of a
parameter, but not to the name under which its type is kept. -/
def addParameter (function : FunctionSignature) (parameter : Node) : FunctionSignature :=
  let hint := parameter.textAs? source "type"
  if parameter.kind ∈ plainParameters then
    { function with parameters := function.parameters ++ [parameter.text source] }
  else if parameter.kind = "typed_parameter" then
    match parameter.namedChildren.head? with
    | none => function
    | some inner =>
        let name := inner.text source
        { addHint function (FunctionSignature.bareName name) hint with
          parameters := function.parameters ++ [name] }
  else if parameter.kind ∈ ["default_parameter", "typed_default_parameter"] then
    match parameter.textAs? source "name" with
    | none => function
    | some name =>
        { addHint function name hint with
          parameters := function.parameters ++ [name]
          defaults := function.defaults ++ (parameter.textAs? source "value").toList }
  else function

def functionSignature (definition : Node) : FunctionSignature :=
  let function :=
    { FunctionSignature.named (definedName source definition) (lineOf definition) with
      isAsync := definition.children.any (·.kind = "async")
      returnType := definition.textAs? source "return_type"
      docComment := definitionDocstring source definition }
  match definition.childAs? "parameters" with
  | none => function
  | some parameters => parameters.namedChildren.foldl (addParameter source) function

/-- The name of what is imported, whatever it is called in the file. -/
def importedName (name : Node) : String :=
  if name.kind = "aliased_import" then (name.textAs? source "name").getD ""
  else name.text source

def importedModule (statement : Node) : String :=
  if statement.kind = "future_import_statement" then "__future__"
  else (statement.textAs? source "module_name").getD ""

def importsFrom (statement : Node) : List String :=
  let names := (statement.childrenAs "name").map (importedName source)
  let all := if statement.children.any (·.kind = "wildcard_import") then ["*"] else []
  (names ++ all).map fun name => "from " ++ importedModule source statement ++ " import " ++ name

/-- The imports that a node states by itself. -/
def importsAt (node : Node) : List String :=
  if node.kind = "import_statement" then
    (node.childrenAs "name").map ("import " ++ importedName source ·)
  else if node.kind ∈ ["import_from_statement", "future_import_statement"] then
    importsFrom source node
  else []

def identifierText? (node : Node) : Option String :=
  if node.kind = "identifier" then some (node.text source) else none

mutual

/-- The names to which an assignment assigns, and those of the assignment that
its value may be. -/
def Node.targets : Node → List String
  | .mk label children =>
      (((Node.mk label children).childAs? "left").bind (identifierText? source)).toList
        ++ targetsBehind children

def targetsBehind : List Node → List String
  | [] => []
  | .mk label children :: nodes =>
      if label.field = some "right" then
        if label.kind = "assignment" then (Node.mk label children).targets else []
      else targetsBehind nodes

end

/-- The names to which a node assigns as a statement. -/
def assignedNames (node : Node) : List String :=
  if node.kind = "expression_statement" then
    (node.namedChildren.filter (·.kind = "assignment")).flatMap (·.targets source)
  else []

/-- The bases of a class as written.  Options with a keyword are none. -/
def baseTypes (definition : Node) : List String :=
  match definition.childAs? "superclasses" with
  | none => []
  | some bases =>
      (bases.namedChildren.filter (·.kind ∉ ["keyword_argument", "comment"])).map
        (·.text source)

/-- The signature of a class definition whose body holds some methods and
assigns to some names. -/
def classSignature (definition : Node) (methods : List FunctionSignature)
    (targets : List String) : ClassSignature :=
  { ClassSignature.named (definedName source definition) (lineOf definition) with
    baseTypes := baseTypes source definition
    docComment := definitionDocstring source definition
    methods
    fields := targets.foldl addOnce [] }

def decoratorText (decorator : Node) : String :=
  let text := (decorator.text source).toList.dropWhile (· = '@')
  String.ofList (Text.trim text)

def decoratorsOf (children : List Node) : List String :=
  (children.filter (·.kind = "decorator")).map (decoratorText source)

def decisionKinds : List String :=
  ["if_statement", "elif_clause", "while_statement", "for_statement", "except_clause",
    "boolean_operator", "conditional_expression"]

/-- Where a node stands: directly in a file, directly in the body of a class, or
deeper than that. -/
inductive Scope
  | file
  | classBody
  | nested
  deriving DecidableEq, Repr

/-- What syntax contributes to the file and to the class around it. -/
structure Outline where
  /-- The number of decisions. -/
  decisions : Nat
  imports : List String
  /-- The functions that are defined directly in the file. -/
  functions : List FunctionSignature
  /-- The classes that are defined directly in the file. -/
  classes : List ClassSignature
  /-- The names to which direct statements of the file assign. -/
  names : List String
  /-- The functions that are defined directly in the body of the class. -/
  methods : List FunctionSignature
  /-- The names to which direct statements of the body assign. -/
  fields : List String
  deriving DecidableEq

namespace Outline

def empty : Outline :=
  { decisions := 0, imports := [], functions := [], classes := [], names := [],
    methods := [], fields := [] }

def append (first second : Outline) : Outline :=
  { decisions := first.decisions + second.decisions
    imports := first.imports ++ second.imports
    functions := first.functions ++ second.functions
    classes := first.classes ++ second.classes
    names := first.names ++ second.names
    methods := first.methods ++ second.methods
    fields := first.fields ++ second.fields }

/-- The outline of a function definition from that of its children. -/
def ofFunction (scope : Scope) (decorators : List String) (definition : Node)
    (inner : Outline) : Outline :=
  let signature := { functionSignature source definition with decorators }
  match scope with
  | .file => { inner with functions := signature :: inner.functions }
  | .classBody => { inner with methods := signature :: inner.methods }
  | .nested => inner

/-- The outline of a class definition from that of its children.  What its body
defines and assigns to belongs to the class, if that is reported at all. -/
def ofClass (scope : Scope) (decorators : List String) (definition : Node)
    (inner : Outline) : Outline :=
  let signature :=
    { classSignature source definition inner.methods inner.fields with decorators }
  let outer := { inner with methods := [], fields := [] }
  match scope with
  | .file => { outer with classes := signature :: inner.classes }
  | .classBody | .nested => outer

/-- The outline of any other node by itself. -/
def ofNode (scope : Scope) (node : Node) : Outline :=
  { empty with
    decisions := if node.kind ∈ decisionKinds then 1 else 0
    imports := importsAt source node
    names := if scope = .file then assignedNames source node else []
    fields := if scope = .classBody then assignedNames source node else [] }

end Outline

/-- Whether the node defines a function or a class by itself. -/
def Node.isDefinition (node : Node) : Bool :=
  node.kind = "function_definition" || node.kind = "class_definition"

/-- Where the children of a node stand that is no definition. -/
def scopeBelow (kind : String) : Scope :=
  if kind = "module" then .file else .nested

mutual

/-- The outline of a node that stands somewhere behind some decorators. -/
def Node.outline (scope : Scope) (decorators : List String) : Node → Outline
  | .mk label children =>
      if label.kind = "class_definition" then
        .ofClass source scope decorators (.mk label children) (definitionOutline children)
      else if label.kind = "function_definition" then
        .ofFunction source scope decorators (.mk label children)
          (forestOutline .nested children)
      else if label.kind = "decorated_definition" then
        decoratedOutline scope (decoratorsOf source children) children
      else
        (Outline.ofNode source scope (.mk label children)).append
          (forestOutline (scopeBelow label.kind) children)

def forestOutline (scope : Scope) : List Node → Outline
  | [] => .empty
  | node :: nodes => (node.outline scope []).append (forestOutline scope nodes)

/-- The outline of the children of a class, where blocks are its body. -/
def definitionOutline : List Node → Outline
  | [] => .empty
  | .mk label children :: nodes =>
      if label.kind = "block" then
        (forestOutline .classBody children).append (definitionOutline nodes)
      else ((Node.mk label children).outline .nested []).append (definitionOutline nodes)

/-- The outline of the children of a decorated definition.  The first definition
takes the decorators. -/
def decoratedOutline (scope : Scope) (decorators : List String) : List Node → Outline
  | [] => .empty
  | node :: nodes =>
      if node.isDefinition then
        (node.outline scope decorators).append (decoratedOutline scope [] nodes)
      else (node.outline .nested []).append (decoratedOutline scope decorators nodes)

end

end SourceAtlas.Python
