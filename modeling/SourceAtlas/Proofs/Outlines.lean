import Mathlib.Tactic.MkIffOfInductiveProp
import SourceAtlas.Proofs.TreePositions

/-!
# Scopes of Python files

The walk over a syntax tree carries along where it stands, and hands decorators on to the
definition behind them.  What a model reports can be read off the tree without any walk: the
direct statements of the file, and those of the body of each class among them.  Every other
node hides what it holds, however deep that is.
-/

namespace SourceAtlas.Python

variable (source : String)

/-- A definition with the decorators in front of it. -/
structure Definition where
  decorators : List String
  node : Node

/-- The definition that a statement is.  A decorated one is the definition that it wraps. -/
def Node.definition? (kind : String) (statement : Node) : Option Definition :=
  if statement.kind = "decorated_definition" then
    (statement.children.find? (·.kind = kind)).map (⟨decoratorsOf source statement.children, ·⟩)
  else if statement.kind = kind then some ⟨[], statement⟩
  else none

def definitionsOf (kind : String) (statements : List Node) : List Definition :=
  statements.filterMap (·.definition? source kind)

namespace Definition

/-- The statements that stand directly in the body. -/
def body (definition : Definition) : List Node :=
  (definition.node.children.filter (·.kind = "block")).flatMap Node.children

def toFunction (definition : Definition) : FunctionSignature :=
  { functionSignature source definition.node with decorators := definition.decorators }

/-- A class with the functions that its body defines and the names that it assigns to. -/
def toClass (definition : Definition) : ClassSignature :=
  let methods := (definitionsOf source "function_definition" definition.body).map
    (·.toFunction source)
  let names := definition.body.flatMap (assignedNames source)
  { classSignature source definition.node methods names with
    decorators := definition.decorators }

end Definition

/-- The model reports the direct statements of a file, and nothing else. -/
structure ReportsScope (statements : List Node) (model : SourceModel) : Prop where
  functions :
    model.functions =
      (definitionsOf source "function_definition" statements).map (·.toFunction source)
  classes :
    model.classes = (definitionsOf source "class_definition" statements).map (·.toClass source)
  constants :
    model.constants =
      ((statements.flatMap (assignedNames source)).filter isConstantName).foldl addOnce []

/-- What the grammar of Python says of modules and decorators. -/
@[mk_iff]
structure Node.IsModule (root : Node) : Prop where
  kind : root.kind = "module"
  /-- The root is the only module. -/
  only : ∀ child ∈ root.children, ∀ part ∈ child.parts, part.kind ≠ "module"
  /-- Behind decorators stands one definition. -/
  decorated : ∀ part ∈ root.parts, part.kind = "decorated_definition" →
    (part.children.filter Node.isDefinition).length = 1

instance (root : Node) : Decidable root.IsModule :=
  decidable_of_iff' _ (Node.isModule_iff root)

namespace Outline

/-- The outline without what counts at any depth. -/
def shown (outline : Outline) : Outline :=
  { outline with decisions := 0, imports := [] }

@[simp] theorem shown_empty : empty.shown = empty := rfl

theorem shown_append (first second : Outline) :
    (first.append second).shown = first.shown.append second.shown := rfl

@[simp] theorem empty_append (outline : Outline) : empty.append outline = outline := by
  simp [append, empty]

@[simp] theorem append_empty (outline : Outline) : outline.append empty = outline := by
  simp [append, empty]

/-- What definitions and assignments show that stand somewhere. -/
def ofScope (scope : Scope) (functions : List FunctionSignature)
    (classes : List ClassSignature) (names : List String) : Outline :=
  match scope with
  | .file => { empty with functions, classes, names }
  | .classBody => { empty with methods := functions, fields := names }
  | .nested => empty

@[simp] theorem ofScope_nil (scope : Scope) : ofScope scope [] [] [] = empty := by
  cases scope <;> rfl

theorem ofScope_append (scope : Scope) (functions functions' : List FunctionSignature)
    (classes classes' : List ClassSignature) (names names' : List String) :
    (ofScope scope functions classes names).append (ofScope scope functions' classes' names') =
      ofScope scope (functions ++ functions') (classes ++ classes') (names ++ names') := by
  cases scope <;> rfl

end Outline

open Outline

/-- What a definition shows where it stands. -/
def Definition.shown (scope : Scope) (definition : Definition) : Outline :=
  if definition.node.kind = "class_definition" then
    ofScope scope [] [definition.toClass source] []
  else ofScope scope [definition.toFunction source] [] []

/-- What statements show that stand somewhere one behind the other. -/
def shownBy (scope : Scope) (statements : List Node) : Outline :=
  ofScope scope
    ((definitionsOf source "function_definition" statements).map (·.toFunction source))
    ((definitionsOf source "class_definition" statements).map (·.toClass source))
    (statements.flatMap (assignedNames source))

variable {source}

theorem shownBy_nil (scope : Scope) : shownBy source scope [] = empty := ofScope_nil scope

theorem shownBy_append (scope : Scope) (first second : List Node) :
    (shownBy source scope first).append (shownBy source scope second) =
      shownBy source scope (first ++ second) := by
  simp [shownBy, definitionsOf, ofScope_append]

theorem shownBy_cons (scope : Scope) (statement : Node) (statements : List Node) :
    (shownBy source scope [statement]).append (shownBy source scope statements) =
      shownBy source scope (statement :: statements) :=
  shownBy_append scope [statement] statements

theorem shownBy_nested (statements : List Node) : shownBy source .nested statements = empty := rfl

theorem isDefinition_iff {node : Node} :
    node.isDefinition = true ↔
      node.kind = "function_definition" ∨ node.kind = "class_definition" := by
  simp [Node.isDefinition]

/-- A definition without decorators shows itself. -/
theorem shownBy_of_isDefinition (scope : Scope) {node : Node} (hnode : node.isDefinition = true) :
    shownBy source scope [node] = (⟨[], node⟩ : Definition).shown source scope := by
  rcases isDefinition_iff.mp hnode with hkind | hkind <;>
    simp [shownBy, definitionsOf, Node.definition?, Definition.shown, assignedNames, hkind]

/-- The definition of some kind among nodes with a single definition. -/
theorem find?_kind_of_filter {kind : String}
    (hkind : kind = "function_definition" ∨ kind = "class_definition") {nodes : List Node}
    {definition : Node} (hsingle : nodes.filter Node.isDefinition = [definition]) :
    nodes.find? (·.kind = kind) = if definition.kind = kind then some definition else none := by
  have hfind : nodes.find? (·.kind = kind) =
      (nodes.filter Node.isDefinition).find? (·.kind = kind) := by
    rw [List.find?_filter]
    congr 1
    funext node
    by_cases hnode : node.kind = kind
    · have hdefinition : node.isDefinition = true := by
        rw [isDefinition_iff, hnode]
        exact hkind
      simp [hnode, hdefinition]
    · simp [hnode]
  rw [hfind, hsingle]
  by_cases hdefinition : definition.kind = kind <;> simp [hdefinition]

/-- A decorated definition shows the definition that it wraps, with its decorators. -/
theorem shownBy_of_decorated (scope : Scope) (node : Node) {definition : Node}
    (hnode : node.kind = "decorated_definition")
    (hsingle : node.children.filter Node.isDefinition = [definition]) :
    shownBy source scope [node] =
      (⟨decoratorsOf source node.children, definition⟩ : Definition).shown source scope := by
  have hdefinition : definition.isDefinition = true :=
    (List.mem_filter.mp (hsingle ▸ List.mem_singleton_self definition)).2
  have hfunction := find?_kind_of_filter (Or.inl rfl) hsingle
  have hclass := find?_kind_of_filter (Or.inr rfl) hsingle
  rcases isDefinition_iff.mp hdefinition with hkind | hkind <;>
    simp [shownBy, definitionsOf, Node.definition?, Definition.shown, assignedNames, hnode,
      hfunction, hclass, hkind]

theorem shown_ofNode (scope : Scope) (node : Node) (hdefinition : node.isDefinition = false)
    (hdecorated : node.kind ≠ "decorated_definition") :
    (ofNode source scope node).shown = shownBy source scope [node] := by
  have hnone : ¬(node.kind = "function_definition" ∨ node.kind = "class_definition") :=
    isDefinition_iff.not.mp (by simp [hdefinition])
  obtain ⟨hfunction, hclass⟩ := not_or.mp hnone
  cases scope <;>
    simp [ofNode, shown, empty, shownBy, ofScope, definitionsOf, Node.definition?, hdecorated,
      hfunction, hclass]

/-- What the body of a class shows belongs to the class. -/
theorem shown_ofClass (scope : Scope) (decorators : List String) (node : Node)
    (hkind : node.kind = "class_definition") {inner : Outline}
    (hinner : inner.shown =
      shownBy source .classBody (⟨decorators, node⟩ : Definition).body) :
    (ofClass source scope decorators node inner).shown =
      (⟨decorators, node⟩ : Definition).shown source scope := by
  have hfunctions : inner.functions = [] := congrArg Outline.functions hinner
  have hclasses : inner.classes = [] := congrArg Outline.classes hinner
  have hnames : inner.names = [] := congrArg Outline.names hinner
  have hmethods := congrArg Outline.methods hinner
  have hfields := congrArg Outline.fields hinner
  change inner.methods = _ at hmethods
  change inner.fields = _ at hfields
  rw [Definition.shown, if_pos hkind]
  cases scope <;>
    simp [ofClass, ofScope, shown, empty, Definition.toClass, shownBy, hfunctions, hclasses,
      hnames, hmethods, hfields]

theorem shown_ofFunction (scope : Scope) (decorators : List String) (node : Node)
    (hkind : node.kind = "function_definition") {inner : Outline} (hinner : inner.shown = empty) :
    (ofFunction source scope decorators node inner).shown =
      (⟨decorators, node⟩ : Definition).shown source scope := by
  have hfunctions : inner.functions = [] := congrArg Outline.functions hinner
  have hclasses : inner.classes = [] := congrArg Outline.classes hinner
  have hnames : inner.names = [] := congrArg Outline.names hinner
  have hmethods : inner.methods = [] := congrArg Outline.methods hinner
  have hfields : inner.fields = [] := congrArg Outline.fields hinner
  rw [Definition.shown, if_neg (by simp [hkind])]
  cases scope <;>
    simp [ofFunction, ofScope, shown, empty, Definition.toFunction, hfunctions, hclasses, hnames,
      hmethods, hfields]

/-- The node is no module, and wraps one definition if it is a decorated one. -/
structure Node.IsWrapped (node : Node) : Prop where
  inside : node.kind ≠ "module"
  decorated : node.kind = "decorated_definition" →
    (node.children.filter Node.isDefinition).length = 1

/-- Every node of the tree is no module, and wraps one definition if it is decorated. -/
def Node.IsInside (node : Node) : Prop :=
  ∀ part ∈ node.parts, part.IsWrapped

theorem isInside_mk {label : Label} {children : List Node} :
    (Node.mk label children).IsInside ↔
      (Node.mk label children).IsWrapped ∧ ∀ child ∈ children, child.IsInside := by
  simp only [Node.IsInside, parts_mk, List.forall_mem_cons, List.mem_flatMap]
  grind

/-- What a node shows where it stands behind some decorators, which only a definition takes. -/
def Node.shown (source : String) (scope : Scope) (decorators : List String) (node : Node) :
    Outline :=
  if node.isDefinition then (⟨decorators, node⟩ : Definition).shown source scope
  else shownBy source scope [node]

theorem Node.shown_nil (scope : Scope) (node : Node) :
    node.shown source scope [] = shownBy source scope [node] := by
  unfold Node.shown
  split
  · next hdefinition => exact (shownBy_of_isDefinition scope hdefinition).symm
  · rfl

theorem Node.shown_nested (decorators : List String) (node : Node) :
    node.shown source .nested decorators = empty := by
  simp [Node.shown, Definition.shown, ofScope, shownBy]

mutual

/-- Below the statements of a scope nothing is shown; every statement shows itself. -/
theorem shown_outline (scope : Scope) (decorators : List String) :
    (node : Node) → node.IsInside →
      (node.outline source scope decorators).shown = node.shown source scope decorators
  | .mk label children, hinside => by
      obtain ⟨hwrapped, hchildren⟩ := isInside_mk.mp hinside
      rw [Node.outline, Node.shown]
      by_cases hclass : label.kind = "class_definition"
      · have hdefinition : (Node.mk label children).isDefinition = true :=
          isDefinition_iff.mpr (Or.inr hclass)
        rw [if_pos hclass, if_pos hdefinition]
        exact shown_ofClass scope decorators (.mk label children) hclass
          (shown_definitionOutline children hchildren)
      by_cases hfunction : label.kind = "function_definition"
      · have hdefinition : (Node.mk label children).isDefinition = true :=
          isDefinition_iff.mpr (Or.inl hfunction)
        rw [if_neg hclass, if_pos hfunction, if_pos hdefinition]
        exact shown_ofFunction scope decorators (.mk label children) hfunction
          (shown_forestOutline .nested children hchildren)
      have hother : ¬(Node.mk label children).isDefinition = true := by
        simp [Node.isDefinition, hclass, hfunction]
      rw [if_neg hclass, if_neg hfunction, if_neg hother]
      by_cases hdecorated : label.kind = "decorated_definition"
      · obtain ⟨definition, hsingle⟩ :=
          List.length_eq_one_iff.mp (hwrapped.decorated hdecorated)
        have hone : children.filter Node.isDefinition = [definition] := hsingle
        rw [if_pos hdecorated, shownBy_of_decorated scope (.mk label children) hdecorated hsingle,
          shown_decoratedOutline scope _ children hchildren (by simp [hone]), hone]
        rfl
      · have hmodule : label.kind ≠ "module" := hwrapped.inside
        have hnode : (ofNode source scope (.mk label children)).shown = _ :=
          shown_ofNode scope (.mk label children) (by simpa using hother) hdecorated
        rw [if_neg hdecorated, shown_append, hnode, scopeBelow, if_neg hmodule,
          shown_forestOutline .nested children hchildren, shownBy_nested, append_empty]

theorem shown_forestOutline (scope : Scope) :
    (nodes : List Node) → (∀ node ∈ nodes, node.IsInside) →
      (forestOutline source scope nodes).shown = shownBy source scope nodes
  | [], _ => (shownBy_nil scope).symm
  | node :: nodes, hinside => by
      rw [List.forall_mem_cons] at hinside
      rw [forestOutline, shown_append, shown_outline scope [] node hinside.1, Node.shown_nil,
        shown_forestOutline scope nodes hinside.2, shownBy_cons]

theorem shown_definitionOutline :
    (nodes : List Node) → (∀ node ∈ nodes, node.IsInside) →
      (definitionOutline source nodes).shown =
        shownBy source .classBody ((nodes.filter (·.kind = "block")).flatMap Node.children)
  | [], _ => (shownBy_nil .classBody).symm
  | .mk label children :: nodes, hinside => by
      rw [List.forall_mem_cons] at hinside
      have hrest := shown_definitionOutline nodes hinside.2
      rw [definitionOutline, List.filter_cons]
      split
      · next hblock =>
          rw [if_pos (by simp [hblock]), List.flatMap_cons, ← shownBy_append, shown_append,
            hrest, shown_forestOutline .classBody children (isInside_mk.mp hinside.1).2]
          rfl
      · next hblock =>
          rw [if_neg (by simp [hblock]), shown_append, hrest,
            shown_outline .nested [] (.mk label children) hinside.1, Node.shown_nested,
            empty_append]

theorem shown_decoratedOutline (scope : Scope) (decorators : List String) :
    (nodes : List Node) → (∀ node ∈ nodes, node.IsInside) →
      (nodes.filter Node.isDefinition).length ≤ 1 →
      (decoratedOutline source scope decorators nodes).shown =
        (((nodes.filter Node.isDefinition).head?.map fun definition =>
          (⟨decorators, definition⟩ : Definition).shown source scope).getD empty)
  | [], _, _ => rfl
  | node :: nodes, hinside, hsingle => by
      rw [List.forall_mem_cons] at hinside
      rw [decoratedOutline]
      rw [List.filter_cons] at hsingle ⊢
      split
      · next hdefinition =>
          rw [if_pos hdefinition, List.length_cons] at hsingle
          have hempty : nodes.filter Node.isDefinition = [] :=
            List.length_eq_zero_iff.mp (by omega)
          have hrest := shown_decoratedOutline scope [] nodes hinside.2 (by simp [hempty])
          rw [hempty] at hrest
          rw [shown_append, hrest, shown_outline scope decorators node hinside.1, Node.shown,
            if_pos hdefinition]
          simp
      · next hdefinition =>
          rw [if_neg hdefinition] at hsingle
          rw [shown_append, shown_outline .nested [] node hinside.1, Node.shown_nested,
            empty_append, shown_decoratedOutline scope decorators nodes hinside.2 hsingle]

end

theorem Node.IsModule.isInside {root : Node} (hmodule : root.IsModule) :
    ∀ child ∈ root.children, child.IsInside := fun child hchild part hpart =>
  { inside := hmodule.only child hchild part hpart
    decorated := hmodule.decorated part (parts_subset_of_mem hchild hpart) }

theorem Node.IsModule.shown_outline {root : Node} (hmodule : root.IsModule) :
    (root.outline source .file []).shown = shownBy source .file root.children := by
  have hchildren := hmodule.isInside
  have hkind := hmodule.kind
  obtain ⟨label, children⟩ := root
  rw [kind_mk] at hkind
  have hnothing : (ofNode source .file (.mk label children)).shown = empty := by
    simp [ofNode, Outline.shown, empty, assignedNames, hkind]
  rw [Node.outline, if_neg (by simp [hkind]), if_neg (by simp [hkind]), if_neg (by simp [hkind]),
    shown_append, hnothing, empty_append, scopeBelow, if_pos hkind]
  exact shown_forestOutline .file children hchildren

theorem Node.IsModule.reportsScope {root : Node} (hmodule : root.IsModule) (file : SourceFile) :
    ReportsScope file.content root.children (modelOf file root) := by
  have hshown : (root.outline file.content .file []).shown = _ := hmodule.shown_outline
  have hfunctions := congrArg Outline.functions hshown
  have hclasses := congrArg Outline.classes hshown
  have hnames := congrArg Outline.names hshown
  exact ⟨hfunctions, hclasses,
    congrArg (fun names => (names.filter isConstantName).foldl addOnce []) hnames⟩

/-- A file with definitions in a block, in a function and in a class of a class. -/
def nestedFile : SourceFile :=
  { path := Path.ofNames ["store.py"]
    content :=
      "LIMIT = 1\n@final\nclass Store:\n    size = 0\n    @cached\n    def open(self):\n" ++
      "        def inner(): pass\n    class Row:\n        def key(self): pass\n" ++
      "if LIMIT:\n    DEPTH = 2\n    def hidden(): pass\nasync def main(): pass\n"
    lastModified := .epoch }

end SourceAtlas.Python
