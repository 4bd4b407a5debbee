import SourceAtlas.Proofs.MaskedStructure
import SourceAtlas.Python.Parsing

/-!
# Positions in syntax trees

A place in a syntax tree is the list of the numbers of the children that lead to it.  The
walk that makes an outline goes different ways through definitions, decorators and blocks,
but it comes to every place once, and in the order of the text: decisions are counted and
imports are listed as if all places were visited one behind the other.  This holds of every
tree, whatever a parser may answer.
-/

namespace SourceAtlas.Python

/-- The node at a position, which tells for each node on the way which child to step to. -/
def Node.at? : Node → List Nat → Option Node
  | node, [] => some node
  | .mk _ children, index :: position => children[index]?.bind (·.at? position)

mutual

/-- The positions in a tree, that of a node before those of its children. -/
def Node.positions : Node → List (List Nat)
  | .mk _ children => [] :: forestPositions 0 children

def forestPositions (index : Nat) : List Node → List (List Nat)
  | [] => []
  | node :: nodes => node.positions.map (index :: ·) ++ forestPositions (index + 1) nodes

end

variable {node : Node} {nodes : List Node} {position : List Nat}

theorem mem_forestPositions {start : Nat} :
    position ∈ forestPositions start nodes ↔
      ∃ index rest child, position = (start + index) :: rest ∧ nodes[index]? = some child ∧
        rest ∈ child.positions := by
  induction nodes generalizing start with
  | nil => simp [forestPositions]
  | cons node nodes ih =>
      rw [forestPositions, List.mem_append, List.mem_map, ih]
      constructor
      · rintro (⟨rest, hrest, rfl⟩ | ⟨index, rest, child, rfl, hchild, hrest⟩)
        · exact ⟨0, rest, node, rfl, rfl, hrest⟩
        · refine ⟨index + 1, rest, child, ?_, hchild, hrest⟩
          rw [Nat.add_right_comm, Nat.add_assoc]
      · rintro ⟨_ | index, rest, child, rfl, hchild, hrest⟩
        · cases hchild
          exact Or.inl ⟨rest, hrest, rfl⟩
        · refine Or.inr ⟨index, rest, child, ?_, hchild, hrest⟩
          rw [Nat.add_right_comm, Nat.add_assoc]

theorem mem_positions : position ∈ node.positions ↔ (node.at? position).isSome = true := by
  induction position generalizing node with
  | nil =>
      have hroot : [] ∈ node.positions := by cases node; simp [Node.positions]
      exact iff_of_true hroot rfl
  | cons index position ih =>
      obtain ⟨label, children⟩ := node
      rw [Node.positions, List.mem_cons, mem_forestPositions, Node.at?]
      cases hchild : children[index]? with
      | none => simp [hchild]
      | some child => simp [hchild, ih]

mutual

/-- Positions are listed in the order of the text, each once. -/
theorem pairwise_positions : (node : Node) → node.positions.Pairwise (· < ·)
  | .mk _ children => by
      refine List.pairwise_cons.mpr ⟨?_, pairwise_forestPositions 0 children⟩
      intro position hposition
      obtain ⟨index, rest, child, rfl, -⟩ := mem_forestPositions.mp hposition
      exact List.nil_lt_cons _ _

theorem pairwise_forestPositions (start : Nat) :
    (nodes : List Node) → (forestPositions start nodes).Pairwise (· < ·)
  | [] => List.Pairwise.nil
  | node :: nodes => by
      refine List.pairwise_append.mpr ⟨?_, pairwise_forestPositions (start + 1) nodes, ?_⟩
      · rw [List.pairwise_map]
        exact (pairwise_positions node).imp fun hlt => List.cons_lt_cons_iff.mpr (Or.inr ⟨rfl, hlt⟩)
      · intro earlier hearlier later hlater
        obtain ⟨inner, -, rfl⟩ := List.mem_map.mp hearlier
        obtain ⟨index, rest, child, rfl, -⟩ := mem_forestPositions.mp hlater
        exact List.cons_lt_cons_iff.mpr (Or.inl (by omega))

end

/-- The node itself and all nodes inside of it, in the order of the text. -/
def Node.parts (node : Node) : List Node :=
  node.positions.filterMap node.at?

theorem filterMap_forestPositions (label : Label) (before nodes : List Node) :
    (forestPositions before.length nodes).filterMap (Node.mk label (before ++ nodes)).at? =
      nodes.flatMap Node.parts := by
  induction nodes generalizing before with
  | nil => rfl
  | cons node nodes ih =>
      have hfirst : (Node.mk label (before ++ node :: nodes)).at? ∘ (before.length :: ·) =
          node.at? := by
        funext position
        simp [Node.at?]
      have hrest := ih (before ++ [node])
      rw [List.length_append, List.append_assoc] at hrest
      rw [forestPositions, List.filterMap_append, List.filterMap_map, hfirst, List.flatMap_cons]
      exact congrArg (node.parts ++ ·) hrest

theorem parts_mk (label : Label) (children : List Node) :
    (Node.mk label children).parts = .mk label children :: children.flatMap Node.parts := by
  have hroot : (Node.mk label children).at? [] = some (.mk label children) := rfl
  rw [Node.parts, Node.positions, List.filterMap_cons_some hroot]
  exact congrArg _ (filterMap_forestPositions label [] children)

theorem mem_parts_self (node : Node) : node ∈ node.parts := by
  obtain ⟨label, children⟩ := node
  simp [parts_mk]

theorem parts_subset_of_mem {child : Node} (hchild : child ∈ node.children) :
    child.parts ⊆ node.parts := by
  obtain ⟨label, children⟩ := node
  intro part hpart
  rw [parts_mk]
  exact List.mem_cons_of_mem _ (List.mem_flatMap.mpr ⟨child, hchild, hpart⟩)

mutual

/-- What is inside of a part of a tree is inside of the tree. -/
theorem parts_subset_of_mem_parts {part : Node} :
    (node : Node) → part ∈ node.parts → part.parts ⊆ node.parts
  | .mk label children, hpart => by
      rw [parts_mk] at hpart ⊢
      rcases List.mem_cons.mp hpart with rfl | hinside
      · rw [parts_mk]
        exact List.Subset.refl _
      · exact List.subset_cons_of_subset _ (parts_subset_of_mem_flatMap children hinside)

theorem parts_subset_of_mem_flatMap {part : Node} :
    (nodes : List Node) → part ∈ nodes.flatMap Node.parts →
      part.parts ⊆ nodes.flatMap Node.parts
  | node :: nodes, hpart => by
      rw [List.flatMap_cons] at hpart ⊢
      rcases List.mem_append.mp hpart with hhere | hbehind
      · exact List.subset_append_of_subset_left _ (parts_subset_of_mem_parts node hhere)
      · exact List.subset_append_of_subset_right _ (parts_subset_of_mem_flatMap nodes hbehind)

end

theorem mem_parts_of_mem_children {child : Node} {root : Node} (hnode : node ∈ root.parts)
    (hchild : child ∈ node.children) : child ∈ root.parts :=
  parts_subset_of_mem_parts root hnode (parts_subset_of_mem hchild (mem_parts_self child))

theorem countP_parts (test : Node → Bool) (node : Node) :
    node.parts.countP test =
      node.positions.countP fun position => (node.at? position).any test := by
  rw [Node.parts, List.countP_filterMap]
  congr 1
  funext position
  cases node.at? position <;> rfl

theorem flatMap_parts {α : Type} (content : Node → List α) (node : Node) :
    node.parts.flatMap content =
      node.positions.flatMap fun position => (node.at? position).elim [] content := by
  rw [Node.parts, List.filterMap_eq_flatMap_toList, List.flatMap_assoc]
  congr 1
  funext position
  cases node.at? position <;> simp

/-- Nothing in the tree stands for what could not be read, or for what is missing. -/
def Node.IsFaultless (root : Node) : Prop :=
  ∀ part ∈ root.parts, part.isFault = false

instance (root : Node) : Decidable root.IsFaultless :=
  inferInstanceAs (Decidable (∀ part ∈ root.parts, part.isFault = false))

mutual

/-- The search for faults goes through the tree in the order of the text. -/
theorem firstFault?_eq : (node : Node) → node.firstFault? = node.parts.find? Node.isFault
  | .mk label children => by
      rw [Node.firstFault?, parts_mk, List.find?_cons]
      cases (Node.mk label children).isFault with
      | true => rfl
      | false => exact firstFaultIn?_eq children

theorem firstFaultIn?_eq :
    (nodes : List Node) →
      Node.firstFaultIn? nodes = (nodes.flatMap Node.parts).find? Node.isFault
  | [] => rfl
  | node :: nodes => by
      rw [Node.firstFaultIn?, List.flatMap_cons, List.find?_append, firstFault?_eq node]
      cases node.parts.find? Node.isFault with
      | some fault => rfl
      | none => exact firstFaultIn?_eq nodes

end

theorem firstFault?_eq_none_iff : node.firstFault? = none ↔ node.IsFaultless := by
  simp [firstFault?_eq, Node.IsFaultless]

section Extract

variable {parser : Parser} {file : SourceFile} {root : Node}

/-- A test of the tree that a parser gives finds a tree that passes it. -/
theorem exists_root_of_any {shows : Node → Prop} [DecidablePred shows]
    (hfound : (parser file.content).any (fun root => shows root) = true) :
    ∃ root, parser file.content = some root ∧ shows root := by
  obtain ⟨root, hroot, hshows⟩ := (Option.any_eq_true _ _).mp hfound
  exact ⟨root, hroot, of_decide_eq_true hshows⟩

theorem extract_of_isFaultless (hroot : parser file.content = some root)
    (hfaultless : root.IsFaultless) : extract parser file = .ok (modelOf file root) := by
  simp [extract, hroot, firstFault?_eq_none_iff.mpr hfaultless]

theorem exists_root_of_extract {model : SourceModel} (hmodel : extract parser file = .ok model) :
    ∃ root, parser file.content = some root ∧ root.IsFaultless ∧ modelOf file root = model := by
  unfold extract at hmodel
  cases hroot : parser file.content with
  | none =>
      rw [hroot] at hmodel
      contradiction
  | some root =>
      rw [hroot] at hmodel
      cases hfault : root.firstFault? with
      | some fault =>
          simp only [hfault] at hmodel
          contradiction
      | none =>
          simp only [hfault, Except.ok.injEq] at hmodel
          exact ⟨root, rfl, firstFault?_eq_none_iff.mp hfault, hmodel⟩

end Extract

variable {source : String}

def Node.isDecision (node : Node) : Bool :=
  node.kind ∈ decisionKinds

namespace Outline

/-- The outline counts the decisions and lists the imports of some nodes. -/
structure Gathers (source : String) (outline : Outline) (parts : List Node) : Prop where
  decisions : outline.decisions = parts.countP Node.isDecision
  imports : outline.imports = parts.flatMap (importsAt source)

theorem gathers_empty : empty.Gathers source [] := ⟨rfl, rfl⟩

theorem Gathers.append {first second : Outline} {parts parts' : List Node}
    (hfirst : first.Gathers source parts) (hsecond : second.Gathers source parts') :
    (first.append second).Gathers source (parts ++ parts') where
  decisions := by
    rw [List.countP_append, ← hfirst.decisions, ← hsecond.decisions]
    rfl
  imports := by
    rw [List.flatMap_append, ← hfirst.imports, ← hsecond.imports]
    rfl

/-- A node that is no decision and no import may be added in front. -/
theorem Gathers.cons_of_silent {outline : Outline} {parts : List Node}
    (hparts : outline.Gathers source parts) {node : Node} (hdecision : node.isDecision = false)
    (himports : importsAt source node = []) : outline.Gathers source (node :: parts) where
  decisions := by rw [List.countP_cons_of_neg (by simp [hdecision]), ← hparts.decisions]
  imports := by rw [List.flatMap_cons, himports, List.nil_append, ← hparts.imports]

theorem Gathers.of_eq {outline changed : Outline} {parts : List Node}
    (hparts : outline.Gathers source parts) (hdecisions : changed.decisions = outline.decisions)
    (himports : changed.imports = outline.imports) : changed.Gathers source parts :=
  ⟨hdecisions.trans hparts.decisions, himports.trans hparts.imports⟩

theorem gathers_ofNode (scope : Scope) (node : Node) :
    (ofNode source scope node).Gathers source [node] where
  decisions := by
    rw [List.countP_cons, List.countP_nil, Nat.zero_add]
    simp [ofNode, empty, Node.isDecision]
  imports := (List.flatMap_singleton _ _).symm

theorem gathers_ofClass {scope : Scope} {decorators : List String} {inner : Outline}
    {parts : List Node} (hinner : inner.Gathers source parts) :
    (ofClass source scope decorators node inner).Gathers source parts := by
  cases scope <;> exact hinner.of_eq rfl rfl

theorem gathers_ofFunction {scope : Scope} {decorators : List String} {inner : Outline}
    {parts : List Node} (hinner : inner.Gathers source parts) :
    (ofFunction source scope decorators node inner).Gathers source parts := by
  cases scope <;> exact hinner.of_eq rfl rfl

end Outline

/-- Nodes of the kinds through which the walk goes in a way of its own. -/
def walkedKinds : List String :=
  ["class_definition", "function_definition", "decorated_definition", "block"]

theorem silent_of_mem_walkedKinds (node : Node) (hkind : node.kind ∈ walkedKinds) :
    node.isDecision = false ∧ importsAt source node = [] := by
  simp only [walkedKinds, List.mem_cons, List.not_mem_nil, or_false] at hkind
  unfold Node.isDecision importsAt
  rcases hkind with hkind | hkind | hkind | hkind <;>
    exact ⟨by rw [hkind]; decide, by simp [hkind]⟩

mutual

/-- The walk through a tree gathers what its parts state, wherever it comes from. -/
theorem gathers_outline (scope : Scope) (decorators : List String) :
    (node : Node) → (node.outline source scope decorators).Gathers source node.parts
  | .mk label children => by
      rw [parts_mk, Node.outline]
      split
      · next hclass =>
          obtain ⟨hdecision, himports⟩ := silent_of_mem_walkedKinds (.mk label children)
            (show label.kind ∈ walkedKinds by simp [hclass, walkedKinds])
          exact (Outline.gathers_ofClass (gathers_definitionOutline children)).cons_of_silent
            hdecision himports
      split
      · next hfunction =>
          obtain ⟨hdecision, himports⟩ := silent_of_mem_walkedKinds (.mk label children)
            (show label.kind ∈ walkedKinds by simp [hfunction, walkedKinds])
          exact (Outline.gathers_ofFunction (gathers_forestOutline .nested children)).cons_of_silent
            hdecision himports
      split
      · next hdecorated =>
          obtain ⟨hdecision, himports⟩ := silent_of_mem_walkedKinds (.mk label children)
            (show label.kind ∈ walkedKinds by simp [hdecorated, walkedKinds])
          exact (gathers_decoratedOutline scope _ children).cons_of_silent hdecision himports
      · exact (Outline.gathers_ofNode scope _).append (gathers_forestOutline _ children)

theorem gathers_forestOutline (scope : Scope) :
    (nodes : List Node) →
      (forestOutline source scope nodes).Gathers source (nodes.flatMap Node.parts)
  | [] => Outline.gathers_empty
  | node :: nodes =>
      (gathers_outline scope [] node).append (gathers_forestOutline scope nodes)

theorem gathers_definitionOutline :
    (nodes : List Node) →
      (definitionOutline source nodes).Gathers source (nodes.flatMap Node.parts)
  | [] => Outline.gathers_empty
  | .mk label children :: nodes => by
      rw [definitionOutline, List.flatMap_cons]
      split
      · next hblock =>
          -- The walk steps from a class to its statements and passes over the block.
          obtain ⟨hdecision, himports⟩ := silent_of_mem_walkedKinds (.mk label children)
            (show label.kind ∈ walkedKinds by simp [hblock, walkedKinds])
          rw [parts_mk]
          exact ((gathers_forestOutline .classBody children).cons_of_silent hdecision
            himports).append (gathers_definitionOutline nodes)
      · exact (gathers_outline .nested [] (.mk label children)).append
          (gathers_definitionOutline nodes)

theorem gathers_decoratedOutline (scope : Scope) (decorators : List String) :
    (nodes : List Node) →
      (decoratedOutline source scope decorators nodes).Gathers source (nodes.flatMap Node.parts)
  | [] => Outline.gathers_empty
  | node :: nodes => by
      rw [decoratedOutline, List.flatMap_cons]
      split
      · exact (gathers_outline scope decorators node).append
          (gathers_decoratedOutline scope [] nodes)
      · exact (gathers_outline .nested [] node).append
          (gathers_decoratedOutline scope decorators nodes)

end

/-- The model of a file counts one decision for each position where a decision stands, and
lists the imports stated at each position, all in the order of the text. -/
theorem exists_positions_of_isFaultless {parser : Parser} {file : SourceFile} {root : Node}
    (hroot : parser file.content = some root) (hfaultless : root.IsFaultless) :
    ∃ (model : SourceModel) (positions : List (List Nat)),
      extract parser file = .ok model ∧ positions.Pairwise (· < ·) ∧
      (∀ position, position ∈ positions ↔ (root.at? position).isSome = true) ∧
      model.metrics.complexity =
        1 + positions.countP (fun position => (root.at? position).any Node.isDecision) ∧
      model.imports =
        positions.flatMap fun position => (root.at? position).elim [] (importsAt file.content) := by
  have hgathers : (root.outline file.content .file []).Gathers file.content root.parts :=
    gathers_outline .file [] root
  refine ⟨modelOf file root, root.positions, extract_of_isFaultless hroot hfaultless,
    pairwise_positions root, fun _ => mem_positions, ?_, ?_⟩
  · rw [← countP_parts, ← hgathers.decisions]
    exact congrArg (· + _) (Metrics.ofText_complexity .hash _)
  · rw [← flatMap_parts]
    exact hgathers.imports

/-- A file with decisions and imports in a decorator, in the bases of a class, in a default
value and in bodies. -/
def scatteredFile : SourceFile :=
  { path := Path.ofNames ["tasks.py"]
    content :=
      "import os\n@cache(a and b)\nclass Task(Base if c else Other):\n" ++
      "    def run(self, x=p or q):\n        from . import r as s, t\n" ++
      "        if x: import u.v\n"
    lastModified := .epoch }

theorem exists_positions_scatteredFile :
    ∃ (root : Node) (model : SourceModel) (positions : List (List Nat)),
      parse scatteredFile.content = some root ∧ root.IsFaultless ∧
      extract parse scatteredFile = .ok model ∧ positions.Pairwise (· < ·) ∧
      (∀ position, position ∈ positions ↔ (root.at? position).isSome = true) ∧
      model.metrics.complexity =
        1 + positions.countP (fun position => (root.at? position).any Node.isDecision) ∧
      model.imports = positions.flatMap (fun position =>
        (root.at? position).elim [] (importsAt scatteredFile.content)) ∧
      model.metrics.complexity = 5 ∧
      model.imports = ["import os", "from . import r", "from . import t", "import u.v"] := by
  have hfound : (parse scatteredFile.content).any (fun root =>
      root.IsFaultless ∧ (modelOf scatteredFile root).metrics.complexity = 5 ∧
      (modelOf scatteredFile root).imports = ["import os", "from . import r", "from . import t",
        "import u.v"]) = true := by
    decide +kernel
  obtain ⟨root, hroot, hfound⟩ := exists_root_of_any hfound
  obtain ⟨model, positions, hmodel, hordered, hpositions, hcomplexity, himports⟩ :=
    exists_positions_of_isFaultless hroot hfound.1
  obtain rfl := Except.ok.inj ((extract_of_isFaultless hroot hfound.1).symm.trans hmodel)
  exact ⟨root, modelOf scatteredFile root, positions, hroot, hfound.1, hmodel, hordered,
    hpositions, hcomplexity, himports, hfound.2⟩

end SourceAtlas.Python
