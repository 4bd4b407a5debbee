import Mathlib.Data.List.Forall2
import SourceAtlas.Proofs.RecordedNames

/-!
# Respaced files

Two files that differ only in what stands between their tokens have trees of one shape: the
same nodes with the same tokens, at other places and with other extras among them.  Whoever
reads no more of a name than its tokens reads the same names in both.
-/

namespace SourceAtlas.Python

variable {source source' : String} {node node' : Node}

mutual

/-- Whether two nodes are the same in two texts, apart from places and extras. -/
def Node.isAlike (source source' : String) : Node → Node → Bool
  | .mk label children, .mk label' children' =>
      label.kind = label'.kind && label.isNamed = label'.isNamed && label.field = label'.field &&
        children.isEmpty = children'.isEmpty &&
        (!children.isEmpty ||
          (Node.mk label children).text source = (Node.mk label' children').text source') &&
        areAlike source source' children (children'.filter (!·.isExtra))

/-- Whether nodes are those of a list without extras, in the same order. -/
def areAlike (source source' : String) : List Node → List Node → Bool
  | [], others => others.isEmpty
  | node :: nodes, others =>
      if node.isExtra then areAlike source source' nodes others
      else
        match others with
        | [] => false
        | other :: others =>
            node.isAlike source source' other && areAlike source source' nodes others

end

/-- What the grammar of Python says of extras. -/
@[mk_iff]
structure Node.HasLooseExtras (root : Node) : Prop where
  leaves : ∀ part ∈ root.parts, part.isExtra = true → part.children = []
  fields : ∀ part ∈ root.parts, part.isExtra = true → part.label.field = none
  /-- A parameter with a type begins with its name. -/
  leading : ∀ part ∈ root.parts, part.kind = "typed_parameter" →
    ∀ name ∈ part.namedChildren.head?, name.isExtra = false

instance (root : Node) : Decidable root.HasLooseExtras :=
  decidable_of_iff' _ (Node.hasLooseExtras_iff root)

theorem Node.HasLooseExtras.of_mem {child : Node} (hextras : node.HasLooseExtras)
    (hchild : child ∈ node.children) : child.HasLooseExtras where
  leaves part hpart := hextras.leaves part (parts_subset_of_mem hchild hpart)
  fields part hpart := hextras.fields part (parts_subset_of_mem hchild hpart)
  leading part hpart := hextras.leading part (parts_subset_of_mem hchild hpart)

/-- Nodes of two texts that are alike, with nothing but loose extras in them. -/
structure Node.Matches (source source' : String) (node node' : Node) : Prop where
  alike : node.isAlike source source' node' = true
  extras : node.HasLooseExtras
  extras' : node'.HasLooseExtras

theorem forall₂_of_areAlike {nodes others : List Node}
    (halike : areAlike source source' nodes others = true) :
    List.Forall₂ (fun node other => node.isAlike source source' other = true)
      (nodes.filter (!·.isExtra)) others := by
  induction nodes generalizing others with
  | nil =>
      rw [areAlike, List.isEmpty_iff] at halike
      rw [halike]
      exact List.Forall₂.nil
  | cons node nodes ih =>
      unfold areAlike at halike
      rw [List.filter_cons]
      by_cases hextra : node.isExtra = true
      · rw [if_pos hextra] at halike
        rw [if_neg (by simp [hextra])]
        exact ih halike
      · rw [if_neg hextra] at halike
        rw [if_pos (by simpa using hextra)]
        cases others with
        | nil => contradiction
        | cons other others =>
            rw [Bool.and_eq_true] at halike
            exact List.Forall₂.cons halike.1 (ih halike.2)

theorem rel_head? {α β : Type} {relation : α → β → Prop} {first : List α} {second : List β}
    (hrelated : List.Forall₂ relation first second) :
    Option.Rel relation first.head? second.head? := by
  cases hrelated with
  | nil => exact Option.Rel.none
  | cons hone _ => exact Option.Rel.some hone

namespace Node.Matches

theorem isAlike_iff : node.isAlike source source' node' = true ↔
    node.kind = node'.kind ∧ node.label.isNamed = node'.label.isNamed ∧
      node.label.field = node'.label.field ∧
      node.children.isEmpty = node'.children.isEmpty ∧
      (node.children = [] → node.text source = node'.text source') ∧
      areAlike source source' node.children (node'.children.filter (!·.isExtra)) = true := by
  obtain ⟨label, children⟩ := node
  obtain ⟨label', children'⟩ := node'
  simp only [Node.isAlike, Bool.and_eq_true, decide_eq_true_eq, Bool.or_eq_true,
    Bool.not_eq_true', and_assoc, kind_mk, label_mk, children_mk]
  cases children <;> simp

variable (hmatches : node.Matches source source' node')

include hmatches

theorem kind_eq : node.kind = node'.kind :=
  (isAlike_iff.mp hmatches.alike).1

theorem isNamed_eq : node.label.isNamed = node'.label.isNamed :=
  (isAlike_iff.mp hmatches.alike).2.1

theorem field_eq : node.label.field = node'.label.field :=
  (isAlike_iff.mp hmatches.alike).2.2.1

theorem isEmpty_eq : node.children.isEmpty = node'.children.isEmpty :=
  (isAlike_iff.mp hmatches.alike).2.2.2.1

theorem text_eq (hleaf : node.children = []) : node.text source = node'.text source' :=
  (isAlike_iff.mp hmatches.alike).2.2.2.2.1 hleaf

theorem isExtra_eq : node.isExtra = node'.isExtra := by
  rw [Node.isExtra, Node.isExtra, hmatches.kind_eq]

theorem children : List.Forall₂ (Node.Matches source source')
    (node.children.filter (!·.isExtra)) (node'.children.filter (!·.isExtra)) := by
  have halike := forall₂_of_areAlike (isAlike_iff.mp hmatches.alike).2.2.2.2.2
  have hinside : ∀ child ∈ node.children.filter (!·.isExtra), child.HasLooseExtras :=
    fun child hchild => hmatches.extras.of_mem (List.mem_of_mem_filter hchild)
  have hinside' : ∀ child ∈ node'.children.filter (!·.isExtra), child.HasLooseExtras :=
    fun child hchild => hmatches.extras'.of_mem (List.mem_of_mem_filter hchild)
  generalize node.children.filter (!·.isExtra) = nodes at halike hinside
  generalize node'.children.filter (!·.isExtra) = others at halike hinside'
  induction halike with
  | nil => exact List.Forall₂.nil
  | cons hone _ ih =>
      rw [List.forall_mem_cons] at hinside hinside'
      exact List.Forall₂.cons ⟨hone, hinside.1, hinside'.1⟩ (ih hinside.2 hinside'.2)

/-- A choice that takes no extras chooses the same children. -/
theorem filter_children (test : Node → Bool)
    (htest : ∀ child child', child.Matches source source' child' → test child = test child')
    (hextra : ∀ child, child.isExtra = true → child.label.field = none → test child = false) :
    List.Forall₂ (Node.Matches source source') (node.children.filter test)
      (node'.children.filter test) := by
  have hloose : ∀ {outer : Node}, outer.HasLooseExtras →
      outer.children.filter test = (outer.children.filter (!·.isExtra)).filter test := by
    intro outer houter
    rw [List.filter_filter]
    apply List.filter_congr
    intro child hchild
    by_cases hextraChild : child.isExtra = true
    · have hfield := (houter.of_mem hchild).fields child (mem_parts_self child) hextraChild
      simp [hextra child hextraChild hfield]
    · simp [hextraChild]
  rw [hloose hmatches.extras, hloose hmatches.extras']
  exact List.rel_filter (fun child child' hchild => by simp [htest child child' hchild])
    hmatches.children

/-- Among children of one kind there are no extras. -/
theorem ofKind (kind : String) (hkind : kind ∉ extraKinds) :
    List.Forall₂ (Node.Matches source source') (node.children.filter (·.kind = kind))
      (node'.children.filter (·.kind = kind)) := by
  apply hmatches.filter_children (·.kind = kind)
  · intro child child' hchild
    rw [hchild.kind_eq]
  · intro child hextra _
    rw [decide_eq_false_iff_not]
    rintro rfl
    exact hkind (of_decide_eq_true hextra)

theorem childAs? (field : String) :
    Option.Rel (Node.Matches source source') (node.childAs? field) (node'.childAs? field) := by
  have hchosen := hmatches.filter_children (·.label.field = some field)
    (fun child child' hchild => by rw [hchild.field_eq])
    (fun child _ hnone => by simp [hnone])
  rw [Node.childAs?, Node.childAs?, ← List.head?_filter, ← List.head?_filter]
  exact rel_head? hchosen

theorem childrenAs (field : String) :
    List.Forall₂ (Node.Matches source source') (node.childrenAs field)
      (node'.childrenAs field) :=
  hmatches.filter_children (·.label.field = some field)
    (fun child child' hchild => by rw [hchild.field_eq])
    (fun child _ hnone => by simp [hnone])

end Node.Matches

/-- What stands inside of nodes, apart from extras, stands inside of those that are none. -/
theorem filter_flatMap_parts {nodes : List Node}
    (hextras : ∀ node ∈ nodes, node.HasLooseExtras) :
    (nodes.flatMap Node.parts).filter (!·.isExtra) =
      (nodes.filter (!·.isExtra)).flatMap fun node => node.parts.filter (!·.isExtra) := by
  induction nodes with
  | nil => rfl
  | cons node nodes ih =>
      rw [List.forall_mem_cons] at hextras
      rw [List.flatMap_cons, List.filter_append, ih hextras.2, List.filter_cons]
      by_cases hextra : node.isExtra = true
      · have hleaf := hextras.1.leaves node (mem_parts_self node) hextra
        have hnothing : node.parts.filter (!·.isExtra) = [] := by
          obtain ⟨label, children⟩ := node
          rw [Node.children_mk] at hleaf
          subst hleaf
          simp [parts_mk, hextra]
        rw [if_neg (by simp [hextra]), hnothing, List.nil_append]
      · rw [if_pos (by simpa using hextra), List.flatMap_cons]

mutual

theorem Node.Matches.parts : (node node' : Node) → node.Matches source source' node' →
    List.Forall₂ (Node.Matches source source') (node.parts.filter (!·.isExtra))
      (node'.parts.filter (!·.isExtra))
  | .mk label children, .mk label' children', hmatches => by
      have hinside := forall₂_flatMap_parts children _ hmatches.children
        (fun _ => hmatches.extras.of_mem)
      have hinside' : ∀ child ∈ children', child.HasLooseExtras := fun _ => hmatches.extras'.of_mem
      rw [parts_mk, parts_mk, List.filter_cons, List.filter_cons, hmatches.isExtra_eq,
        filter_flatMap_parts hinside']
      split
      · exact List.Forall₂.cons hmatches hinside
      · exact hinside

theorem forall₂_flatMap_parts : (nodes others : List Node) →
    List.Forall₂ (Node.Matches source source') (nodes.filter (!·.isExtra)) others →
    (∀ node ∈ nodes, node.HasLooseExtras) →
    List.Forall₂ (Node.Matches source source')
      ((nodes.flatMap Node.parts).filter (!·.isExtra))
      (others.flatMap fun other => other.parts.filter (!·.isExtra))
  | [], others, hmatches, _ => by
      cases hmatches
      exact List.Forall₂.nil
  | node :: nodes, others, hmatches, hextras => by
      rw [filter_flatMap_parts hextras]
      rw [List.filter_cons] at hmatches ⊢
      rw [List.forall_mem_cons] at hextras
      split at hmatches
      · cases hmatches with
        | cons hone hrest =>
            have hbehind := forall₂_flatMap_parts nodes _ hrest hextras.2
            rw [filter_flatMap_parts hextras.2] at hbehind
            rw [if_pos ‹_›, List.flatMap_cons, List.flatMap_cons]
            exact List.rel_append (Node.Matches.parts node _ hone) hbehind
      · have hbehind := forall₂_flatMap_parts nodes _ hmatches hextras.2
        rw [if_neg ‹_›]
        rwa [filter_flatMap_parts hextras.2] at hbehind

end

theorem Node.Matches.joined_eq (hmatches : node.Matches source source' node') :
    node.joined source = node'.joined source' := by
  have htokens : ∀ outer : Node, outer.tokens =
      (outer.parts.filter (!·.isExtra)).filter (·.children.isEmpty) := by
    intro outer
    rw [List.filter_filter]
    rfl
  have hparts := Node.Matches.parts node node' hmatches
  rw [Node.joined, Node.joined, htokens, htokens]
  generalize node.parts.filter (!·.isExtra) = parts at hparts
  generalize node'.parts.filter (!·.isExtra) = parts' at hparts
  congr 1
  induction hparts with
  | nil => rfl
  | cons hone _ ih =>
      rw [List.filter_cons, List.filter_cons, hone.isEmpty_eq]
      split
      · next hempty =>
          have hleaf := List.isEmpty_iff.mp (hone.isEmpty_eq.trans hempty)
          rw [List.map_cons, List.map_cons, ih, hone.text_eq hleaf]
      · exact ih

/-! ## Readings of names -/

/-- Lists of nodes that match, apart from extras among them. -/
def AgreeBesidesExtras (source source' : String) (nodes nodes' : List Node) : Prop :=
  List.Forall₂ (Node.Matches source source') (nodes.filter (!·.isExtra))
    (nodes'.filter (!·.isExtra))

variable {nodes nodes' : List Node}

/-- What is found in nodes but never in extras is found in the same places. -/
theorem AgreeBesidesExtras.filterMap {relation : Node → Node → Prop} {find : Node → Option Node}
    (hagree : AgreeBesidesExtras source source' nodes nodes')
    (hextra : ∀ node, node.isExtra = true → find node = none)
    (hfind : ∀ node node', node.Matches source source' node' →
      Option.Rel relation (find node) (find node')) :
    List.Forall₂ relation (nodes.filterMap find) (nodes'.filterMap find) := by
  have hdropped : ∀ all : List Node,
      all.filterMap find = (all.filter (!·.isExtra)).filterMap find := by
    intro all
    rw [List.filterMap_filter]
    apply List.filterMap_congr
    intro node _
    by_cases hnode : node.isExtra = true
    · simp [hnode, hextra node hnode]
    · simp [hnode]
  rw [hdropped nodes, hdropped nodes']
  exact List.rel_filterMap (fun node node' hnode => hfind node node' hnode) hagree

theorem kind_ne_of_isExtra {kind : String} (hkind : kind ∉ extraKinds)
    (hextra : node.isExtra = true) : node.kind ≠ kind := by
  rintro rfl
  exact hkind (of_decide_eq_true hextra)

theorem Node.Matches.definitionNode? {kind : String} (hkind : kind ∉ extraKinds)
    (hmatches : node.Matches source source' node') :
    Option.Rel (Node.Matches source source') (node.definitionNode? kind)
      (node'.definitionNode? kind) := by
  unfold Node.definitionNode?
  rw [hmatches.kind_eq, ← List.head?_filter, ← List.head?_filter]
  split
  · exact rel_head? (hmatches.ofKind kind hkind)
  · split
    · exact Option.Rel.some hmatches
    · exact Option.Rel.none

theorem AgreeBesidesExtras.definitionNodes {kind : String} (hkind : kind ∉ extraKinds)
    (hagree : AgreeBesidesExtras source source' nodes nodes') :
    List.Forall₂ (Node.Matches source source') (nodes.filterMap (·.definitionNode? kind))
      (nodes'.filterMap (·.definitionNode? kind)) := by
  apply hagree.filterMap
  · intro node hextra
    have hdecorated : node.kind ≠ "decorated_definition" := kind_ne_of_isExtra (by decide) hextra
    have hother := kind_ne_of_isExtra hkind hextra
    rw [Node.definitionNode?, if_neg hdecorated, if_neg hother]
  · exact fun node node' hmatches => hmatches.definitionNode? hkind

theorem Node.Matches.bodyStatements (hmatches : node.Matches source source' node') :
    AgreeBesidesExtras source source' node.bodyStatements node'.bodyStatements := by
  have hblocks := hmatches.ofKind "block" (by decide)
  unfold AgreeBesidesExtras Node.bodyStatements
  rw [List.filter_flatMap, List.filter_flatMap]
  exact List.rel_flatMap hblocks fun block block' hblock => hblock.children

theorem AgreeBesidesExtras.functionNodes (hagree : AgreeBesidesExtras source source' nodes nodes') :
    List.Forall₂ (Node.Matches source source') (functionNodes nodes) (functionNodes nodes') := by
  have hfunction : "function_definition" ∉ extraKinds := by decide
  have hclass : "class_definition" ∉ extraKinds := by decide
  exact List.rel_append (hagree.definitionNodes hfunction)
    (List.rel_flatMap (hagree.definitionNodes hclass) fun definition definition' hdefinition =>
      hdefinition.bodyStatements.definitionNodes hfunction)

/-- Parameters of a function match, apart from extras among them. -/
theorem Node.Matches.parameterNodes (hmatches : node.Matches source source' node') :
    AgreeBesidesExtras source source' node.parameterNodes node'.parameterNodes := by
  have hfound := hmatches.childAs? "parameters"
  unfold Node.parameterNodes
  generalize node.childAs? "parameters" = found at hfound
  generalize node'.childAs? "parameters" = found' at hfound
  cases hfound with
  | none => exact List.Forall₂.nil
  | some hparameters =>
      have hcomm : ∀ outer : Node, (outer.children.filter (!·.isExtra)).filter (·.label.isNamed) =
          outer.namedChildren.filter (!·.isExtra) := fun outer => List.filter_comm _ _ _
      have hnamed := List.rel_filter (p := (·.label.isNamed)) (q := (·.label.isNamed))
        (fun child child' hchild => by simp [hchild.isNamed_eq]) hparameters.children
      rw [hcomm, hcomm] at hnamed
      exact hnamed

theorem head?_namedChildren (hleading : ∀ name ∈ node.namedChildren.head?, name.isExtra = false) :
    node.namedChildren.head? =
      ((node.children.filter (!·.isExtra)).filter (·.label.isNamed)).head? := by
  have hcomm : (node.children.filter (!·.isExtra)).filter (·.label.isNamed) =
      node.namedChildren.filter (!·.isExtra) := List.filter_comm _ _ _
  rw [hcomm]
  cases hnamed : node.namedChildren with
  | nil => rfl
  | cons name rest =>
      rw [hnamed] at hleading
      have hname := hleading name rfl
      rw [List.filter_cons_of_pos (by simpa using hname), List.head?_cons, List.head?_cons]

theorem Node.Matches.parameterName? (hmatches : node.Matches source source' node') :
    Option.Rel (Node.Matches source source') node.parameterName? node'.parameterName? := by
  unfold Node.parameterName?
  rw [hmatches.kind_eq]
  split
  · exact Option.Rel.some hmatches
  split
  · next hkind =>
      have hleading := hmatches.extras.leading node (mem_parts_self node)
        (hmatches.kind_eq.trans hkind)
      have hleading' := hmatches.extras'.leading node' (mem_parts_self node') hkind
      rw [head?_namedChildren hleading, head?_namedChildren hleading']
      exact rel_head? (List.rel_filter (fun child child' hchild => by simp [hchild.isNamed_eq])
        hmatches.children)
  split
  · exact hmatches.childAs? "name"
  · exact Option.Rel.none

theorem isSome_eq_of_rel {α β : Type} {relation : α → β → Prop} {first : Option α}
    {second : Option β} (hrelated : Option.Rel relation first second) :
    first.isSome = second.isSome := by
  cases hrelated <;> rfl

theorem Node.Matches.isHinted_eq (hmatches : node.Matches source source' node') :
    node.isHinted = node'.isHinted := by
  rw [Node.isHinted, Node.isHinted, hmatches.kind_eq,
    isSome_eq_of_rel (hmatches.childAs? "type")]

theorem parameterName?_of_isExtra (hextra : node.isExtra = true) : node.parameterName? = none := by
  have hkinds : ∀ kind ∈ extraKinds, kind ∉ plainParameters ∧ kind ≠ "typed_parameter" ∧
      kind ∉ ["default_parameter", "typed_default_parameter"] := by
    decide
  obtain ⟨hplain, htyped, hdefault⟩ := hkinds node.kind (of_decide_eq_true hextra)
  rw [Node.parameterName?, if_neg hplain, if_neg htyped, if_neg hdefault]

theorem Node.Matches.parameterNames (hmatches : node.Matches source source' node') :
    List.Forall₂ (Node.Matches source source') node.parameterNames node'.parameterNames :=
  hmatches.parameterNodes.filterMap (fun _ => parameterName?_of_isExtra)
    fun _ _ hparameter => hparameter.parameterName?

theorem Node.Matches.hintedParameters (hmatches : node.Matches source source' node') :
    List.Forall₂ (Node.Matches source source') node.hintedParameters node'.hintedParameters := by
  have hagree : AgreeBesidesExtras source source' (node.parameterNodes.filter Node.isHinted)
      (node'.parameterNodes.filter Node.isHinted) := by
    unfold AgreeBesidesExtras
    rw [List.filter_comm, List.filter_comm (l := node'.parameterNodes)]
    exact List.rel_filter (fun _ _ hparameter => by simp [hparameter.isHinted_eq])
      hmatches.parameterNodes
  exact hagree.filterMap (fun _ => parameterName?_of_isExtra)
    fun _ _ hparameter => hparameter.parameterName?

theorem map_eq_of_forall₂ {α β γ : Type} {relation : α → β → Prop} {first : List α}
    {second : List β} {read : α → γ} {read' : β → γ}
    (hread : ∀ a b, relation a b → read a = read' b)
    (hrelated : List.Forall₂ relation first second) : first.map read = second.map read' := by
  induction hrelated with
  | nil => rfl
  | cons hone _ ih => rw [List.map_cons, List.map_cons, hread _ _ hone, ih]

/-- Names that match are the same, if no more of them is read than their tokens. -/
theorem map_joined_eq (hnames : List.Forall₂ (Node.Matches source source') nodes nodes') :
    nodes.map (·.joined source) = nodes'.map (·.joined source') :=
  map_eq_of_forall₂ (fun _ _ hname => hname.joined_eq) hnames

theorem Node.Matches.hintedWith_eq (hmatches : node.Matches source source' node') :
    node.hintedWith (·.joined source) = node'.hintedWith (·.joined source') := by
  have hnames := congrArg (List.map FunctionSignature.bareName)
    (map_joined_eq hmatches.hintedParameters)
  rw [List.map_map, List.map_map] at hnames
  exact congrArg (List.foldl insertName []) hnames

theorem Node.Matches.importedNode? (hmatches : node.Matches source source' node') :
    Option.Rel (Node.Matches source source') node.importedNode? node'.importedNode? := by
  unfold Node.importedNode?
  rw [hmatches.kind_eq]
  split
  · exact hmatches.childAs? "name"
  · exact Option.Rel.some hmatches

theorem Node.Matches.importsAll_eq (hmatches : node.Matches source source' node') :
    node.importsAll = node'.importsAll := by
  have hfound := rel_head? (hmatches.ofKind "wildcard_import" (by decide))
  rw [List.head?_filter, List.head?_filter] at hfound
  have hany := isSome_eq_of_rel hfound
  rwa [List.isSome_find?, List.isSome_find?] at hany

theorem Node.Matches.moduleNode? (hmatches : node.Matches source source' node') :
    Option.Rel (Node.Matches source source') node.moduleNode? node'.moduleNode? := by
  unfold Node.moduleNode?
  rw [hmatches.kind_eq]
  split
  · exact hmatches.childAs? "module_name"
  · exact Option.Rel.none

theorem Node.Matches.moduleWith_eq (hmatches : node.Matches source source' node') :
    node.moduleWith (·.joined source) = node'.moduleWith (·.joined source') := by
  have hfound := hmatches.moduleNode?
  unfold Node.moduleWith Node.fixedModule
  rw [hmatches.kind_eq]
  generalize node.moduleNode? = found at hfound
  generalize node'.moduleNode? = found' at hfound
  cases hfound with
  | none => rfl
  | some hmodule => rw [Option.map_some, Option.map_some, hmodule.joined_eq]

theorem Node.Matches.importsWith_eq (hmatches : node.Matches source source' node') :
    node.importsWith (·.joined source) = node'.importsWith (·.joined source') := by
  have himported : List.Forall₂ (Node.Matches source source') node.importedNodes
      node'.importedNodes :=
    List.rel_filterMap (fun _ _ hname => hname.importedNode?) (hmatches.childrenAs "name")
  have hnames := map_joined_eq himported
  have hlines := congrArg (List.map ("import " ++ ·)) hnames
  rw [List.map_map, List.map_map] at hlines
  unfold Node.importsWith
  rw [hmatches.kind_eq, hmatches.importsAll_eq, hmatches.moduleWith_eq, hnames]
  split
  · exact hlines
  · rfl

theorem importsWith_of_isExtra (read : Node → String) (hextra : node.isExtra = true) :
    node.importsWith read = [] := by
  have hkinds : ∀ kind ∈ extraKinds, kind ≠ "import_statement" ∧ kind ∉ importFromKinds := by
    decide
  obtain ⟨himport, hfrom⟩ := hkinds node.kind (of_decide_eq_true hextra)
  rw [Node.importsWith, if_neg himport, if_neg hfrom]

theorem flatMap_importsWith (read : Node → String) (nodes : List Node) :
    nodes.flatMap (·.importsWith read) =
      ((nodes.filter (!·.isExtra)).map (·.importsWith read)).flatten := by
  induction nodes with
  | nil => rfl
  | cons node nodes ih =>
      rw [List.flatMap_cons, List.filter_cons, ih]
      by_cases hextra : node.isExtra = true
      · rw [if_neg (by simp [hextra]), importsWith_of_isExtra read hextra, List.nil_append]
      · rw [if_pos (by simpa using hextra), List.map_cons, List.flatten_cons]

/-- Whoever reads only the tokens of names reads the same names in trees that match. -/
theorem Node.Matches.namesWith_eq {root root' : Node}
    (hmatches : root.Matches source source' root') :
    namesWith (·.joined source) root = namesWith (·.joined source') root' := by
  have hstatements : AgreeBesidesExtras source source' root.children root'.children :=
    hmatches.children
  have hparameters := map_eq_of_forall₂
    (fun _ _ hdefinition => map_joined_eq hdefinition.parameterNames) hstatements.functionNodes
  have hhinted := map_eq_of_forall₂
    (fun _ _ hdefinition => hdefinition.hintedWith_eq) hstatements.functionNodes
  have himports := map_eq_of_forall₂ (fun _ _ hpart => hpart.importsWith_eq)
    (Node.Matches.parts root root' hmatches)
  rw [namesWith, namesWith, hparameters, hhinted, flatMap_importsWith, flatMap_importsWith,
    himports]

end SourceAtlas.Python
