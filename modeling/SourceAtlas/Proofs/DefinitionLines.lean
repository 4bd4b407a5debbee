import Mathlib.Data.List.Flatten
import SourceAtlas.Proofs.Outlines
import SourceAtlas.Proofs.TextCuts
import SourceAtlas.Proofs.WellFormedModels

/-!
# Lines of Python definitions

A definition is recorded on the line where its node begins.  A parser gives nodes in the
order of the text, and says of each on which row it begins.  Reported definitions are nodes
of the tree one behind the other, and so are the methods of each class, so their lines rise
along the file.
-/

namespace SourceAtlas.Python

open Text

/-- What a parser says of places in a text. -/
@[mk_iff]
structure Node.IsLaidOut (source : String) (root : Node) : Prop where
  /-- A node begins behind those that are listed before it. -/
  ordered : (root.parts.map (·.label.start)).Pairwise (· ≤ ·)
  /-- What a node covers can be cut out of the text. -/
  cuts : ∀ part ∈ root.parts, IsCut source.toList part.label.start part.label.stop
  /-- Rows are counted from one line break to the next. -/
  rows : ∀ part ∈ root.parts,
    part.label.position.row = (takeBytes part.label.start source.toList).count '\n'

/-- A text that is spelled as a name is. -/
def IsIdentifier (text : String) : Prop :=
  ∃ c rest, text.toList = c :: rest ∧ opensIdentifier c = true ∧
    ∀ d ∈ rest, continuesIdentifier d = true

/-- What the grammar of Python says of definitions and their parameters. -/
@[mk_iff]
structure Node.HasSignatures (source : String) (root : Node) : Prop where
  /-- A definition has at least its keyword. -/
  filled : ∀ part ∈ root.parts, part.isDefinition = true → part.label.start < part.label.stop
  identifiers : ∀ part ∈ root.parts, part.kind = "identifier" → IsIdentifier (part.text source)
  /-- A parameter with a type and a default value has a single name. -/
  typed : ∀ part ∈ root.parts, part.kind = "typed_default_parameter" →
    ∀ name ∈ part.childAs? "name", name.kind = "identifier"
  untyped : ∀ part ∈ root.parts, part.kind = "default_parameter" → part.childAs? "type" = none

instance (source : String) (root : Node) : Decidable (root.IsLaidOut source) :=
  decidable_of_iff' _ (Node.isLaidOut_iff source root)

theorem isIdentifier_iff {text : String} :
    IsIdentifier text ↔
      text.toList.head?.any opensIdentifier = true ∧
        text.toList.tail.all continuesIdentifier = true := by
  unfold IsIdentifier
  cases text.toList <;> simp

instance (text : String) : Decidable (IsIdentifier text) :=
  decidable_of_iff _ isIdentifier_iff.symm

instance (source : String) (root : Node) : Decidable (root.HasSignatures source) :=
  decidable_of_iff' _ (Node.hasSignatures_iff source root)

variable {source : String} {root : Node}

theorem parts_sublist_of_mem {node child : Node} (hchild : child ∈ node.children) :
    child.parts.Sublist node.parts := by
  obtain ⟨label, children⟩ := node
  have hone : [child].Sublist children := List.singleton_sublist.mpr hchild
  have hparts := hone.flatMap Node.parts
  rw [List.flatMap_singleton] at hparts
  rw [parts_mk]
  exact hparts.cons _

theorem parts_sublist_of_definition? {statement : Node} {kind : String} {definition : Definition}
    (hdefinition : statement.definition? source kind = some definition) :
    definition.node.parts.Sublist statement.parts := by
  unfold Node.definition? at hdefinition
  split at hdefinition
  · obtain ⟨node, hnode, rfl⟩ := Option.map_eq_some_iff.mp hdefinition
    exact parts_sublist_of_mem (List.mem_of_find?_eq_some hnode)
  · split at hdefinition
    · cases hdefinition
      exact List.Sublist.refl _
    · contradiction

/-- Definitions are nodes one behind the other, with all that is inside of them. -/
theorem parts_definitionsOf_sublist (kind : String) (statements : List Node) :
    ((definitionsOf source kind statements).flatMap (·.node.parts)).Sublist
      (statements.flatMap Node.parts) := by
  rw [definitionsOf, List.filterMap_eq_flatMap_toList, List.flatMap_assoc]
  apply List.Sublist.flatMap_right
  intro statement _
  cases hdefinition : statement.definition? source kind with
  | none => simp
  | some definition => simpa using parts_sublist_of_definition? hdefinition

theorem parts_body_sublist (definition : Definition) :
    (definition.body.flatMap Node.parts).Sublist definition.node.parts := by
  obtain ⟨decorators, ⟨label, children⟩⟩ := definition
  have hblocks : (children.filter (·.kind = "block")).Sublist children := List.filter_sublist
  have hinside : ∀ block ∈ children,
      (block.children.flatMap Node.parts).Sublist block.parts := by
    rintro ⟨blockLabel, statements⟩ -
    rw [parts_mk]
    exact List.sublist_cons_self _ _
  rw [parts_mk, Definition.body, List.flatMap_assoc]
  exact ((hblocks.flatMap _).trans (List.Sublist.flatMap_right children hinside)).cons _

theorem nodes_definitionsOf_sublist {statements : List Node}
    (hstatements : (statements.flatMap Node.parts).Sublist root.parts) (kind : String) :
    ((definitionsOf source kind statements).map (·.node)).Sublist root.parts := by
  have hnodes : ∀ definition ∈ definitionsOf source kind statements,
      [definition.node].Sublist definition.node.parts := fun definition _ =>
    List.singleton_sublist.mpr (mem_parts_self definition.node)
  rw [List.map_eq_flatMap]
  exact (List.Sublist.flatMap_right _ hnodes).trans
    ((parts_definitionsOf_sublist kind statements).trans hstatements)

theorem parts_body_sublist_of_mem {statements : List Node}
    (hstatements : (statements.flatMap Node.parts).Sublist root.parts) {kind : String}
    {definition : Definition} (hdefinition : definition ∈ definitionsOf source kind statements) :
    (definition.body.flatMap Node.parts).Sublist root.parts := by
  have hone := (List.singleton_sublist.mpr hdefinition).flatMap (·.node.parts)
  rw [List.flatMap_singleton] at hone
  exact (parts_body_sublist definition).trans
    (hone.trans ((parts_definitionsOf_sublist kind statements).trans hstatements))

theorem kind_of_definition? {statement : Node} {kind : String} {definition : Definition}
    (hdefinition : statement.definition? source kind = some definition) :
    definition.node.kind = kind := by
  unfold Node.definition? at hdefinition
  split at hdefinition
  · obtain ⟨node, hnode, rfl⟩ := Option.map_eq_some_iff.mp hdefinition
    simpa using List.find?_some hnode
  · split at hdefinition
    · next hkind =>
        cases hdefinition
        exact hkind
    · contradiction

namespace Node.IsLaidOut

variable {part later : Node}

theorem row_le (hlaid : root.IsLaidOut source) (hpart : part ∈ root.parts)
    (hlater : later ∈ root.parts) (hle : part.label.start ≤ later.label.start) :
    part.label.position.row ≤ later.label.position.row := by
  have hcut : IsCut source.toList part.label.start later.label.start :=
    ⟨(hlaid.cuts part hpart).atStart, (hlaid.cuts later hlater).atStart, hle⟩
  obtain ⟨front, between, rest, hsource, hstart, hstop⟩ := hcut.exists_parts
  rw [hlaid.rows part hpart, hlaid.rows later hlater, hstart, hstop, hsource,
    takeBytes_append, ← byteWidth_append, ← List.append_assoc, takeBytes_append,
    List.count_append]
  exact Nat.le_add_right _ _

theorem row_lt_lineCount (hlaid : root.IsLaidOut source) (hpart : part ∈ root.parts)
    (hfilled : part.label.start < part.label.stop) :
    part.label.position.row < lineCount source.toList := by
  obtain ⟨front, piece, rest, hsource, hstart, hstop⟩ := (hlaid.cuts part hpart).exists_parts
  have hne : piece ≠ [] := by
    rintro rfl
    rw [byteWidth_nil] at hstop
    omega
  obtain ⟨c, piece, rfl⟩ := List.exists_cons_of_ne_nil hne
  rw [hlaid.rows part hpart, hstart, hsource, takeBytes_append]
  exact count_break_lt_lineCount front c (piece ++ rest)

/-- Nodes that are listed in order and hold something begin on rising lines of the text. -/
theorem linesWithin (hlaid : root.IsLaidOut source) {nodes : List Node}
    (hnodes : nodes.Sublist root.parts)
    (hfilled : ∀ node ∈ nodes, node.label.start < node.label.stop) :
    LinesWithin (lineCount source.toList) (nodes.map lineOf) where
  ordered := by
    have hstarts : (nodes.map (·.label.start)).Pairwise (· ≤ ·) :=
      hlaid.ordered.sublist (hnodes.map _)
    rw [List.pairwise_map] at hstarts ⊢
    apply hstarts.imp_of_mem
    intro node later hnode hlater hle
    exact Nat.succ_le_succ (hlaid.row_le (hnodes.subset hnode) (hnodes.subset hlater) hle)
  inFile := by
    intro line hline
    obtain ⟨node, hnode, rfl⟩ := List.mem_map.mp hline
    have hrow := hlaid.row_lt_lineCount (hnodes.subset hnode) (hfilled node hnode)
    exact ⟨Nat.succ_pos _, hrow⟩

end Node.IsLaidOut

theorem linesWithin_definitionsOf (hlaid : root.IsLaidOut source)
    (hsignatures : root.HasSignatures source) {statements : List Node}
    (hstatements : (statements.flatMap Node.parts).Sublist root.parts) {kind : String}
    (hkind : kind = "function_definition" ∨ kind = "class_definition") :
    LinesWithin (lineCount source.toList)
      ((definitionsOf source kind statements).map fun definition => lineOf definition.node) := by
  have hnodes : ((definitionsOf source kind statements).map (·.node)).Sublist root.parts :=
    nodes_definitionsOf_sublist hstatements kind
  have hlines := hlaid.linesWithin hnodes ?_
  · rwa [List.map_map] at hlines
  · intro node hnode
    obtain ⟨definition, hdefinition, rfl⟩ := List.mem_map.mp hnode
    obtain ⟨statement, -, hfound⟩ := List.mem_filterMap.mp hdefinition
    have hdefines : definition.node.isDefinition = true := by
      rw [isDefinition_iff, kind_of_definition? hfound]
      exact hkind
    exact hsignatures.filled _ (hnodes.subset hnode) hdefines

/-- The node that names a parameter, if it has a name. -/
def Node.parameterName? (parameter : Node) : Option Node :=
  if parameter.kind ∈ plainParameters then some parameter
  else if parameter.kind = "typed_parameter" then parameter.namedChildren.head?
  else if parameter.kind ∈ ["default_parameter", "typed_default_parameter"] then
    parameter.childAs? "name"
  else none

def Node.parameterType? (source : String) (parameter : Node) : Option String :=
  if parameter.kind ∈ plainParameters then none else parameter.textAs? source "type"

def Node.parameterValue? (source : String) (parameter : Node) : Option String :=
  if parameter.kind ∈ ["default_parameter", "typed_default_parameter"] then
    parameter.textAs? source "value"
  else none

/-- The function with one more parameter, whose type is kept under the name without stars. -/
def recordParameter (function : FunctionSignature) (name : String) (hint value : Option String) :
    FunctionSignature :=
  { addHint function (FunctionSignature.bareName name) hint with
    parameters := function.parameters ++ [name]
    defaults := function.defaults ++ value.toList }

theorem bareName_of_isIdentifier {name : String} (hname : IsIdentifier name) :
    FunctionSignature.bareName name = name := by
  obtain ⟨c, rest, hchars, hopens, -⟩ := hname
  have hc : c ≠ '*' := by
    rintro rfl
    exact absurd hopens (by decide)
  rw [FunctionSignature.bareName, hchars, List.dropWhile_cons_of_neg (by simpa using hc),
    ← hchars, String.ofList_toList]

theorem addHint_defaults (function : FunctionSignature) (name : String) (hint : Option String) :
    (addHint function name hint).defaults = function.defaults := by
  cases hint <;> rfl

theorem addHint_none (function : FunctionSignature) (name : String) :
    addHint function name none = function := rfl

/-- A type is kept under a name that has no stars anyhow. -/
theorem addHint_bareName (hsignatures : root.HasSignatures source) {parameter name : Node}
    (hparameter : parameter ∈ root.parts)
    (hkind : parameter.kind = "default_parameter" ∨ parameter.kind = "typed_default_parameter")
    (hname : parameter.childAs? "name" = some name) (function : FunctionSignature) :
    addHint function (FunctionSignature.bareName (name.text source))
        (parameter.textAs? source "type") =
      addHint function (name.text source) (parameter.textAs? source "type") := by
  rcases hkind with hkind | hkind
  · have huntyped := hsignatures.untyped parameter hparameter hkind
    rw [Node.textAs?, huntyped, Option.map_none, addHint_none, addHint_none]
  · have hpart := mem_parts_of_mem_children hparameter (List.mem_of_find?_eq_some hname)
    have hidentifier := hsignatures.identifiers name hpart
      (hsignatures.typed parameter hparameter hkind name hname)
    rw [bareName_of_isIdentifier hidentifier]

/-- Every kind of parameter is recorded in one way. -/
theorem addParameter_eq (hsignatures : root.HasSignatures source) {parameter : Node}
    (hparameter : parameter ∈ root.parts) (function : FunctionSignature) :
    addParameter source function parameter =
      (parameter.parameterName?.map fun name =>
        recordParameter function (name.text source) (parameter.parameterType? source)
          (parameter.parameterValue? source)).getD function := by
  unfold addParameter Node.parameterName? Node.parameterType? Node.parameterValue?
  by_cases hplain : parameter.kind ∈ plainParameters
  · have hother : parameter.kind ∉ ["default_parameter", "typed_default_parameter"] := by
      intro hdefault
      revert hplain
      rcases List.mem_pair.mp hdefault with hkind | hkind <;> rw [hkind] <;> decide
    simp [hplain, hother, recordParameter, addHint_none]
  rw [if_neg hplain, if_neg hplain, if_neg hplain]
  by_cases hkind : parameter.kind = "typed_parameter"
  · rw [if_pos hkind, if_pos hkind]
    cases parameter.namedChildren.head? with
    | none => rfl
    | some name => simp [hkind, recordParameter, addHint_defaults]
  rw [if_neg hkind, if_neg hkind]
  by_cases hdefault : parameter.kind ∈ ["default_parameter", "typed_default_parameter"]
  · rw [if_pos hdefault, if_pos hdefault, if_pos hdefault]
    cases hname : parameter.childAs? "name" with
    | none => simp [Node.textAs?, hname]
    | some name =>
        have hbare := addHint_bareName hsignatures hparameter (List.mem_pair.mp hdefault) hname
          function
        have htext : parameter.textAs? source "name" = some (name.text source) := by
          rw [Node.textAs?, hname, Option.map_some]
        simp [htext, recordParameter, hbare]
  · simp [hdefault]

theorem wellFormed_recordParameter {function : FunctionSignature} (hwell : function.WellFormed)
    (name : String) (hint value : Option String) :
    (recordParameter function name hint value).WellFormed where
  hints := by
    intro entry hentry
    have hkeys : entry.1 = FunctionSignature.bareName name ∨
        ∃ old ∈ function.typeHints.entries, old.1 = entry.1 := by
      cases hint with
      | none => exact Or.inr ⟨entry, hentry, rfl⟩
      | some hint => exact SortedMap.key_of_mem_insertEntry hentry
    rcases hkeys with hkey | ⟨old, hold, hkey⟩
    · exact ⟨name, List.mem_append_right _ (List.mem_singleton_self name), hkey⟩
    · obtain ⟨parameter, hparameter, hbare⟩ := hwell.hints old hold
      exact ⟨parameter, List.mem_append_left _ hparameter, hkey ▸ hbare⟩
  defaults := by
    have hdefaults := hwell.defaults
    have hone : value.toList.length ≤ 1 := by cases value <;> simp
    simp only [recordParameter, List.length_append, List.length_singleton]
    omega

theorem line_addParameter (function : FunctionSignature) (parameter : Node) :
    (addParameter source function parameter).line = function.line := by
  have hhint : ∀ name hint, (addHint function name hint).line = function.line := by
    intro name hint
    cases hint <;> rfl
  unfold addParameter
  grind

theorem wellFormed_addParameter (hsignatures : root.HasSignatures source)
    {function : FunctionSignature} (hwell : function.WellFormed) {parameter : Node}
    (hparameter : parameter ∈ root.parts) :
    (addParameter source function parameter).WellFormed := by
  rw [addParameter_eq hsignatures hparameter]
  cases parameter.parameterName? with
  | none => exact hwell
  | some name => exact wellFormed_recordParameter hwell _ _ _

/-- The parameters of a definition, among what else stands between the brackets. -/
def Node.parameterNodes (definition : Node) : List Node :=
  ((definition.childAs? "parameters").map Node.namedChildren).getD []

theorem mem_parts_of_mem_parameterNodes {definition parameter : Node}
    (hdefinition : definition ∈ root.parts) (hparameter : parameter ∈ definition.parameterNodes) :
    parameter ∈ root.parts := by
  unfold Node.parameterNodes at hparameter
  cases hnode : definition.childAs? "parameters" with
  | none => simp [hnode] at hparameter
  | some parameters =>
      rw [hnode, Option.map_some, Option.getD_some] at hparameter
      have hparameters := mem_parts_of_mem_children hdefinition (List.mem_of_find?_eq_some hnode)
      exact mem_parts_of_mem_children hparameters (List.mem_of_mem_filter hparameter)

/-- A function before its parameters are read. -/
def bareSignature (source : String) (definition : Node) : FunctionSignature :=
  { FunctionSignature.named (definedName source definition) (lineOf definition) with
    isAsync := definition.children.any (·.kind = "async")
    returnType := definition.textAs? source "return_type"
    docComment := definitionDocstring source definition }

theorem functionSignature_eq (definition : Node) :
    functionSignature source definition =
      definition.parameterNodes.foldl (addParameter source) (bareSignature source definition) := by
  unfold functionSignature Node.parameterNodes
  cases definition.childAs? "parameters" <;> rfl

theorem line_functionSignature (definition : Node) :
    (functionSignature source definition).line = lineOf definition := by
  have hfold : ∀ (parameters : List Node) (function : FunctionSignature),
      (parameters.foldl (addParameter source) function).line = function.line := by
    intro parameters
    induction parameters with
    | nil => exact fun _ => rfl
    | cons parameter parameters ih =>
        intro function
        rw [List.foldl_cons, ih, line_addParameter]
  rw [functionSignature_eq, hfold]
  rfl

/-- A function stays well formed with every parameter that is read. -/
theorem wellFormed_functionSignature (hsignatures : root.HasSignatures source) {definition : Node}
    (hdefinition : definition ∈ root.parts) :
    (functionSignature source definition).WellFormed := by
  have hfold : ∀ (parameters : List Node) (function : FunctionSignature),
      (∀ parameter ∈ parameters, parameter ∈ root.parts) → function.WellFormed →
      (parameters.foldl (addParameter source) function).WellFormed := by
    intro parameters
    induction parameters with
    | nil => exact fun _ _ hwell => hwell
    | cons parameter parameters ih =>
        intro function hinside hwell
        rw [List.forall_mem_cons] at hinside
        exact ih _ hinside.2 (wellFormed_addParameter hsignatures hwell hinside.1)
  rw [functionSignature_eq]
  exact hfold _ _ (fun _ => mem_parts_of_mem_parameterNodes hdefinition)
    (FunctionSignature.wellFormed_of_bare rfl rfl)

theorem line_toFunction (definition : Definition) :
    (definition.toFunction source).line = lineOf definition.node :=
  line_functionSignature definition.node

theorem wellFormed_toFunction (hsignatures : root.HasSignatures source) {definition : Definition}
    (hdefinition : definition.node ∈ root.parts) : (definition.toFunction source).WellFormed := by
  obtain ⟨hhints, hdefaults⟩ := wellFormed_functionSignature hsignatures hdefinition
  exact ⟨hhints, hdefaults⟩

section Statements

variable (hlaid : root.IsLaidOut source) (hsignatures : root.HasSignatures source)
  {statements : List Node} (hstatements : (statements.flatMap Node.parts).Sublist root.parts)

include hlaid hsignatures hstatements

theorem linesWithin_functions :
    LinesWithin (lineCount source.toList)
      (((definitionsOf source "function_definition" statements).map (·.toFunction source)).map
        (·.line)) := by
  have hlines := linesWithin_definitionsOf hlaid hsignatures hstatements (Or.inl rfl)
  simpa [Function.comp_def, line_toFunction] using hlines

omit hlaid in
theorem wellFormed_functions {definition : Definition}
    (hdefinition : definition ∈ definitionsOf source "function_definition" statements) :
    (definition.toFunction source).WellFormed :=
  wellFormed_toFunction hsignatures
    ((nodes_definitionsOf_sublist hstatements _).subset (List.mem_map_of_mem hdefinition))

end Statements

theorem wellFormed_toClass (hlaid : root.IsLaidOut source)
    (hsignatures : root.HasSignatures source) {statements : List Node}
    (hstatements : (statements.flatMap Node.parts).Sublist root.parts) {definition : Definition}
    (hdefinition : definition ∈ definitionsOf source "class_definition" statements) :
    (definition.toClass source).WellFormed (lineCount source.toList) := by
  have hbody := parts_body_sublist_of_mem hstatements hdefinition
  constructor
  · exact nodup_foldl_addOnce _
  · exact linesWithin_functions hlaid hsignatures hbody
  · intro method hmethod
    obtain ⟨inner, hinner, rfl⟩ := List.mem_map.mp hmethod
    exact wellFormed_functions hsignatures hbody hinner

theorem wellFormed_modelOf {file : SourceFile} (hmodule : root.IsModule)
    (hlaid : root.IsLaidOut file.content) (hsignatures : root.HasSignatures file.content) :
    (modelOf file root).WellFormed := by
  have hreports := hmodule.reportsScope file
  have hstatements : (root.children.flatMap Node.parts).Sublist root.parts := by
    obtain ⟨label, children⟩ := root
    rw [parts_mk]
    exact List.sublist_cons_self _ _
  have htotal : (modelOf file root).metrics.totalLines = lineCount file.content.toList :=
    Metrics.totalLines_ofText_eq_lineCount .hash _
  constructor
  · exact Metrics.isAccounted_ofText .hash _
  · exact nodup_foldl_addOnce _
  · rw [htotal, hreports.classes]
    have hlines := linesWithin_definitionsOf hlaid hsignatures hstatements (Or.inr rfl)
    rwa [List.map_map]
  · rw [htotal, hreports.functions]
    exact linesWithin_functions hlaid hsignatures hstatements
  · intro signature hsignature
    rw [hreports.classes] at hsignature
    obtain ⟨definition, hdefinition, rfl⟩ := List.mem_map.mp hsignature
    rw [htotal]
    exact wellFormed_toClass hlaid hsignatures hstatements hdefinition
  · intro function hfunction
    rw [hreports.functions] at hfunction
    obtain ⟨definition, hdefinition, rfl⟩ := List.mem_map.mp hfunction
    exact wellFormed_functions hsignatures hstatements hdefinition
  · simp [modelOf, SourceModel.blank]
  · simp [modelOf, SourceModel.blank]
  · exact fun _ => rfl

end SourceAtlas.Python
