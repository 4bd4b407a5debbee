import SourceAtlas.Proofs.ExactDiscovery
import SourceAtlas.Proofs.TokenGaps
import SourceAtlas.Proofs.Words

/-!
# Recorded names

Names of parameters and imports are recorded as they are written, with what stands between
their tokens.  A name that is a single token cannot hold white space; a parameter behind
stars and a dotted name can.  So all names of a model are free of white space exactly if none
stands between the tokens of one of them.
-/

namespace SourceAtlas.Python

open Text

variable {source : String} {root node : Node}

/-- The node that says what is imported, whatever it is called in the file. -/
def Node.importedNode? (name : Node) : Option Node :=
  if name.kind = "aliased_import" then name.childAs? "name" else some name

def Node.importedNodes (statement : Node) : List Node :=
  (statement.childrenAs "name").filterMap Node.importedNode?

def Node.importsAll (statement : Node) : Bool :=
  statement.children.any (·.kind = "wildcard_import")

/-- The kinds of statements that import from a module. -/
def importFromKinds : List String :=
  ["import_from_statement", "future_import_statement"]

/-- The node that says from which module a statement imports, unless that is fixed. -/
def Node.moduleNode? (statement : Node) : Option Node :=
  if statement.kind = "import_from_statement" then statement.childAs? "module_name" else none

def Node.fixedModule (statement : Node) : String :=
  if statement.kind = "future_import_statement" then "__future__" else ""

/-- The nodes of which a statement records the texts, that of a module first. -/
def Node.importNames (statement : Node) : List Node :=
  if statement.kind = "import_statement" then statement.importedNodes
  else if statement.kind ∈ importFromKinds then
    statement.moduleNode?.toList ++ statement.importedNodes
  else []

def Node.moduleWith (read : Node → String) (statement : Node) : String :=
  (statement.moduleNode?.map read).getD statement.fixedModule

/-- The imports that a node states, if names are read in some way. -/
def Node.importsWith (read : Node → String) (node : Node) : List String :=
  if node.kind = "import_statement" then node.importedNodes.map ("import " ++ read ·)
  else if node.kind ∈ importFromKinds then
    (node.importedNodes.map read ++ if node.importsAll then ["*"] else []).map fun name =>
      "from " ++ node.moduleWith read ++ " import " ++ name
  else []

/-- Signs that tokens may be, besides names. -/
def nameSigns : List String := [".", "*", "**", "(", "["]

/-- A character with which a gap between tokens begins: white space, a space without width,
the start of a comment or the end of a continued line. -/
def isSeparator (c : Char) : Bool :=
  isBlank c || c ∈ ['\u200b', '\u2060', '\ufeff', '#', '\\']

/-- A gap that is none, or that has a separator in it. -/
def IsSpacing (gap : String) : Prop :=
  gap = "" ∨ ∃ c ∈ gap.toList, isSeparator c = true

instance (gap : String) : Decidable (IsSpacing gap) :=
  decidable_of_iff (gap = "" ∨ gap.toList.any isSeparator = true) (by simp [IsSpacing])

/-- The tokens of the name of a parameter, if that is an identifier behind stars. -/
def Node.IsPlain (name : Node) : Prop :=
  name.tokens.map Node.kind ∈ [["identifier"], ["*", "identifier"], ["**", "identifier"]]

instance (name : Node) : Decidable name.IsPlain :=
  inferInstanceAs (Decidable (_ ∈ _))

/-- The name of a module or of what is imported from one. -/
@[mk_iff]
structure Node.IsDotted (source : String) (name : Node) : Prop where
  spelled : name.IsSpelled source
  tokens : ∀ token ∈ name.tokens, token.kind ∈ ["identifier", "."]

/-- What a parameter is called: an identifier behind stars, or something longer. -/
@[mk_iff]
structure Node.IsParameterName (source : String) (name : Node) : Prop where
  spelled : name.IsSpelled source
  tokens : name.IsPlain ∨ ∃ token ∈ name.tokens, token.kind ∈ [".", "(", "["]
  gaps : name.IsPlain → ∀ gap ∈ name.gaps source, IsSpacing gap

/-- What the grammar of Python says of imports and of the names of parameters. -/
@[mk_iff]
structure Node.HasNames (source : String) (root : Node) : Prop where
  signs : ∀ part ∈ root.parts, part.kind ∈ nameSigns → part.text source = part.kind
  dotted : ∀ part ∈ root.parts, ∀ name ∈ part.importNames, name.IsDotted source
  aliased : ∀ part ∈ root.parts, part.kind = "aliased_import" →
    (part.childAs? "name").isSome = true
  module : ∀ part ∈ root.parts, part.kind = "import_from_statement" →
    (part.childAs? "module_name").isSome = true
  /-- An import from a module lists names, or it is an import of everything. -/
  listed : ∀ part ∈ root.parts, part.kind ∈ importFromKinds →
    part.importedNodes ≠ [] ∨ part.importsAll = true
  parameters : ∀ part ∈ root.parts, part.kind = "function_definition" →
    ∀ parameter ∈ part.parameterNodes, ∀ name ∈ parameter.parameterName?,
      name.IsParameterName source

instance (source : String) (name : Node) : Decidable (name.IsDotted source) :=
  decidable_of_iff' _ (Node.isDotted_iff source name)

instance (source : String) (name : Node) : Decidable (name.IsParameterName source) :=
  decidable_of_iff' _ (Node.isParameterName_iff source name)

instance (source : String) (root : Node) : Decidable (root.HasNames source) :=
  decidable_of_iff' _ (Node.hasNames_iff source root)

theorem importedName_eq (hnames : root.HasNames source) {name : Node} (hname : name ∈ root.parts) :
    (name.importedNode?.map (·.text source)) = some (importedName source name) := by
  unfold Node.importedNode? importedName
  split
  · next hkind =>
      obtain ⟨inner, hinner⟩ := Option.isSome_iff_exists.mp (hnames.aliased name hname hkind)
      rw [Node.textAs?, hinner, Option.map_some, Option.getD_some]
  · rfl

theorem map_importedName (hnames : root.HasNames source) {statement : Node}
    (hstatement : statement ∈ root.parts) :
    (statement.childrenAs "name").map (importedName source) =
      statement.importedNodes.map (·.text source) := by
  rw [Node.importedNodes, List.map_filterMap, ← List.filterMap_eq_map]
  apply List.filterMap_congr
  intro name hname
  have hpart := mem_parts_of_mem_children hstatement (List.mem_of_mem_filter hname)
  exact (importedName_eq hnames hpart).symm

theorem ne_import_of_mem_importFromKinds (hkind : node.kind ∈ importFromKinds) :
    node.kind ≠ "import_statement" := by
  intro hplain
  rw [hplain] at hkind
  exact absurd hkind (by decide)

theorem importNames_of_mem_importFromKinds (hkind : node.kind ∈ importFromKinds) :
    node.importNames = node.moduleNode?.toList ++ node.importedNodes := by
  rw [Node.importNames, if_neg (ne_import_of_mem_importFromKinds hkind), if_pos hkind]

theorem importedModule_eq (hkind : node.kind ∈ importFromKinds) :
    importedModule source node = node.moduleWith (·.text source) := by
  unfold importedModule Node.moduleWith Node.moduleNode? Node.fixedModule
  rcases List.mem_pair.mp hkind with hfrom | hfuture
  · simp [hfrom, Node.textAs?]
  · simp [hfuture]

theorem importsAt_eq (hnames : root.HasNames source) (hnode : node ∈ root.parts) :
    importsAt source node = node.importsWith (·.text source) := by
  have hmap := map_importedName hnames hnode
  unfold importsAt Node.importsWith importsFrom
  split
  · have hlines := congrArg (List.map ("import " ++ ·)) hmap
    rw [List.map_map, List.map_map] at hlines
    exact hlines
  · rw [hmap]
    refine ite_congr rfl (fun hkind => ?_) fun _ => rfl
    rw [importedModule_eq hkind]
    rfl

/-! ## White space in names -/

/-- The text holds no white space. -/
def IsBlankFree (text : String) : Prop :=
  ∀ c ∈ text.toList, isBlank c = false

instance (text : String) : Decidable (IsBlankFree text) :=
  decidable_of_iff (text.toList.any isBlank = false) (by simp [IsBlankFree])

/-- The text holds something, but no white space. -/
def IsUnspaced (text : String) : Prop :=
  text ≠ "" ∧ IsBlankFree text

instance (text : String) : Decidable (IsUnspaced text) :=
  inferInstanceAs (Decidable (_ ∧ _))

/-- No gap between the tokens of the node holds white space. -/
def Node.HasNoBlanks (source : String) (node : Node) : Prop :=
  ∀ gap ∈ node.gaps source, IsBlankFree gap

instance (source : String) (node : Node) : Decidable (node.HasNoBlanks source) :=
  inferInstanceAs (Decidable (∀ gap ∈ node.gaps source, IsBlankFree gap))

/-- A character that a star or a name may hold. -/
def isNameCharacter (c : Char) : Bool :=
  c = '*' || opensIdentifier c || continuesIdentifier c

theorem isNameCharacter_of_isSeparator {c : Char} (hc : isSeparator c = true) :
    isNameCharacter c = false := by
  have hblanks : ∀ code ∈ blankCodes, isNameCharacter (Char.ofNat code) = false := by
    decide +kernel
  have hothers : ['\u200b', '\u2060', '\ufeff', '#', '\\'].any isNameCharacter = false := by
    decide +kernel
  rw [isSeparator, Bool.or_eq_true, decide_eq_true_eq] at hc
  rcases hc with hblank | hother
  · have hcode := hblanks c.toNat (mem_blankCodes hblank)
    rwa [Char.ofNat_toNat] at hcode
  · exact Bool.eq_false_of_not_eq_true (List.any_eq_false.mp hothers c hother)

theorem IsIdentifier.isNameCharacter_of_mem {text : String} (htext : IsIdentifier text) :
    ∀ c ∈ text.toList, isNameCharacter c = true := by
  obtain ⟨first, rest, hchars, hopens, hrest⟩ := htext
  rw [hchars, List.forall_mem_cons]
  refine ⟨by simp [isNameCharacter, hopens], ?_⟩
  intro c hc
  simp [isNameCharacter, hrest c hc]

theorem IsIdentifier.isUnspaced {text : String} (htext : IsIdentifier text) :
    IsUnspaced text := by
  constructor
  · obtain ⟨first, rest, hchars, -⟩ := htext
    rintro rfl
    contradiction
  · intro c hc
    by_contra hblank
    have hseparator : isSeparator c = true := by
      rw [isSeparator, Bool.eq_true_of_not_eq_false hblank, Bool.true_or]
    have hname := htext.isNameCharacter_of_mem c hc
    rw [isNameCharacter_of_isSeparator hseparator] at hname
    contradiction

theorem tokens_subset_parts (node : Node) : node.tokens ⊆ node.parts :=
  List.filter_subset_self _

/-- The tokens of a dotted name hold no white space, so if there is some, it is in a gap. -/
theorem Node.IsDotted.isUnspaced_iff (hsignatures : root.HasSignatures source)
    (hnames : root.HasNames source) {name : Node} (hname : name ∈ root.parts)
    (hdotted : name.IsDotted source) :
    name.text source ≠ "" ∧ (IsUnspaced (name.text source) ↔ name.HasNoBlanks source) := by
  have hsigns : ∀ sign ∈ ["."], IsUnspaced sign := by decide
  have htokens : ∀ token ∈ name.tokens, IsUnspaced (token.text source) := by
    intro token htoken
    have hpart := parts_subset_of_mem_parts root hname (tokens_subset_parts name htoken)
    rcases List.mem_pair.mp (hdotted.tokens token htoken) with hkind | hkind
    · exact (hsignatures.identifiers token hpart hkind).isUnspaced
    · rw [hnames.signs token hpart (by rw [hkind]; decide), hkind]
      exact hsigns _ (List.mem_singleton_self _)
  have hne : name.text source ≠ "" := by
    obtain ⟨first, rest, hfirst, -⟩ := hdotted.spelled.exists_cons
    have hmem : first ∈ name.tokens := by rw [hfirst]; exact List.mem_cons_self
    obtain ⟨c, hc⟩ := List.exists_mem_of_ne_nil _
      (String.toList_eq_nil_iff.not.mpr (htokens first hmem).1)
    have hchar := hdotted.spelled.mem_text_iff.mpr (Or.inr ⟨first, hmem, hc⟩)
    intro hempty
    rw [hempty] at hchar
    contradiction
  refine ⟨hne, ?_⟩
  constructor
  · rintro ⟨-, hchars⟩ gap hgap c hc
    exact hchars c (hdotted.spelled.mem_text_iff.mpr (Or.inl ⟨gap, hgap, hc⟩))
  · intro hgaps
    refine ⟨hne, ?_⟩
    intro c hc
    rcases hdotted.spelled.mem_text_iff.mp hc with ⟨gap, hgap, hc⟩ | ⟨token, htoken, hc⟩
    · exact hgaps gap hgap c hc
    · exact (htokens token htoken).2 c hc

/-- An import as it is recorded, of a module or of a name in a module. -/
def IsImport (line : String) : Prop :=
  (∃ name, IsUnspaced name ∧ line = "import " ++ name) ∨
    ∃ module name, IsUnspaced module ∧ IsUnspaced name ∧
      line = "from " ++ module ++ " import " ++ name

def blankCount (text : String) : Nat :=
  text.toList.countP isBlank

theorem blankCount_append (first second : String) :
    blankCount (first ++ second) = blankCount first + blankCount second := by
  rw [blankCount, String.toList_append, List.countP_append]
  rfl

theorem blankCount_eq_zero_iff {text : String} :
    blankCount text = 0 ↔ IsBlankFree text := by
  simp [blankCount, IsBlankFree, List.countP_eq_zero]

theorem isImport_import_iff {name : String} :
    IsImport ("import " ++ name) ↔ IsUnspaced name := by
  constructor
  · rintro (⟨other, hother, heq⟩ | ⟨module, other, -, -, heq⟩)
    · rwa [(String.append_right_inj _).mp heq]
    · have hhead := congrArg (·.toList.head?) heq
      simp at hhead
  · exact fun hname => Or.inl ⟨name, hname, rfl⟩

/-- White space can be counted, so it cannot be moved between the module and the name. -/
theorem isImport_from_iff {module name : String} (hmodule : module ≠ "") (hname : name ≠ "") :
    IsImport ("from " ++ module ++ " import " ++ name) ↔ IsUnspaced module ∧ IsUnspaced name := by
  constructor
  · rintro (⟨other, -, heq⟩ | ⟨other, other', hother, hother', heq⟩)
    · have hhead := congrArg (·.toList.head?) heq
      simp at hhead
    · have hcount := congrArg blankCount heq
      simp only [blankCount_append, blankCount_eq_zero_iff.mpr hother.2,
        blankCount_eq_zero_iff.mpr hother'.2] at hcount
      exact ⟨⟨hmodule, blankCount_eq_zero_iff.mp (by omega)⟩,
        hname, blankCount_eq_zero_iff.mp (by omega)⟩
  · exact fun hboth => Or.inr ⟨module, name, hboth.1, hboth.2, rfl⟩

theorem mem_parts_of_mem_importedNodes {statement name : Node} (hstatement : statement ∈ root.parts)
    (hname : name ∈ statement.importedNodes) : name ∈ root.parts := by
  obtain ⟨outer, houter, hfound⟩ := List.mem_filterMap.mp hname
  have hpart := mem_parts_of_mem_children hstatement (List.mem_of_mem_filter houter)
  unfold Node.importedNode? at hfound
  split at hfound
  · exact mem_parts_of_mem_children hpart (List.mem_of_find?_eq_some hfound)
  · cases hfound
    exact hpart

theorem forall_isImport_importStatement (hsignatures : root.HasSignatures source)
    (hnames : root.HasNames source) (hnode : node ∈ root.parts)
    (hkind : node.kind = "import_statement") :
    (∀ line ∈ importsAt source node, IsImport line) ↔
      ∀ name ∈ node.importNames, name.HasNoBlanks source := by
  have hdotted := hnames.dotted node hnode
  rw [Node.importNames, if_pos hkind] at hdotted ⊢
  rw [importsAt_eq hnames hnode, Node.importsWith, if_pos hkind, List.forall_mem_map]
  apply forall₂_congr
  intro name hname
  rw [isImport_import_iff]
  exact ((hdotted name hname).isUnspaced_iff hsignatures hnames
    (mem_parts_of_mem_importedNodes hnode hname)).2

/-- The module of an import is a dotted name of its own, or a fixed one. -/
theorem isUnspaced_moduleWith_iff (hsignatures : root.HasSignatures source)
    (hnames : root.HasNames source) (hnode : node ∈ root.parts)
    (hkind : node.kind ∈ importFromKinds) :
    node.moduleWith (·.text source) ≠ "" ∧
      (IsUnspaced (node.moduleWith (·.text source)) ↔
        ∀ module ∈ node.moduleNode?.toList, module.HasNoBlanks source) := by
  have hdotted := hnames.dotted node hnode
  rw [importNames_of_mem_importFromKinds hkind] at hdotted
  rcases List.mem_pair.mp hkind with hfrom | hfuture
  · obtain ⟨module, hmodule⟩ := Option.isSome_iff_exists.mp (hnames.module node hnode hfrom)
    have hpart := mem_parts_of_mem_children hnode (List.mem_of_find?_eq_some hmodule)
    have hfound : node.moduleNode? = some module := by rw [Node.moduleNode?, if_pos hfrom, hmodule]
    have hboth := (hdotted module (by simp [hfound])).isUnspaced_iff hsignatures hnames hpart
    rw [Node.moduleWith, hfound, Option.map_some, Option.getD_some, Option.toList_some,
      List.forall_mem_singleton]
    exact hboth
  · have hfixed : node.moduleWith (·.text source) = "__future__" := by
      simp [Node.moduleWith, Node.moduleNode?, Node.fixedModule, hfuture]
    have hnone : node.moduleNode? = none := by simp [Node.moduleNode?, hfuture]
    have hunspaced : IsUnspaced "__future__" := by decide
    rw [hfixed, hnone]
    exact ⟨hunspaced.1, iff_of_true hunspaced (List.forall_mem_nil _)⟩

theorem forall_isImport_importFrom (hsignatures : root.HasSignatures source)
    (hnames : root.HasNames source) (hnode : node ∈ root.parts)
    (hkind : node.kind ∈ importFromKinds) :
    (∀ line ∈ importsAt source node, IsImport line) ↔
      ∀ name ∈ node.importNames, name.HasNoBlanks source := by
  have hother := ne_import_of_mem_importFromKinds hkind
  have hlist := importNames_of_mem_importFromKinds hkind
  have hall : IsUnspaced "*" := by decide
  obtain ⟨hmoduleNe, hmodule⟩ := isUnspaced_moduleWith_iff hsignatures hnames hnode hkind
  have himported : ∀ name ∈ node.importedNodes, name.text source ≠ "" ∧
      (IsUnspaced (name.text source) ↔ name.HasNoBlanks source) := by
    intro name hname
    have hdotted := hnames.dotted node hnode name (hlist ▸ List.mem_append_right _ hname)
    exact hdotted.isUnspaced_iff hsignatures hnames (mem_parts_of_mem_importedNodes hnode hname)
  rw [importsAt_eq hnames hnode, Node.importsWith, if_neg hother, if_pos hkind, hlist,
    List.forall_mem_append, ← hmodule]
  generalize hmarks : (if node.importsAll = true then ["*"] else []) = marks
  have hmarked : ∀ mark ∈ marks, mark = "*" := by
    rw [← hmarks]
    split <;> simp
  rw [List.forall_mem_map, List.forall_mem_append, List.forall_mem_map]
  constructor
  · rintro ⟨hnamed, hmark⟩
    have hnamedBoth := fun name hname =>
      (isImport_from_iff hmoduleNe (himported name hname).1).mp (hnamed name hname)
    refine ⟨?_, fun name hname => (himported name hname).2.mp (hnamedBoth name hname).2⟩
    rcases hnames.listed node hnode hkind with hsome | hstar
    · obtain ⟨name, hname⟩ := List.exists_mem_of_ne_nil _ hsome
      exact (hnamedBoth name hname).1
    · rw [if_pos hstar] at hmarks
      exact ((isImport_from_iff hmoduleNe hall.1).mp (hmark "*" (by simp [← hmarks]))).1
  · rintro ⟨hunspaced, hnamed⟩
    constructor
    · intro name hname
      exact (isImport_from_iff hmoduleNe (himported name hname).1).mpr
        ⟨hunspaced, (himported name hname).2.mpr (hnamed name hname)⟩
    · intro mark hmark
      rw [hmarked mark hmark]
      exact (isImport_from_iff hmoduleNe hall.1).mpr ⟨hunspaced, hall⟩

/-- What a node states are imports as they should be recorded exactly if no white space
stands between the tokens of its names. -/
theorem forall_isImport_iff (hsignatures : root.HasSignatures source)
    (hnames : root.HasNames source) (hnode : node ∈ root.parts) :
    (∀ line ∈ importsAt source node, IsImport line) ↔
      ∀ name ∈ node.importNames, name.HasNoBlanks source := by
  by_cases hplain : node.kind = "import_statement"
  · exact forall_isImport_importStatement hsignatures hnames hnode hplain
  by_cases hfrom : node.kind ∈ importFromKinds
  · exact forall_isImport_importFrom hsignatures hnames hnode hfrom
  · have himports : importsAt source node = [] := by
      rw [importsAt, if_neg hplain]
      exact if_neg hfrom
    rw [himports, Node.importNames, if_neg hplain, if_neg hfrom]
    exact iff_of_true (List.forall_mem_nil _) (List.forall_mem_nil _)

/-! ## Recorded parameters -/

/-- A name, perhaps behind stars. -/
def IsParameter (parameter : String) : Prop :=
  ∃ stars ∈ ["", "*", "**"], ∃ name, IsIdentifier name ∧ parameter = stars ++ name

theorem all_stars : ∀ stars ∈ ["", "*", "**"], stars.toList.all (· = '*') = true := by
  decide

/-- Behind stars, the identifier is what a type hint is recorded for. -/
theorem bareName_append {stars name : String} (hstars : stars ∈ ["", "*", "**"])
    (hname : IsIdentifier name) : FunctionSignature.bareName (stars ++ name) = name := by
  have hdrop : (stars ++ name).toList.dropWhile (· = '*') =
      name.toList.dropWhile (· = '*') := by
    rw [String.toList_append, List.dropWhile_append_of_pos]
    exact List.all_eq_true.mp (all_stars stars hstars)
  rw [FunctionSignature.bareName, hdrop]
  exact bareName_of_isIdentifier hname

theorem IsParameter.isNameCharacter_of_mem {parameter : String}
    (hparameter : IsParameter parameter) : ∀ c ∈ parameter.toList, isNameCharacter c = true := by
  obtain ⟨stars, hstars, name, hname, rfl⟩ := hparameter
  rw [String.toList_append, List.forall_mem_append]
  refine ⟨?_, hname.isNameCharacter_of_mem⟩
  intro c hc
  have hstar : c = '*' := of_decide_eq_true (List.all_eq_true.mp (all_stars stars hstars) c hc)
  simp [isNameCharacter, hstar]

section Parameters

variable (hnames : root.HasNames source) {name : Node} (hname : name ∈ root.parts)

include hnames hname

/-- Tokens that are signs up to the last one spell the signs and an identifier. -/
theorem exists_joined_eq (hsignatures : root.HasSignatures source) {signs : List String}
    (hsigns : signs ⊆ nameSigns) (htokens : name.tokens.map Node.kind = signs ++ ["identifier"]) :
    ∃ bare, IsIdentifier bare ∧ name.joined source = String.join signs ++ bare := by
  obtain ⟨marks, rest, hsplit, hmarks, hrest⟩ := List.map_eq_append_iff.mp htokens
  obtain ⟨last, rfl, hlast⟩ := List.map_eq_singleton_iff.mp hrest
  have hinside : ∀ token ∈ marks ++ [last], token ∈ root.parts := by
    intro token htoken
    rw [← hsplit] at htoken
    exact parts_subset_of_mem_parts root hname (tokens_subset_parts name htoken)
  rw [List.forall_mem_append, List.forall_mem_singleton] at hinside
  have htexts : marks.map (·.text source) = signs := by
    rw [← hmarks]
    apply List.map_congr_left
    intro mark hmark
    exact hnames.signs mark (hinside.1 mark hmark) (hsigns (hmarks ▸ List.mem_map_of_mem hmark))
  refine ⟨last.text source, hsignatures.identifiers last hinside.2 hlast, ?_⟩
  rw [Node.joined, hsplit, List.map_append, String.join_append, htexts]
  simp

/-- A parameter without gaps that is an identifier behind stars is recorded as one. -/
theorem isParameter_of_isTight (hsignatures : root.HasSignatures source)
    (hspelled : name.IsSpelled source) (hplain : name.IsPlain) (htight : name.IsTight source) :
    IsParameter (name.text source) := by
  have hstars : ∃ signs ∈ [[], ["*"], ["**"]],
      name.tokens.map Node.kind = signs ++ ["identifier"] := by
    simpa [Node.IsPlain] using hplain
  have hmarks : ∀ signs ∈ [[], ["*"], ["**"]],
      signs ⊆ nameSigns ∧ String.join signs ∈ ["", "*", "**"] := by
    decide
  obtain ⟨signs, hsigns, htokens⟩ := hstars
  obtain ⟨hsubset, hspells⟩ := hmarks signs hsigns
  obtain ⟨bare, hbare, hjoined⟩ := exists_joined_eq hnames hname hsignatures hsubset htokens
  rw [hspelled.text_eq_joined htight]
  exact ⟨String.join signs, hspells, bare, hbare, hjoined⟩

theorem isPlain_and_isTight_of_isParameter (hparameter : name.IsParameterName source)
    (hrecorded : IsParameter (name.text source)) : name.IsPlain ∧ name.IsTight source := by
  have hchars := hrecorded.isNameCharacter_of_mem
  rcases hparameter.tokens with hplain | ⟨token, htoken, hkind⟩
  · refine ⟨hplain, ?_⟩
    intro gap hgap
    rcases hparameter.gaps hplain gap hgap with hempty | ⟨c, hc, hseparator⟩
    · exact hempty
    · have hname := hchars c (hparameter.spelled.mem_text_iff.mpr (Or.inl ⟨gap, hgap, hc⟩))
      rw [isNameCharacter_of_isSeparator hseparator] at hname
      contradiction
  · have hpart := parts_subset_of_mem_parts root hname (tokens_subset_parts name htoken)
    have hsigns : ∀ sign ∈ [".", "(", "["],
        sign ∈ nameSigns ∧ sign.toList.all isNameCharacter = false := by
      decide
    obtain ⟨hsign, hother⟩ := hsigns _ hkind
    have hall : token.kind.toList.all isNameCharacter = true := by
      rw [List.all_eq_true, ← hnames.signs token hpart hsign]
      intro c hc
      exact hchars c (hparameter.spelled.mem_text_iff.mpr (Or.inr ⟨token, htoken, hc⟩))
    rw [hother] at hall
    contradiction

end Parameters

/-- The names of parameters that a type is recorded for. -/
def hintedNames (function : FunctionSignature) : List String :=
  function.typeHints.entries.map (·.1)

/-- The keys of a map behind one more key. -/
def insertName (names : List String) (name : String) : List String :=
  (SortedMap.insertEntry name () (names.map (·, ()))).map (·.1)

theorem map_fst_insertEntry {ν : Type} (key : String) (value : ν) (entries : List (String × ν)) :
    (SortedMap.insertEntry key value entries).map (·.1) =
      insertName (entries.map (·.1)) key := by
  unfold insertName
  induction entries with
  | nil => rfl
  | cons entry entries ih =>
      simp only [List.map_cons, SortedMap.insertEntry]
      split
      · simp
      · split
        · rw [List.map_cons, List.map_cons, ih]
        · simp

theorem eq_or_mem_of_mem_insertName {names : List String} {name key : String}
    (hkey : key ∈ insertName names name) : key = name ∨ key ∈ names := by
  obtain ⟨entry, hentry, rfl⟩ := List.mem_map.mp hkey
  rcases SortedMap.key_of_mem_insertEntry hentry with heq | ⟨old, hold, heq⟩
  · exact Or.inl heq
  · obtain ⟨name, hname, rfl⟩ := List.mem_map.mp hold
    exact Or.inr (heq ▸ hname)

theorem mem_or_mem_of_mem_foldl_insertName {added names : List String} {key : String}
    (hkey : key ∈ added.foldl insertName names) : key ∈ added ∨ key ∈ names := by
  induction added generalizing names with
  | nil => exact Or.inr hkey
  | cons name added ih =>
      rcases ih hkey with hlater | hhere
      · exact Or.inl (List.mem_cons_of_mem _ hlater)
      · rcases eq_or_mem_of_mem_insertName hhere with rfl | hold
        · exact Or.inl List.mem_cons_self
        · exact Or.inr hold

/-- Whether a type is recorded for the parameter. -/
def Node.isHinted (parameter : Node) : Bool :=
  parameter.kind ∉ plainParameters && (parameter.childAs? "type").isSome

/-- The nodes that name the parameters of a function. -/
def Node.parameterNames (definition : Node) : List Node :=
  definition.parameterNodes.filterMap Node.parameterName?

/-- The nodes that name the parameters with a type. -/
def Node.hintedParameters (definition : Node) : List Node :=
  (definition.parameterNodes.filter Node.isHinted).filterMap Node.parameterName?

/-- The keys under which types are recorded, if names are read in some way. -/
def Node.hintedWith (read : Node → String) (definition : Node) : List String :=
  (definition.hintedParameters.map fun name => FunctionSignature.bareName (read name)).foldl
    insertName []

theorem hintedNames_recordParameter (function : FunctionSignature) (name : String)
    (hint value : Option String) :
    hintedNames (recordParameter function name hint value) =
      if hint.isSome then
        insertName (hintedNames function) (FunctionSignature.bareName name)
      else hintedNames function := by
  cases hint with
  | none => rfl
  | some hint => exact map_fst_insertEntry _ _ _

theorem isSome_parameterType? (parameter : Node) :
    (parameter.parameterType? source).isSome = parameter.isHinted := by
  unfold Node.parameterType? Node.isHinted
  split
  · next hplain => simp [hplain]
  · next hplain => simp [Node.textAs?, hplain]

/-- What a function records of its parameters. -/
theorem foldl_addParameter (hsignatures : root.HasSignatures source) {parameters : List Node}
    (hparameters : ∀ parameter ∈ parameters, parameter ∈ root.parts)
    (function : FunctionSignature) :
    (parameters.foldl (addParameter source) function).parameters =
        function.parameters ++ (parameters.filterMap Node.parameterName?).map (·.text source) ∧
    hintedNames (parameters.foldl (addParameter source) function) =
      (((parameters.filter Node.isHinted).filterMap Node.parameterName?).map fun name =>
        FunctionSignature.bareName (name.text source)).foldl insertName (hintedNames function) := by
  induction parameters generalizing function with
  | nil => simp
  | cons parameter parameters ih =>
      rw [List.forall_mem_cons] at hparameters
      obtain ⟨hrest, hhinted⟩ := ih hparameters.2 (addParameter source function parameter)
      rw [List.foldl_cons, hrest, hhinted, addParameter_eq hsignatures hparameters.1]
      cases hname : parameter.parameterName? with
      | none =>
          rw [List.filterMap_cons_none hname, List.filter_cons]
          refine ⟨rfl, ?_⟩
          split
          · rw [List.filterMap_cons_none hname]
            rfl
          · rfl
      | some name =>
          rw [List.filterMap_cons_some hname, List.filter_cons, Option.map_some,
            Option.getD_some, hintedNames_recordParameter, isSome_parameterType?]
          refine ⟨by simp [recordParameter], ?_⟩
          split
          · rw [List.filterMap_cons_some hname]
            rfl
          · rfl

theorem parameters_functionSignature (hsignatures : root.HasSignatures source) {definition : Node}
    (hdefinition : definition ∈ root.parts) :
    (functionSignature source definition).parameters =
        definition.parameterNames.map (·.text source) ∧
      hintedNames (functionSignature source definition) =
        definition.hintedWith (·.text source) := by
  rw [functionSignature_eq]
  exact foldl_addParameter hsignatures
    (fun _ hparameter => mem_parts_of_mem_parameterNodes hdefinition hparameter) _

/-- The parameters are identifiers behind stars, without gaps. -/
def Node.HasPlainParameters (source : String) (definition : Node) : Prop :=
  ∀ name ∈ definition.parameterNames, name.IsPlain ∧ name.IsTight source

instance (source : String) (definition : Node) :
    Decidable (definition.HasPlainParameters source) :=
  inferInstanceAs (Decidable (∀ name ∈ definition.parameterNames, _ ∧ _))

section Functions

variable (hsignatures : root.HasSignatures source) (hnames : root.HasNames source)
  {definition : Node} (hdefinition : definition ∈ root.parts)
  (hkind : definition.kind = "function_definition")

include hnames hdefinition hkind

theorem isParameterName_of_mem {name : Node} (hname : name ∈ definition.parameterNames) :
    name ∈ root.parts ∧ name.IsParameterName source := by
  obtain ⟨parameter, hparameter, hfound⟩ := List.mem_filterMap.mp hname
  have hpart := mem_parts_of_mem_parameterNodes hdefinition hparameter
  refine ⟨?_, hnames.parameters definition hdefinition hkind parameter hparameter name hfound⟩
  unfold Node.parameterName? at hfound
  split at hfound
  · cases hfound
    exact hpart
  split at hfound
  · exact mem_parts_of_mem_children hpart
      (List.mem_of_mem_filter (List.mem_of_mem_head? hfound))
  split at hfound
  · exact mem_parts_of_mem_children hpart (List.mem_of_find?_eq_some hfound)
  · contradiction

include hsignatures

theorem forall_isParameter_iff :
    (∀ parameter ∈ (functionSignature source definition).parameters, IsParameter parameter) ↔
      definition.HasPlainParameters source := by
  rw [(parameters_functionSignature hsignatures hdefinition).1, List.forall_mem_map]
  apply forall₂_congr
  intro name hname
  obtain ⟨hpart, hparameter⟩ := isParameterName_of_mem hnames hdefinition hkind hname
  constructor
  · exact isPlain_and_isTight_of_isParameter hnames hpart hparameter
  · rintro ⟨hplain, htight⟩
    exact isParameter_of_isTight hnames hpart hsignatures hparameter.spelled hplain htight

theorem forall_isIdentifier (hplain : definition.HasPlainParameters source) :
    ∀ name ∈ hintedNames (functionSignature source definition), IsIdentifier name := by
  intro key hkey
  rw [(parameters_functionSignature hsignatures hdefinition).2] at hkey
  rcases mem_or_mem_of_mem_foldl_insertName hkey with hkey | hnone
  · obtain ⟨name, hname, rfl⟩ := List.mem_map.mp hkey
    have hmem : name ∈ definition.parameterNames :=
      (List.filter_sublist.filterMap _).subset hname
    obtain ⟨hpart, hparameter⟩ := isParameterName_of_mem hnames hdefinition hkind hmem
    obtain ⟨stars, hstars, bare, hbare, htext⟩ :=
      isParameter_of_isTight hnames hpart hsignatures hparameter.spelled (hplain name hmem).1
        (hplain name hmem).2
    change IsIdentifier (FunctionSignature.bareName (name.text source))
    rw [htext, bareName_append hstars hbare]
    exact hbare
  · exact absurd hnone List.not_mem_nil

end Functions

/-! ## Names of models -/

/-- The names of parameters and imports in a model. -/
structure Names where
  /-- The parameters of each function. -/
  parameters : List (List String)
  /-- The parameters of each function that a type is recorded for. -/
  hinted : List (List String)
  imports : List String
  deriving DecidableEq

/-- Nothing but names, stars and dots is recorded for names. -/
structure Names.IsClean (names : Names) : Prop where
  parameters : ∀ parameters ∈ names.parameters, ∀ parameter ∈ parameters, IsParameter parameter
  hinted : ∀ hinted ∈ names.hinted, ∀ name ∈ hinted, IsIdentifier name
  imports : ∀ line ∈ names.imports, IsImport line

/-- The functions that a model reports, methods behind the others. -/
def allFunctions (model : SourceModel) : List FunctionSignature :=
  model.functions ++ model.classes.flatMap (·.methods)

def namesOf (model : SourceModel) : Names :=
  { parameters := (allFunctions model).map (·.parameters)
    hinted := (allFunctions model).map hintedNames
    imports := model.imports }

/-- The node of the definition that a statement is, without its decorators. -/
def Node.definitionNode? (kind : String) (statement : Node) : Option Node :=
  if statement.kind = "decorated_definition" then statement.children.find? (·.kind = kind)
  else if statement.kind = kind then some statement
  else none

/-- The statements that stand directly in the body of a definition. -/
def Node.bodyStatements (definition : Node) : List Node :=
  (definition.children.filter (·.kind = "block")).flatMap Node.children

/-- The functions among some statements, and those in the classes among them. -/
def functionNodes (statements : List Node) : List Node :=
  statements.filterMap (·.definitionNode? "function_definition") ++
    (statements.filterMap (·.definitionNode? "class_definition")).flatMap fun definition =>
      definition.bodyStatements.filterMap (·.definitionNode? "function_definition")

/-- The names in a file, if they are read in some way. -/
def namesWith (read : Node → String) (root : Node) : Names :=
  { parameters := (functionNodes root.children).map fun definition =>
      definition.parameterNames.map read
    hinted := (functionNodes root.children).map (·.hintedWith read)
    imports := root.parts.flatMap (·.importsWith read) }

theorem map_node_definitionsOf (source kind : String) (statements : List Node) :
    (definitionsOf source kind statements).map (·.node) =
      statements.filterMap (·.definitionNode? kind) := by
  rw [definitionsOf, List.map_filterMap]
  congr 1
  funext statement
  unfold Node.definition? Node.definitionNode?
  split
  · cases statement.children.find? (·.kind = kind) <;> rfl
  · split <;> rfl

theorem ReportsScope.allFunctions_map {α : Type} {statements : List Node} {model : SourceModel}
    (hreports : ReportsScope source statements model) (content : FunctionSignature → α)
    (hcontent : ∀ function decorators,
      content { function with decorators := decorators } = content function) :
    (allFunctions model).map content =
      (functionNodes statements).map fun definition =>
        content (functionSignature source definition) := by
  have hfunctions : ∀ nodes : List Node,
      ((definitionsOf source "function_definition" nodes).map (·.toFunction source)).map content =
        (nodes.filterMap (·.definitionNode? "function_definition")).map fun definition =>
          content (functionSignature source definition) := by
    intro nodes
    rw [← map_node_definitionsOf source, List.map_map, List.map_map]
    exact List.map_congr_left fun definition _ => hcontent _ _
  rw [allFunctions, functionNodes, hreports.functions, hreports.classes, List.map_append,
    List.map_append, hfunctions, List.flatMap_map, List.map_flatMap, List.map_flatMap,
    ← map_node_definitionsOf source "class_definition", List.flatMap_map]
  congr 1
  exact List.flatMap_congr fun definition _ => hfunctions definition.body

theorem mem_parts_of_definitionNode? {statement definition : Node} {kind : String}
    (hstatement : statement ∈ root.parts)
    (hdefinition : statement.definitionNode? kind = some definition) :
    definition ∈ root.parts ∧ definition.kind = kind := by
  unfold Node.definitionNode? at hdefinition
  split at hdefinition
  · exact ⟨mem_parts_of_mem_children hstatement (List.mem_of_find?_eq_some hdefinition),
      by simpa using List.find?_some hdefinition⟩
  · split at hdefinition
    · next hkind =>
        cases hdefinition
        exact ⟨hstatement, hkind⟩
    · contradiction

theorem mem_parts_of_mem_functionNodes {statements : List Node}
    (hstatements : ∀ statement ∈ statements, statement ∈ root.parts) {definition : Node}
    (hdefinition : definition ∈ functionNodes statements) :
    definition ∈ root.parts ∧ definition.kind = "function_definition" := by
  rcases List.mem_append.mp hdefinition with hdirect | hmethod
  · obtain ⟨statement, hstatement, hfound⟩ := List.mem_filterMap.mp hdirect
    exact mem_parts_of_definitionNode? (hstatements statement hstatement) hfound
  · obtain ⟨outer, houter, hmethod⟩ := List.mem_flatMap.mp hmethod
    obtain ⟨statement, hstatement, hfound⟩ := List.mem_filterMap.mp houter
    obtain ⟨inner, hinner, hmethod⟩ := List.mem_filterMap.mp hmethod
    obtain ⟨block, hblock, hinner⟩ := List.mem_flatMap.mp hinner
    have hclass := (mem_parts_of_definitionNode? (hstatements statement hstatement) hfound).1
    have hbody := mem_parts_of_mem_children hclass (List.mem_of_mem_filter hblock)
    exact mem_parts_of_definitionNode? (mem_parts_of_mem_children hbody hinner) hmethod

/-- Nothing stands between the tokens of names that should not be recorded. -/
@[mk_iff]
structure Node.IsRecordedClean (source : String) (root : Node) : Prop where
  parameters : ∀ definition ∈ functionNodes root.children, definition.HasPlainParameters source
  imports : ∀ part ∈ root.parts, ∀ name ∈ part.importNames, name.HasNoBlanks source

instance (source : String) (root : Node) : Decidable (root.IsRecordedClean source) :=
  decidable_of_iff' _ (Node.isRecordedClean_iff source root)

section Models

variable {file : SourceFile} (hmodule : root.IsModule)
  (hsignatures : root.HasSignatures file.content) (hnames : root.HasNames file.content)

theorem mem_parts_of_mem_functionNodes_children {definition : Node}
    (hdefinition : definition ∈ functionNodes root.children) :
    definition ∈ root.parts ∧ definition.kind = "function_definition" :=
  mem_parts_of_mem_functionNodes
    (fun _ hstatement => mem_parts_of_mem_children (mem_parts_self root) hstatement) hdefinition

include hmodule hsignatures hnames

theorem namesOf_modelOf :
    namesOf (modelOf file root) = namesWith (·.text file.content) root := by
  have hreports := hmodule.reportsScope file
  have himports : (modelOf file root).imports =
      root.parts.flatMap (·.importsWith (·.text file.content)) := by
    have hgathers : (root.outline file.content .file []).Gathers file.content root.parts :=
      gathers_outline .file [] root
    exact hgathers.imports.trans (List.flatMap_congr fun part hpart => importsAt_eq hnames hpart)
  have hsignature : ∀ definition ∈ functionNodes root.children, _ := fun definition hdefinition =>
    parameters_functionSignature hsignatures
      (mem_parts_of_mem_functionNodes_children hdefinition).1
  rw [namesOf, namesWith, himports, hreports.allFunctions_map (·.parameters) fun _ _ => rfl,
    hreports.allFunctions_map hintedNames fun _ _ => rfl]
  congr 1
  · exact List.map_congr_left fun definition hdefinition => (hsignature definition hdefinition).1
  · exact List.map_congr_left fun definition hdefinition => (hsignature definition hdefinition).2

/-- The names in the model of a file are free of white space exactly if none stands between
the tokens of one of them. -/
theorem isClean_namesOf_iff :
    (namesOf (modelOf file root)).IsClean ↔ root.IsRecordedClean file.content := by
  have hinside : ∀ definition ∈ functionNodes root.children,
      definition ∈ root.parts ∧ definition.kind = "function_definition" :=
    fun _ => mem_parts_of_mem_functionNodes_children
  have hparameters : ∀ definition ∈ functionNodes root.children,
      ((∀ parameter ∈ definition.parameterNames.map (·.text file.content), IsParameter parameter) ↔
        definition.HasPlainParameters file.content) := by
    intro definition hdefinition
    obtain ⟨hpart, hkind⟩ := hinside definition hdefinition
    rw [← (parameters_functionSignature hsignatures hpart).1]
    exact forall_isParameter_iff hsignatures hnames hpart hkind
  rw [namesOf_modelOf hmodule hsignatures hnames]
  constructor
  · rintro ⟨hclean, -, himports⟩
    constructor
    · intro definition hdefinition
      exact (hparameters definition hdefinition).mp (hclean _ (List.mem_map_of_mem hdefinition))
    · intro part hpart
      refine (forall_isImport_iff hsignatures hnames hpart).mp fun line hline => ?_
      rw [importsAt_eq hnames hpart] at hline
      exact himports line (List.mem_flatMap.mpr ⟨part, hpart, hline⟩)
  · rintro ⟨hplain, hblanks⟩
    constructor
    · refine List.forall_mem_map.mpr fun definition hdefinition => ?_
      exact (hparameters definition hdefinition).mpr (hplain definition hdefinition)
    · refine List.forall_mem_map.mpr fun definition hdefinition => ?_
      obtain ⟨hpart, hkind⟩ := hinside definition hdefinition
      rw [← (parameters_functionSignature hsignatures hpart).2]
      exact forall_isIdentifier hsignatures hnames hpart hkind (hplain definition hdefinition)
    · intro line hline
      obtain ⟨part, hpart, hline⟩ := List.mem_flatMap.mp hline
      rw [← importsAt_eq hnames hpart] at hline
      exact (forall_isImport_iff hsignatures hnames hpart).mpr (hblanks part hpart) line hline

end Models

end SourceAtlas.Python
