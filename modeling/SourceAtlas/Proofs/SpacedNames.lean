import SourceAtlas.Proofs.Respacing
import SourceAtlas.Python.Parsing

/-!
# Names in respaced files

The names of a file without gaps inside of them are those that its tokens spell, and every gap
makes a name longer than that.  So a file whose names have no gaps keeps them under every other
spacing that puts none inside of a name, and under no other one.
-/

namespace SourceAtlas.Python

variable {source : String} {root node : Node}

theorem moduleWith_congr {read read' : Node → String}
    (hread : ∀ module ∈ node.moduleNode?.toList, read module = read' module) :
    node.moduleWith read = node.moduleWith read' := by
  unfold Node.moduleWith
  cases hmodule : node.moduleNode? with
  | none => rfl
  | some module =>
      rw [Option.map_some, Option.map_some, hread module (by simp [hmodule])]

theorem importsWith_congr {read read' : Node → String}
    (hread : ∀ name ∈ node.importNames, read name = read' name) :
    node.importsWith read = node.importsWith read' := by
  by_cases hplain : node.kind = "import_statement"
  · rw [Node.importNames, if_pos hplain] at hread
    rw [Node.importsWith, Node.importsWith, if_pos hplain, if_pos hplain]
    exact List.map_congr_left fun name hname => congrArg ("import " ++ ·) (hread name hname)
  by_cases hfrom : node.kind ∈ importFromKinds
  · rw [importNames_of_mem_importFromKinds hfrom, List.forall_mem_append] at hread
    rw [Node.importsWith, Node.importsWith, if_neg hplain, if_neg hplain, if_pos hfrom,
      if_pos hfrom, moduleWith_congr hread.1, List.map_congr_left hread.2]
  · rw [Node.importsWith, Node.importsWith, if_neg hplain, if_neg hplain, if_neg hfrom,
      if_neg hfrom]

theorem length_from_import (module name : String) :
    ("from " ++ module ++ " import " ++ name).length = module.length + name.length + 13 := by
  have hfrom : "from ".length = 5 := rfl
  have himport : " import ".length = 8 := rfl
  rw [String.length_append, String.length_append, String.length_append, hfrom, himport]
  omega

section Lines

variable (hnames : root.HasNames source) (hnode : node ∈ root.parts)

include hnames hnode

theorem isTight_of_length_le {name : Node} (hname : name ∈ node.importNames)
    (hlength : (name.text source).length ≤ (name.joined source).length) : name.IsTight source := by
  have hspelled := (hnames.dotted node hnode name hname).spelled
  have hle := hspelled.length_joined_le
  exact hspelled.isTight_iff.mpr (by omega)

/-- A gap in the name of the module makes what is recorded of it longer. -/
theorem length_moduleWith (hkind : node.kind ∈ importFromKinds) :
    (node.moduleWith (·.joined source)).length ≤ (node.moduleWith (·.text source)).length ∧
      ((node.moduleWith (·.text source)).length ≤ (node.moduleWith (·.joined source)).length →
        ∀ module ∈ node.moduleNode?.toList, module.IsTight source) := by
  have hlist := importNames_of_mem_importFromKinds hkind
  unfold Node.moduleWith
  cases hmodule : node.moduleNode? with
  | none => exact ⟨Nat.le_refl _, fun _ => List.forall_mem_nil _⟩
  | some module =>
      have hmem : module ∈ node.importNames := by simp [hlist, hmodule]
      have hspelled := (hnames.dotted node hnode module hmem).spelled
      rw [Option.toList_some, List.forall_mem_singleton]
      exact ⟨hspelled.length_joined_le, isTight_of_length_le hnames hnode hmem⟩

/-- In an import from a module every gap makes a line longer. -/
theorem isTight_of_importsFrom_eq (hkind : node.kind ∈ importFromKinds)
    (heq : node.importsWith (·.text source) = node.importsWith (·.joined source)) :
    ∀ name ∈ node.importNames, name.IsTight source := by
  have hother := ne_import_of_mem_importFromKinds hkind
  have hlist := importNames_of_mem_importFromKinds hkind
  obtain ⟨hmoduleLe, hmodule⟩ := length_moduleWith hnames hnode hkind
  rw [Node.importsWith, Node.importsWith, if_neg hother, if_neg hother, if_pos hkind,
    if_pos hkind, List.map_append, List.map_append] at heq
  obtain ⟨hnamed, hmarks⟩ := List.append_inj heq (by simp)
  rw [List.map_map, List.map_map, List.map_inj_left] at hnamed
  have himported : ∀ name ∈ node.importedNodes,
      name.IsTight source ∧ (node.moduleWith (·.text source)).length ≤
        (node.moduleWith (·.joined source)).length := by
    intro name hname
    have hmem : name ∈ node.importNames := hlist ▸ List.mem_append_right _ hname
    have hle := (hnames.dotted node hnode name hmem).spelled.length_joined_le
    have hline := congrArg String.length (hnamed name hname)
    simp only [Function.comp_apply, length_from_import] at hline
    exact ⟨isTight_of_length_le hnames hnode hmem (by omega), by omega⟩
  rw [hlist, List.forall_mem_append]
  refine ⟨hmodule ?_, fun name hname => (himported name hname).1⟩
  rcases hnames.listed node hnode hkind with hsome | hall
  · obtain ⟨name, hname⟩ := List.exists_mem_of_ne_nil _ hsome
    exact (himported name hname).2
  · rw [if_pos hall, List.map_singleton, List.map_singleton, List.singleton_inj] at hmarks
    have hline := congrArg String.length hmarks
    rw [length_from_import, length_from_import] at hline
    omega

/-- What a node states is what the tokens of its names spell exactly if there are no gaps. -/
theorem importsWith_eq_iff :
    node.importsWith (·.text source) = node.importsWith (·.joined source) ↔
      ∀ name ∈ node.importNames, name.IsTight source := by
  constructor
  · intro heq
    by_cases hfrom : node.kind ∈ importFromKinds
    · exact isTight_of_importsFrom_eq hnames hnode hfrom heq
    by_cases hplain : node.kind = "import_statement"
    · have hlist : node.importNames = node.importedNodes := if_pos hplain
      rw [Node.importsWith, Node.importsWith, if_pos hplain, if_pos hplain, List.map_inj_left]
        at heq
      intro name hname
      have hsame := (String.append_right_inj _).mp (heq name (hlist ▸ hname))
      exact isTight_of_length_le hnames hnode hname (by rw [hsame])
    · rw [Node.importNames, if_neg hplain, if_neg hfrom]
      exact List.forall_mem_nil _
  · intro htight
    apply importsWith_congr
    intro name hname
    exact (hnames.dotted node hnode name hname).spelled.text_eq_joined (htight name hname)

end Lines

theorem length_importsWith (read read' : Node → String) :
    (node.importsWith read).length = (node.importsWith read').length := by
  unfold Node.importsWith
  split
  · simp
  · split <;> simp

/-- Nothing stands between the tokens of a name that is recorded. -/
@[mk_iff]
structure Node.IsRecordedTight (source : String) (root : Node) : Prop where
  parameters : ∀ definition ∈ functionNodes root.children,
    ∀ name ∈ definition.parameterNames, name.IsTight source
  imports : ∀ part ∈ root.parts, ∀ name ∈ part.importNames, name.IsTight source

instance (source : String) (root : Node) : Decidable (root.IsRecordedTight source) :=
  decidable_of_iff' _ (Node.isRecordedTight_iff source root)

section Files

variable (hnames : root.HasNames source)

include hnames

theorem isSpelled_of_mem_parameterNames {definition name : Node}
    (hdefinition : definition ∈ functionNodes root.children)
    (hname : name ∈ definition.parameterNames) : name.IsSpelled source := by
  obtain ⟨hpart, hkind⟩ := mem_parts_of_mem_functionNodes_children hdefinition
  exact (isParameterName_of_mem hnames hpart hkind hname).2.spelled

theorem Node.IsRecordedTight.namesWith_eq (htight : root.IsRecordedTight source) :
    namesWith (·.text source) root = namesWith (·.joined source) root := by
  have hparameters : ∀ definition ∈ functionNodes root.children,
      ∀ name ∈ definition.parameterNames, name.text source = name.joined source := by
    intro definition hdefinition name hname
    have hspelled := isSpelled_of_mem_parameterNames hnames hdefinition hname
    exact hspelled.text_eq_joined (htight.parameters definition hdefinition name hname)
  rw [namesWith, namesWith, Names.mk.injEq]
  refine ⟨?_, ?_, ?_⟩
  · apply List.map_congr_left
    intro definition hdefinition
    exact List.map_congr_left (hparameters definition hdefinition)
  · apply List.map_congr_left
    intro definition hdefinition
    refine congrArg (List.foldl insertName []) (List.map_congr_left fun name hname => ?_)
    have hmem : name ∈ definition.parameterNames :=
      (List.filter_sublist.filterMap _).subset hname
    exact congrArg FunctionSignature.bareName (hparameters definition hdefinition name hmem)
  · apply List.flatMap_congr
    intro part hpart
    exact (importsWith_eq_iff hnames hpart).mpr (htight.imports part hpart)

theorem isRecordedTight_of_namesWith_eq
    (heq : namesWith (·.text source) root = namesWith (·.joined source) root) :
    root.IsRecordedTight source := by
  rw [namesWith, namesWith, Names.mk.injEq, List.map_inj_left] at heq
  obtain ⟨hparameters, -, himports⟩ := heq
  constructor
  · intro definition hdefinition name hname
    have hspelled := isSpelled_of_mem_parameterNames hnames hdefinition hname
    have htext := List.map_inj_left.mp (hparameters definition hdefinition) name hname
    exact hspelled.isTight_iff.mpr (congrArg String.length htext)
  · -- Each part states as many imports either way, so the lists agree part by part.
    have hpieces : root.parts.map (·.importsWith (·.text source)) =
        root.parts.map (·.importsWith (·.joined source)) := by
      rw [List.eq_iff_flatten_eq, List.map_map, List.map_map]
      exact ⟨himports, List.map_congr_left fun part _ => length_importsWith _ _⟩
    intro part hpart
    exact (importsWith_eq_iff hnames hpart).mp (List.map_inj_left.mp hpieces part hpart)

end Files

/-- The tree of a file without errors is as the grammar of Python says. -/
@[mk_iff]
structure Node.IsGrammatical (source : String) (root : Node) : Prop where
  faultless : root.IsFaultless
  module : root.IsModule
  signatures : root.HasSignatures source
  names : root.HasNames source
  extras : root.HasLooseExtras

instance (source : String) (root : Node) : Decidable (root.IsGrammatical source) :=
  decidable_of_iff' _ (Node.isGrammatical_iff source root)

theorem Node.IsGrammatical.namesOf_modelOf {file : SourceFile}
    (hroot : root.IsGrammatical file.content) :
    namesOf (modelOf file root) = namesWith (·.text file.content) root :=
  Python.namesOf_modelOf hroot.module hroot.signatures hroot.names

/-- The model of a file records names with all that stands between their tokens, so they are
free of white space exactly if none stands there.  If nothing at all stands there, then another
file with the same tokens has the same names exactly if nothing stands there either. -/
theorem exists_names_of_isGrammatical {parser : Parser} {file : SourceFile}
    (hparsed : parser file.content = some root) (hroot : root.IsGrammatical file.content) :
    ∃ model : SourceModel, extract parser file = .ok model ∧
      namesOf model = namesWith (·.text file.content) root ∧
      ((namesOf model).IsClean ↔ root.IsRecordedClean file.content) ∧
      (root.IsRecordedTight file.content →
        ∀ (file' : SourceFile) (root' : Node), parser file'.content = some root' →
          root'.IsGrammatical file'.content →
          root.isAlike file.content file'.content root' = true →
          ∃ model' : SourceModel, extract parser file' = .ok model' ∧
            (namesOf model' = namesOf model ↔ root'.IsRecordedTight file'.content)) := by
  refine ⟨modelOf file root, extract_of_isFaultless hparsed hroot.faultless,
    hroot.namesOf_modelOf, isClean_namesOf_iff hroot.module hroot.signatures hroot.names, ?_⟩
  intro htight file' root' hparsed' hroot' halike
  refine ⟨modelOf file' root', extract_of_isFaultless hparsed' hroot'.faultless, ?_⟩
  have hmatches : root.Matches file.content file'.content root' :=
    ⟨halike, hroot.extras, hroot'.extras⟩
  rw [hroot.namesOf_modelOf, hroot'.namesOf_modelOf, htight.namesWith_eq hroot.names,
    hmatches.namesWith_eq]
  exact ⟨isRecordedTight_of_namesWith_eq hroot'.names,
    fun htight' => htight'.namesWith_eq hroot'.names⟩

/-- A file without gaps inside of names. -/
def closeFile : SourceFile :=
  { path := Path.ofNames ["close.py"]
    content := "import a.b as c\nfrom .d import e\ndef g(x, *args: int): pass\n"
    lastModified := .epoch }

/-- The same file with other gaps between its names. -/
def looseFile : SourceFile :=
  { path := Path.ofNames ["loose.py"]
    content := "import  a.b  as c\nfrom  .d import  e\ndef g( x,\n   *args : int ) : pass\n"
    lastModified := .epoch }

def closeNames : Names :=
  { parameters := [["x", "*args"]], hinted := [["args"]]
    imports := ["import a.b", "from .d import e"] }

theorem exists_names_closeFile_looseFile :
    ∃ (root root' : Node) (model model' : SourceModel),
      parse closeFile.content = some root ∧ root.IsGrammatical closeFile.content ∧
      parse looseFile.content = some root' ∧ root'.IsGrammatical looseFile.content ∧
      root.isAlike closeFile.content looseFile.content root' = true ∧
      extract parse closeFile = .ok model ∧ extract parse looseFile = .ok model' ∧
      root.IsRecordedTight closeFile.content ∧ root'.IsRecordedTight looseFile.content ∧
      namesOf model = namesWith (·.text closeFile.content) root ∧ (namesOf model).IsClean ∧
      namesOf model = closeNames ∧ namesOf model' = closeNames := by
  have hclose : (parse closeFile.content).any (fun root =>
      root.IsGrammatical closeFile.content ∧ root.IsRecordedTight closeFile.content ∧
      root.IsRecordedClean closeFile.content ∧
      namesOf (modelOf closeFile root) = closeNames ∧
      (parse looseFile.content).any (fun root' =>
        root'.IsGrammatical looseFile.content ∧ root'.IsRecordedTight looseFile.content ∧
        root.isAlike closeFile.content looseFile.content root' = true) = true) = true := by
    decide +kernel
  obtain ⟨root, hparsed, hroot, htight, hblanks, hnames, hloose⟩ := exists_root_of_any hclose
  obtain ⟨root', hparsed', hroot', htight', halike⟩ := exists_root_of_any hloose
  obtain ⟨model, hmodel, hrecorded, hclean, hother⟩ :=
    exists_names_of_isGrammatical hparsed hroot
  obtain ⟨model', hmodel', hsame⟩ := hother htight looseFile root' hparsed' hroot' halike
  obtain rfl := Except.ok.inj ((extract_of_isFaultless hparsed hroot.faultless).symm.trans hmodel)
  exact ⟨root, root', _, model', hparsed, hroot, hparsed', hroot', halike, hmodel, hmodel',
    htight, htight', hrecorded, hclean.mpr hblanks, hnames, (hsame.mpr htight').trans hnames⟩

/-- A file with gaps behind a star and around a dot. -/
def spacedFile : SourceFile :=
  { path := Path.ofNames ["spaced.py"]
    content := "import a . b\ndef f(* args: int): pass\n"
    lastModified := .epoch }

theorem not_isClean_spacedFile :
    ¬∀ (parser : Parser) (file : SourceFile) (root : Node) (model : SourceModel),
      parser file.content = some root → root.IsGrammatical file.content →
      extract parser file = .ok model → (namesOf model).IsClean := by
  intro hall
  have hfound : (parse spacedFile.content).any (fun root =>
      root.IsGrammatical spacedFile.content ∧
      namesOf (modelOf spacedFile root) =
        { parameters := [["* args"]], hinted := [[" args"]]
          imports := ["import a . b"] }) = true := by
    decide +kernel
  obtain ⟨root, hparsed, hroot, hnames⟩ := exists_root_of_any hfound
  have hclean := hall parse spacedFile root _ hparsed hroot
    (extract_of_isFaultless hparsed hroot.faultless)
  rw [hnames] at hclean
  have himport : IsUnspaced "a . b" :=
    isImport_import_iff.mp (hclean.imports "import a . b" List.mem_cons_self)
  exact absurd himport (by decide)

end SourceAtlas.Python
