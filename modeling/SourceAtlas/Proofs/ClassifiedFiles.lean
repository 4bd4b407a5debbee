import SourceAtlas.Proofs.AnalyzeRuns
import SourceAtlas.Proofs.PathWalks

/-!
# Classified files

A scan of the working directory meets a file as an entry far down in the tree and knows it
by the names on the way.  The path of these names leads back to the file, so whoever
classifies it by that path reads the same bytes, with the same settings, under the same
path.  What is printed about the file is therefore what the report says.
-/

namespace SourceAtlas

theorem FileTree.directory_of_node_current {tree : FileTree} {node : FileNode}
    (hnode : tree.node ⟨"."⟩ = .ok node) :
    tree.root.descend? tree.workingDirectory = some node ∧
      ∃ entries, node = .directory entries := by
  obtain ⟨way, hresolve, hleads⟩ := exists_resolve hnode
  obtain ⟨-, hwalk⟩ := resolve_eq_ok_iff.mp hresolve
  have hstep : Step tree.root tree.workingDirectory.reverse ['.'] way.reverse :=
    walk_singleton_iff.mp hwalk
  obtain rfl : way = tree.workingDirectory :=
    List.reverse_inj.mp (hstep.eq_of_isStay rfl)
  obtain ⟨entries, hentries⟩ := hstep.inDirectory
  rw [List.reverse_reverse, hleads, Option.some.injEq] at hentries
  exact ⟨hleads, entries, hentries⟩

namespace Discovery

theorem exists_node_of_sourceFiles {patterns : List (List Glob.Token)} {tree : FileTree}
    {root : Path} {found : List FoundFile}
    (hfound : sourceFiles patterns tree root = .ok found) : ∃ node, tree.node root = .ok node := by
  unfold sourceFiles at hfound
  split at hfound
  · contradiction
  · next node hnode => exact ⟨node, hnode⟩

/-- A file that is found in the working directory is there under the path by which it is
reported. -/
theorem node_of_mem_sourceFiles {patterns : List (List Glob.Token)} {tree : FileTree}
    (htree : tree.root.WellFormed) {found : List FoundFile}
    (hfound : sourceFiles patterns tree ⟨"."⟩ = .ok found) {file : FoundFile}
    (hfile : file ∈ found) :
    tree.node file.path = .ok (.file file.bytes file.lastModified) ∧
      ∃ names, file.path = .ofNames names ∧ (∀ name ∈ names, IsEntryName name) ∧
        tree.root.descend? (tree.workingDirectory ++ names) =
          some (.file file.bytes file.lastModified) := by
  obtain ⟨node, hnode⟩ := exists_node_of_sourceFiles hfound
  obtain ⟨hworking, entries, rfl⟩ := FileTree.directory_of_node_current hnode
  rw [sourceFiles_of_node hnode] at hfound
  rw [← Except.ok.inj hfound, List.mem_mergeSort] at hfile
  obtain ⟨⟨names, bytes, lastModified⟩, hwanted, rfl⟩ := List.mem_map.mp hfile
  obtain ⟨hne, hnames, hreaches⟩ := reaches_of_mem_filesOf
    (FileTree.node_wellFormed htree hnode) (List.mem_filter.mp hwanted).1
  have hleads : tree.root.descend? (tree.workingDirectory ++ names) =
      some (.file bytes lastModified) := by
    rw [FileNode.descend?_append, hworking, Option.bind_some, hreaches.leads]
  have hpath : (foundFile ⟨"."⟩ (names, bytes, lastModified)).path = .ofNames names :=
    reportedPath_of_ne_nil ⟨"."⟩ hne
  refine ⟨?_, names, hpath, hnames, hleads⟩
  rw [hpath]
  exact FileTree.node_eq_of_resolve
    (FileTree.resolve_ofNames hne hnames (by rw [hleads]; rfl)) hleads

end Discovery

/-- The stored models are those of the files that are read. -/
theorem Scan.mem_models_ofFiles_iff {settings : Settings} {found : List FoundFile}
    (hdistinct : found.Pairwise FoundFile.Apart)
    (hlanguage : ∀ file ∈ found, (Language.ofPath? file.path).isSome = true)
    {entry : Path × SourceModel} :
    entry ∈ (ofFiles settings found).models.entries ↔
      ∃ file ∈ filesToRead settings.scan found, file.path = entry.1 ∧
        readFile settings.limits file = .ok entry.2 := by
  obtain ⟨hrecords, -⟩ : Records settings.limits _ (ofFiles settings found) ∧ _ :=
    records_ofFiles hdistinct hlanguage
  rw [hrecords.models.mem_iff, mem_modelsOf]

namespace CommandLine

/-- A file that a scan reads is classified as the scan classifies it. -/
theorem classifyFile_of_readFile {tree : FileTree} {settings : Settings} {file : FoundFile}
    {model : SourceModel} (hload : loadSettings tree none = .ok settings)
    (hnode : tree.node file.path = .ok (.file file.bytes file.lastModified))
    (hlanguage : (Language.ofPath? file.path).isSome = true)
    (hread : Scan.readFile settings.limits file = .ok model) :
    ∃ role signal, model.role = some role ∧
      classifyFile tree file.path =
        .ok (.printed (String.join ((classificationLines file.path { role, signal } ++
          modelLines model).map Survey.line))) := by
  unfold Scan.readFile at hread
  cases hdecode : decodeFile file.path file.bytes file.lastModified with
  | error cause => simp [hdecode, bind, Except.bind] at hread
  | ok source =>
      have hpath : source.path = file.path := Scan.path_eq_of_decodeFile hdecode
      cases hmodel : readModel settings.limits settings.limits.tier.forced? source with
      | error cause =>
          simp [hdecode, hmodel, readClassified, bind, Except.bind, Except.map] at hread
      | ok plain =>
          have hrole : { plain with
              role := some (classify file.path source.content (some plain)) } = model := by
            simpa [hdecode, hmodel, hpath, readClassified, bind, Except.bind, Except.map]
              using hread
          have hsource : sourceOf tree file.path = .ok source := by
            simp [sourceOf, hnode, hdecode, Except.mapError]
          have hthere : tree.hasPath file.path = true := by
            simp [FileTree.hasPath, hnode]
          have hknown : (Language.ofPath? file.path).isNone = false := by
            simpa using hlanguage
          refine ⟨_, (Classification.explain file.path source.content (some plain)).signal,
            (congrArg SourceModel.role hrole).symm, ?_⟩
          rw [← hrole]
          unfold classifyFile
          simp only [hthere, hknown, hsource, hload, hmodel, bind, Except.bind, pure, Except.pure]
          rfl

theorem readWords_of_plain {grammar : Grammar} {state : State} {word : String}
    (hplain : word.toList.head? ≠ some '-') (hready : state.awaitsValue = false)
    (words : List String) :
    readWords grammar false state (word :: words) =
      (readPositional grammar state word).bind (readWords grammar (word = "--") · words) := by
  rw [readWords]
  simp only [hready, Bool.false_eq_true, if_false, Bool.false_or]
  cases hchars : word.toList with
  | nil => cases readPositional grammar state word <;> rfl
  | cons c rest =>
      have hc : c ≠ '-' := by
        rintro rfl
        exact hplain (by rw [hchars]; rfl)
      cases readPositional grammar state word <;> simp [hc, Except.bind]

/-- A file is named by its path, unless the path looks like an option. -/
theorem read_classify {word : String} (hne : word.isEmpty = false)
    (hplain : word.toList.head? ≠ some '-') :
    read ["classify", word] = .ok (.classify ⟨word⟩) := by
  have hgiven : classifyGrammar.read [word] = .ok [{ name := "FILE", value := word }] := by
    unfold Grammar.read
    rw [readWords_of_plain hplain rfl]
    simp [classifyGrammar, positional, readPositional, State.putOff, State.settle, State.start,
      State.accept, State.has, ValueKind.check, readWords, Except.bind, Except.map, hne]
  have hcommand : read ["classify", word] =
      (classifyGrammar.read [word]).map fun given => .classify (positionalPath given "FILE") :=
    rfl
  rw [hcommand, hgiven]
  rfl

/-- A signature in one line: whether it is asynchronous, its name, its parameters with the
types that are known of them, and the type of its result. -/
def spelledOut (function : FunctionSignature) : String :=
  (if function.isAsync then "async " else "") ++ function.name ++ "(" ++
    ", ".intercalate (function.parameters.map fun parameter =>
      parameter ++ ((function.typeHints.get? (FunctionSignature.bareName parameter)).map
        (": " ++ ·)).getD "") ++
    ")" ++ (function.returnType.map (" -> " ++ ·)).getD ""

theorem text_eq_spelledOut (function : FunctionSignature) :
    function.text = spelledOut function := by
  have hparameters : function.parameters.map function.parameterText =
      function.parameters.map fun parameter =>
        parameter ++ ((function.typeHints.get? (FunctionSignature.bareName parameter)).map
          (": " ++ ·)).getD "" := by
    apply List.map_congr_left
    intro parameter _
    unfold FunctionSignature.parameterText
    cases function.typeHints.get? (FunctionSignature.bareName parameter) with
    | none => exact (String.append_empty).symm
    | some hint => exact String.append_assoc
  unfold FunctionSignature.text spelledOut
  rw [hparameters]
  cases function.returnType <;> rfl

theorem join_lines_flatMap {α : Type} (items : List α) (content : α → List String) :
    String.join ((items.flatMap content).map Survey.line) =
      String.join (items.map fun item => String.join ((content item).map Survey.line)) := by
  induction items with
  | nil => rfl
  | cons item items ih =>
      rw [List.flatMap_cons, List.map_append, String.join_append, ih, List.map_cons,
        String.join_cons]

/-- The lines for a file tell of its role, its priority and the declarations in its model. -/
theorem join_classificationLines (file : Path) (role : Role) (signal : Classification.Signal)
    (model : SourceModel) :
    String.join ((classificationLines file { role, signal } ++ modelLines model).map
        Survey.line) =
      String.join [
        file.text ++ "\n",
        "  role:     " ++ role.name ++ " (" ++ role.label ++ ")\n",
        "  signal:   " ++ signal.text ++ "\n",
        "  priority: " ++ (Priority.ofPath file).name ++ "\n",
        "  folder:   " ++ role.folder ++ "\n"] ++
      String.join (model.classes.map fun type =>
        "  " ++ type.name ++ " (line " ++ toString type.line ++ ")\n" ++
          String.join (type.methods.map fun method => "    " ++ spelledOut method ++ "\n")) ++
      String.join (model.functions.map fun function => "  " ++ spelledOut function ++ "\n") := by
  have hclasses : ∀ type : ClassSignature,
      String.join ((("  " ++ type.name ++ " (line " ++ toString type.line ++ ")") ::
          type.methods.map fun method => "    " ++ method.text).map Survey.line) =
        "  " ++ type.name ++ " (line " ++ toString type.line ++ ")\n" ++
          String.join (type.methods.map fun method => "    " ++ spelledOut method ++ "\n") := by
    intro type
    simp [Survey.line, Function.comp_def, text_eq_spelledOut, String.append_assoc]
  have hfunctions : (model.functions.map fun function => "  " ++ function.text).map Survey.line =
      model.functions.map fun function => "  " ++ spelledOut function ++ "\n" := by
    simp [Survey.line, Function.comp_def, text_eq_spelledOut]
  have hheading : (classificationLines file { role, signal }).map Survey.line = [
      file.text ++ "\n",
      "  role:     " ++ role.name ++ " (" ++ role.label ++ ")\n",
      "  signal:   " ++ signal.text ++ "\n",
      "  priority: " ++ (Priority.ofPath file).name ++ "\n",
      "  folder:   " ++ role.folder ++ "\n"] := by
    simp [classificationLines, Survey.line, String.append_assoc]
  rw [List.map_append, String.join_append, modelLines, List.map_append, String.join_append,
    join_lines_flatMap, hheading, hfunctions]
  simp only [hclasses]
  exact String.append_assoc.symm

/-- What a run that classifies a file says is what a model of the file says. -/
structure ClassifiedAs (tree : FileTree) (file : Path) (model : SourceModel) : Prop where
  /-- The path consists of the names that lead from the working directory to the file. -/
  place : ∃ names bytes lastModified, file = .ofNames names ∧ (∀ name ∈ names, IsEntryName name) ∧
    tree.root.descend? (tree.workingDirectory ++ names) = some (.file bytes lastModified)
  words : file.text.toList.head? ≠ some '-' →
    read ["classify", file.text] = .ok (.classify file)
  run : ∃ (role : Role) (signal : Classification.Signal), model.role = some role ∧
    run tree (.classify file) =
      { exitCode := 0
        output :=
          String.join [
            file.text ++ "\n",
            "  role:     " ++ role.name ++ " (" ++ role.label ++ ")\n",
            "  signal:   " ++ signal.text ++ "\n",
            "  priority: " ++ (Priority.ofPath file).name ++ "\n",
            "  folder:   " ++ role.folder ++ "\n"] ++
          String.join (model.classes.map fun type =>
            "  " ++ type.name ++ " (line " ++ toString type.line ++ ")\n" ++
              String.join (type.methods.map fun method => "    " ++ spelledOut method ++ "\n")) ++
          String.join (model.functions.map fun function => "  " ++ spelledOut function ++ "\n")
        errors := ""
        tree }

/-- Whatever a scan of the working directory reads is classified as the report says: with
the role and the declarations of the stored model, and with the priority by which the scan
has put the file in its order. -/
theorem classifiedAs_of_analyze {tree : FileTree} (htree : tree.root.WellFormed)
    {invocation : Invocation} {product : Product}
    (hwords : read ["analyze", "."] = .ok invocation)
    (hproduce : produce tree invocation = .ok product) :
    ∃ settings report, loadSettings tree none = .ok settings ∧
      Scan.ofTree settings tree ⟨"."⟩ = .ok report ∧
      product = .ofReport settings (projectName settings tree ⟨"."⟩) report ∧
      report.order.Pairwise Scan.ReadsBefore ∧
      ∀ file model, (file, model) ∈ report.models.entries →
        file ∈ report.order ∧ ClassifiedAs tree file model := by
  obtain rfl : .analyze ⟨"."⟩ none .none false = invocation := Except.ok.inj hwords
  have hanalyze : analyze tree ⟨"."⟩ none .none = .ok product := hproduce
  rcases accepted_or_refused tree ⟨"."⟩ none .none with ⟨settings, haccepted⟩ | ⟨_, hrefused⟩
  · obtain ⟨report, hreport, hproduct⟩ := analyze_of_accepted haccepted
    obtain ⟨⟨loaded, hload, hsettings⟩, hvalid, hroot⟩ := haccepted
    rw [Settings.override_none] at hsettings
    obtain rfl : settings = loaded := hsettings
    obtain ⟨patterns, found, hfound, hpatterns, hfiles⟩ := exists_ofTree hvalid hroot
    obtain rfl : Scan.ofFiles settings found = report :=
      Except.ok.inj (hfiles.symm.trans hreport)
    obtain ⟨node, hnode⟩ := Discovery.exists_node_of_sourceFiles hfound
    obtain ⟨hdistinct, hlanguage⟩ := Discovery.distinct_of_sourceFiles htree hnode hfound
    have haccounted := Scan.accounted_of_ofFiles
      (Scan.chunkSize_pos_of_fault? (Scan.excludedPatterns_of_validate hvalid).1)
      hdistinct hlanguage
    refine ⟨settings, _, hload, hreport, Except.ok.inj (hanalyze.symm.trans hproduct),
      haccounted.order_ascending, ?_⟩
    intro path model hentry
    refine ⟨haccounted.order_perm.mem_iff.mpr (List.mem_map.mpr ⟨_, hentry, rfl⟩), ?_⟩
    obtain ⟨file, hfile, rfl, hread⟩ :=
      (Scan.mem_models_ofFiles_iff hdistinct hlanguage).mp hentry
    have hmem : file ∈ found := List.mem_mergeSort.mp ((Scan.filesToRead_sublist _ _).subset hfile)
    obtain ⟨hplace, names, hpath, hnames, hleads⟩ :=
      Discovery.node_of_mem_sourceFiles htree hfound hmem
    obtain ⟨role, signal, hrole, hclassify⟩ :=
      classifyFile_of_readFile hload hplace (hlanguage file hmem) hread
    rw [join_classificationLines] at hclassify
    refine ⟨⟨names, _, _, hpath, hnames, hleads⟩, ?_, role, signal, hrole, run_of_printed hclassify⟩
    intro hplain
    obtain ⟨_, hresolve, -⟩ := FileTree.exists_resolve hplace
    exact read_classify (FileTree.resolve_eq_ok_iff.mp hresolve).1 hplain
  · rw [analyze_of_refused hrefused] at hanalyze
    contradiction

/-- A file with a class, a method and a function of its own. -/
def jobFile : FoundFile :=
  { path := ⟨"app/jobs.py"⟩
    bytes :=
      "class Job:\n    def run(self, n: int): pass\nasync def go(*names) -> str: pass\n".toUTF8
    lastModified := .epoch }

def jobTree : FileTree :=
  { root := .directory
      [("app", .directory [("jobs.py", .file jobFile.bytes jobFile.lastModified)])]
    workingDirectory := [] }

theorem exists_model_jobFile :
    ∃ model, Scan.readFile .standard jobFile = .ok model ∧ model.role = some .class ∧
      model.classes.map (fun type => (type.name, type.line, type.methods.map spelledOut)) =
        [("Job", 1, ["run(self, n: int)"])] ∧
      model.functions.map spelledOut = ["async go(*names) -> str"] := by
  have hfound : (Scan.readFile .standard jobFile).toOption.any (fun model =>
      model.role = some Role.class ∧
      model.classes.map (fun type => (type.name, type.line, type.methods.map spelledOut)) =
        [("Job", 1, ["run(self, n: int)"])] ∧
      model.functions.map spelledOut = ["async go(*names) -> str"]) = true := by
    decide +kernel
  cases hread : Scan.readFile .standard jobFile with
  | error cause =>
      rw [hread] at hfound
      contradiction
  | ok model =>
      rw [hread, Except.toOption, Option.any_some, decide_eq_true_eq] at hfound
      exact ⟨model, rfl, hfound⟩

theorem jobTree_wellFormed : jobTree.root.WellFormed := by
  simp only [jobTree, FileNode.WellFormed, FileNode.WellFormedEntries, and_true,
    List.not_mem_nil, false_implies, forall_true_iff]
  decide

theorem mem_sourceFiles_jobTree {patterns : List (List Glob.Token)} {found : List FoundFile}
    (hpatterns : Settings.standard.excludedPatterns = .ok patterns)
    (hfound : Discovery.sourceFiles patterns jobTree ⟨"."⟩ = .ok found) : jobFile ∈ found := by
  have hnode : jobTree.node ⟨"."⟩ = .ok jobTree.root := by rfl
  have hkept : Settings.standard.excludedPatterns.map
      (Discovery.isWanted · ⟨"."⟩ ["app", "jobs.py"]) = .ok true := by decide +kernel
  rw [hpatterns] at hkept
  rw [Discovery.sourceFiles_of_node hnode] at hfound
  rw [← Except.ok.inj hfound, List.mem_mergeSort]
  refine List.mem_map.mpr ⟨(["app", "jobs.py"], jobFile.bytes, jobFile.lastModified), ?_, by rfl⟩
  exact List.mem_filter.mpr ⟨List.mem_cons_self, Except.ok.inj hkept⟩

theorem output_classify_jobFile {model : SourceModel}
    (hclassified : ClassifiedAs jobTree jobFile.path model) (hclass : model.role = some .class)
    (hclasses : model.classes.map (fun type =>
      (type.name, type.line, type.methods.map spelledOut)) = [("Job", 1, ["run(self, n: int)"])])
    (hfunctions : model.functions.map spelledOut = ["async go(*names) -> str"]) :
    ∃ signal : Classification.Signal,
      (run jobTree (.classify jobFile.path)).output = String.join [
        "app/jobs.py\n", "  role:     class (Classes)\n", "  signal:   " ++ signal.text ++ "\n",
        "  priority: low\n", "  folder:   other\n"] ++
        "  Job (line 1)\n    run(self, n: int)\n  async go(*names) -> str\n" := by
  obtain ⟨role, signal, hrole, hrun⟩ := hclassified.run
  obtain rfl : Role.class = role := Option.some.inj (hclass.symm.trans hrole)
  obtain ⟨type, hone, htype⟩ := List.map_eq_singleton_iff.mp hclasses
  obtain ⟨function, honly, hfunction⟩ := List.map_eq_singleton_iff.mp hfunctions
  simp only [Prod.mk.injEq] at htype
  obtain ⟨hname, hline, hmethods⟩ := htype
  obtain ⟨method, hsingle, hmethod⟩ := List.map_eq_singleton_iff.mp hmethods
  have hpath : jobFile.path.text ++ "\n" = "app/jobs.py\n" := by decide
  have hroleLine : "  role:     " ++ Role.class.name ++ " (" ++ Role.class.label ++ ")\n" =
      "  role:     class (Classes)\n" := by decide
  have hpriority : "  priority: " ++ (Priority.ofPath jobFile.path).name ++ "\n" =
      "  priority: low\n" := by decide +kernel
  have hfolder : "  folder:   " ++ Role.class.folder ++ "\n" = "  folder:   other\n" := by decide
  have hdeclarations :
      String.join ["  " ++ "Job" ++ " (line " ++ toString 1 ++ ")\n" ++
          String.join ["    " ++ "run(self, n: int)" ++ "\n"]] ++
        String.join ["  " ++ "async go(*names) -> str" ++ "\n"] =
      "  Job (line 1)\n    run(self, n: int)\n  async go(*names) -> str\n" := by decide
  refine ⟨signal, ?_⟩
  rw [hrun, hone, honly, hpath, hroleLine, hpriority, hfolder]
  simp only [List.map_cons, List.map_nil, hsingle, hname, hline, hmethod, hfunction]
  rw [String.append_assoc, hdeclarations]

theorem classifiedAs_of_analyze_jobTree :
    jobTree.root.WellFormed ∧ read ["analyze", "."] = .ok (.analyze ⟨"."⟩ none .none false) ∧
      ∃ product report model,
        produce jobTree (.analyze ⟨"."⟩ none .none false) = .ok product ∧
        Scan.ofTree .standard jobTree ⟨"."⟩ = .ok report ∧
        (jobFile.path, model) ∈ report.models.entries ∧ jobFile.path ∈ report.order ∧
        ClassifiedAs jobTree jobFile.path model ∧
        ∃ signal : Classification.Signal,
          (run jobTree (.classify jobFile.path)).output = String.join [
            "app/jobs.py\n", "  role:     class (Classes)\n", "  signal:   " ++ signal.text ++ "\n",
            "  priority: low\n", "  folder:   other\n"] ++
            "  Job (line 1)\n    run(self, n: int)\n  async go(*names) -> str\n" := by
  have hload : loadSettings jobTree none = .ok .standard := by rfl
  have hwords : read ["analyze", "."] = .ok (.analyze ⟨"."⟩ none .none false) := by rfl
  have haccepted : Accepted jobTree ⟨"."⟩ none .none .standard :=
    ⟨⟨_, hload, rfl⟩, rfl, by decide⟩
  obtain ⟨report, hreport, hanalyze⟩ := analyze_of_accepted haccepted
  have hproduce : produce jobTree (.analyze ⟨"."⟩ none .none false) = .ok _ := hanalyze
  obtain ⟨settings, _, hload', hreport', -, -, hclassified⟩ :=
    classifiedAs_of_analyze jobTree_wellFormed hwords hproduce
  obtain rfl : Settings.standard = settings := Except.ok.inj (hload.symm.trans hload')
  rw [hreport] at hreport'
  obtain rfl := Except.ok.inj hreport'
  obtain ⟨patterns, found, hfound, hpatterns, hfiles⟩ :=
    exists_ofTree haccepted.valid haccepted.hasRoot
  obtain ⟨model, hread, hclass, hclasses, hfunctions⟩ := exists_model_jobFile
  have hentry : (jobFile.path, model) ∈ report.models.entries := by
    obtain ⟨hdistinct, hlanguage⟩ := Discovery.distinct_of_sourceFiles jobTree_wellFormed rfl hfound
    rw [← Except.ok.inj (hfiles.symm.trans hreport)]
    refine (Scan.mem_models_ofFiles_iff hdistinct hlanguage).mpr ⟨jobFile, ?_, rfl, hread⟩
    exact List.mem_mergeSort.mpr (mem_sourceFiles_jobTree hpatterns hfound)
  obtain ⟨hlisted, has⟩ := hclassified _ model hentry
  exact ⟨jobTree_wellFormed, hwords, _, report, model, hproduce, hreport, hentry, hlisted, has,
    output_classify_jobFile has hclass hclasses hfunctions⟩

end CommandLine

end SourceAtlas
