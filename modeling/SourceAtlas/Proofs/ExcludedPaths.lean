import SourceAtlas.Proofs.AddedFiles
import SourceAtlas.Proofs.ExactDiscovery

/-!
# Excluded paths

A file is excluded by its path from the root and reported under the same path, with one
exception: a root that is a file has the empty path from itself and is reported under its
name.  So patterns exclude what they match below every directory, and of a single file
exactly if some pattern matches its name whenever one matches the empty text, and the other
way round.
-/

namespace SourceAtlas

namespace Discovery

/-- Names from a root lead to a source file in directories none of which is ignored. -/
structure IsSourceFile (root : Path) (node : FileNode) (names : List String) : Prop where
  file : ∃ bytes lastModified, node.descend? names = some (.file bytes lastModified)
  entered : ∀ directory ∈ names.dropLast,
    directory ∉ ignoredNames ∧ ¬ ".egg-info".toList <:+ directory.toList
  extension : (reportedPath root names).extension? ∈ [some "py", some "pyi", some "cs"]

variable {patterns : List (List Glob.Token)} {root : Path} {node : FileNode}
  {names : List String}

theorem isSourceFile_iff (hnode : node.WellFormed) :
    IsSourceFile root node names ↔
      ∃ bytes lastModified, (names, bytes, lastModified) ∈ filesOf [] node ∧
        (languageOf? root names).isSome = true := by
  have hlanguage {bytes : ByteArray} {lastModified : Timestamp}
      (hfile : (names, bytes, lastModified) ∈ filesOf [] node) :
      (languageOf? root names).isSome = true ↔
        (reportedPath root names).extension? ∈ [some "py", some "pyi", some "cs"] := by
    obtain ⟨below, hbelow, hnames⟩ := names_of_mem_filesOf hnode hfile
    obtain rfl : names = below := by simpa using hbelow
    rw [← language_reportedPath root hnames, Language.ofPath?, isSome_ofExtension?_iff]
  constructor
  · rintro ⟨⟨bytes, lastModified, hleads⟩, hentered, hextension⟩
    have hfile : (names, bytes, lastModified) ∈ filesOf [] node :=
      (mem_filesOf_iff hnode).mpr ⟨names, rfl, hleads, fun directory hdirectory =>
        isIgnored_eq_false_iff.mpr (hentered directory hdirectory)⟩
    exact ⟨bytes, lastModified, hfile, (hlanguage hfile).mpr hextension⟩
  · rintro ⟨bytes, lastModified, hfile, hsome⟩
    obtain ⟨below, hbelow, hreaches⟩ := (mem_filesOf_iff hnode).mp hfile
    obtain rfl : names = below := by simpa using hbelow
    exact ⟨⟨bytes, lastModified, hreaches.leads⟩, fun directory hdirectory =>
      isIgnored_eq_false_iff.mp (hreaches.entered directory hdirectory),
      (hlanguage hfile).mp hsome⟩

/-- Discovery finds the source files whose paths from the root no pattern matches. -/
theorem mem_paths_iff_isSourceFile {tree : FileTree} (htree : tree.root.WellFormed)
    (hroot : tree.node root = .ok node) {found : List FoundFile}
    (hfound : sourceFiles patterns tree root = .ok found) {path : Path} :
    path ∈ found.map (·.path) ↔
      ∃ names, IsSourceFile root node names ∧ path = reportedPath root names ∧
        ∀ pattern ∈ patterns, Glob.fits pattern (matchedText names) = false := by
  have hwell := FileTree.node_wellFormed htree hroot
  rw [sourceFiles_of_node hroot] at hfound
  rw [← Except.ok.inj hfound]
  simp only [wantedFiles, foundFile, List.mem_map, List.mem_mergeSort, List.mem_filter, isWanted,
    Bool.and_eq_true, Bool.not_eq_true', List.any_eq_false, Bool.not_eq_true]
  constructor
  · rintro ⟨_, ⟨⟨names, bytes, lastModified⟩, ⟨hfile, hlanguage, hpatterns⟩, rfl⟩, rfl⟩
    exact ⟨names, (isSourceFile_iff hwell).mpr ⟨bytes, lastModified, hfile, hlanguage⟩, rfl,
      hpatterns⟩
  · rintro ⟨names, hsource, rfl, hpatterns⟩
    obtain ⟨bytes, lastModified, hfile, hlanguage⟩ := (isSourceFile_iff hwell).mp hsource
    exact ⟨_, ⟨(names, bytes, lastModified), ⟨hfile, hlanguage, hpatterns⟩, rfl⟩, rfl⟩

/-- If the root is a source file, some pattern matches its name exactly if some pattern
matches the empty text. -/
def SeesRoot (patterns : List (List Glob.Token)) (root : Path) (node : FileNode) : Prop :=
  node.isDirectory = false → ∀ name, root.fileName? = some name →
    root.extension? ∈ [some "py", some "pyi", some "cs"] →
      ((∃ pattern ∈ patterns, Glob.fits pattern "" = true) ↔
        ∃ pattern ∈ patterns, Glob.fits pattern name = true)

theorem text_reportedPath (root : Path) (hne : names ≠ []) :
    (reportedPath root names).text = matchedText names := by
  rw [reportedPath_of_ne_nil root hne]
  rfl

theorem reportedPath_nil_of_fileName? {name : String} (hname : root.fileName? = some name) :
    reportedPath root [] = ⟨name⟩ := by
  rw [reportedPath_nil, hname]
  rfl

theorem extension_reportedPath_nil_iff :
    (reportedPath root []).extension? ∈ [some "py", some "pyi", some "cs"] ↔
      root.extension? ∈ [some "py", some "pyi", some "cs"] := by
  rw [← isSome_ofExtension?_iff, ← isSome_ofExtension?_iff, ← Language.ofPath?,
    ← Language.ofPath?, language_reportedPath root (by simp)]
  rfl

theorem exists_fileName?_of_extension
    (hextension : root.extension? ∈ [some "py", some "pyi", some "cs"]) :
    ∃ name, root.fileName? = some name := by
  rw [← Option.isSome_iff_exists]
  by_contra hnone
  rw [Option.not_isSome_iff_eq_none] at hnone
  simp [Path.extension?, hnone] at hextension

/-- What decides on a source file decides on the path under which it is reported. -/
theorem SeesRoot.matches_iff (hsees : SeesRoot patterns root node)
    (hsource : IsSourceFile root node names) :
    (∃ pattern ∈ patterns, Glob.fits pattern (matchedText names) = true) ↔
      ∃ pattern ∈ patterns, Glob.fits pattern (reportedPath root names).text = true := by
  by_cases hne : names = []
  · subst hne
    obtain ⟨bytes, lastModified, hleads⟩ := hsource.file
    have hfile : node.isDirectory = false := by
      rw [FileNode.descend?_nil] at hleads
      rw [Option.some.inj hleads]
      rfl
    have hextension := extension_reportedPath_nil_iff.mp hsource.extension
    obtain ⟨name, hname⟩ := exists_fileName?_of_extension hextension
    rw [reportedPath_nil_of_fileName? hname]
    exact hsees hfile name hname hextension
  · rw [text_reportedPath root hne]

end Discovery

def Survey.Lists (survey : Survey) (path : Path) : Prop :=
  path ∈ survey.high ++ survey.medium ++ survey.low

/-- A report names a path with a model, in its order or with a failure. -/
def ScanReport.Names (report : ScanReport) (path : Path) : Prop :=
  path ∈ report.models.entries.map (·.1) ∨ path ∈ report.order ∨
    path ∈ report.failures.map (·.path)

/-- The paths under which files are reported are those by which they are excluded: no pattern
matches a path that is reported, and some pattern matches each source file that a survey
leaves out. -/
structure ExcludesReported (patterns : List (List Glob.Token)) (root : Path) (node : FileNode)
    (survey : Survey) (report : ScanReport) : Prop where
  unmatched : ∀ path, survey.Lists path ∨ report.Names path →
    ∀ pattern ∈ patterns, Glob.fits pattern path.text = false
  leftOut : ∀ names, Discovery.IsSourceFile root node names →
    ¬survey.Lists (Discovery.reportedPath root names) →
      ∃ pattern ∈ patterns,
        Glob.fits pattern (Discovery.reportedPath root names).text = true

open Discovery in
theorem excludesReported_iff {patterns : List (List Glob.Token)} {root : Path} {node : FileNode}
    {survey : Survey} {report : ScanReport}
    (hsurvey : ∀ path, survey.Lists path ↔
      ∃ names, IsSourceFile root node names ∧ path = reportedPath root names ∧
        ∀ pattern ∈ patterns, Glob.fits pattern (matchedText names) = false)
    (hreport : ∀ path, report.Names path → survey.Lists path) :
    ExcludesReported patterns root node survey report ↔ SeesRoot patterns root node := by
  constructor
  · rintro ⟨hunmatched, hleftOut⟩ hfile name hname hextension
    obtain ⟨bytes, lastModified, rfl⟩ : ∃ bytes lastModified, node = .file bytes lastModified := by
      cases node with
      | file bytes lastModified => exact ⟨bytes, lastModified, rfl⟩
      | directory entries => contradiction
    -- The root itself is the only source file, matched by the empty text and reported by name.
    have hpath := reportedPath_nil_of_fileName? hname
    have hsource : IsSourceFile root (.file bytes lastModified) [] :=
      ⟨⟨bytes, lastModified, FileNode.descend?_nil _⟩, by simp,
        extension_reportedPath_nil_iff.mpr hextension⟩
    constructor
    · intro hempty
      have habsent : ¬survey.Lists (reportedPath root []) := by
        intro hlists
        obtain ⟨names, ⟨⟨_, _, hleads⟩, -, -⟩, -, hnone⟩ := (hsurvey _).mp hlists
        obtain ⟨pattern, hpattern, hfits⟩ := hempty
        cases names with
        | nil => simpa [hfits, matchedText] using hnone pattern hpattern
        | cons first names => simp [FileNode.descend?_cons] at hleads
      have hfits := hleftOut [] hsource habsent
      rwa [hpath] at hfits
    · rintro ⟨pattern, hpattern, hfits⟩
      by_contra hempty
      have hlists : survey.Lists ⟨name⟩ := by
        refine (hsurvey _).mpr ⟨[], hsource, hpath.symm, fun other hother => ?_⟩
        by_contra hother'
        exact hempty ⟨other, hother, by simpa [matchedText] using hother'⟩
      simpa [hfits] using hunmatched _ (Or.inl hlists) pattern hpattern
  · intro hsees
    constructor
    · intro path hpath pattern hpattern
      obtain ⟨names, hsource, rfl, hnone⟩ := (hsurvey path).mp (hpath.elim id (hreport path))
      by_contra hfits
      obtain ⟨other, hother, hmatched⟩ :=
        (hsees.matches_iff hsource).mpr ⟨pattern, hpattern, by simpa using hfits⟩
      simp [hnone other hother] at hmatched
    · intro names hsource habsent
      refine (hsees.matches_iff hsource).mp ?_
      by_contra hnone
      refine habsent ((hsurvey _).mpr ⟨names, hsource, rfl, fun pattern hpattern => ?_⟩)
      by_contra hfits
      exact hnone ⟨pattern, hpattern, by simpa using hfits⟩

/-- A survey lists the found files. -/
theorem Survey.lists_ofPaths_iff (files : List FoundFile) (path : Path) :
    (ofPaths (files.map (·.path))).Lists path ↔ path ∈ files.map (·.path) := by
  rw [Lists, ← Scan.paths_byPriority, ((Scan.byPriority_perm files).map _).mem_iff]

theorem Survey.ofTree_of_sourceFiles {settings : Settings} {patterns : List (List Glob.Token)}
    (hvalid : settings.validate = .ok ()) (hpatterns : settings.excludedPatterns = .ok patterns)
    {tree : FileTree} {root : Path} {found : List FoundFile}
    (hfound : Discovery.sourceFiles patterns tree root = .ok found) :
    ofTree settings tree root = .ok (ofPaths (found.map (·.path))) := by
  unfold ofTree
  simp only [hvalid, hpatterns, hfound, bind, Except.bind]
  rfl

theorem Survey.lists_of_mem_front {settings : ScanSettings} {survey : Survey} {path : Path}
    (hpath : path ∈ survey.front settings) : survey.Lists path := by
  have hqueue : path ∈ survey.queue settings := by
    unfold front at hpath
    split at hpath
    · exact List.mem_of_mem_take hpath
    · exact hpath
  unfold queue at hqueue
  split at hqueue
  · exact List.mem_append_left _ (List.mem_append_left _ hqueue)
  · exact hqueue

namespace Scan

/-- A scan reports the front of the survey's queue.  Both report what no pattern excludes, and
leave out by patterns nothing else, if and only if patterns see a root that is a file. -/
theorem exists_excludesReported_iff (settings : Settings) (tree : FileTree) (root : Path)
    (hvalid : settings.validate = .ok ()) (htree : tree.root.WellFormed)
    (hroot : tree.hasPath root = true) :
    ∃ patterns node survey report, settings.excludedPatterns = .ok patterns ∧
      tree.node root = .ok node ∧ Survey.ofTree settings tree root = .ok survey ∧
      ofTree settings tree root = .ok report ∧
      report.order.Perm (report.models.entries.map (·.1)) ∧
      (report.order ++ report.failures.map (·.path)).Perm (survey.front settings.scan) ∧
      (ExcludesReported patterns root node survey report ↔
        Discovery.SeesRoot patterns root node) := by
  obtain ⟨node, hnode⟩ : ∃ node, tree.node root = .ok node := by
    unfold FileTree.hasPath at hroot
    split at hroot
    · next node hnode => exact ⟨node, hnode⟩
    · contradiction
  obtain ⟨patterns, found, hpatterns, hfound, hsorted, hdistinct, hlanguage⟩ :=
    exists_sourceFiles hvalid htree hroot
  have hagrees : Agrees settings.scan (Survey.ofPaths (found.map (·.path)))
      (ofFiles settings found) := agrees_of_files hsorted hdistinct hlanguage
  have hrecords : Records settings.limits (filesToRead settings.scan found)
      (ofFiles settings found) := (records_ofFiles hdistinct hlanguage).1
  have horder : (ofFiles settings found).order.Perm
      ((ofFiles settings found).models.entries.map (·.1)) := by
    rw [hrecords.order]
    exact (hrecords.models.map _).symm
  refine ⟨patterns, node, Survey.ofPaths (found.map (·.path)), ofFiles settings found, hpatterns,
    hnode, Survey.ofTree_of_sourceFiles hvalid hpatterns hfound,
    ofTree_of_sourceFiles hvalid hpatterns hfound, horder, hagrees.processed,
    excludesReported_iff (fun path => ?_) fun path hpath => ?_⟩
  · rw [Survey.lists_ofPaths_iff, Discovery.mem_paths_iff_isSourceFile htree hnode hfound]
  · have hread : path ∈ (ofFiles settings found).order ++
        (ofFiles settings found).failures.map (·.path) := by
      rw [List.mem_append]
      rcases hpath with hmodel | hordered | hfailure
      · exact Or.inl (horder.mem_iff.mpr hmodel)
      · exact Or.inl hordered
      · exact Or.inr hfailure
    exact Survey.lists_of_mem_front (hagrees.processed.mem_iff.mp hread)

/-- A tree with a file that the standard settings exclude, and one that they do not. -/
def designerTree : FileTree :=
  { root := .directory
      [("Main.Designer.cs", .file .empty .epoch), ("Main.cs", .file .empty .epoch)]
    workingDirectory := [] }

theorem designerTree_wellFormed : designerTree.root.WellFormed := by
  simp only [designerTree, FileNode.WellFormed, FileNode.WellFormedEntries, and_true, true_and,
    List.mem_cons, List.not_mem_nil, or_false, false_implies, forall_true_iff, forall_eq]
  decide

/-- Below the directory, the file is excluded under the path that it would have. -/
theorem exists_excludesReported_iff_designerTree :
    Settings.standard.validate = .ok () ∧ designerTree.root.WellFormed ∧
      designerTree.hasPath ⟨"."⟩ = true ∧
      ∃ patterns node survey report, Settings.standard.excludedPatterns = .ok patterns ∧
        designerTree.node ⟨"."⟩ = .ok node ∧
        Survey.ofTree .standard designerTree ⟨"."⟩ = .ok survey ∧
        ofTree .standard designerTree ⟨"."⟩ = .ok report ∧
        ExcludesReported patterns ⟨"."⟩ node survey report := by
  have hvalid : Settings.standard.validate = .ok () := by rfl
  have hroot : designerTree.hasPath ⟨"."⟩ = true := by decide
  obtain ⟨patterns, node, survey, report, hpatterns, hnode, hsurvey, hreport, -, -, hiff⟩ :=
    exists_excludesReported_iff _ _ _ hvalid designerTree_wellFormed hroot
  have hdirectory : node.isDirectory = true := by
    have heq : designerTree.node ⟨"."⟩ = .ok designerTree.root := by rfl
    rw [← Except.ok.inj (heq.symm.trans hnode)]
    rfl
  refine ⟨hvalid, designerTree_wellFormed, hroot, patterns, node, survey, report, hpatterns,
    hnode, hsurvey, hreport, hiff.mpr fun hfile => ?_⟩
  rw [hdirectory] at hfile
  contradiction

/-- As a root of its own the file is matched against the empty text, so it is reported under
a name that a pattern matches. -/
theorem not_unmatched_designerFile :
    ¬∀ (settings : Settings) (tree : FileTree) (root : Path)
      (patterns : List (List Glob.Token)) (survey : Survey),
      settings.validate = .ok () → tree.root.WellFormed →
        settings.excludedPatterns = .ok patterns → Survey.ofTree settings tree root = .ok survey →
          ∀ path, survey.Lists path →
            ∀ pattern ∈ patterns, Glob.fits pattern path.text = false := by
  intro hall
  have hvalid : Settings.standard.validate = .ok () := by rfl
  have hroot : designerTree.node ⟨"Main.Designer.cs"⟩ = .ok (.file .empty .epoch) := by rfl
  have hpath : designerTree.hasPath ⟨"Main.Designer.cs"⟩ = true := by decide
  obtain ⟨patterns, found, hpatterns, hfound, -⟩ :=
    exists_sourceFiles hvalid designerTree_wellFormed hpath
  have hmatches : Settings.standard.excludedPatterns.toOption.any (fun patterns =>
      patterns.all (!Glob.fits · "") && patterns.any (Glob.fits · "Main.Designer.cs")) = true := by
    decide +kernel
  rw [hpatterns] at hmatches
  obtain ⟨hempty, hname⟩ := Bool.and_eq_true_iff.mp hmatches
  have hlists : (Survey.ofPaths (found.map (·.path))).Lists ⟨"Main.Designer.cs"⟩ := by
    rw [Survey.lists_ofPaths_iff,
      Discovery.mem_paths_iff_isSourceFile designerTree_wellFormed hroot hfound]
    refine ⟨[], ⟨⟨_, _, FileNode.descend?_nil _⟩, by simp, by decide +kernel⟩,
      by decide +kernel, fun pattern hpattern => ?_⟩
    simpa [Discovery.matchedText] using List.all_eq_true.mp hempty pattern hpattern
  obtain ⟨pattern, hpattern, hfits⟩ := List.any_eq_true.mp hname
  have hnone := hall _ _ _ _ _ hvalid designerTree_wellFormed hpatterns
    (Survey.ofTree_of_sourceFiles hvalid hpatterns hfound) _ hlists pattern hpattern
  rw [hfits] at hnone
  contradiction

end Scan

end SourceAtlas
