import SourceAtlas.Proofs.ScanAccounting
import SourceAtlas.Report.Survey

/-!
# Surveys and scans

A survey puts the discovered files into one list for each priority and keeps the
order of paths in each of them.  A scan sorts the same files by priority and path,
leaves some out and reads the rest in portions.  A list has only one sorted order,
so the queue of a scan is the lists of the survey one behind the other, and what a
scan reads is the front of that queue.  The size of the portions shows only in their
number, since recording a file looks at nothing that depends on it.
-/

namespace SourceAtlas

namespace Survey

/-- The surveyed files that a scan asks for, in the order of reading. -/
def queue (settings : ScanSettings) (survey : Survey) : List Path :=
  if settings.priorityOnly then survey.high else survey.high ++ survey.medium ++ survey.low

/-- The front of the queue, as long as the settings allow. -/
def front (settings : ScanSettings) (survey : Survey) : List Path :=
  match settings.maxFiles with
  | some count => (survey.queue settings).take count
  | none => survey.queue settings

theorem countLanguages_total {paths : List Path}
    (hlanguage : ∀ path ∈ paths, (Language.ofPath? path).isSome = true) :
    (countLanguages paths).total = paths.length := by
  have hfold : ∀ (languages : List Language) (counts : SortedMap String Nat),
      (languages.foldl
        (fun counts language => counts.update language.name 0 (· + 1)) counts).total =
        counts.total + languages.length := by
    intro languages
    induction languages with
    | nil => simp
    | cons language languages ih =>
        intro counts
        rw [List.foldl_cons, ih, SortedMap.total_update_succ, List.length_cons]
        omega
  have hlength : (paths.filterMap Language.ofPath?).length = paths.length :=
    List.filterMap_length_eq_length.mpr hlanguage
  unfold countLanguages
  rw [hfold, SortedMap.total_empty, hlength, Nat.zero_add]

end Survey

namespace Scan

/-- The files of one priority. -/
def ofPriority (priority : Priority) (files : List FoundFile) : List FoundFile :=
  files.filter (Priority.ofPath ·.path = priority)

/-- The files of all priorities, the first priority first. -/
def byPriority (files : List FoundFile) : List FoundFile :=
  ofPriority .high files ++ (ofPriority .medium files ++ ofPriority .low files)

theorem byPriority_perm (files : List FoundFile) : (byPriority files).Perm files := by
  induction files with
  | nil => exact List.Perm.refl _
  | cons file files ih =>
      unfold byPriority ofPriority at ih ⊢
      cases hpriority : Priority.ofPath file.path with
      | high => simpa [hpriority] using ih
      | medium =>
          simp only [List.filter_cons, hpriority, reduceCtorEq, decide_false, decide_true,
            Bool.false_eq_true, if_false, if_true, List.cons_append]
          exact List.perm_middle.trans (ih.cons file)
      | low =>
          simp only [List.filter_cons, hpriority, reduceCtorEq, decide_false, decide_true,
            Bool.false_eq_true, if_false, if_true]
          rw [← List.append_assoc] at ih ⊢
          exact List.perm_middle.trans (ih.cons file)

theorem before_of_rank_eq {first second : FoundFile}
    (hrank : (Priority.ofPath first.path).rank = (Priority.ofPath second.path).rank)
    (hbefore : Discovery.before first second = true) : before first second = true := by
  simp [before, hrank, hbefore]

theorem before_of_rank_lt {first second : FoundFile}
    (hrank : (Priority.ofPath first.path).rank < (Priority.ofPath second.path).rank) :
    before first second = true := by
  simp [before, hrank]

theorem mem_ofPriority {priority : Priority} {files : List FoundFile} {file : FoundFile} :
    file ∈ ofPriority priority files ↔
      file ∈ files ∧ Priority.ofPath file.path = priority := by
  simp [ofPriority]

theorem pairwise_ofPriority {files : List FoundFile}
    (hsorted : files.Pairwise fun first second => Discovery.before first second = true)
    (priority : Priority) :
    (ofPriority priority files).Pairwise fun first second => before first second = true := by
  have hsublist : (ofPriority priority files).Sublist files := List.filter_sublist
  apply (hsorted.sublist hsublist).imp_of_mem
  intro first second hfirst hsecond hbefore
  apply before_of_rank_eq _ hbefore
  rw [(mem_ofPriority.mp hfirst).2, (mem_ofPriority.mp hsecond).2]

theorem pairwise_byPriority {files : List FoundFile}
    (hsorted : files.Pairwise fun first second => Discovery.before first second = true) :
    (byPriority files).Pairwise fun first second => before first second = true := by
  have hbetween : ∀ {priority later : Priority}, priority.rank < later.rank →
      ∀ first ∈ ofPriority priority files, ∀ second ∈ ofPriority later files,
        before first second = true := by
    intro priority later hrank first hfirst second hsecond
    apply before_of_rank_lt
    rw [(mem_ofPriority.mp hfirst).2, (mem_ofPriority.mp hsecond).2]
    exact hrank
  unfold byPriority
  rw [List.pairwise_append, List.pairwise_append]
  refine ⟨pairwise_ofPriority hsorted _, ⟨pairwise_ofPriority hsorted _,
    pairwise_ofPriority hsorted _, hbetween (by decide)⟩, ?_⟩
  intro first hfirst second hsecond
  rcases List.mem_append.mp hsecond with hmedium | hlow
  · exact hbetween (by decide) first hfirst second hmedium
  · exact hbetween (by decide) first hfirst second hlow

theorem key_eq_of_before {first second : FoundFile} (hbefore : before first second = true)
    (hafter : before second first = true) : first.path.key = second.path.key := by
  rw [before_iff] at hbefore hafter
  rcases hbefore with hlt | ⟨heq, hle⟩
  · rcases hafter with hlt' | ⟨heq', -⟩ <;> omega
  · rcases hafter with hlt' | ⟨-, hge⟩
    · omega
    · exact le_antisymm hle hge

/-- Files that come in the order of their paths are queued by priority and otherwise
keep their order. -/
theorem queue_eq_byPriority {files : List FoundFile}
    (hsorted : files.Pairwise fun first second => Discovery.before first second = true)
    (hdistinct : files.Pairwise FoundFile.Apart) : queue files = byPriority files := by
  have hperm : (queue files).Perm files := List.mergeSort_perm _ _
  apply List.Perm.eq_of_pairwise _
    (List.pairwise_mergeSort before_trans before_total files) (pairwise_byPriority hsorted)
    (hperm.trans (byPriority_perm files).symm)
  intro first second hfirst hsecond hbefore hafter
  by_contra hne
  have hapart := hdistinct.forall (hperm.mem_iff.mp hfirst)
    ((byPriority_perm files).mem_iff.mp hsecond) hne
  exact hapart (key_eq_of_before hbefore hafter)

theorem paths_ofPriority (priority : Priority) (files : List FoundFile) :
    (ofPriority priority files).map (·.path) =
      Survey.withPriority priority (files.map (·.path)) := by
  unfold ofPriority Survey.withPriority
  rw [List.filter_map]
  rfl

theorem paths_ofWantedPriority (settings : ScanSettings) {files : List FoundFile}
    (hsorted : files.Pairwise fun first second => Discovery.before first second = true)
    (hdistinct : files.Pairwise FoundFile.Apart) :
    (ofWantedPriority settings (queue files)).map (·.path) =
      (Survey.ofPaths (files.map (·.path))).queue settings := by
  rw [queue_eq_byPriority hsorted hdistinct]
  unfold ofWantedPriority Survey.queue
  split
  · have hhigh : (byPriority files).filter (Priority.ofPath ·.path = .high) =
        ofPriority .high files := by
      have hother : ∀ priority, priority ≠ .high →
          (ofPriority priority files).filter (Priority.ofPath ·.path = .high) = [] := by
        intro priority hne
        rw [List.filter_eq_nil_iff]
        intro file hfile
        rw [(mem_ofPriority.mp hfile).2]
        simpa using hne
      unfold byPriority
      rw [List.filter_append, List.filter_append, hother .medium (by decide),
        hother .low (by decide), List.append_nil, List.append_nil]
      unfold ofPriority
      rw [List.filter_filter]
      simp only [Bool.and_self]
    rw [hhigh, paths_ofPriority]
    rfl
  · simp only [byPriority, List.map_append, paths_ofPriority, List.append_assoc,
      Survey.ofPaths]

/-- The files that a scan reads are the front of the survey's queue. -/
theorem paths_filesToRead (settings : ScanSettings) {files : List FoundFile}
    (hsorted : files.Pairwise fun first second => Discovery.before first second = true)
    (hdistinct : files.Pairwise FoundFile.Apart) :
    (filesToRead settings files).map (·.path) =
      (Survey.ofPaths (files.map (·.path))).front settings := by
  have hwanted := paths_ofWantedPriority settings hsorted hdistinct
  unfold filesToRead ofWantedNumber Survey.front
  cases settings.maxFiles with
  | none => exact hwanted
  | some count => simp only [List.map_take, hwanted]

theorem paths_modelsOf_append_failuresOf_perm (limits : Limits) (files : List FoundFile) :
    ((modelsOf limits files).map (·.1) ++ (failuresOf limits files).map (·.path)).Perm
      (files.map (·.path)) := by
  induction files with
  | nil => exact List.Perm.refl _
  | cons file files ih =>
      unfold modelsOf failuresOf at ih ⊢
      cases hread : readFile limits file with
      | ok model =>
          simp only [List.filterMap_cons, hread, List.map_cons, List.cons_append]
          exact ih.cons _
      | error cause =>
          simp only [List.filterMap_cons, hread, List.map_cons]
          exact List.perm_middle.trans (ih.cons _)

end Scan

/-- The report without the number of portions in which files were read. -/
def ScanReport.withoutChunks (report : ScanReport) : ScanReport :=
  { report with counts := { report.counts with chunks := 0 } }

/-- The settings with another size of portions. -/
def Settings.withChunkSize (settings : Settings) (size : Nat) : Settings :=
  { settings with scan := { settings.scan with chunkSize := size } }

namespace Scan

theorem withoutChunks_record (report : ScanReport) (path : Path)
    (outcome : Except FailureCause SourceModel) :
    (report.record path outcome).withoutChunks = report.withoutChunks.record path outcome := by
  cases outcome with
  | ok model => rfl
  | error cause =>
      simp only [ScanReport.record]
      split <;> rfl

theorem withoutChunks_recordPortion (limits : Limits) (report : ScanReport)
    (files : List FoundFile) :
    (recordPortion limits report files).withoutChunks =
      files.foldl (fun report file => report.record file.path (readFile limits file))
        report.withoutChunks := by
  have hfold : ∀ report : ScanReport,
      (files.foldl (fun report file => report.record file.path (readFile limits file))
        report).withoutChunks =
      files.foldl (fun report file => report.record file.path (readFile limits file))
        report.withoutChunks := by
    induction files with
    | nil => exact fun _ => rfl
    | cons file files ih =>
        intro report
        rw [List.foldl_cons, List.foldl_cons, ih, withoutChunks_record]
  exact hfold _

/-- Up to the number of portions, files are recorded as if there were only one. -/
theorem withoutChunks_foldl_recordPortion (limits : Limits) (portions : List (List FoundFile))
    (report : ScanReport) :
    (portions.foldl (recordPortion limits) report).withoutChunks =
      portions.flatten.foldl
        (fun report file => report.record file.path (readFile limits file))
        report.withoutChunks := by
  induction portions generalizing report with
  | nil => rfl
  | cons portion portions ih =>
      rw [List.foldl_cons, ih, withoutChunks_recordPortion, List.flatten_cons,
        List.foldl_append]

theorem withoutChunks_ofFiles_withChunkSize (settings : Settings) (size : Nat)
    (files : List FoundFile) :
    (ofFiles (settings.withChunkSize size) files).withoutChunks =
      (ofFiles settings files).withoutChunks := by
  rw [ofFiles_eq, ofFiles_eq, withoutChunks_foldl_recordPortion,
    withoutChunks_foldl_recordPortion, portions_flatten, portions_flatten]
  rfl

/-- A survey and the report of a scan count the same files.  What is read or fails is
the front of the survey's queue, and both keep the order of the queue. -/
structure Agrees (settings : ScanSettings) (survey : Survey) (report : ScanReport) : Prop where
  discovered : survey.total = report.counts.discovered
  languages : survey.total = survey.byLanguage.total
  queueOnce : (survey.queue settings).Nodup
  processed : (report.order ++ report.failures.map (·.path)).Perm (survey.front settings)
  order : report.order.Sublist (survey.front settings)
  failures : (report.failures.map (·.path)).Sublist (survey.front settings)

theorem agrees_of_files {settings : Settings} {files : List FoundFile}
    (hsorted : files.Pairwise fun first second => Discovery.before first second = true)
    (hdistinct : files.Pairwise FoundFile.Apart)
    (hlanguage : ∀ file ∈ files, (Language.ofPath? file.path).isSome = true) :
    Agrees settings.scan (Survey.ofPaths (files.map (·.path))) (ofFiles settings files) := by
  obtain ⟨hrecords, hcounts, -⟩ : Records settings.limits (filesToRead settings.scan files)
      (ofFiles settings files) ∧ _ := records_ofFiles hdistinct hlanguage
  have hfront := paths_filesToRead settings.scan hsorted hdistinct
  constructor
  · have hdiscovered : (ofFiles settings files).counts.discovered = (queue files).length :=
      hcounts.discovered
    rw [hdiscovered, queue, List.length_mergeSort]
    exact List.length_map _
  · refine (Survey.countLanguages_total ?_).symm
    intro path hpath
    obtain ⟨file, hfile, rfl⟩ := List.mem_map.mp hpath
    exact hlanguage file hfile
  · rw [← paths_ofWantedPriority settings.scan hsorted hdistinct]
    have hwanted := (pairwise_queue hdistinct).sublist (ofWantedPriority_sublist settings.scan _)
    refine List.pairwise_map.mpr (hwanted.imp ?_)
    intro first second hboth heq
    exact hboth.1 (congrArg Path.key heq)
  · rw [← hfront, hrecords.order, hrecords.failures]
    exact paths_modelsOf_append_failuresOf_perm _ _
  · rw [← hfront, hrecords.order]
    exact sublist_paths_modelsOf _ _
  · rw [← hfront, hrecords.failures]
    exact sublist_paths_failuresOf _ _

theorem sourceFiles_pairwise_before {patterns : List (List Glob.Token)} {tree : FileTree}
    {root : Path} {found : List FoundFile}
    (hfound : Discovery.sourceFiles patterns tree root = .ok found) :
    found.Pairwise fun first second => Discovery.before first second = true := by
  unfold Discovery.sourceFiles at hfound
  split at hfound
  · contradiction
  · rw [← Except.ok.inj hfound]
    exact List.pairwise_mergeSort Discovery.before_trans Discovery.before_total _

/-- Valid settings and a root that exists lead to files in the order of their paths. -/
theorem exists_sourceFiles {settings : Settings} {tree : FileTree} {root : Path}
    (hvalid : settings.validate = .ok ()) (htree : tree.root.WellFormed)
    (hroot : tree.hasPath root = true) :
    ∃ patterns found, settings.excludedPatterns = .ok patterns ∧
      Discovery.sourceFiles patterns tree root = .ok found ∧
      (found.Pairwise fun first second => Discovery.before first second = true) ∧
      found.Pairwise FoundFile.Apart ∧
      ∀ file ∈ found, (Language.ofPath? file.path).isSome = true := by
  obtain ⟨-, patterns, hpatterns⟩ := excludedPatterns_of_validate hvalid
  unfold FileTree.hasPath at hroot
  split at hroot
  · next node hnode =>
      obtain ⟨found, hfound, hdistinct, hlanguage⟩ :=
        Discovery.sourceFiles_spec patterns htree hnode
      exact ⟨patterns, found, hpatterns, hfound, sourceFiles_pairwise_before hfound, hdistinct,
        hlanguage⟩
  · contradiction

/-- With valid settings and a root that exists, a survey and a scan agree, and another
valid size of portions gives the same report but for the number of portions. -/
theorem exists_agrees_ofTree (settings : Settings) (tree : FileTree) (root : Path)
    (hvalid : settings.validate = .ok ()) (htree : tree.root.WellFormed)
    (hroot : tree.hasPath root = true) :
    ∃ survey report, Survey.ofTree settings tree root = .ok survey ∧
      ofTree settings tree root = .ok report ∧ Agrees settings.scan survey report ∧
      ∀ size, (settings.withChunkSize size).validate = .ok () →
        ∃ other, ofTree (settings.withChunkSize size) tree root = .ok other ∧
          other.withoutChunks = report.withoutChunks := by
  obtain ⟨patterns, found, hpatterns, hfound, hsorted, hdistinct, hlanguage⟩ :=
    exists_sourceFiles hvalid htree hroot
  refine ⟨Survey.ofPaths (found.map (·.path)), ofFiles settings found, ?_, ?_,
    agrees_of_files hsorted hdistinct hlanguage, ?_⟩
  · unfold Survey.ofTree
    simp only [hvalid, hpatterns, hfound, bind, Except.bind]
    rfl
  · unfold ofTree
    simp only [hvalid, hpatterns, hfound, bind, Except.bind]
    rfl
  · intro size hsize
    have hsame : (settings.withChunkSize size).excludedPatterns = .ok patterns := hpatterns
    refine ⟨ofFiles (settings.withChunkSize size) found, ?_,
      withoutChunks_ofFiles_withChunkSize settings size found⟩
    unfold ofTree
    simp only [hsize, hsame, hfound, bind, Except.bind]
    rfl

theorem exists_agrees_ofTree_sampleTree :
    Settings.standard.validate = .ok () ∧ sampleTree.root.WellFormed ∧
      sampleTree.hasPath ⟨"."⟩ = true ∧ (Settings.standard.withChunkSize 1).validate = .ok () ∧
      ∃ survey report, Survey.ofTree .standard sampleTree ⟨"."⟩ = .ok survey ∧
        ofTree .standard sampleTree ⟨"."⟩ = .ok report ∧
        Agrees Settings.standard.scan survey report ∧
        ∃ other, ofTree (Settings.standard.withChunkSize 1) sampleTree ⟨"."⟩ = .ok other ∧
          other.withoutChunks = report.withoutChunks := by
  have hvalid : Settings.standard.validate = .ok () := by rfl
  have htree : sampleTree.root.WellFormed := by
    simp only [sampleTree, FileNode.WellFormed, FileNode.WellFormedEntries, and_true,
      List.mem_singleton, List.not_mem_nil, false_implies, forall_true_iff, forall_eq]
    decide
  have hroot : sampleTree.hasPath ⟨"."⟩ = true := by decide
  have hsize : (Settings.standard.withChunkSize 1).validate = .ok () := by rfl
  obtain ⟨survey, report, hsurvey, hreport, hagrees, hsizes⟩ :=
    exists_agrees_ofTree _ _ _ hvalid htree hroot
  exact ⟨hvalid, htree, hroot, hsize, survey, report, hsurvey, hreport, hagrees,
    hsizes 1 hsize⟩

end Scan

end SourceAtlas
