import SourceAtlas.Report.Scan
import SourceAtlas.Proofs.Discovery
import SourceAtlas.Proofs.SortedMaps
import Mathlib.Data.List.Pairwise

/-!
# Accounting of scans

A scan keeps its counts by hand while it walks through the portions of its
queue.  They are compared with what the files of the queue come to when each is
read for itself: a list of models and a list of failures, both in the order of
reading.  One invariant relates a report to the files read so far; recording one
more file keeps it because no two discovered files share a path, and because
discovery has already asked for the language that reading asks for.
-/

namespace SourceAtlas

namespace Role

instance : Std.Irrefl (· < · : Role → Role → Prop) :=
  ⟨fun role => Nat.lt_irrefl role.index⟩

theorem mem_all (role : Role) : role ∈ all := by
  cases role <;> decide

theorem index_injective {first second : Role} (hindex : first.index = second.index) :
    first = second :=
  (List.idxOf_inj (mem_all first)).mp hindex

instance : Std.Trichotomous (· < · : Role → Role → Prop) :=
  ⟨fun _ _ hbelow habove =>
    index_injective (Nat.le_antisymm (Nat.not_lt.mp habove) (Nat.not_lt.mp hbelow))⟩

end Role

namespace Scan

/-- One path is read strictly before another: it has the higher priority, or the
same priority and comes first in the order of paths. -/
def ReadsBefore (first second : Path) : Prop :=
  (Priority.ofPath first).rank < (Priority.ofPath second).rank ∨
    (Priority.ofPath first).rank = (Priority.ofPath second).rank ∧ first < second

theorem before_iff {first second : FoundFile} :
    before first second = true ↔
      (Priority.ofPath first.path).rank < (Priority.ofPath second.path).rank ∨
        (Priority.ofPath first.path).rank = (Priority.ofPath second.path).rank ∧
          first.path.key ≤ second.path.key := by
  have hle : Discovery.before first second = true ↔ first.path.key ≤ second.path.key := by
    simp [Discovery.before, Path.lt_iff_key_lt]
  simp only [before, Bool.or_eq_true, Bool.and_eq_true, decide_eq_true_eq, hle]

theorem before_trans (first second third : FoundFile)
    (hfirst : before first second = true) (hsecond : before second third = true) :
    before first third = true := by
  rw [before_iff] at *
  rcases hfirst with hlt | ⟨heq, hle⟩
  · rcases hsecond with hlt' | ⟨heq', hle'⟩
    · exact Or.inl (hlt.trans hlt')
    · exact Or.inl (heq' ▸ hlt)
  · rcases hsecond with hlt' | ⟨heq', hle'⟩
    · exact Or.inl (heq ▸ hlt')
    · exact Or.inr ⟨heq.trans heq', hle.trans hle'⟩

theorem before_total (first second : FoundFile) :
    (before first second || before second first) = true := by
  rw [Bool.or_eq_true, before_iff, before_iff]
  rcases Nat.lt_trichotomy (Priority.ofPath first.path).rank
      (Priority.ofPath second.path).rank with hlt | heq | hgt
  · exact Or.inl (Or.inl hlt)
  · rcases le_total first.path.key second.path.key with hle | hge
    · exact Or.inl (Or.inr ⟨heq, hle⟩)
    · exact Or.inr (Or.inr ⟨heq.symm, hge⟩)
  · exact Or.inr (Or.inl hgt)

theorem readsBefore_of_before {first second : FoundFile} (hbefore : before first second = true)
    (hne : first.Apart second) : ReadsBefore first.path second.path := by
  rcases before_iff.mp hbefore with hlt | ⟨heq, hle⟩
  · exact Or.inl hlt
  · exact Or.inr ⟨heq, lt_of_le_of_ne hle hne⟩

/-- The queue holds files of different paths in strictly ascending order. -/
theorem pairwise_queue {files : List FoundFile}
    (hfiles : files.Pairwise FoundFile.Apart) :
    (queue files).Pairwise fun first second =>
      first.Apart second ∧ ReadsBefore first.path second.path := by
  have hsorted : (queue files).Pairwise fun first second => before first second = true :=
    List.pairwise_mergeSort before_trans before_total files
  have hdistinct : (queue files).Pairwise FoundFile.Apart :=
    ((List.mergeSort_perm files before).pairwise_iff FoundFile.Apart.symm).mpr hfiles
  exact hdistinct.imp₂ (fun first second hne hbefore =>
    ⟨hne, readsBefore_of_before hbefore hne⟩) hsorted

theorem portionsLoop_flatten {α : Type} {size : Nat} (hsize : 0 < size) (fuel : Nat)
    {items : List α} (hfuel : items.length ≤ fuel) :
    (portionsLoop size fuel items).flatten = items := by
  induction fuel generalizing items with
  | zero =>
      have hnil : items = [] := List.length_eq_zero_iff.mp (by omega)
      simp [portionsLoop, hnil]
  | succ fuel ih =>
      cases items with
      | nil => simp [portionsLoop]
      | cons first rest =>
          have hdrop : ((first :: rest).drop size).length ≤ fuel := by
            simp only [List.length_drop, List.length_cons] at hfuel ⊢
            omega
          simp only [portionsLoop, List.flatten_cons]
          rw [ih hdrop, List.take_append_drop]

theorem portions_flatten {α : Type} (size : Nat) (items : List α) :
    (portions size items).flatten = items :=
  portionsLoop_flatten (by omega) items.length (Nat.le_refl _)

theorem portionsLoop_length {α : Type} {size : Nat} (hsize : 0 < size) (fuel : Nat)
    {items : List α} (hfuel : items.length ≤ fuel) :
    (portionsLoop size fuel items).length = (items.length + size - 1) / size := by
  induction fuel generalizing items with
  | zero =>
      have hnil : items = [] := List.length_eq_zero_iff.mp (by omega)
      subst items
      simp only [portionsLoop, List.length_nil, Nat.zero_add]
      exact (Nat.div_eq_of_lt (by omega)).symm
  | succ fuel ih =>
      cases items with
      | nil =>
          simp only [portionsLoop, List.length_nil, Nat.zero_add]
          exact (Nat.div_eq_of_lt (by omega)).symm
      | cons first rest =>
          have hdrop : ((first :: rest).drop size).length ≤ fuel := by
            simp only [List.length_drop, List.length_cons] at hfuel ⊢
            omega
          have hpos : 0 < (first :: rest).length := by simp
          have hloop : portionsLoop size (fuel + 1) (first :: rest) =
              (first :: rest).take size ::
                portionsLoop size fuel ((first :: rest).drop size) := by
            simp [portionsLoop]
          rw [hloop, List.length_cons, ih hdrop, List.length_drop]
          generalize (first :: rest).length = count at hpos
          -- One portion more is one division step more.
          rw [show count + size - 1 = (count - 1) + size by omega, Nat.add_div_right _ hsize]
          by_cases hle : size ≤ count
          · rw [show count - size + size - 1 = count - 1 by omega]
          · rw [Nat.div_eq_of_lt (by omega), Nat.div_eq_of_lt (by omega)]

/-- There are as many portions as it takes to hold all items. -/
theorem portions_length {α : Type} {size : Nat} (hsize : 0 < size) (items : List α) :
    (portions size items).length = (items.length + size - 1) / size := by
  have hmax : max size 1 = size := by omega
  unfold portions
  rw [hmax]
  exact portionsLoop_length hsize items.length (Nat.le_refl _)

/-! ## Outcomes of single files -/

theorem path_eq_of_decodeFile {path : Path} {bytes : ByteArray} {lastModified : Timestamp}
    {source : SourceFile} (hdecode : decodeFile path bytes lastModified = .ok source) :
    source.path = path := by
  unfold decodeFile at hdecode
  split at hdecode
  · contradiction
  · have heq := Except.ok.inj hdecode
    rw [← heq]

theorem isReportable_of_decodeFile {path : Path} {bytes : ByteArray} {lastModified : Timestamp}
    {cause : FailureCause} (hdecode : decodeFile path bytes lastModified = .error cause) :
    cause.isReportable = true := by
  unfold decodeFile at hdecode
  split at hdecode
  · have heq := Except.error.inj hdecode
    rw [← heq]
    rfl
  · contradiction

theorem isReportable_of_extract {parser : Python.Parser} {file : SourceFile}
    {cause : FailureCause} (hextract : Python.extract parser file = .error cause) :
    cause.isReportable = true := by
  unfold Python.extract at hextract
  split at hextract
  · cases hextract
    rfl
  · split at hextract
    · cases hextract
      simp [Python.failureAt, FailureCause.isReportable]
    · contradiction

theorem path_eq_of_extract {parser : Python.Parser} {file : SourceFile} {model : SourceModel}
    (hextract : Python.extract parser file = .ok model) : model.path = file.path := by
  unfold Python.extract at hextract
  split at hextract
  · contradiction
  · split at hextract
    · contradiction
    · cases hextract
      rfl

theorem path_eq_of_readModel {limits : Limits} {tier : Option Tier} {file : SourceFile}
    {model : SourceModel} (hread : readModel limits tier file = .ok model) :
    model.path = file.path := by
  unfold readModel readModelWith at hread
  split at hread
  · exact path_eq_of_extract hread
  · cases hread
    rfl
  · contradiction

/-- A model that reading gives is classified and stands under the path of its
file. -/
theorem readFile_ok {limits : Limits} {file : FoundFile} {model : SourceModel}
    (hread : readFile limits file = .ok model) :
    model.path = file.path ∧ model.role.isSome = true := by
  unfold readFile at hread
  cases hdecode : decodeFile file.path file.bytes file.lastModified with
  | error cause => simp [hdecode, bind, Except.bind] at hread
  | ok source =>
      cases hmodel : readModel limits limits.tier.forced? source with
      | error cause =>
          simp [hdecode, hmodel, readClassified, bind, Except.bind, Except.map] at hread
      | ok found =>
          have hclassified : { found with
              role := some (classify source.path source.content (some found)) } = model := by
            simpa [hdecode, hmodel, readClassified, bind, Except.bind, Except.map] using hread
          rw [← hclassified]
          exact ⟨(path_eq_of_readModel hmodel).trans (path_eq_of_decodeFile hdecode), rfl⟩

/-- A file of a known language fails only for reasons that a report mentions. -/
theorem readFile_error {limits : Limits} {file : FoundFile} {cause : FailureCause}
    (hlanguage : (Language.ofPath? file.path).isSome = true)
    (hread : readFile limits file = .error cause) : cause.isReportable = true := by
  unfold readFile at hread
  cases hdecode : decodeFile file.path file.bytes file.lastModified with
  | error failure =>
      have heq : failure = cause := by simpa [hdecode, bind, Except.bind] using hread
      rw [← heq]
      exact isReportable_of_decodeFile hdecode
  | ok source =>
      have hsource : source.language? = Language.ofPath? file.path := by
        rw [← path_eq_of_decodeFile hdecode]
        rfl
      cases hmodel : readModel limits limits.tier.forced? source with
      | error failure =>
          have heq : failure = cause := by
            simpa [hdecode, hmodel, readClassified, bind, Except.bind, Except.map] using hread
          rw [← heq]
          unfold readModel readModelWith at hmodel
          split at hmodel
          · exact isReportable_of_extract hmodel
          · contradiction
          · next hnone =>
            rw [← hsource, hnone] at hlanguage
            contradiction
      | ok found =>
          simp [hdecode, hmodel, readClassified, bind, Except.bind, Except.map] at hread

/-- The models of some files under their paths. -/
def modelsOf (limits : Limits) (files : List FoundFile) : List (Path × SourceModel) :=
  files.filterMap fun file =>
    match readFile limits file with
    | .ok model => some (file.path, model)
    | .error _ => none

/-- The failures of some files. -/
def failuresOf (limits : Limits) (files : List FoundFile) : List FileFailure :=
  files.filterMap fun file =>
    match readFile limits file with
    | .ok _ => none
    | .error cause => some { path := file.path, cause }

theorem length_modelsOf_add_length_failuresOf (limits : Limits) (files : List FoundFile) :
    (modelsOf limits files).length + (failuresOf limits files).length = files.length := by
  induction files with
  | nil => rfl
  | cons file files ih =>
      unfold modelsOf failuresOf at ih ⊢
      cases hread : readFile limits file with
      | ok model =>
          simp only [List.filterMap_cons, hread, List.length_cons]
          omega
      | error cause =>
          simp only [List.filterMap_cons, hread, List.length_cons]
          omega

theorem sublist_paths_modelsOf (limits : Limits) (files : List FoundFile) :
    ((modelsOf limits files).map (·.1)).Sublist (files.map (·.path)) := by
  induction files with
  | nil => exact List.Sublist.refl _
  | cons file files ih =>
      unfold modelsOf at ih ⊢
      cases hread : readFile limits file with
      | ok model =>
          simp only [List.filterMap_cons, hread, List.map_cons]
          exact ih.cons_cons _
      | error cause =>
          simp only [List.filterMap_cons, hread, List.map_cons]
          exact ih.cons _

theorem sublist_paths_failuresOf (limits : Limits) (files : List FoundFile) :
    ((failuresOf limits files).map (·.path)).Sublist (files.map (·.path)) := by
  induction files with
  | nil => exact List.Sublist.refl _
  | cons file files ih =>
      unfold failuresOf at ih ⊢
      cases hread : readFile limits file with
      | ok model =>
          simp only [List.filterMap_cons, hread, List.map_cons]
          exact ih.cons _
      | error cause =>
          simp only [List.filterMap_cons, hread, List.map_cons]
          exact ih.cons_cons _

theorem mem_modelsOf {limits : Limits} {files : List FoundFile} {entry : Path × SourceModel} :
    entry ∈ modelsOf limits files ↔
      ∃ file ∈ files, file.path = entry.1 ∧ readFile limits file = .ok entry.2 := by
  unfold modelsOf
  rw [List.mem_filterMap]
  constructor
  · rintro ⟨file, hfile, hentry⟩
    split at hentry
    · next model hread =>
      have heq : (file.path, model) = entry := Option.some.inj hentry
      rw [← heq]
      exact ⟨file, hfile, rfl, hread⟩
    · contradiction
  · rintro ⟨file, hfile, hpath, hread⟩
    refine ⟨file, hfile, ?_⟩
    rw [hread]
    simp [hpath]

theorem mem_failuresOf {limits : Limits} {files : List FoundFile} {failure : FileFailure} :
    failure ∈ failuresOf limits files ↔
      ∃ file ∈ files, file.path = failure.path ∧
        readFile limits file = .error failure.cause := by
  unfold failuresOf
  rw [List.mem_filterMap]
  constructor
  · rintro ⟨file, hfile, hfailure⟩
    split at hfailure
    · contradiction
    · next cause hread =>
      have heq : { path := file.path, cause } = failure := Option.some.inj hfailure
      rw [← heq]
      exact ⟨file, hfile, rfl, hread⟩
  · rintro ⟨file, hfile, hpath, hread⟩
    refine ⟨file, hfile, ?_⟩
    rw [hread]
    simp [hpath]

/-! ## The invariant of the walk -/

/-- A report tells what the files read so far come to. -/
structure Records (limits : Limits) (files : List FoundFile) (report : ScanReport) : Prop where
  order : report.order = (modelsOf limits files).map (·.1)
  models : report.models.entries.Perm (modelsOf limits files)
  failures : report.failures = failuresOf limits files
  extracted : report.counts.extracted = (modelsOf limits files).length
  failed : report.counts.failed = (failuresOf limits files).length
  incomplete : report.counts.incomplete = (modelsOf limits files).countP (·.2.isPartial)
  roles : ∀ role, (report.counts.roles.get? role).getD 0 =
    (modelsOf limits files).countP (·.2.role = some role)
  roleTotal : report.counts.roles.total = (modelsOf limits files).length

/-- The counts that recording a file leaves alone. -/
structure SameQueue (first second : ScanCounts) : Prop where
  discovered : second.discovered = first.discovered
  skippedByPriority : second.skippedByPriority = first.skippedByPriority
  skippedByLimit : second.skippedByLimit = first.skippedByLimit

theorem SameQueue.refl (counts : ScanCounts) : SameQueue counts counts := ⟨rfl, rfl, rfl⟩

theorem SameQueue.trans {first second third : ScanCounts} (hfirst : SameQueue first second)
    (hsecond : SameQueue second third) : SameQueue first third :=
  ⟨hsecond.discovered.trans hfirst.discovered,
    hsecond.skippedByPriority.trans hfirst.skippedByPriority,
    hsecond.skippedByLimit.trans hfirst.skippedByLimit⟩

theorem record_frame (report : ScanReport) (path : Path)
    (outcome : Except FailureCause SourceModel) :
    SameQueue report.counts (report.record path outcome).counts ∧
      (report.record path outcome).counts.chunks = report.counts.chunks := by
  cases outcome with
  | ok model => exact ⟨⟨rfl, rfl, rfl⟩, rfl⟩
  | error cause =>
      simp only [ScanReport.record]
      split
      · exact ⟨⟨rfl, rfl, rfl⟩, rfl⟩
      · exact ⟨SameQueue.refl _, rfl⟩

/-- Recording a file of a known language whose path is new keeps the
invariant. -/
theorem Records.record {limits : Limits} {files : List FoundFile} {report : ScanReport}
    (hrecords : Records limits files report) {file : FoundFile}
    (hnew : ∀ earlier ∈ files, earlier.Apart file)
    (hlanguage : (Language.ofPath? file.path).isSome = true) :
    Records limits (files ++ [file]) (report.record file.path (readFile limits file)) := by
  cases hread : readFile limits file with
  | error cause =>
      have hmodels : modelsOf limits (files ++ [file]) = modelsOf limits files := by
        simp [modelsOf, hread]
      have hfailures : failuresOf limits (files ++ [file]) =
          failuresOf limits files ++ [{ path := file.path, cause }] := by
        simp [failuresOf, hread]
      simp only [ScanReport.record, readFile_error hlanguage hread, if_true]
      constructor
      · simpa [hmodels] using hrecords.order
      · simpa [hmodels] using hrecords.models
      · simpa [hfailures] using hrecords.failures
      · simpa [hmodels] using hrecords.extracted
      · simpa [hfailures] using hrecords.failed
      · simpa [hmodels] using hrecords.incomplete
      · simpa [hmodels] using hrecords.roles
      · simpa [hmodels] using hrecords.roleTotal
  | ok model =>
      have hmodels : modelsOf limits (files ++ [file]) =
          modelsOf limits files ++ [(file.path, model)] := by
        simp [modelsOf, hread]
      have hfailures : failuresOf limits (files ++ [file]) = failuresOf limits files := by
        simp [failuresOf, hread]
      obtain ⟨role, hrole⟩ := Option.isSome_iff_exists.mp (readFile_ok hread).2
      have hapart : ∀ entry ∈ report.models.entries,
          entry.1 < file.path ∨ file.path < entry.1 := by
        intro entry hentry
        obtain ⟨earlier, hearlier, hpath, _⟩ :=
          mem_modelsOf.mp (hrecords.models.mem_iff.mp hentry)
        rw [← hpath]
        exact Path.lt_or_lt_of_key_ne (hnew earlier hearlier)
      simp only [ScanReport.record]
      constructor
      · simp [hmodels, hrecords.order]
      · rw [hmodels]
        refine (SortedMap.entries_insert_perm_of_apart hapart).trans ?_
        exact (hrecords.models.cons _).trans (List.perm_append_singleton _ _).symm
      · simpa [hfailures] using hrecords.failures
      · simp [hmodels, ScanCounts.addModel, hrecords.extracted]
      · simpa [hfailures, ScanCounts.addModel] using hrecords.failed
      · simp only [hmodels, ScanCounts.addModel, List.countP_append, List.countP_singleton,
          hrecords.incomplete]
        split <;> simp
      · intro other
        simp only [hmodels, ScanCounts.addModel, hrole, List.countP_append,
          List.countP_singleton]
        rw [← hrecords.roles other]
        by_cases hsame : other = role
        · subst other
          simp [SortedMap.get?_update_self]
        · have hne : role ≠ other := fun heq => hsame heq.symm
          simp [SortedMap.get?_update_of_ne _ hsame, hne]
      · simp only [hmodels, ScanCounts.addModel, hrole, SortedMap.total_update_succ,
          hrecords.roleTotal, List.length_append, List.length_singleton]

theorem records_foldl_record {limits : Limits} {done files : List FoundFile}
    {report : ScanReport} (hrecords : Records limits done report)
    (hdistinct : (done ++ files).Pairwise FoundFile.Apart)
    (hlanguage : ∀ file ∈ files, (Language.ofPath? file.path).isSome = true) :
    let result := files.foldl
      (fun report file => report.record file.path (readFile limits file)) report
    Records limits (done ++ files) result ∧ SameQueue report.counts result.counts ∧
      result.counts.chunks = report.counts.chunks := by
  induction files generalizing done report with
  | nil => exact ⟨by simpa using hrecords, SameQueue.refl _, rfl⟩
  | cons file files ih =>
      have hsplit : done ++ file :: files = (done ++ [file]) ++ files := by simp
      have hnew : ∀ earlier ∈ done, earlier.Apart file := by
        intro earlier hearlier
        exact (List.pairwise_append.mp hdistinct).2.2 earlier hearlier file List.mem_cons_self
      have hstep := hrecords.record hnew (hlanguage file List.mem_cons_self)
      have hframe := record_frame report file.path (readFile limits file)
      rw [hsplit] at hdistinct ⊢
      obtain ⟨hresult, hsame, hchunks⟩ := ih hstep hdistinct
        fun later hlater => hlanguage later (List.mem_cons_of_mem _ hlater)
      exact ⟨hresult, hframe.1.trans hsame, hchunks.trans hframe.2⟩

/-- A portion keeps the invariant and counts as one chunk. -/
theorem Records.recordPortion {limits : Limits} {done files : List FoundFile}
    {report : ScanReport} (hrecords : Records limits done report)
    (hdistinct : (done ++ files).Pairwise FoundFile.Apart)
    (hlanguage : ∀ file ∈ files, (Language.ofPath? file.path).isSome = true) :
    Records limits (done ++ files) (recordPortion limits report files) ∧
      SameQueue report.counts (recordPortion limits report files).counts ∧
      (recordPortion limits report files).counts.chunks = report.counts.chunks + 1 := by
  have hcounted : Records limits done { report with
      counts := { report.counts with chunks := report.counts.chunks + 1 } } :=
    ⟨hrecords.order, hrecords.models, hrecords.failures, hrecords.extracted,
      hrecords.failed, hrecords.incomplete, hrecords.roles, hrecords.roleTotal⟩
  obtain ⟨hresult, hsame, hchunks⟩ := records_foldl_record hcounted hdistinct hlanguage
  exact ⟨hresult, ⟨hsame.discovered, hsame.skippedByPriority, hsame.skippedByLimit⟩, hchunks⟩

/-- Walking through portions keeps the invariant and counts the portions. -/
theorem records_foldl_recordPortion {limits : Limits} {done : List FoundFile}
    {portions : List (List FoundFile)} {report : ScanReport}
    (hrecords : Records limits done report)
    (hdistinct : (done ++ portions.flatten).Pairwise FoundFile.Apart)
    (hlanguage : ∀ file ∈ portions.flatten, (Language.ofPath? file.path).isSome = true) :
    let result := portions.foldl (recordPortion limits) report
    Records limits (done ++ portions.flatten) result ∧
      SameQueue report.counts result.counts ∧
      result.counts.chunks = report.counts.chunks + portions.length := by
  induction portions generalizing done report with
  | nil => exact ⟨by simpa using hrecords, SameQueue.refl _, rfl⟩
  | cons portion portions ih =>
      rw [List.flatten_cons, ← List.append_assoc] at hdistinct ⊢
      obtain ⟨hportion, hsame, hchunks⟩ := hrecords.recordPortion
        (List.pairwise_append.mp hdistinct).1
        fun file hfile => hlanguage file (by simp [hfile])
      obtain ⟨hresult, hsame', hchunks'⟩ := ih hportion hdistinct
        fun file hfile => hlanguage file (by simp [hfile])
      refine ⟨hresult, hsame.trans hsame', ?_⟩
      simp only [List.foldl_cons, List.length_cons]
      rw [hchunks', hchunks]
      omega

/-- The counts, the order and the failures of a report agree with its models,
under the settings of the scan. -/
structure Accounted (settings : ScanSettings) (report : ScanReport) : Prop where
  discovered : report.counts.discovered =
    report.counts.skippedByPriority + report.counts.skippedByLimit +
      report.counts.extracted + report.counts.failed
  extracted_models : report.counts.extracted = report.models.entries.length
  extracted_order : report.counts.extracted = report.order.length
  order_perm : report.order.Perm (report.models.entries.map (·.1))
  order_nodup : report.order.Nodup
  model_path : ∀ entry ∈ report.models.entries, entry.2.path = entry.1
  failed : report.counts.failed = report.failures.length
  failed_absent : ∀ failure ∈ report.failures, report.models.get? failure.path = none
  incomplete : report.counts.incomplete =
    report.models.entries.countP (·.2.completeness ≠ .complete)
  roles : ∀ role, (report.counts.roles.get? role).getD 0 =
    report.models.entries.countP (·.2.role = some role)
  roles_total : report.counts.roles.total = report.counts.extracted
  chunks : report.counts.chunks =
    (report.counts.extracted + report.counts.failed + settings.chunkSize - 1) /
      settings.chunkSize
  order_ascending : report.order.Pairwise ReadsBefore
  failures_ascending : (report.failures.map (·.path)).Pairwise ReadsBefore

theorem records_empty (limits : Limits) (counts : ScanCounts)
    (hextracted : counts.extracted = 0) (hfailed : counts.failed = 0)
    (hincomplete : counts.incomplete = 0) (hroles : counts.roles = .empty) :
    Records limits [] { ScanReport.empty with counts } := by
  constructor
  · rfl
  · exact List.Perm.refl _
  · rfl
  · exact hextracted
  · exact hfailed
  · exact hincomplete
  · intro role
    simp only [hroles]
    rfl
  · simp only [hroles]
    rfl

theorem ofWantedPriority_sublist (settings : ScanSettings) (files : List FoundFile) :
    (ofWantedPriority settings files).Sublist files := by
  unfold ofWantedPriority
  split
  · exact List.filter_sublist
  · exact List.Sublist.refl _

theorem ofWantedNumber_sublist (settings : ScanSettings) (files : List FoundFile) :
    (ofWantedNumber settings files).Sublist files := by
  unfold ofWantedNumber
  split
  · exact List.take_sublist _ _
  · exact List.Sublist.refl _

/-- The files that a scan reads, in the order of reading. -/
def filesToRead (settings : ScanSettings) (files : List FoundFile) : List FoundFile :=
  ofWantedNumber settings (ofWantedPriority settings (queue files))

/-- The counts of a scan before it reads its first file. -/
def startCounts (settings : ScanSettings) (files : List FoundFile) : ScanCounts :=
  { ScanCounts.zero with
    discovered := (queue files).length
    skippedByPriority := (queue files).length - (ofWantedPriority settings (queue files)).length
    skippedByLimit :=
      (ofWantedPriority settings (queue files)).length - (filesToRead settings files).length }

theorem ofFiles_eq (settings : Settings) (files : List FoundFile) :
    ofFiles settings files =
      (portions settings.scan.chunkSize (filesToRead settings.scan files)).foldl
        (recordPortion settings.limits)
        { ScanReport.empty with counts := startCounts settings.scan files } := rfl

theorem filesToRead_sublist (settings : ScanSettings) (files : List FoundFile) :
    (filesToRead settings files).Sublist (queue files) :=
  (ofWantedNumber_sublist _ _).trans (ofWantedPriority_sublist _ _)

/-- The report on files of known languages under different paths tells what the files
that are read come to. -/
theorem records_ofFiles {settings : Settings} {files : List FoundFile}
    (hdistinct : files.Pairwise FoundFile.Apart)
    (hlanguage : ∀ file ∈ files, (Language.ofPath? file.path).isSome = true) :
    Records settings.limits (filesToRead settings.scan files) (ofFiles settings files) ∧
      SameQueue (startCounts settings.scan files) (ofFiles settings files).counts ∧
      (ofFiles settings files).counts.chunks =
        (portions settings.scan.chunkSize (filesToRead settings.scan files)).length := by
  let taken := filesToRead settings.scan files
  have htaken : taken.Sublist (queue files) := filesToRead_sublist _ _
  have hkeys : taken.Pairwise FoundFile.Apart :=
    ((pairwise_queue hdistinct).sublist htaken).imp fun hboth => hboth.1
  have htakenLanguage : ∀ file ∈ taken, (Language.ofPath? file.path).isSome = true := by
    intro file hfile
    exact hlanguage file (List.mem_mergeSort.mp (htaken.subset hfile))
  have hflat : (portions settings.scan.chunkSize taken).flatten = taken :=
    portions_flatten _ _
  have hstart : Records settings.limits []
      { ScanReport.empty with counts := startCounts settings.scan files } :=
    records_empty _ _ rfl rfl rfl rfl
  have hflatKeys : ([] ++ (portions settings.scan.chunkSize taken).flatten).Pairwise
      FoundFile.Apart := by
    rw [List.nil_append, hflat]
    exact hkeys
  obtain ⟨hrecords, hframe, hchunks⟩ :=
    records_foldl_recordPortion hstart hflatKeys (by rwa [hflat])
  rw [List.nil_append, hflat] at hrecords
  refine ⟨hrecords, hframe, ?_⟩
  rw [ofFiles_eq, hchunks]
  exact Nat.zero_add _

/-- The report on files of known languages under different paths is accounted
for. -/
theorem accounted_of_ofFiles {settings : Settings} {files : List FoundFile}
    (hsize : 0 < settings.scan.chunkSize)
    (hdistinct : files.Pairwise FoundFile.Apart)
    (hlanguage : ∀ file ∈ files, (Language.ofPath? file.path).isSome = true) :
    Accounted settings.scan (ofFiles settings files) := by
  let wanted := ofWantedPriority settings.scan (queue files)
  let taken := filesToRead settings.scan files
  have hwanted : wanted.Sublist (queue files) := ofWantedPriority_sublist _ _
  have htaken : taken.Sublist wanted := ofWantedNumber_sublist _ _
  have hqueue := (pairwise_queue hdistinct).sublist (htaken.trans hwanted)
  have hkeys : taken.Pairwise FoundFile.Apart :=
    hqueue.imp fun hboth => hboth.1
  have hascending : (taken.map (·.path)).Pairwise ReadsBefore :=
    List.pairwise_map.mpr (hqueue.imp fun hboth => hboth.2)
  obtain ⟨hrecords, hframe, hchunks⟩ := records_ofFiles hdistinct hlanguage
  have hread : (ofFiles settings files).counts.extracted +
      (ofFiles settings files).counts.failed = taken.length := by
    rw [hrecords.extracted, hrecords.failed]
    exact length_modelsOf_add_length_failuresOf _ _
  have horder : (ofFiles settings files).order.Pairwise ReadsBefore := by
    rw [hrecords.order]
    exact hascending.sublist (sublist_paths_modelsOf _ _)
  constructor
  · have hdiscovered : (ofFiles settings files).counts.discovered = (queue files).length :=
      hframe.discovered
    have hpriority : (ofFiles settings files).counts.skippedByPriority =
        (queue files).length - wanted.length := hframe.skippedByPriority
    have hlimit : (ofFiles settings files).counts.skippedByLimit =
        wanted.length - taken.length := hframe.skippedByLimit
    have hle := hwanted.length_le
    have hle' := htaken.length_le
    omega
  · rw [hrecords.extracted, hrecords.models.length_eq]
  · rw [hrecords.extracted, hrecords.order, List.length_map]
  · rw [hrecords.order]
    exact (hrecords.models.map _).symm
  · refine horder.imp ?_
    rintro first second (hlt | ⟨_, hlt⟩) rfl
    · exact Nat.lt_irrefl _ hlt
    · exact Path.not_lt_self _ hlt
  · intro entry hentry
    obtain ⟨file, _, hpath, hmodel⟩ := mem_modelsOf.mp (hrecords.models.mem_iff.mp hentry)
    rw [(readFile_ok hmodel).1, hpath]
  · rw [hrecords.failed, hrecords.failures]
  · intro failure hfailure
    rw [hrecords.failures] at hfailure
    obtain ⟨file, hfile, hpath, herror⟩ := mem_failuresOf.mp hfailure
    rw [SortedMap.get?_eq_lookup]
    apply SortedMap.lookup_eq_none_of_apart
    intro entry hentry
    obtain ⟨other, hother, hpath', hmodel⟩ :=
      mem_modelsOf.mp (hrecords.models.mem_iff.mp hentry)
    rw [← hpath, ← hpath']
    apply Path.lt_or_lt_of_key_ne
    -- One file cannot both fail and give a model, and two files differ in path.
    have hne : file ≠ other := by
      rintro rfl
      rw [herror] at hmodel
      contradiction
    exact hkeys.forall hfile hother hne
  · rw [hrecords.incomplete, hrecords.models.countP_eq]
    simp only [SourceModel.isPartial, Completeness.isPartial]
  · intro role
    rw [hrecords.roles, hrecords.models.countP_eq]
  · rw [hrecords.roleTotal, hrecords.extracted]
  · rw [hchunks, hread, portions_length hsize]
  · exact horder
  · rw [hrecords.failures]
    exact hascending.sublist (sublist_paths_failuresOf _ _)

theorem excludedPatterns_of_validate {settings : Settings}
    (hvalid : settings.validate = .ok ()) :
    settings.fault? = none ∧ ∃ patterns, settings.excludedPatterns = .ok patterns := by
  unfold Settings.validate at hvalid
  cases hfault : settings.fault? with
  | some fault => simp [hfault] at hvalid
  | none =>
      cases hpatterns : settings.excludedPatterns with
      | error failure => simp [hfault, hpatterns, Except.map] at hvalid
      | ok patterns => exact ⟨rfl, patterns, rfl⟩

theorem chunkSize_pos_of_fault? {settings : Settings} (hfault : settings.fault? = none) :
    0 < settings.scan.chunkSize := by
  unfold Settings.fault? at hfault
  split at hfault
  · contradiction
  · omega

/-- With valid settings and a root that exists, a scan ends in a report, and the
report is accounted for. -/
theorem exists_accounted_ofTree (settings : Settings) (tree : FileTree) (root : Path)
    (hvalid : settings.validate = .ok ()) (htree : tree.root.WellFormed)
    (hroot : tree.hasPath root = true) :
    ∃ report, ofTree settings tree root = .ok report ∧ Accounted settings.scan report := by
  obtain ⟨hfault, patterns, hpatterns⟩ := excludedPatterns_of_validate hvalid
  obtain ⟨node, hnode⟩ : ∃ node, tree.node root = .ok node := by
    unfold FileTree.hasPath at hroot
    split at hroot
    · next node hnode => exact ⟨node, hnode⟩
    · contradiction
  obtain ⟨found, hfound, hdistinct, hlanguage⟩ :=
    Discovery.sourceFiles_spec patterns htree hnode
  refine ⟨ofFiles settings found, ?_, ?_⟩
  · unfold ofTree
    simp only [hvalid, hpatterns, hfound, bind, Except.bind]
    rfl
  · exact accounted_of_ofFiles (chunkSize_pos_of_fault? hfault) hdistinct hlanguage

/-- A tree with a C# file, a Python file that is no text, and an ignored
directory. -/
def sampleTree : FileTree :=
  { root := .directory
      [("app", .directory [("Main.cs", .file "class A { }".toUTF8 .epoch),
          ("bin", .directory [("Old.cs", .file .empty .epoch)])]),
        ("seed.py", .file ⟨#[0xff]⟩ .epoch)]
    workingDirectory := [] }

theorem exists_accounted_ofTree_sampleTree :
    Settings.standard.validate = .ok () ∧ sampleTree.root.WellFormed ∧
      sampleTree.hasPath ⟨"."⟩ = true ∧
      ∃ report, ofTree .standard sampleTree ⟨"."⟩ = .ok report ∧
        Accounted Settings.standard.scan report := by
  have hvalid : Settings.standard.validate = .ok () := by rfl
  have htree : sampleTree.root.WellFormed := by
    simp only [sampleTree, FileNode.WellFormed, FileNode.WellFormedEntries, and_true,
      List.mem_singleton, List.not_mem_nil, false_implies, forall_true_iff, forall_eq]
    decide
  have hroot : sampleTree.hasPath ⟨"."⟩ = true := by decide
  exact ⟨hvalid, htree, hroot, exists_accounted_ofTree _ _ _ hvalid htree hroot⟩

end Scan

end SourceAtlas
