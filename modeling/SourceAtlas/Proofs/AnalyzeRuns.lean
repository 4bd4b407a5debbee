import SourceAtlas.CommandLine.Run
import SourceAtlas.Proofs.AddedFiles

/-!
# Runs that make a report

An analysis is refused for a settings file that cannot be read or has not the form of one,
for settings that are not valid, and for a root that is not there.  In all other cases the
settings are accepted, and then nothing can fail before the report is made.  A refused
analysis has not come to the point where it writes.
-/

namespace SourceAtlas

theorem mapM_cons_eq_error_iff {α β ε : Type} {f : α → Except ε β} {item : α} {items : List α}
    {error : ε} :
    (item :: items).mapM f = .error error ↔
      f item = .error error ∨ (∃ result, f item = .ok result) ∧ items.mapM f = .error error := by
  rw [List.mapM_cons]
  cases f item with
  | error failure => simp [bind, Except.bind]
  | ok result => cases items.mapM f <;> simp [bind, Except.bind, pure, Except.pure]

/-- What fails for the items of a list fails for the first one for which it can. -/
theorem mapM_eq_error_iff {α β ε : Type} {f : α → Except ε β} {items : List α} {error : ε} :
    items.mapM f = .error error ↔
      ∃ before item after, items = before ++ item :: after ∧
        (∀ earlier ∈ before, ∃ result, f earlier = .ok result) ∧ f item = .error error := by
  induction items with
  | nil => simp [pure, Except.pure]
  | cons first items ih =>
      rw [mapM_cons_eq_error_iff, ih]
      constructor
      · rintro (hfirst | ⟨hfirst, before, item, after, rfl, hbefore, hitem⟩)
        · exact ⟨[], first, items, rfl, by simp, hfirst⟩
        · exact ⟨first :: before, item, after, rfl, List.forall_mem_cons.mpr ⟨hfirst, hbefore⟩,
            hitem⟩
      · rintro ⟨before, item, after, hsplit, hbefore, hitem⟩
        cases before with
        | nil =>
            obtain ⟨rfl, -⟩ := List.cons.inj hsplit
            exact Or.inl hitem
        | cons next before =>
            obtain ⟨rfl, rfl⟩ := List.cons.inj hsplit
            obtain ⟨hfirst, hbefore⟩ := List.forall_mem_cons.mp hbefore
            exact Or.inr ⟨hfirst, before, item, after, rfl, hbefore, hitem⟩

theorem mapError_eq_ok_iff {α ε ε' : Type} {f : ε → ε'} {outcome : Except ε α} {result : α} :
    outcome.mapError f = .ok result ↔ outcome = .ok result := by
  cases outcome <;> simp [Except.mapError]

theorem mapError_eq_error_iff {α ε ε' : Type} {f : ε → ε'} {outcome : Except ε α} {error : ε'} :
    outcome.mapError f = .error error ↔ ∃ cause, outcome = .error cause ∧ f cause = error := by
  cases outcome <;> simp [Except.mapError]

namespace Settings

/-- Why settings are not accepted, with the error that says so: a value out of its range, or
the first pattern that is none. -/
inductive Rejected (settings : Settings) : RunError → Prop
  | fault {fault : SettingsFault} (hfault : settings.fault? = some fault) :
      Rejected settings (.settingsFault fault)
  | pattern {before after : List String} {pattern : String} {error : Glob.Error}
      (hfault : settings.fault? = none)
      (hexclude : settings.scan.exclude = before ++ pattern :: after)
      (hbefore : ∀ earlier ∈ before, ∃ tokens, Glob.parse earlier = .ok tokens)
      (hpattern : Glob.parse pattern = .error error) : Rejected settings (.globPattern error)

theorem validate_eq_error_iff {settings : Settings} {error : RunError} :
    settings.validate = .error error ↔ settings.Rejected error := by
  unfold validate
  cases hfault : settings.fault? with
  | some fault =>
      constructor
      · intro heq
        rw [← Except.error.inj heq]
        exact .fault hfault
      · intro hrejected
        cases hrejected with
        | fault hsome => rw [hfault] at hsome; rw [Option.some.inj hsome]
        | pattern hnone => rw [hfault] at hnone; contradiction
  | none =>
      have hmap : settings.excludedPatterns.map (fun _ => ()) = .error error ↔
          settings.excludedPatterns = .error error := by
        cases settings.excludedPatterns <;> simp [Except.map]
      simp only
      rw [hmap, excludedPatterns, mapM_eq_error_iff]
      simp only [mapError_eq_ok_iff, mapError_eq_error_iff]
      constructor
      · rintro ⟨before, pattern, after, hexclude, hbefore, cause, hpattern, rfl⟩
        exact .pattern hfault hexclude hbefore hpattern
      · intro hrejected
        cases hrejected with
        | fault hsome => rw [hfault] at hsome; contradiction
        | pattern _ hexclude hbefore hpattern =>
            exact ⟨_, _, _, hexclude, hbefore, _, hpattern, rfl⟩

theorem validate_cases (settings : Settings) :
    settings.validate = .ok () ∨ ∃ error, settings.Rejected error := by
  cases hvalidate : settings.validate with
  | ok result => exact Or.inl rfl
  | error error => exact Or.inr ⟨error, validate_eq_error_iff.mp hvalidate⟩

@[simp] theorem override_none (settings : Settings) : settings.override .none = settings := by
  simp [override, Overrides.none]

/-- The settings without a destination for the report. -/
def withoutDestination (settings : Settings) : Settings :=
  { settings with output := { settings.output with path := none } }

theorem override_withoutDestination (settings : Settings) (options : Overrides) :
    settings.withoutDestination.override { options with output := none } =
      (settings.override options).withoutDestination := rfl

@[simp] theorem validate_withoutDestination (settings : Settings) :
    settings.withoutDestination.validate = settings.validate := rfl

end Settings

namespace CommandLine

/-- The settings file that a run reads, if it reads one. -/
def settingsFile? (tree : FileTree) (named : Option Path) : Option Path :=
  named.or (if tree.hasPath standardSettingsFile then some standardSettingsFile else none)

theorem loadSettings_eq (tree : FileTree) (named : Option Path) :
    loadSettings tree named =
      match settingsFile? tree named with
      | some path => settingsOf tree path
      | none => .ok .standard := by
  cases named with
  | some path => rfl
  | none =>
      unfold loadSettings settingsFile?
      cases tree.hasPath standardSettingsFile <;> rfl

/-- What a settings file has to be like for an error to be its fault. -/
inductive Unusable (tree : FileTree) (path : Path) : RunError → Prop
  | unreadable {error : FileError} (hbytes : tree.bytes path = .error error) :
      Unusable tree path (.io error.message)
  | notText {bytes : ByteArray} (hbytes : tree.bytes path = .ok bytes)
      (htext : String.fromUTF8? bytes = none) :
      Unusable tree path (.io "stream did not contain valid UTF-8")
  | unparsed {bytes : ByteArray} {content : String} (hbytes : tree.bytes path = .ok bytes)
      (htext : String.fromUTF8? bytes = some content)
      (hparse : Settings.parse? content = none) : Unusable tree path .settingsSyntax
  | invalid {bytes : ByteArray} {content : String} {settings : Settings} {error : RunError}
      (hbytes : tree.bytes path = .ok bytes) (htext : String.fromUTF8? bytes = some content)
      (hparse : Settings.parse? content = some settings) (hrejected : settings.Rejected error) :
      Unusable tree path error

theorem settingsOf_eq_error_iff {tree : FileTree} {path : Path} {error : RunError} :
    settingsOf tree path = .error error ↔ Unusable tree path error := by
  constructor
  · intro herror
    unfold settingsOf Settings.load at herror
    split at herror
    · next bytes hbytes =>
      split at herror
      · next htext =>
        rw [← Except.error.inj herror]
        exact .notText hbytes htext
      · next content htext =>
        split at herror
        · next hparse =>
          rw [← Except.error.inj herror]
          exact .unparsed hbytes htext hparse
        · next settings hparse =>
          rcases settings.validate_cases with hvalid | ⟨found, hrejected⟩
          · simp [hvalid, bind, Except.bind, pure, Except.pure] at herror
          · rw [Settings.validate_eq_error_iff.mpr hrejected] at herror
            rw [← Except.error.inj herror]
            exact .invalid hbytes htext hparse hrejected
    · next failure hbytes =>
      rw [← Except.error.inj herror]
      exact .unreadable hbytes
  · intro hunusable
    unfold settingsOf Settings.load
    cases hunusable with
    | unreadable hbytes => rw [hbytes]
    | notText hbytes htext => simp only [hbytes, htext]
    | unparsed hbytes htext hparse => simp only [hbytes, htext, hparse]
    | invalid hbytes htext hparse hrejected =>
        simp only [hbytes, htext, hparse, Settings.validate_eq_error_iff.mpr hrejected]
        rfl

/-- Why a report is not made, with the error that says so. -/
inductive Refused (tree : FileTree) (root : Path) (named : Option Path) (options : Overrides) :
    RunError → Prop
  | settingsFile {path : Path} {error : RunError} (hpath : settingsFile? tree named = some path)
      (hunusable : Unusable tree path error) : Refused tree root named options error
  | settings {loaded : Settings} {error : RunError}
      (hload : loadSettings tree named = .ok loaded)
      (hrejected : (loaded.override options).Rejected error) :
      Refused tree root named options error
  | root {loaded : Settings} (hload : loadSettings tree named = .ok loaded)
      (hvalid : (loaded.override options).validate = .ok ())
      (hroot : tree.hasPath root = false) : Refused tree root named options (.pathNotFound root)

/-- The settings with which a report is made. -/
structure Accepted (tree : FileTree) (root : Path) (named : Option Path) (options : Overrides)
    (settings : Settings) : Prop where
  inForce : ∃ loaded, loadSettings tree named = .ok loaded ∧ settings = loaded.override options
  valid : settings.validate = .ok ()
  hasRoot : tree.hasPath root = true

theorem accepted_or_refused (tree : FileTree) (root : Path) (named : Option Path)
    (options : Overrides) :
    (∃ settings, Accepted tree root named options settings) ∨
      ∃ error, Refused tree root named options error := by
  cases hload : loadSettings tree named with
  | error error =>
      refine Or.inr ⟨error, ?_⟩
      rw [loadSettings_eq] at hload
      split at hload
      · next path hpath => exact .settingsFile hpath (settingsOf_eq_error_iff.mp hload)
      · contradiction
  | ok loaded =>
      rcases (loaded.override options).validate_cases with hvalid | ⟨error, hrejected⟩
      · cases hroot : tree.hasPath root with
        | true => exact Or.inl ⟨_, ⟨loaded, hload, rfl⟩, hvalid, hroot⟩
        | false => exact Or.inr ⟨_, .root hload hvalid hroot⟩
      · exact Or.inr ⟨error, .settings hload hrejected⟩

theorem analyze_of_refused {tree : FileTree} {root : Path} {named : Option Path}
    {options : Overrides} {error : RunError} (hrefused : Refused tree root named options error) :
    analyze tree root named options = .error error := by
  unfold analyze
  cases hrefused with
  | settingsFile hpath hunusable =>
      have hload : loadSettings tree named = .error error := by
        rw [loadSettings_eq, hpath]
        exact settingsOf_eq_error_iff.mpr hunusable
      rw [hload]
      rfl
  | settings hload hrejected =>
      simp only [hload, Settings.validate_eq_error_iff.mpr hrejected, bind, Except.bind]
  | root hload hvalid hroot =>
      simp only [hload, hvalid, hroot, bind, Except.bind]
      rfl

/-- What a run comes to that has made a report. -/
def Product.ofReport (settings : Settings) (name : String) (report : ScanReport) : Product :=
  let rendered := report.render settings.output.format name
  match settings.output.path with
  | none => .printed rendered
  | some path =>
      let counts := report.counts
      { delivery := some { path, content := rendered }
        output :=
          toString counts.extracted ++ " files extracted, " ++ toString counts.failed
            ++ " failed\nReport written to: " ++ path.text ++ "\n" }

theorem Product.delivery_ofReport {settings : Settings} {path : Path}
    (hpath : settings.output.path = some path) (name : String) (report : ScanReport) :
    (Product.ofReport settings name report).delivery =
      some { path, content := report.render settings.output.format name } := by
  simp [ofReport, hpath]

/-- The report on the sources that are found below a root. -/
theorem exists_ofTree {settings : Settings} {tree : FileTree} {root : Path}
    (hvalid : settings.validate = .ok ()) (hroot : tree.hasPath root = true) :
    ∃ patterns found, Discovery.sourceFiles patterns tree root = .ok found ∧
      settings.excludedPatterns = .ok patterns ∧
      Scan.ofTree settings tree root = .ok (Scan.ofFiles settings found) := by
  obtain ⟨-, patterns, hpatterns⟩ := Scan.excludedPatterns_of_validate hvalid
  unfold FileTree.hasPath at hroot
  split at hroot
  · next node hnode =>
    have hfound : Discovery.sourceFiles patterns tree root = .ok _ :=
      Discovery.sourceFiles_of_node hnode
    exact ⟨patterns, _, hfound, hpatterns, Scan.ofTree_of_sourceFiles hvalid hpatterns hfound⟩
  · contradiction

theorem analyze_of_accepted {tree : FileTree} {root : Path} {named : Option Path}
    {options : Overrides} {settings : Settings}
    (haccepted : Accepted tree root named options settings) :
    ∃ report, Scan.ofTree settings tree root = .ok report ∧
      analyze tree root named options =
        .ok (.ofReport settings (projectName settings tree root) report) := by
  obtain ⟨⟨loaded, hload, rfl⟩, hvalid, hroot⟩ := haccepted
  obtain ⟨patterns, found, -, -, hreport⟩ := exists_ofTree hvalid hroot
  refine ⟨_, hreport, ?_⟩
  unfold analyze Product.ofReport
  simp only [hload, hvalid, hroot, hreport, bind, Except.bind, pure, Except.pure]
  cases (loaded.override options).output.path <;> rfl

theorem run_of_error {tree : FileTree} {invocation : Invocation} {error : RunError}
    (hproduce : produce tree invocation = .error error) :
    run tree invocation = failed tree error := by
  unfold run
  rw [hproduce]

theorem run_of_printed {tree : FileTree} {invocation : Invocation} {output : String}
    (hproduce : produce tree invocation = .ok (.printed output)) :
    run tree invocation = { exitCode := 0, output, errors := "", tree } := by
  unfold run
  rw [hproduce]
  rfl

end CommandLine

end SourceAtlas
