import SourceAtlas.Priority
import Mathlib.Data.List.Basic
import Mathlib.Data.Option.Basic

/-!
# Signals of the path

A role is told by the path of a file, or else by its content or its declarations; a
priority is told by the path alone.  Both ask the path the same question, so whenever
the path tells the role, no content and no model can change it and the priority is the
one of that role.  Where the path tells nothing, the file waits until last.  Files that
start a program come first whatever their role.
-/

namespace SourceAtlas

namespace Classification

/-- The kinds of signals that the path of a file gives. -/
def pathKinds : List String := ["suffix", "prefix", "directory"]

/-- The kinds of signals for which a file has to be read. -/
def contentKinds : List String := ["content", "structure"]

theorem disjoint_kinds {kind : String} (hkind : kind ∈ pathKinds) : kind ∉ contentKinds := by
  revert kind
  decide

theorem kind_of_ofSuffix? {stem : List Char} {found : Classification}
    (hfound : ofSuffix? stem = some found) : found.signal.kind = "suffix" := by
  obtain ⟨rule, -, rfl⟩ := Option.map_eq_some_iff.mp hfound
  rfl

theorem kind_of_ofOpening? {stem : List Char} {found : Classification}
    (hfound : ofOpening? stem = some found) : found.signal.kind = "prefix" := by
  unfold ofOpening? at hfound
  split at hfound
  · rw [← Option.some.inj hfound]
    rfl
  · split at hfound
    · rw [← Option.some.inj hfound]
      rfl
    · split at hfound
      · rw [← Option.some.inj hfound]
        rfl
      · contradiction

theorem kind_of_ofName? {path : Path} {found : Classification}
    (hfound : ofName? path = some found) : found.signal.kind ∈ pathKinds := by
  unfold ofName? at hfound
  split at hfound
  · contradiction
  · rcases (Option.orElse_eq_some _ _ _).mp hfound with hsuffix | ⟨-, hopening⟩
    · rw [kind_of_ofSuffix? hsuffix]
      decide
    · rw [kind_of_ofOpening? hopening]
      decide

theorem kind_of_ofDirectories? {path : Path} {found : Classification}
    (hfound : ofDirectories? path = some found) : found.signal.kind = "directory" := by
  unfold ofDirectories? at hfound
  split at hfound
  · contradiction
  · obtain ⟨segment, -, hsegment⟩ := List.exists_of_findSome?_eq_some hfound
    obtain ⟨rule, -, rfl⟩ := Option.map_eq_some_iff.mp hsegment
    rfl

theorem kind_of_ofPath? {path : Path} {found : Classification}
    (hfound : ofPath? path = some found) : found.signal.kind ∈ pathKinds := by
  rcases (Option.orElse_eq_some _ _ _).mp hfound with hname | ⟨-, hdirectories⟩
  · exact kind_of_ofName? hname
  · rw [kind_of_ofDirectories? hdirectories]
    decide

theorem kind_of_ofContent? {path : Path} {content : String} {found : Classification}
    (hfound : ofContent? path content = some found) : found.signal.kind = "content" := by
  unfold ofContent? at hfound
  split at hfound
  · contradiction
  · obtain ⟨rule, -, rfl⟩ := Option.map_eq_some_iff.mp hfound
    rfl

theorem explain_of_ofPath? {path : Path} {found : Classification}
    (hfound : ofPath? path = some found) (content : String) (model : Option SourceModel) :
    explain path content model = found := by
  simp [explain, hfound]

theorem kind_of_explain_of_ofPath?_eq_none {path : Path} (hnone : ofPath? path = none)
    (content : String) (model : Option SourceModel) :
    (explain path content model).signal.kind ∈ contentKinds := by
  unfold explain
  rw [hnone]
  simp only
  split
  · next found hfound =>
    rw [kind_of_ofContent? hfound]
    decide
  · exact List.mem_of_getLast? rfl

/-- Either the path tells the role, with one of its signals, or it tells none. -/
theorem explain_cases (path : Path) (content : String) (model : Option SourceModel) :
    (ofPath? path = some (explain path content model) ∧
      (explain path content model).signal.kind ∈ pathKinds) ∨
    (ofPath? path = none ∧ (explain path content model).signal.kind ∈ contentKinds) := by
  cases hpath : ofPath? path with
  | some found =>
      rw [explain_of_ofPath? hpath]
      exact Or.inl ⟨rfl, kind_of_ofPath? hpath⟩
  | none => exact Or.inr ⟨rfl, kind_of_explain_of_ofPath?_eq_none hpath content model⟩

theorem ofPath?_of_kind_mem_pathKinds {path : Path} {content : String}
    {model : Option SourceModel} (hkind : (explain path content model).signal.kind ∈ pathKinds) :
    ofPath? path = some (explain path content model) := by
  rcases explain_cases path content model with ⟨hpath, -⟩ | ⟨-, hother⟩
  · exact hpath
  · exact absurd hother (disjoint_kinds hkind)

theorem ofPath?_of_kind_mem_contentKinds {path : Path} {content : String}
    {model : Option SourceModel}
    (hkind : (explain path content model).signal.kind ∈ contentKinds) : ofPath? path = none := by
  rcases explain_cases path content model with ⟨-, hother⟩ | ⟨hpath, -⟩
  · exact absurd hkind (disjoint_kinds hother)
  · exact hpath

end Classification

namespace Priority

/-- The name of the file is one of those that start a program, in any ASCII case. -/
def NamesEntry (path : Path) : Prop :=
  ∃ name, path.fileName? = some name ∧
    ∃ entry ∈ entryFiles, entry.toList = Text.lowerAscii name.toList

theorem isEntry_iff {path : Path} : isEntry path = true ↔ NamesEntry path := by
  unfold isEntry NamesEntry
  cases path.fileName? with
  | none => simp
  | some name => simp

instance (path : Path) : Decidable (NamesEntry path) :=
  decidable_of_iff _ isEntry_iff

theorem ofPath_of_namesEntry {path : Path} (hentry : NamesEntry path) :
    ofPath path = .high := by
  rw [ofPath, if_pos (isEntry_iff.mpr hentry)]

theorem ofPath_of_not_namesEntry {path : Path} (hentry : ¬ NamesEntry path) :
    ofPath path = ((Classification.ofPath? path).map fun found => ofRole found.role).getD .low := by
  rw [ofPath, if_neg fun htrue => hentry (isEntry_iff.mp htrue)]
  cases Classification.ofPath? path <;> rfl

/-- The roles of services and of data. -/
def middleRoles : List Role := [.service, .repository, .handler, .entity, .dbContext]

theorem ofRole_eq (role : Role) :
    ofRole role =
      if role = .controller then .high else if role ∈ middleRoles then .medium else .low := by
  cases role <;> rfl

/-- A role that the path tells is told whatever the file holds, and decides on the priority;
a role that only the content or the declarations tell leaves the file at the lowest
priority.  Files that start a program have the highest one. -/
theorem explain_signal_and_ofPath (path : Path) (content : String)
    (model : Option SourceModel) :
    ((Classification.explain path content model).signal.kind ∈ Classification.pathKinds →
      (∀ other otherModel, Classification.explain path other otherModel =
        Classification.explain path content model) ∧
      (¬ NamesEntry path →
        ofPath path =
          if (Classification.explain path content model).role = .controller then .high
          else if (Classification.explain path content model).role ∈ middleRoles then .medium
          else .low)) ∧
    ((Classification.explain path content model).signal.kind ∈ Classification.contentKinds →
      ¬ NamesEntry path → ofPath path = .low) ∧
    (NamesEntry path → ofPath path = .high) := by
  refine ⟨?_, ?_, ofPath_of_namesEntry⟩
  · intro hkind
    have hpath := Classification.ofPath?_of_kind_mem_pathKinds hkind
    constructor
    · intro other otherModel
      exact Classification.explain_of_ofPath? hpath other otherModel
    · intro hentry
      rw [ofPath_of_not_namesEntry hentry, hpath]
      exact ofRole_eq _
  · intro hkind hentry
    rw [ofPath_of_not_namesEntry hentry, Classification.ofPath?_of_kind_mem_contentKinds hkind]
    rfl

/-- The directory of a file outranks what its code says, code that says the same leaves a
file at the lowest priority, and a program starts with a file in any directory. -/
theorem explain_signal_and_ofPath_samples :
    (Classification.explain ⟨"Services/Orders.cs"⟩ "class A : Controller { }" none).signal.kind ∈
        Classification.pathKinds ∧
      ¬ NamesEntry ⟨"Services/Orders.cs"⟩ ∧
      (∀ other model, Classification.explain ⟨"Services/Orders.cs"⟩ other model =
        { role := .service, signal := .directory "Services" }) ∧
      ofPath ⟨"Services/Orders.cs"⟩ = .medium ∧
      (Classification.explain ⟨"Orders.cs"⟩ "class A : Controller { }" none).signal.kind ∈
        Classification.contentKinds ∧
      ¬ NamesEntry ⟨"Orders.cs"⟩ ∧ ofPath ⟨"Orders.cs"⟩ = .low ∧
      NamesEntry ⟨"dto/Manage.py"⟩ ∧ ofPath ⟨"dto/Manage.py"⟩ = .high := by
  have hservice : Classification.explain ⟨"Services/Orders.cs"⟩ "class A : Controller { }" none =
      { role := .service, signal := .directory "Services" } := by decide +kernel
  have hpath : (Classification.explain ⟨"Services/Orders.cs"⟩ "class A : Controller { }"
      none).signal.kind ∈ Classification.pathKinds := by
    rw [hservice]
    decide
  have hcontent : (Classification.explain ⟨"Orders.cs"⟩ "class A : Controller { }"
      none).signal.kind ∈ Classification.contentKinds := by decide +kernel
  have hother : ¬ NamesEntry ⟨"Services/Orders.cs"⟩ := by decide +kernel
  have hplain : ¬ NamesEntry ⟨"Orders.cs"⟩ := by decide +kernel
  have hentry : NamesEntry ⟨"dto/Manage.py"⟩ := by decide +kernel
  obtain ⟨hsame, hpriority⟩ := (explain_signal_and_ofPath _ _ _).1 hpath
  rw [hservice] at hsame hpriority
  exact ⟨hpath, hother, hsame, hpriority hother, hcontent, hplain,
    (explain_signal_and_ofPath _ _ _).2.1 hcontent hplain, hentry,
    (explain_signal_and_ofPath _ "" none).2.2 hentry⟩

end Priority

end SourceAtlas
