import SourceAtlas.Proofs.PartialTier

/-!
# Budgets that are spent at once

A model that is cut short says so.  If the clock is looked at at all, a budget that is spent
at once stops the reading before the first declaration is taken up, and the model is marked as
timed out; if it is never looked at, there was nothing to take up and the budget makes no
difference.  What is read off the whole text is there in either case.
-/

namespace SourceAtlas.CSharp

open Text

/-- A model without declarations that has what is read off the whole text. -/
structure CutShort (cut whole : SourceModel) : Prop where
  classes : cut.classes = []
  functions : cut.functions = []
  constants : cut.constants = []
  metrics : cut.metrics = whole.metrics
  docComment : cut.docComment = whole.docComment
  tier : cut.tier = whole.tier

theorem completenessOf_eq_timedOut_iff (isCut inTime : Bool) :
    completenessOf isCut inTime = .timedOut ↔ inTime = false := by
  cases inTime with
  | true => cases isCut <;> simp [completenessOf]
  | false => simp [completenessOf]

/-- The limits with another time budget. -/
def withTime (limits : Limits) (time : Nat) : Limits :=
  { limits with timeBudget := time }

variable (limits : Limits) (tier : Tier) (listing : Listing) (types : List TypeDeclaration)

theorem findings_withTime_zero :
    findings tier (withTime limits 0) listing types =
      findingsWithin tier limits listing types (.looks 0) := by
  cases tier <;> rfl

theorem findings_withTime_of_pos {time : Nat} (htime : 0 < time) :
    findings tier (withTime limits time) listing types =
      findingsWithin tier limits listing types .unlimited := by
  have hspent : (withTime limits time).budget = .unlimited := by
    have hne : time ≠ 0 := by omega
    simp [Limits.budget, Limits.isSpent, withTime, hne]
  rw [findings, hspent]
  cases tier <;> rfl

/-- What is stopped at once has no declarations. -/
theorem findingsWithin_spent_of_stopped
    (hstopped : (findingsWithin tier limits listing types (.looks 0)).2 = false) :
    (findingsWithin tier limits listing types (.looks 0)).1.classes = [] ∧
      (findingsWithin tier limits listing types (.looks 0)).1.functions = [] ∧
      (findingsWithin tier limits listing types (.looks 0)).1.constants = [] := by
  obtain ⟨htime, hfound⟩ := findingsWithin_spent listing types tier limits
  have hwork : hasTimedWork tier limits listing types = true := by
    rw [hstopped] at htime
    simpa using htime
  rw [hfound hwork]
  cases tier with
  | minimal | partly | full => exact ⟨rfl, rfl, rfl⟩

theorem modelAt_cutShort {time : Nat} (htime : 0 < time) (file : SourceFile) :
    (modelAt tier (withTime limits 0) file = modelAt tier (withTime limits time) file ∨
        (modelAt tier (withTime limits 0) file).completeness = .timedOut) ∧
      ((modelAt tier (withTime limits 0) file).completeness = .timedOut →
        CutShort (modelAt tier (withTime limits 0) file)
          (modelAt tier (withTime limits time) file)) := by
  have htext : ∀ time, textAt tier (withTime limits time) file.content.toList =
      textAt tier limits file.content.toList := by
    intro time
    cases tier <;> rfl
  unfold modelAt
  simp only [htext, findings_withTime_zero, findings_withTime_of_pos _ _ _ _ htime,
    completenessOf_eq_timedOut_iff]
  generalize Listing.ofText (textAt tier limits file.content.toList).1 = listing
  generalize TypeDeclaration.topLevel listing.masked = types
  constructor
  · cases hstopped : (findingsWithin tier limits listing types (.looks 0)).2 with
    | false => exact .inr rfl
    | true =>
        have hall := findingsWithin_of_inTime listing types hstopped
        rw [hall] at hstopped
        left
        rw [hall, hstopped]
  · intro hstopped
    obtain ⟨hclasses, hfunctions, hconstants⟩ :=
      findingsWithin_spent_of_stopped limits tier listing types hstopped
    exact ⟨hclasses, hfunctions, hconstants, rfl, rfl, rfl⟩

/-- A C# file that is read with a budget that is spent at once has the model that it has with
all the time, or one that is marked as timed out.  That one has no class, no function and no
constant, and the same metrics, documentation and tier. -/
theorem readModel_cutShort (limits : Limits) (tier : Option Tier) (file : SourceFile)
    (hlanguage : file.language? = some .csharp) {time : Nat} (htime : 0 < time) :
    ∃ cut whole, readModel (withTime limits 0) tier file = .ok cut ∧
      readModel (withTime limits time) tier file = .ok whole ∧
      (cut = whole ∨ cut.completeness = .timedOut) ∧
      (cut.completeness = .timedOut → CutShort cut whole) := by
  have hread := fun time => readModel_eq_extract hlanguage (withTime limits time) tier
  exact ⟨_, _, hread 0, hread time, modelAt_cutShort limits _ htime file⟩

/-- A documented function and a constant. -/
def documentedFile : SourceFile where
  path := ⟨"App.cs"⟩
  content := "/// Starts.\nvoid Run() { if (ready) { } }\nconst int Size = 1;\n"
  lastModified := .epoch

theorem readModel_cutShort_documentedFile :
    documentedFile.language? = some .csharp ∧ 0 < 2000 ∧
      ∃ cut whole, readModel (withTime .standard 0) (some .full) documentedFile = .ok cut ∧
        readModel (withTime .standard 2000) (some .full) documentedFile = .ok whole ∧
        cut.completeness = .timedOut ∧ CutShort cut whole ∧ cut.docComment = some "Starts." ∧
        cut ≠ whole := by
  have hlanguage : documentedFile.language? = some .csharp := by decide
  obtain ⟨cut, whole, hcut, hwhole, -, hshort⟩ :=
    readModel_cutShort .standard (some .full) documentedFile hlanguage (by decide : 0 < 2000)
  have hread := readModel_of_csharp hlanguage
  have hmodel : modelAt .full (withTime .standard 0) documentedFile = cut := by
    rw [hread] at hcut
    exact Except.ok.inj hcut
  have hother : modelAt .full (withTime .standard 2000) documentedFile = whole := by
    rw [hread] at hwhole
    exact Except.ok.inj hwhole
  have htimedOut : cut.completeness = .timedOut := by
    rw [← hmodel]
    decide +kernel
  have hdocumented : cut.docComment = some "Starts." := by
    rw [← hmodel]
    decide +kernel
  have hfunctions : whole.functions ≠ [] := by
    rw [← hother]
    decide +kernel
  have hempty := (hshort htimedOut).functions
  exact ⟨hlanguage, by decide, cut, whole, hcut, hwhole, htimedOut, hshort htimedOut, hdocumented,
    fun heq => hfunctions (heq ▸ hempty)⟩

end SourceAtlas.CSharp
