import SourceAtlas.Model.Limits

/-!
# Budgets

Reading a file may take only so long.  The clock is looked at between two units
of work and never within one, so all that a run sees of the time is how many of
its looks at the clock find some left.  How long a unit of work takes is not
modelled.
-/

namespace SourceAtlas.CSharp

/-- How many more looks at the clock find time left. -/
inductive Budget
  /-- All of them. -/
  | unlimited
  | looks (count : Nat)
  deriving DecidableEq, Repr

/-- What is left behind a look at the clock, unless the time is over. -/
def Budget.look? : Budget → Option Budget
  | unlimited => some unlimited
  | looks 0 => none
  | looks (count + 1) => some (looks count)

/-- What a run has found, with the budget behind it unless the time was over
before its end. -/
abbrev Timed (σ : Type) := σ × Option Budget

namespace Timed

variable {α σ τ : Type}

def map (view : σ → τ) (run : Timed σ) : Timed τ :=
  (view run.1, run.2)

/-- Goes on with what has been found if there is time, or else leaves it off. -/
def andThen (run : Timed σ) (leaveOff : σ → τ) (goOn : σ → Budget → Timed τ) : Timed τ :=
  match run with
  | (found, none) => (leaveOff found, none)
  | (found, some budget) => goOn found budget

/-- Takes up the elements of a list one by one, each behind a look at the
clock. -/
def collect (takeUp : σ → α → Budget → Timed σ) : σ → List α → Budget → Timed σ
  | found, [], budget => (found, some budget)
  | found, next :: rest, budget =>
      match budget.look? with
      | none => (found, none)
      | some budget => (takeUp found next budget).andThen id fun found => collect takeUp found rest

/-- Takes up elements that need no further looks at the clock. -/
def collectEach (add : σ → α → σ) : σ → List α → Budget → Timed σ :=
  collect fun found next budget => (add found next, some budget)

end Timed

end SourceAtlas.CSharp

/-- The budget of a run.  Elapsed time is left out: a budget of no time at all is
spent at the first look at the clock, and every other one lasts to the end,
however long the run may take. -/
def SourceAtlas.Limits.budget (limits : Limits) : CSharp.Budget :=
  if limits.isSpent then .looks 0 else .unlimited
