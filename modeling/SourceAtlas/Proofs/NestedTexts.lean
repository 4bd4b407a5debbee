import SourceAtlas.Text.Basic

/-!
# Nested texts

A text is properly nested in some pairs of brackets if each of its brackets belongs to a
group, from an opening one to the closing one of its kind with a nested text between
them.  What stands at the front of a nested text leaves some of the groups open.
-/

namespace SourceAtlas.Text

/-- Brackets that always come in pairs. -/
def groupPairs : List (Char × Char) :=
  [('(', ')'), ('[', ']'), ('{', '}')]

/-- These brackets and the angle signs, which are operators as well. -/
def bracketPairs : List (Char × Char) :=
  ('<', '>') :: groupPairs

/-- A text whose brackets of some pairs are properly nested. -/
inductive Nested (pairs : List (Char × Char)) : List Char → Prop
  | nil : Nested pairs []
  | char {c : Char} (hc : ∀ pair ∈ pairs, c ≠ pair.1 ∧ c ≠ pair.2) {rest : List Char}
      (hrest : Nested pairs rest) : Nested pairs (c :: rest)
  | group {pair : Char × Char} (hpair : pair ∈ pairs) {inside rest : List Char}
      (hinside : Nested pairs inside) (hrest : Nested pairs rest) :
      Nested pairs (pair.1 :: (inside ++ pair.2 :: rest))

/-- A text that leaves a number of groups open. -/
inductive LeavesOpen (pairs : List (Char × Char)) : Nat → List Char → Prop
  | nested {text : List Char} (htext : Nested pairs text) : LeavesOpen pairs 0 text
  | group {depth : Nat} {front text : List Char} {pair : Char × Char}
      (hfront : LeavesOpen pairs depth front) (hpair : pair ∈ pairs)
      (htext : Nested pairs text) : LeavesOpen pairs (depth + 1) (front ++ pair.1 :: text)

/-- A nested text that has commas inside of groups only. -/
inductive Unbroken (pairs : List (Char × Char)) : List Char → Prop
  | nil : Unbroken pairs []
  | char {c : Char} (hc : ∀ pair ∈ pairs, c ≠ pair.1 ∧ c ≠ pair.2) (hcomma : c ≠ ',')
      {rest : List Char} (hrest : Unbroken pairs rest) : Unbroken pairs (c :: rest)
  | group {pair : Char × Char} (hpair : pair ∈ pairs) {inside rest : List Char}
      (hinside : Nested pairs inside) (hrest : Unbroken pairs rest) :
      Unbroken pairs (pair.1 :: (inside ++ pair.2 :: rest))

variable {pairs : List (Char × Char)} {text first second : List Char}

namespace Nested

theorem append (hfirst : Nested pairs first) (hsecond : Nested pairs second) :
    Nested pairs (first ++ second) := by
  induction hfirst with
  | nil => exact hsecond
  | char hc _ ih => exact .char hc ih
  | group hpair hinside _ _ ih =>
      rw [List.cons_append, List.append_assoc, List.cons_append]
      exact .group hpair hinside ih

theorem of_forall (htext : ∀ c ∈ text, ∀ pair ∈ pairs, c ≠ pair.1 ∧ c ≠ pair.2) :
    Nested pairs text := by
  induction text with
  | nil => exact .nil
  | cons c text ih =>
      obtain ⟨hc, htext⟩ := List.forall_mem_cons.mp htext
      exact .char hc (ih htext)

end Nested

namespace Unbroken

theorem append (hfirst : Unbroken pairs first) (hsecond : Unbroken pairs second) :
    Unbroken pairs (first ++ second) := by
  induction hfirst with
  | nil => exact hsecond
  | char hc hcomma _ ih => exact .char hc hcomma ih
  | group hpair hinside _ ih =>
      rw [List.cons_append, List.append_assoc, List.cons_append]
      exact .group hpair hinside ih

theorem of_forall
    (htext : ∀ c ∈ text, c ≠ ',' ∧ ∀ pair ∈ pairs, c ≠ pair.1 ∧ c ≠ pair.2) :
    Unbroken pairs text := by
  induction text with
  | nil => exact .nil
  | cons c text ih =>
      obtain ⟨hc, htext⟩ := List.forall_mem_cons.mp htext
      exact .char hc.2 hc.1 (ih htext)

theorem nested (htext : Unbroken pairs text) : Nested pairs text := by
  induction htext with
  | nil => exact .nil
  | char hc _ _ ih => exact .char hc ih
  | group hpair hinside _ ih => exact .group hpair hinside ih

end Unbroken

namespace LeavesOpen

variable {depth more : Nat}

theorem append (hfirst : LeavesOpen pairs depth first) (hsecond : LeavesOpen pairs more second) :
    LeavesOpen pairs (depth + more) (first ++ second) := by
  induction hsecond with
  | nested hsecond =>
      cases hfirst with
      | nested hfirst => exact .nested (hfirst.append hsecond)
      | group hfront hpair htext =>
          rw [List.append_assoc, List.cons_append]
          exact .group hfront hpair (htext.append hsecond)
  | group _ hpair htext ih =>
      rw [← List.append_assoc]
      exact .group ih hpair htext

theorem opener {pair : Char × Char} (hpair : pair ∈ pairs) : LeavesOpen pairs 1 [pair.1] :=
  .group (.nested .nil) hpair .nil

end LeavesOpen

/-- What stands at the front of a nested text leaves some groups open. -/
theorem Nested.exists_leavesOpen {front rest : List Char} (htext : Nested pairs (front ++ rest)) :
    ∃ depth, LeavesOpen pairs depth front := by
  generalize heq : front ++ rest = text at htext
  induction htext generalizing front rest with
  | nil =>
      obtain ⟨rfl, -⟩ := List.append_eq_nil_iff.mp heq
      exact ⟨0, .nested .nil⟩
  | @char c hc text _ ih =>
      cases front with
      | nil => exact ⟨0, .nested .nil⟩
      | cons d front =>
          obtain ⟨rfl, hrest⟩ := List.cons.inj heq
          obtain ⟨depth, hfront⟩ := ih hrest
          have hchar : LeavesOpen pairs 0 [d] := .nested (.char hc .nil)
          exact ⟨_, hchar.append hfront⟩
  | @group pair hpair inside text hinside _ ihInside ihRest =>
      cases front with
      | nil => exact ⟨0, .nested .nil⟩
      | cons d front =>
          obtain ⟨rfl, hrest⟩ := List.cons.inj heq
          -- The front ends inside of the group or behind it.
          rcases List.append_eq_append_iff.mp hrest with
            ⟨later, hlater, -⟩ | ⟨later, rfl, hlater⟩
          · obtain ⟨depth, hfront⟩ := ihInside hlater.symm
            exact ⟨_, (LeavesOpen.opener hpair).append hfront⟩
          · cases later with
            | nil =>
                have hfront : LeavesOpen pairs 0 inside := .nested hinside
                rw [List.append_nil]
                exact ⟨_, (LeavesOpen.opener hpair).append hfront⟩
            | cons e later =>
                obtain ⟨rfl, hbehind⟩ := List.cons.inj hlater
                obtain ⟨depth, hfront⟩ := ihRest hbehind.symm
                have hgroup : LeavesOpen pairs 0 (pair.1 :: (inside ++ [pair.2])) :=
                  .nested (.group hpair hinside .nil)
                refine ⟨0 + depth, ?_⟩
                have happend := hgroup.append hfront
                rwa [List.cons_append, List.append_assoc] at happend

end SourceAtlas.Text
