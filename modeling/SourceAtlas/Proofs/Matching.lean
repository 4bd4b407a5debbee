import SourceAtlas.Proofs.Cursors
import SourceAtlas.Text.Pattern
import Mathlib.Data.List.Basic

/-!
# What a match passes

A pattern is judged by what its matches can pass: which characters never, and
whether anything at all.  The judgement is computed from the pattern, and one
induction over patterns shows that every outcome respects it.  Successive
matches begin no earlier than the one before them has stopped.
-/

namespace SourceAtlas.Text.Pattern

variable {Part : Type}

/-- Whether a pattern never passes a character. -/
def avoids (c : Char) : Pattern Part → Bool
  | one test => !test c
  | word text => !text.contains c
  | run test => !test c
  | through test closer => !test c && closer != c
  | seq first second => first.avoids c && second.avoids c
  | alt first second => first.avoids c && second.avoids c
  | maybe inner => inner.avoids c
  | copies inner => inner.avoids c
  | part _ inner => inner.avoids c
  | wordEdge | windowStart | lineStart => true

/-- Whether a pattern always passes something. -/
def consumes : Pattern Part → Bool
  | one _ | through _ _ => true
  | word text => !text.isEmpty
  | seq first second => first.consumes || second.consumes
  | alt first second => first.consumes && second.consumes
  | part _ inner => inner.consumes
  | run _ | maybe _ | copies _ | wordEdge | windowStart | lineStart => false

/-- Whether nothing that a pattern passes begins with a character. -/
def opensWithout (c : Char) : Pattern Part → Bool
  | one test => !test c
  | word text => text.head? != some c
  | run test => !test c
  | through test closer => !test c && closer != c
  | seq first second => first.opensWithout c && (first.consumes || second.opensWithout c)
  | alt first second => first.opensWithout c && second.opensWithout c
  | maybe inner => inner.opensWithout c
  | copies inner => inner.opensWithout c
  | part _ inner => inner.opensWithout c
  | wordEdge | windowStart | lineStart => true

/-- Whether a pattern marks no part. -/
def isPlain : Pattern Part → Bool
  | seq first second => first.isPlain && second.isPlain
  | alt first second => first.isPlain && second.isPlain
  | maybe inner => inner.isPlain
  | copies inner => inner.isPlain
  | part _ _ => false
  | one _ | word _ | run _ | through _ _ | wordEdge | windowStart | lineStart => true

/-- What an outcome of a pattern has passed, in accordance with the pattern. -/
structure Passes (pattern : Pattern Part) (start : Progress Part) (passed : List Char)
    (reached : Progress Part) : Prop where
  moves : start.place.Moves passed reached.place
  avoids : ∀ c, pattern.avoids c = true → c ∉ passed
  consumes : pattern.consumes = true → passed ≠ []
  opening : ∀ c, pattern.opensWithout c = true → passed.head? ≠ some c
  parts : pattern.isPlain = true → reached.parts = start.parts

theorem head?_ne_of_not_mem {passed : List Char} {c : Char} (hc : c ∉ passed) :
    passed.head? ≠ some c := by
  intro hhead
  exact hc (List.mem_of_mem_head? hhead)

theorem head?_append_ne {first second : List Char} {c : Char} (hfirst : first.head? ≠ some c)
    (hsecond : second.head? ≠ some c) : (first ++ second).head? ≠ some c := by
  cases first with
  | nil => exact hsecond
  | cons d first => exact hfirst

namespace Passes

variable {pattern first second inner : Pattern Part} {start reached middle : Progress Part}
  {passed passed' : List Char}

theorem stay (start : Progress Part) (hconsumes : pattern.consumes = false) :
    pattern.Passes start [] start where
  moves := Cursor.Moves.refl _
  avoids := by simp
  consumes := by simp [hconsumes]
  opening := by simp
  parts _ := rfl

theorem seq (hfirst : first.Passes start passed middle)
    (hsecond : second.Passes middle passed' reached) :
    (first.seq second).Passes start (passed ++ passed') reached where
  moves := hfirst.moves.trans hsecond.moves
  avoids := by
    intro c havoids
    simp only [Pattern.avoids, Bool.and_eq_true] at havoids
    rw [List.mem_append]
    rintro (hmem | hmem)
    · exact hfirst.avoids c havoids.1 hmem
    · exact hsecond.avoids c havoids.2 hmem
  consumes := by
    intro hconsumes
    simp only [Pattern.consumes, Bool.or_eq_true] at hconsumes
    rw [Ne, List.append_eq_nil_iff, not_and_or]
    exact hconsumes.imp hfirst.consumes hsecond.consumes
  opening := by
    intro c hopens
    simp only [Pattern.opensWithout, Bool.and_eq_true, Bool.or_eq_true] at hopens
    obtain ⟨hfirstOpens, hconsumes | hsecondOpens⟩ := hopens
    · rw [List.head?_append_of_ne_nil _ (hfirst.consumes hconsumes)]
      exact hfirst.opening c hfirstOpens
    · exact head?_append_ne (hfirst.opening c hfirstOpens) (hsecond.opening c hsecondOpens)
  parts := by
    intro hplain
    simp only [Pattern.isPlain, Bool.and_eq_true] at hplain
    rw [hsecond.parts hplain.2, hfirst.parts hplain.1]

theorem alt_left (hfirst : first.Passes start passed reached) :
    (first.alt second).Passes start passed reached where
  moves := hfirst.moves
  avoids c havoids := hfirst.avoids c (Bool.and_eq_true_iff.mp havoids).1
  consumes hconsumes := hfirst.consumes (Bool.and_eq_true_iff.mp hconsumes).1
  opening c hopens := hfirst.opening c (Bool.and_eq_true_iff.mp hopens).1
  parts hplain := hfirst.parts (Bool.and_eq_true_iff.mp hplain).1

theorem alt_right (hsecond : second.Passes start passed reached) :
    (first.alt second).Passes start passed reached where
  moves := hsecond.moves
  avoids c havoids := hsecond.avoids c (Bool.and_eq_true_iff.mp havoids).2
  consumes hconsumes := hsecond.consumes (Bool.and_eq_true_iff.mp hconsumes).2
  opening c hopens := hsecond.opening c (Bool.and_eq_true_iff.mp hopens).2
  parts hplain := hsecond.parts (Bool.and_eq_true_iff.mp hplain).2

theorem maybe (hinner : inner.Passes start passed reached) :
    (Pattern.maybe inner).Passes start passed reached where
  moves := hinner.moves
  avoids := hinner.avoids
  consumes := by simp [Pattern.consumes]
  opening := hinner.opening
  parts := hinner.parts

theorem copies_cons (hinner : inner.Passes start passed middle)
    (hrest : (copies inner).Passes middle passed' reached) :
    (copies inner).Passes start (passed ++ passed') reached where
  moves := hinner.moves.trans hrest.moves
  avoids := by
    intro c havoids
    rw [List.mem_append]
    rintro (hmem | hmem)
    · exact hinner.avoids c havoids hmem
    · exact hrest.avoids c havoids hmem
  consumes := by simp [Pattern.consumes]
  opening c hopens := head?_append_ne (hinner.opening c hopens) (hrest.opening c hopens)
  parts hplain := (hrest.parts hplain).trans (hinner.parts hplain)

end Passes

theorem exists_passes_repeated {inner : Pattern Part}
    (hinner : ∀ start, ∀ reached ∈ inner.outcomes start,
      ∃ passed, inner.Passes start passed reached)
    (count : Nat) (start : Progress Part) {reached : Progress Part}
    (hreached : reached ∈ repeated inner.outcomes count start) :
    ∃ passed, (copies inner).Passes start passed reached := by
  induction count generalizing start with
  | zero =>
      simp only [repeated, List.mem_singleton] at hreached
      subst hreached
      exact ⟨[], Passes.stay _ rfl⟩
  | succ count ih =>
      simp only [repeated, List.mem_append, List.mem_flatMap, List.mem_singleton] at hreached
      rcases hreached with ⟨middle, hmiddle, hreached⟩ | rfl
      · obtain ⟨passed, hfirst⟩ := hinner start middle hmiddle
        obtain ⟨passed', hrest⟩ := ih middle hreached
        exact ⟨passed ++ passed', hfirst.copies_cons hrest⟩
      · exact ⟨[], Passes.stay _ rfl⟩

theorem exists_moves_of_mem_throughLoop {test : Char → Bool} {closer : Char} {stop : Nat}
    {before : List Char} {offset : Nat} {after : List Char} {found : List Cursor}
    {reached : Cursor}
    (hreached : reached ∈ throughLoop test closer stop before offset after found) :
    reached ∈ found ∨ ∃ passed, passed ≠ [] ∧
      Cursor.Moves { before, after, offset, stop } passed reached ∧
        ∀ c ∈ passed, test c = true ∨ c = closer := by
  induction after generalizing before offset found with
  | nil => exact Or.inl (List.mem_reverse.mp hreached)
  | cons c after ih =>
      unfold throughLoop at hreached
      split at hreached
      · next hinside =>
          have hstep : Cursor.Moves { before, after := c :: after, offset, stop } [c]
              { before := c :: before, after, offset := offset + c.utf8Size, stop } :=
            Cursor.Moves.past rfl hinside
          -- The place past `c` counts as found when `c` is the closing character.
          have hfound : ∀ found' : List Cursor,
              found' = (if c = closer then
                { before := c :: before, after, offset := offset + c.utf8Size, stop } :: found
                else found) →
              reached ∈ found' → reached ∈ found ∨ ∃ passed, passed ≠ [] ∧
                Cursor.Moves { before, after := c :: after, offset, stop } passed reached ∧
                  ∀ d ∈ passed, test d = true ∨ d = closer := by
            rintro found' rfl hmem
            split at hmem
            · next hc =>
                rcases List.mem_cons.mp hmem with rfl | hmem
                · exact Or.inr ⟨[c], by simp, hstep, by simp [hc]⟩
                · exact Or.inl hmem
            · exact Or.inl hmem
          simp only at hreached
          split at hreached
          · next htest =>
              rcases ih hreached with hmem | ⟨passed, -, hmoves, hpassed⟩
              · exact hfound _ rfl hmem
              · exact Or.inr ⟨c :: passed, by simp, hstep.trans hmoves,
                  List.forall_mem_cons.mpr ⟨Or.inl htest, hpassed⟩⟩
          · exact hfound _ rfl (List.mem_reverse.mp hreached)
      · exact Or.inl (List.mem_reverse.mp hreached)

/-- Every outcome of a pattern accords with it. -/
theorem exists_passes {pattern : Pattern Part} {start reached : Progress Part}
    (hreached : reached ∈ pattern.outcomes start) :
    ∃ passed, pattern.Passes start passed reached := by
  induction pattern generalizing start reached with
  | one test =>
      simp only [outcomes] at hreached
      split at hreached
      · next c place hnext =>
          split at hreached
          · next hc =>
              rw [List.mem_singleton] at hreached
              subst hreached
              have havoids : ∀ d, !test d → d ∉ [c] := by
                intro d hd hmem
                rw [List.mem_singleton] at hmem
                simp [hmem, hc] at hd
              exact ⟨[c], Cursor.moves_of_next? hnext, havoids, by simp,
                fun d hd => head?_ne_of_not_mem (havoids d hd), fun _ => rfl⟩
          · contradiction
      · contradiction
  | word text =>
      simp only [outcomes] at hreached
      split at hreached
      · next place hskip =>
          rw [List.mem_singleton] at hreached
          subst hreached
          exact ⟨text, Cursor.moves_of_skipWord? hskip, by simp [avoids],
            by simp [Pattern.consumes], by simp [opensWithout], fun _ => rfl⟩
      · contradiction
  | run test =>
      simp only [outcomes, List.mem_singleton] at hreached
      subst hreached
      obtain ⟨passed, hmoves, htest⟩ := Cursor.exists_moves_skipWhile test start.place
      have havoids : ∀ d, !test d → d ∉ passed := by
        intro d hd hmem
        simp [htest d hmem] at hd
      exact ⟨passed, hmoves, havoids, by simp [Pattern.consumes],
        fun d hd => head?_ne_of_not_mem (havoids d hd), fun _ => rfl⟩
  | through test closer =>
      simp only [outcomes, List.mem_map] at hreached
      obtain ⟨place, hplace, rfl⟩ := hreached
      rcases exists_moves_of_mem_throughLoop hplace with hmem | ⟨passed, hne, hmoves, hpassed⟩
      · contradiction
      · have havoids : ∀ d, (!test d && closer != d) = true → d ∉ passed := by
          intro d hd hmem
          rcases hpassed d hmem with htest | heq
          · simp [htest] at hd
          · simp [heq] at hd
        exact ⟨passed, hmoves, havoids, fun _ => hne,
          fun d hd => head?_ne_of_not_mem (havoids d hd), fun _ => rfl⟩
  | seq first second ihfirst ihsecond =>
      simp only [outcomes, List.mem_flatMap] at hreached
      obtain ⟨middle, hmiddle, hreached⟩ := hreached
      obtain ⟨passed, hfirst⟩ := ihfirst hmiddle
      obtain ⟨passed', hsecond⟩ := ihsecond hreached
      exact ⟨passed ++ passed', hfirst.seq hsecond⟩
  | alt first second ihfirst ihsecond =>
      simp only [outcomes, List.mem_append] at hreached
      rcases hreached with hreached | hreached
      · obtain ⟨passed, hfirst⟩ := ihfirst hreached
        exact ⟨passed, hfirst.alt_left⟩
      · obtain ⟨passed, hsecond⟩ := ihsecond hreached
        exact ⟨passed, hsecond.alt_right⟩
  | maybe inner ih =>
      simp only [outcomes, List.mem_append, List.mem_singleton] at hreached
      rcases hreached with hreached | rfl
      · obtain ⟨passed, hinner⟩ := ih hreached
        exact ⟨passed, hinner.maybe⟩
      · exact ⟨[], Passes.stay _ rfl⟩
  | copies inner ih =>
      exact exists_passes_repeated (fun _ _ hmem => ih hmem) _ start hreached
  | wordEdge | windowStart | lineStart =>
      simp only [outcomes] at hreached
      split at hreached
      · rw [List.mem_singleton] at hreached
        exact hreached ▸ ⟨[], Passes.stay _ rfl⟩
      · contradiction
  | part name inner ih =>
      simp only [outcomes, List.mem_map] at hreached
      obtain ⟨middle, hmiddle, rfl⟩ := hreached
      obtain ⟨passed, hinner⟩ := ih hmiddle
      exact ⟨passed, hinner.moves, hinner.avoids, hinner.consumes, hinner.opening,
        by simp [isPlain]⟩

theorem mem_outcomes_seq {first second : Pattern Part} {start reached : Progress Part} :
    reached ∈ (first ++ second).outcomes start ↔
      ∃ middle ∈ first.outcomes start, reached ∈ second.outcomes middle :=
  List.mem_flatMap

theorem mem_outcomes_one {test : Char → Bool} {start reached : Progress Part} :
    reached ∈ (one test).outcomes start ↔
      ∃ c next, start.place.next? = some (c, next) ∧ test c = true ∧
        reached = { start with place := next } := by
  simp only [outcomes]
  cases start.place.next? with
  | none => simp
  | some step =>
      obtain ⟨c, next⟩ := step
      by_cases hc : test c = true <;> simp [hc]

/-- A marked part spans what its pattern passes. -/
theorem mem_outcomes_part {name : Part} {inner : Pattern Part} {start reached : Progress Part} :
    reached ∈ (part name inner).outcomes start ↔
      ∃ middle ∈ inner.outcomes start, reached =
        { middle with
          parts := (name, { start := start.place, stop := middle.place }) :: middle.parts } := by
  simp only [outcomes, List.mem_map, eq_comm]

/-- A match is an outcome of the pattern from the place where it starts. -/
def Produces (pattern : Pattern Part) (found : Match Part) : Prop :=
  ∃ reached ∈ pattern.outcomes { place := found.whole.start, parts := [] },
    found.whole.stop = reached.place ∧ found.parts = reached.parts

theorem produces_of_matchAt? {pattern : Pattern Part} {place : Cursor} {found : Match Part}
    (hfound : pattern.matchAt? place = some found) :
    found.whole.start = place ∧ pattern.Produces found := by
  unfold matchAt? at hfound
  split at hfound
  · contradiction
  · next reached rest houtcomes =>
      simp only [Option.some.injEq] at hfound
      subst hfound
      have hmem : reached ∈ pattern.outcomes { place, parts := [] } := by
        rw [houtcomes]
        exact List.mem_cons_self
      exact ⟨rfl, reached, hmem, rfl, rfl⟩

theorem leadsTo_and_produces_of_findLoop {pattern : Pattern Part} {stop : Nat}
    {before : List Char} {offset : Nat} {after : List Char} {found : Match Part}
    (hfound : pattern.findLoop stop before offset after = some found) :
    Cursor.LeadsTo { before, after, offset, stop } found.whole.start ∧
      pattern.Produces found := by
  induction after generalizing before offset with
  | nil =>
      obtain ⟨hstart, hproduces⟩ := produces_of_matchAt? hfound
      exact ⟨hstart ▸ .refl _, hproduces⟩
  | cons c after ih =>
      unfold findLoop at hfound
      split at hfound
      · next occurrence hoccurrence =>
          rw [Option.some.injEq] at hfound
          subst hfound
          obtain ⟨hstart, hproduces⟩ := produces_of_matchAt? hoccurrence
          exact ⟨hstart ▸ .refl _, hproduces⟩
      · split at hfound
        · next hinside =>
            obtain ⟨hleads, hproduces⟩ := ih hfound
            have hstep : Cursor.LeadsTo { before, after := c :: after, offset, stop }
                { before := c :: before, after, offset := offset + c.utf8Size, stop } :=
              ⟨[c], Cursor.Moves.past rfl hinside⟩
            exact ⟨hstep.trans hleads, hproduces⟩
        · contradiction

theorem leadsTo_and_produces_of_find? {pattern : Pattern Part} {place : Cursor}
    {found : Match Part} (hfound : pattern.find? place = some found) :
    place.LeadsTo found.whole.start ∧ pattern.Produces found :=
  leadsTo_and_produces_of_findLoop hfound

theorem Produces.leadsTo {pattern : Pattern Part} {found : Match Part}
    (hproduces : pattern.Produces found) : found.whole.start.LeadsTo found.whole.stop := by
  obtain ⟨reached, hreached, hstop, -⟩ := hproduces
  obtain ⟨passed, hpasses⟩ := exists_passes hreached
  exact ⟨passed, hstop ▸ hpasses.moves⟩

theorem allLoop_eq (pattern : Pattern Part) (count : Nat) (place : Cursor)
    (found : List (Match Part)) :
    pattern.allLoop count place found = found.reverse ++ pattern.allLoop count place [] := by
  induction count generalizing place found with
  | zero => simp [allLoop]
  | succ count ih =>
      unfold allLoop
      split
      · simp
      · next occurrence hoccurrence =>
          rw [ih _ (occurrence :: found), ih _ [occurrence]]
          simp

/-- All matches are reached from the place where the search begins, and each begins
where the one before it has stopped or later. -/
theorem allLoop_ordered (pattern : Pattern Part) (count : Nat) (place : Cursor) :
    (∀ found ∈ pattern.allLoop count place [],
        place.LeadsTo found.whole.start ∧ pattern.Produces found) ∧
      (pattern.allLoop count place []).Pairwise
        (fun earlier later => earlier.whole.stop.LeadsTo later.whole.start) := by
  induction count generalizing place with
  | zero => simp [allLoop]
  | succ count ih =>
      unfold allLoop
      split
      · simp
      · next occurrence hoccurrence =>
          obtain ⟨hleads, hproduces⟩ := leadsTo_and_produces_of_find? hoccurrence
          obtain ⟨hrest, hordered⟩ := ih occurrence.whole.stop
          rw [allLoop_eq, List.reverse_singleton, List.singleton_append]
          constructor
          · intro found hmem
            rcases List.mem_cons.mp hmem with rfl | hmem
            · exact ⟨hleads, hproduces⟩
            · obtain ⟨hlater, hfound⟩ := hrest found hmem
              exact ⟨(hleads.trans hproduces.leadsTo).trans hlater, hfound⟩
          · exact List.pairwise_cons.mpr ⟨fun found hmem => (hrest found hmem).1, hordered⟩

variable {pattern : Pattern Part} {place : Cursor} {found : Match Part}

theorem leadsTo_of_mem_findAll (hmem : found ∈ pattern.findAll place) :
    place.LeadsTo found.whole.start :=
  ((allLoop_ordered pattern _ place).1 found hmem).1

theorem produces_of_mem_findAll (hmem : found ∈ pattern.findAll place) :
    pattern.Produces found :=
  ((allLoop_ordered pattern _ place).1 found hmem).2

theorem pairwise_findAll (pattern : Pattern Part) (place : Cursor) :
    (pattern.findAll place).Pairwise
      (fun earlier later => earlier.whole.stop.LeadsTo later.whole.start) :=
  (allLoop_ordered pattern _ place).2

/-- Matches of a pattern that passes something start one after the other. -/
theorem pairwise_start_findAll {pattern : Pattern Part} (hconsumes : pattern.consumes = true)
    (place : Cursor) :
    (pattern.findAll place).Pairwise
      (fun earlier later => earlier.whole.start.offset < later.whole.start.offset) := by
  apply (pairwise_findAll pattern place).imp_of_mem
  intro earlier later hearlier _ hleads
  obtain ⟨reached, hreached, hstop, -⟩ := produces_of_mem_findAll hearlier
  obtain ⟨passed, hpasses⟩ := exists_passes hreached
  have hlt := hpasses.moves.offset_lt (hpasses.consumes hconsumes)
  have hle := hleads.offset_le
  rw [← hstop] at hlt
  exact Nat.lt_of_lt_of_le hlt hle

end SourceAtlas.Text.Pattern
