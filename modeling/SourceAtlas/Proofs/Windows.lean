import SourceAtlas.Proofs.Matching

/-!
# Patterns in wider windows

A pattern that is tried in a window does not see what lies around it.  A wider window
may show text before it, text behind it, or both.  Every part of a pattern looks at no
more than one character behind the place that it has reached, so a pattern that is
indifferent to the characters next to the window has the same outcomes in both, as far
as they stay within the narrow one.
-/

namespace SourceAtlas.Text

/-- A window with a wider one around it. -/
structure Widening where
  /-- What the wider window shows before the narrow one, nearest character first. -/
  outer : List Char
  /-- What a narrow cursor still carries behind the end of its window. -/
  beyond : List Char
  /-- What the wider window has behind that. -/
  tail : List Char
  stop : Nat
  wideStop : Nat
  stop_le : stop ≤ wideStop

namespace Widening

variable {Part : Type}

/-- The same place in the wider window. -/
def cursor (wide : Widening) (place : Cursor) : Cursor where
  before := place.before ++ wide.outer
  after := place.after ++ wide.tail
  offset := place.offset
  stop := wide.wideStop

def span (wide : Widening) (stretch : Span) : Span where
  start := wide.cursor stretch.start
  stop := wide.cursor stretch.stop

def parts (wide : Widening) (marked : List (Part × Span)) : List (Part × Span) :=
  marked.map fun part => (part.1, wide.span part.2)

def progress (wide : Widening) (reached : Progress Part) : Progress Part where
  place := wide.cursor reached.place
  parts := wide.parts reached.parts

def occurrence (wide : Widening) (found : Match Part) : Match Part where
  whole := wide.span found.whole
  parts := wide.parts found.parts

/-- The first character behind the narrow window that can matter up to a limit. -/
def behind (wide : Widening) (limit : Nat) : Option Char :=
  if limit < wide.stop then none else (wide.beyond ++ wide.tail).head?

variable {wide : Widening} {place : Cursor}

@[simp] theorem cursor_offset : (wide.cursor place).offset = place.offset := rfl

/-- A stretch of the narrow window has the same text in the wider one. -/
theorem text_span_of_leadsTo {stretch : Span} (hleads : stretch.start.LeadsTo stretch.stop) :
    (wide.span stretch).text = stretch.text := by
  obtain ⟨passed, hmoves⟩ := hleads
  have hnarrow : stretch.text = passed := hmoves.upTo_eq
  have hwide : (wide.span stretch).start.after = passed ++ (stretch.stop.after ++ wide.tail) := by
    simp [span, cursor, hmoves.after]
  rw [hnarrow, Span.text, Cursor.upTo, hwide]
  simp only [span, cursor_offset, hmoves.offset, Nat.add_sub_cancel_left]
  exact takeBytes_append _ _

/-- A cursor whose window is the narrow one. -/
structure Holds (wide : Widening) (place : Cursor) : Prop where
  stop : place.stop = wide.stop
  after : ∃ inside, place.after = inside ++ wide.beyond ∧
    place.offset + byteWidth inside = wide.stop

namespace Holds

theorem offset_le (hholds : wide.Holds place) : place.offset ≤ wide.stop := by
  obtain ⟨inside, -, hoffset⟩ := hholds.after
  omega

theorem of_moves {start : Cursor} {passed : List Char} (hholds : wide.Holds start)
    (hmoves : start.Moves passed place) : wide.Holds place where
  stop := hmoves.stop.trans hholds.stop
  after := by
    obtain ⟨inside, hafter, hoffset⟩ := hholds.after
    have hboth := hmoves.after
    rw [hafter, List.append_eq_append_iff] at hboth
    rcases hboth with ⟨rest, hpassed, hbeyond⟩ | ⟨rest, hinside, hrest⟩
    · -- The last character passed would begin behind the window.
      rcases List.eq_nil_or_concat rest with rfl | ⟨front, c, rfl⟩
      · refine ⟨[], by simpa using hbeyond.symm, ?_⟩
        rw [hmoves.offset, hpassed, List.append_nil]
        simpa using hoffset
      · have hlast := hmoves.last (inside ++ front) c (by simp [hpassed])
        rw [byteWidth_append, hholds.stop] at hlast
        omega
    · refine ⟨rest, hrest, ?_⟩
      rw [hinside, byteWidth_append] at hoffset
      rw [hmoves.offset]
      omega

/-- A cursor in the narrow window stands at its end, or before one of its characters. -/
theorem end_or_char (hholds : wide.Holds place) :
    place.offset = wide.stop ∧ place.after = wide.beyond ∨
      ∃ c after, place.after = c :: after ∧ place.offset < wide.stop ∧
        wide.Holds (place.past c after) := by
  obtain ⟨inside, hafter, hoffset⟩ := hholds.after
  cases inside with
  | nil => exact Or.inl ⟨by simpa using hoffset, by simpa using hafter⟩
  | cons c inside =>
      have hc := c.utf8Size_pos
      rw [byteWidth_cons] at hoffset
      have hinside : place.offset < wide.stop := by omega
      refine Or.inr ⟨c, inside ++ wide.beyond, hafter, hinside, ?_⟩
      exact hholds.of_moves (.past hafter (hholds.stop ▸ hinside))

/-- What holds at the end of the narrow window, and before a character if it holds past
it, holds everywhere in the window. -/
@[elab_as_elim]
theorem induct {motive : (place : Cursor) → wide.Holds place → Prop}
    (atEnd : ∀ (place : Cursor) (hholds : wide.Holds place), place.offset = wide.stop →
      place.after = wide.beyond → motive place hholds)
    (past : ∀ (place : Cursor) (c : Char) (after : List Char) (hholds : wide.Holds place)
      (hnext : wide.Holds (place.past c after)), place.after = c :: after →
      place.offset < wide.stop → motive (place.past c after) hnext → motive place hholds)
    {place : Cursor} (hholds : wide.Holds place) : motive place hholds := by
  induction hwidth : wide.stop - place.offset using Nat.strongRecOn generalizing place with
  | ind width ih =>
      rcases hholds.end_or_char with ⟨hoffset, hafter⟩ | ⟨c, after, hafter, hinside, hnext⟩
      · exact atEnd place hholds hoffset hafter
      · have hc := c.utf8Size_pos
        have hpast : (place.past c after).offset = place.offset + c.utf8Size := rfl
        exact past place c after hholds hnext hafter hinside
          (ih _ (by rw [hpast]; omega) hnext rfl)

end Holds

theorem next?_of_after {c : Char} {after : List Char} (hafter : place.after = c :: after)
    (hinside : place.offset < place.stop) : place.next? = some (c, place.past c after) := by
  unfold Cursor.next?
  rw [hafter]
  exact if_pos hinside

theorem next?_eq_none_of_le (hle : place.stop ≤ place.offset) : place.next? = none := by
  unfold Cursor.next?
  split
  · rfl
  · rw [if_neg (by omega)]

theorem next?_cursor_of_after {c : Char} {after : List Char} (hafter : place.after = c :: after)
    (hinside : place.offset < wide.stop) :
    (wide.cursor place).next? = some (c, wide.cursor (place.past c after)) := by
  have hwide : (wide.cursor place).after = c :: (after ++ wide.tail) := by
    simp [cursor, hafter]
  have hstop := wide.stop_le
  exact next?_of_after hwide (Nat.lt_of_lt_of_le hinside hstop)

/-- Both windows go on with the same character, or the narrow one is at its end. -/
theorem next?_cases (hholds : wide.Holds place) :
    (∃ c next, place.next? = some (c, next) ∧
        (wide.cursor place).next? = some (c, wide.cursor next) ∧ wide.Holds next) ∨
      place.next? = none ∧ place.offset = wide.stop := by
  rcases hholds.end_or_char with ⟨hoffset, -⟩ | ⟨c, after, hafter, hinside, hnext⟩
  · exact Or.inr ⟨next?_eq_none_of_le (Nat.le_of_eq (hholds.stop.trans hoffset.symm)), hoffset⟩
  · exact Or.inl ⟨c, _, next?_of_after hafter (hholds.stop ▸ hinside),
      next?_cursor_of_after hafter hinside, hnext⟩

/-- A word fits in both windows, or in the wider one only beyond the narrow one. -/
theorem skipWord?_cases (hholds : wide.Holds place) (word : List Char) :
    (∃ reached, place.skipWord? word = some reached ∧
        (wide.cursor place).skipWord? word = some (wide.cursor reached)) ∨
      place.skipWord? word = none ∧
        ∀ reached, (wide.cursor place).skipWord? word = some reached →
          wide.stop < reached.offset := by
  induction word generalizing place with
  | nil => exact Or.inl ⟨place, rfl, rfl⟩
  | cons d word ih =>
      rcases next?_cases hholds with ⟨c, next, hnext, hwide, hin⟩ | ⟨hnext, hoffset⟩
      · simp only [Cursor.skipWord?, hnext, hwide]
        by_cases hc : c = d
        · simp only [hc, if_true]
          exact ih hin
        · simp [hc]
      · refine Or.inr ⟨by simp only [Cursor.skipWord?, hnext], ?_⟩
        intro reached hreached
        have hlt := (Cursor.moves_of_skipWord? hreached).offset_lt (by simp)
        rw [cursor_offset] at hlt
        omega

/-- A run is passed character by character. -/
theorem skipWhile_eq (test : Char → Bool) (place : Cursor) :
    place.skipWhile test =
      match place.next? with
      | some (c, next) => if test c then next.skipWhile test else place
      | none => place := by
  obtain ⟨before, after, offset, stop⟩ := place
  unfold Cursor.skipWhile Cursor.next?
  cases after with
  | nil => rfl
  | cons c after =>
      simp only [Cursor.skipLoop]
      by_cases hinside : offset < stop
      · simp [hinside, Cursor.past]
      · simp [hinside]

/-- A run stops at the same place in both windows, or beyond the limit in both. -/
theorem skipWhile_cases {limit : Nat} {test : Char → Bool}
    (htest : (wide.behind limit).any test = false) (hholds : wide.Holds place) :
    (wide.cursor place).skipWhile test = wide.cursor (place.skipWhile test) ∨
      limit < (place.skipWhile test).offset ∧
        limit < ((wide.cursor place).skipWhile test).offset := by
  induction hholds using Holds.induct with
  | atEnd place hholds hoffset hafter =>
      have hnone : place.next? = none :=
        next?_eq_none_of_le (Nat.le_of_eq (hholds.stop.trans hoffset.symm))
      have hstay : place.skipWhile test = place := by rw [skipWhile_eq, hnone]
      rw [hstay]
      by_cases hlt : limit < wide.stop
      · obtain ⟨passed, hmoves, -⟩ :=
          Cursor.exists_moves_skipWhile test (wide.cursor place)
        have hle := hmoves.offset_le
        rw [cursor_offset] at hle
        exact Or.inr (by omega)
      · left
        rw [behind, if_neg hlt] at htest
        rw [skipWhile_eq]
        split
        · next c next hnext =>
            have hmoves := (Cursor.moves_of_next? hnext).after
            simp only [cursor, hafter] at hmoves
            rw [hmoves] at htest
            have hc : test c = false := by simpa using htest
            rw [if_neg (by simp [hc])]
        · rfl
  | past place c after hholds hnext hafter hinside ih =>
      rw [skipWhile_eq test place, skipWhile_eq test (wide.cursor place),
        next?_of_after hafter (hholds.stop ▸ hinside), next?_cursor_of_after hafter hinside]
      by_cases hc : test c = true
      · simpa only [hc, if_true] using ih
      · simp [hc]

end Widening

namespace Pattern

variable {Part : Type}

/-- The places that a class leads to past each closing character. -/
def throughPlaces (test : Char → Bool) (closer : Char) (place : Cursor) : List Cursor :=
  throughLoop test closer place.stop place.before place.offset place.after []

theorem throughLoop_eq (test : Char → Bool) (closer : Char) (stop : Nat) (before : List Char)
    (offset : Nat) (after : List Char) (found : List Cursor) :
    throughLoop test closer stop before offset after found =
      found.reverse ++ throughLoop test closer stop before offset after [] := by
  induction after generalizing before offset found with
  | nil => simp [throughLoop]
  | cons c after ih =>
      unfold throughLoop
      by_cases hinside : offset < stop
      · simp only [hinside, if_true]
        by_cases htest : test c = true
        · simp only [htest, if_true]
          rw [ih, ih _ _ (if c = closer then _ else _)]
          split <;> simp
        · simp only [htest, Bool.false_eq_true, if_false]
          split <;> simp
      · simp [hinside]

theorem throughPlaces_eq (test : Char → Bool) (closer : Char) (place : Cursor) :
    throughPlaces test closer place =
      match place.next? with
      | some (c, next) => (if c = closer then [next] else []) ++
          if test c then throughPlaces test closer next else []
      | none => [] := by
  obtain ⟨before, after, offset, stop⟩ := place
  unfold throughPlaces Cursor.next?
  cases after with
  | nil => rfl
  | cons c after =>
      simp only [throughLoop]
      by_cases hinside : offset < stop
      · simp only [hinside, if_true]
        by_cases htest : test c = true
        · simp only [htest, if_true]
          rw [throughLoop_eq]
          split <;> rfl
        · simp only [htest, Bool.false_eq_true, if_false, List.append_nil]
          split <;> rfl
      · simp [hinside]

theorem offset_lt_of_mem_throughPlaces {test : Char → Bool} {closer : Char}
    {place reached : Cursor} (hreached : reached ∈ throughPlaces test closer place) :
    place.offset < reached.offset := by
  rcases exists_moves_of_mem_throughLoop hreached with hmem | ⟨passed, hne, hmoves, -⟩
  · contradiction
  · exact hmoves.offset_lt hne

theorem filter_throughPlaces {wide : Widening} {place : Cursor} {limit : Nat}
    (hlimit : limit ≤ wide.stop) (hholds : wide.Holds place) (test : Char → Bool)
    (closer : Char) :
    (throughPlaces test closer (wide.cursor place)).filter (·.offset ≤ limit) =
      ((throughPlaces test closer place).filter (·.offset ≤ limit)).map wide.cursor := by
  induction hholds using Widening.Holds.induct with
  | atEnd place hholds hoffset hafter =>
      have hnone : place.next? = none :=
        Widening.next?_eq_none_of_le (Nat.le_of_eq (hholds.stop.trans hoffset.symm))
      have hempty : throughPlaces test closer place = [] := by rw [throughPlaces_eq, hnone]
      rw [hempty, List.filter_nil, List.map_nil, List.filter_eq_nil_iff]
      intro reached hreached
      have hlt := offset_lt_of_mem_throughPlaces hreached
      rw [Widening.cursor_offset] at hlt
      rw [decide_eq_true_eq]
      omega
  | past place c after hholds hnext hafter hinside ih =>
      rw [throughPlaces_eq test closer place, throughPlaces_eq test closer (wide.cursor place),
        Widening.next?_of_after hafter (hholds.stop ▸ hinside),
        Widening.next?_cursor_of_after hafter hinside]
      simp only [List.filter_append, List.map_append]
      congr 1
      · split
        · by_cases hle : (place.past c after).offset ≤ limit <;> simp [hle]
        · rfl
      · by_cases htest : test c = true
        · simpa only [htest, if_true] using ih
        · simp [htest]

/-! ## Outcomes up to a limit -/

/-- The outcomes that do not go past a limit. -/
def within (limit : Nat) (reached : List (Progress Part)) : List (Progress Part) :=
  reached.filter (·.place.offset ≤ limit)

theorem within_append (limit : Nat) (first second : List (Progress Part)) :
    within limit (first ++ second) = within limit first ++ within limit second :=
  List.filter_append first second

theorem offset_le_of_mem_outcomes {pattern : Pattern Part} {start reached : Progress Part}
    (hreached : reached ∈ pattern.outcomes start) :
    start.place.offset ≤ reached.place.offset := by
  obtain ⟨passed, hpasses⟩ := exists_passes hreached
  exact hpasses.moves.offset_le

theorem offset_lt_of_mem_outcomes {pattern : Pattern Part} (hconsumes : pattern.consumes = true)
    {start reached : Progress Part} (hreached : reached ∈ pattern.outcomes start) :
    start.place.offset < reached.place.offset := by
  obtain ⟨passed, hpasses⟩ := exists_passes hreached
  exact hpasses.moves.offset_lt (hpasses.consumes hconsumes)

theorem within_eq_nil {limit : Nat} {reached : List (Progress Part)}
    (hlate : ∀ outcome ∈ reached, limit < outcome.place.offset) : within limit reached = [] := by
  rw [within, List.filter_eq_nil_iff]
  intro outcome hmem
  have hlt := hlate outcome hmem
  rw [decide_eq_true_eq]
  omega

theorem within_outcomes_eq_nil {limit : Nat} (pattern : Pattern Part) {start : Progress Part}
    (hlate : limit < start.place.offset) : within limit (pattern.outcomes start) = [] :=
  within_eq_nil fun _ hmem => Nat.lt_of_lt_of_le hlate (offset_le_of_mem_outcomes hmem)

theorem within_flatMap {limit : Nat} {reached : List (Progress Part)}
    {next : Progress Part → List (Progress Part)}
    (hlate : ∀ outcome ∈ reached, limit < outcome.place.offset →
      within limit (next outcome) = []) :
    within limit (reached.flatMap next) =
      (within limit reached).flatMap fun outcome => within limit (next outcome) := by
  induction reached with
  | nil => rfl
  | cons first reached ih =>
      obtain ⟨hfirst, hrest⟩ := List.forall_mem_cons.mp hlate
      rw [List.flatMap_cons, within_append, ih hrest]
      by_cases hle : first.place.offset ≤ limit
      · simp [within, hle]
      · rw [hfirst (by omega)]
        simp [within, hle]

/-- Staying, if allowed at all, agrees in both windows. -/
theorem within_stay {wide : Widening} {limit : Nat} (allowed : Bool)
    (progress : Progress Part) :
    within limit (if allowed then [wide.progress progress] else []) =
      (within limit (if allowed then [progress] else [])).map wide.progress := by
  by_cases hle : progress.place.offset ≤ limit <;> cases allowed <;>
    simp [within, Widening.progress, hle]

/-- Steps that agree up to a limit can be taken one after the other. -/
theorem within_flatMap_progress {wide : Widening} {limit : Nat}
    {narrow wider : List (Progress Part)} {next nextWide : Progress Part → List (Progress Part)}
    (hreached : within limit wider = (within limit narrow).map wide.progress)
    (hlate : ∀ outcome : Progress Part, limit < outcome.place.offset →
      within limit (next outcome) = [] ∧ within limit (nextWide outcome) = [])
    (hnext : ∀ outcome ∈ narrow, outcome.place.offset ≤ limit →
      within limit (nextWide (wide.progress outcome)) =
        (within limit (next outcome)).map wide.progress) :
    within limit (wider.flatMap nextWide) =
      (within limit (narrow.flatMap next)).map wide.progress := by
  rw [within_flatMap fun outcome _ hlt => (hlate outcome hlt).2,
    within_flatMap fun outcome _ hlt => (hlate outcome hlt).1, hreached, List.flatMap_map,
    List.map_flatMap]
  apply List.flatMap_congr
  intro outcome hmem
  obtain ⟨hnarrow, hle⟩ := List.mem_filter.mp hmem
  exact hnext outcome hnarrow (by simpa using hle)

/-- Repetitions that have steps enough to reach the limit agree up to it. -/
theorem within_repeated {wide : Widening} {limit : Nat} {inner : Pattern Part}
    (hconsumes : inner.consumes = true)
    (hinner : ∀ progress, wide.Holds progress.place →
      within limit (inner.outcomes (wide.progress progress)) =
        (within limit (inner.outcomes progress)).map wide.progress)
    {count countWide : Nat} {progress : Progress Part} (hholds : wide.Holds progress.place)
    (hcount : limit ≤ progress.place.offset + count)
    (hcountWide : limit ≤ progress.place.offset + countWide) :
    within limit (repeated inner.outcomes countWide (wide.progress progress)) =
      (within limit (repeated inner.outcomes count progress)).map wide.progress := by
  have hlate : ∀ (count : Nat) (outcome : Progress Part), limit < outcome.place.offset →
      within limit (repeated inner.outcomes count outcome) = [] := by
    intro count outcome hlt
    apply within_eq_nil
    intro reached hreached
    obtain ⟨passed, hpasses⟩ :=
      exists_passes_repeated (fun _ _ hmem => exists_passes hmem) count outcome hreached
    exact Nat.lt_of_lt_of_le hlt hpasses.moves.offset_le
  -- Where there is nothing left to count, every further step leads past the limit.
  have hdone : ∀ (count : Nat) (outcome : Progress Part), limit ≤ outcome.place.offset →
      within limit ((inner.outcomes outcome).flatMap (repeated inner.outcomes count)) = [] := by
    intro count outcome hle
    apply within_eq_nil
    intro reached hreached
    obtain ⟨middle, hmiddle, hreached⟩ := List.mem_flatMap.mp hreached
    have hlt := offset_lt_of_mem_outcomes hconsumes hmiddle
    obtain ⟨passed, hpasses⟩ :=
      exists_passes_repeated (fun _ _ hmem => exists_passes hmem) count middle hreached
    have hfrom := hpasses.moves.offset_le
    omega
  induction count generalizing countWide progress with
  | zero =>
      cases countWide with
      | zero => exact within_stay true _
      | succ countWide =>
          rw [repeated, repeated, within_append, hdone _ (wide.progress progress) hcount,
            List.nil_append]
          exact within_stay true _
  | succ count ih =>
      cases countWide with
      | zero =>
          rw [repeated, repeated, within_append, hdone _ progress hcountWide, List.nil_append]
          exact within_stay true _
      | succ countWide =>
          have hsteps := within_flatMap_progress (hinner progress hholds)
            (fun outcome hlt => ⟨hlate count outcome hlt, hlate countWide outcome hlt⟩)
            fun outcome hmem _ => by
              have hlt := offset_lt_of_mem_outcomes hconsumes hmem
              obtain ⟨passed, hpasses⟩ := exists_passes hmem
              exact ih (hholds.of_moves hpasses.moves) (by omega) (by omega)
          rw [repeated, repeated, within_append, within_append, List.map_append, hsteps]
          congr 1
          exact within_stay true _

/-- Whether a pattern is indifferent to the characters next to a window: the one before
it, and the one behind it where a match gets that far. -/
def indifferent (before behind : Option Char) : Pattern Part → Bool
  | one _ | word _ | through _ _ => true
  | run test => !behind.any test
  | seq first second | alt first second =>
      first.indifferent before behind && second.indifferent before behind
  | maybe inner | part _ inner => inner.indifferent before behind
  | copies inner => inner.consumes && inner.indifferent before behind
  | wordEdge => !before.any isWord && !behind.any isWord
  | windowStart | lineStart => before.isNone

theorem atWordEdge_cursor {wide : Widening} {place : Cursor} {limit : Nat}
    (hlimit : limit ≤ wide.stop) (hbefore : wide.outer.head?.any isWord = false)
    (hbehind : (wide.behind limit).any isWord = false) (hholds : wide.Holds place)
    (hle : place.offset ≤ limit) : atWordEdge (wide.cursor place) = atWordEdge place := by
  have hprevious : (wide.cursor place).previous?.any isWord = place.previous?.any isWord := by
    unfold Cursor.previous? Widening.cursor
    cases place.before with
    | nil => simpa using hbefore
    | cons c before => rfl
  have hhead : (wide.cursor place).head?.any isWord = place.head?.any isWord := by
    rcases hholds.end_or_char with ⟨hoffset, hafter⟩ | ⟨c, after, hafter, hinside, -⟩
    · rw [Widening.behind, if_neg (by omega)] at hbehind
      have hnone : place.head? = none := by
        rw [Cursor.head?, hholds.stop, hoffset, if_neg (Nat.lt_irrefl _)]
      rw [hnone, Cursor.head?]
      simp only [Widening.cursor, hafter]
      split
      · simpa using hbehind
      · rfl
    · have hwide := Nat.lt_of_lt_of_le hinside wide.stop_le
      rw [Cursor.head?, Cursor.head?, hholds.stop, if_pos hinside]
      simp only [Widening.cursor, hafter, hwide, if_true]
      rfl
  rw [atWordEdge, atWordEdge, hprevious, hhead]

/-- Up to a limit in the narrow window, an indifferent pattern has the same outcomes in
the wider one. -/
theorem within_outcomes_progress {wide : Widening} {limit : Nat} (hlimit : limit ≤ wide.stop)
    {pattern : Pattern Part}
    (hindifferent : pattern.indifferent wide.outer.head? (wide.behind limit) = true)
    {progress : Progress Part} (hholds : wide.Holds progress.place) :
    within limit (pattern.outcomes (wide.progress progress)) =
      (within limit (pattern.outcomes progress)).map wide.progress := by
  induction pattern generalizing progress with
  | one test =>
      simp only [outcomes, Widening.progress]
      rcases Widening.next?_cases hholds with ⟨c, next, hnext, hwide, -⟩ | ⟨hnext, hoffset⟩
      · rw [hnext, hwide]
        by_cases hc : test c = true <;> by_cases hle : next.offset ≤ limit <;>
          simp [within, hc, hle, Widening.progress]
      · rw [hnext]
        apply within_eq_nil
        intro outcome hmem
        have hreached : outcome ∈ (one test).outcomes (wide.progress progress) := hmem
        have hlt := offset_lt_of_mem_outcomes (by rfl) hreached
        simp only [Widening.progress, Widening.cursor_offset] at hlt
        omega
  | word text =>
      simp only [outcomes, Widening.progress]
      rcases Widening.skipWord?_cases hholds text with ⟨reached, hreached, hwide⟩ | ⟨hnone, hlate⟩
      · rw [hreached, hwide]
        by_cases hle : reached.offset ≤ limit <;> simp [within, hle, Widening.progress]
      · rw [hnone]
        apply within_eq_nil
        intro outcome hmem
        split at hmem
        · next reached hreached =>
            rw [List.mem_singleton] at hmem
            subst hmem
            exact Nat.lt_of_le_of_lt hlimit (hlate reached hreached)
        · contradiction
  | run test =>
      have htest : (wide.behind limit).any test = false := by
        simpa [indifferent] using hindifferent
      simp only [outcomes, Widening.progress]
      rcases Widening.skipWhile_cases htest hholds with hsame | ⟨hnarrow, hwide⟩
      · rw [hsame]
        by_cases hle : (progress.place.skipWhile test).offset ≤ limit <;>
          simp [within, hle, Widening.progress]
      · rw [within_eq_nil (by simpa using hwide), within_eq_nil (by simpa using hnarrow)]
        rfl
  | through test closer =>
      have hplaces := filter_throughPlaces hlimit hholds test closer
      simp only [throughPlaces] at hplaces
      simp only [outcomes, Widening.progress, within, List.filter_map, Function.comp_def]
      rw [hplaces]
      simp [List.map_map, Function.comp_def, Widening.progress]
  | seq first second ihfirst ihsecond =>
      simp only [indifferent, Bool.and_eq_true] at hindifferent
      simp only [outcomes]
      apply within_flatMap_progress (ihfirst hindifferent.1 hholds)
      · intro outcome hlt
        exact ⟨within_outcomes_eq_nil second hlt, within_outcomes_eq_nil second hlt⟩
      · intro outcome hmem _
        obtain ⟨passed, hpasses⟩ := exists_passes hmem
        exact ihsecond hindifferent.2 (hholds.of_moves hpasses.moves)
  | alt first second ihfirst ihsecond =>
      simp only [indifferent, Bool.and_eq_true] at hindifferent
      simp only [outcomes, within_append, List.map_append]
      rw [ihfirst hindifferent.1 hholds, ihsecond hindifferent.2 hholds]
  | maybe inner ih =>
      simp only [outcomes, within_append, List.map_append]
      rw [ih hindifferent hholds]
      congr 1
      exact within_stay true _
  | copies inner ih =>
      simp only [indifferent, Bool.and_eq_true] at hindifferent
      have hstop := hholds.stop
      have hwide := wide.stop_le
      have hoffset := hholds.offset_le
      apply within_repeated hindifferent.1 (fun _ hholds => ih hindifferent.2 hholds) hholds
      · omega
      · simp only [Widening.progress, Widening.cursor]
        omega
  | wordEdge =>
      simp only [indifferent, Bool.and_eq_true, Bool.not_eq_true'] at hindifferent
      by_cases hle : progress.place.offset ≤ limit
      · have hedge := atWordEdge_cursor hlimit hindifferent.1 hindifferent.2 hholds hle
        simp only [outcomes]
        rw [← hedge]
        exact within_stay (atWordEdge (wide.cursor progress.place)) progress
      · have hlate : limit < progress.place.offset := Nat.lt_of_not_le hle
        have hlateWide : limit < (wide.progress progress).place.offset := hlate
        rw [within_outcomes_eq_nil wordEdge hlate, within_outcomes_eq_nil wordEdge hlateWide]
        rfl
  | windowStart =>
      have houter : wide.outer = [] := by simpa [indifferent] using hindifferent
      have hstart : (wide.cursor progress.place).before = progress.place.before := by
        simp [Widening.cursor, houter]
      simp only [outcomes]
      rw [← hstart]
      exact within_stay (wide.cursor progress.place).before.isEmpty progress
  | lineStart =>
      have houter : wide.outer = [] := by simpa [indifferent] using hindifferent
      have hline : atLineStart (wide.cursor progress.place) = atLineStart progress.place := by
        simp [atLineStart, Cursor.previous?, Widening.cursor, houter]
      simp only [outcomes]
      rw [← hline]
      exact within_stay (atLineStart (wide.cursor progress.place)) progress
  | part name inner ih =>
      have hsame := ih hindifferent hholds
      simp only [outcomes, within, List.filter_map, Function.comp_def] at hsame ⊢
      rw [hsame]
      simp [List.map_map, Function.comp_def, Widening.progress, Widening.parts, Widening.span]

/-- A pattern does not get past a character that it avoids. -/
theorem offset_le_of_avoids {pattern : Pattern Part} {start reached : Progress Part}
    (hreached : reached ∈ pattern.outcomes start) {line rest : List Char} {c : Char}
    (hafter : start.place.after = line ++ c :: rest) (havoids : pattern.avoids c = true) :
    reached.place.offset ≤ start.place.offset + byteWidth line := by
  obtain ⟨passed, hpasses⟩ := exists_passes hreached
  exact hpasses.moves.offset_le_of_not_mem hafter (hpasses.avoids c havoids)

theorem within_eq_self {limit : Nat} {reached : List (Progress Part)}
    (hearly : ∀ outcome ∈ reached, outcome.place.offset ≤ limit) :
    within limit reached = reached := by
  rw [within, List.filter_eq_self]
  simpa using hearly

/-- A pattern that avoids a character ahead sees nothing of what comes after that. -/
theorem outcomes_progress_of_avoids_ahead {wide : Widening} {pattern : Pattern Part}
    (hindifferent : pattern.indifferent wide.outer.head? none = true)
    {progress : Progress Part} (hholds : wide.Holds progress.place) {line rest : List Char}
    {c : Char} (hafter : progress.place.after = line ++ c :: rest)
    (hinside : progress.place.offset + byteWidth line < wide.stop)
    (havoids : pattern.avoids c = true) :
    pattern.outcomes (wide.progress progress) =
      (pattern.outcomes progress).map wide.progress := by
  have hbehind : wide.behind (progress.place.offset + byteWidth line) = none := if_pos hinside
  have hsame := within_outcomes_progress (Nat.le_of_lt hinside) (hbehind ▸ hindifferent) hholds
  have hwide : (wide.progress progress).place.after = line ++ c :: (rest ++ wide.tail) := by
    simp [Widening.progress, Widening.cursor, hafter]
  have hwideEarly : ∀ outcome ∈ pattern.outcomes (wide.progress progress),
      outcome.place.offset ≤ progress.place.offset + byteWidth line := fun _ hmem =>
    offset_le_of_avoids hmem hwide havoids
  rwa [within_eq_self hwideEarly,
    within_eq_self fun _ hmem => offset_le_of_avoids hmem hafter havoids] at hsame

/-- Before the end of the narrow window, the next character is the same in both. -/
theorem outcomes_one_progress {wide : Widening} {test : Char → Bool} {progress : Progress Part}
    (hholds : wide.Holds progress.place) (hinside : progress.place.offset < wide.stop) :
    (one test).outcomes (wide.progress progress) =
      ((one test).outcomes progress).map wide.progress := by
  simp only [outcomes, Widening.progress]
  rcases Widening.next?_cases hholds with ⟨c, next, hnext, hwide, -⟩ | ⟨-, hend⟩
  · rw [hnext, hwide]
    by_cases hc : test c = true <;> simp [hc, Widening.progress]
  · omega

theorem outcomes_seq_progress {wide : Widening} {first second : Pattern Part}
    {progress : Progress Part}
    (hfirst : first.outcomes (wide.progress progress) =
      (first.outcomes progress).map wide.progress)
    (hsecond : ∀ middle ∈ first.outcomes progress,
      second.outcomes (wide.progress middle) = (second.outcomes middle).map wide.progress) :
    (first ++ second).outcomes (wide.progress progress) =
      ((first ++ second).outcomes progress).map wide.progress := by
  have hseq : ∀ start, (first ++ second).outcomes start =
      (first.outcomes start).flatMap second.outcomes := fun _ => rfl
  rw [hseq, hseq, hfirst, List.flatMap_map, List.map_flatMap]
  exact List.flatMap_congr hsecond

/-- A pattern that avoids the first character behind the narrow window, and is indifferent
to it, has the same outcomes in both windows. -/
theorem outcomes_progress_of_avoids_behind {wide : Widening} {pattern : Pattern Part}
    (hindifferent : pattern.indifferent wide.outer.head? (wide.beyond ++ wide.tail).head? = true)
    (havoids : ∀ c ∈ (wide.beyond ++ wide.tail).head?, pattern.avoids c = true)
    {progress : Progress Part} (hholds : wide.Holds progress.place) :
    pattern.outcomes (wide.progress progress) =
      (pattern.outcomes progress).map wide.progress := by
  have hbehind : wide.behind wide.stop = (wide.beyond ++ wide.tail).head? :=
    if_neg (Nat.lt_irrefl _)
  have hsame := within_outcomes_progress (Nat.le_refl _) (hbehind ▸ hindifferent) hholds
  obtain ⟨inside, hafter, hstop⟩ := hholds.after
  have hnarrow : ∀ outcome ∈ pattern.outcomes progress, outcome.place.offset ≤ wide.stop := by
    intro outcome hmem
    obtain ⟨passed, hpasses⟩ := exists_passes hmem
    exact (hholds.of_moves hpasses.moves).offset_le
  have hwide : ∀ outcome ∈ pattern.outcomes (wide.progress progress),
      outcome.place.offset ≤ wide.stop := by
    intro outcome hmem
    have hwideAfter : (wide.progress progress).place.after =
        inside ++ (wide.beyond ++ wide.tail) := by
      simp [Widening.progress, Widening.cursor, hafter]
    rw [← hstop]
    cases hnext : wide.beyond ++ wide.tail with
    | nil =>
        obtain ⟨passed, hpasses⟩ := exists_passes hmem
        have hpassed := hpasses.moves.after
        have hoffset := hpasses.moves.offset
        rw [hwideAfter, hnext, List.append_nil] at hpassed
        rw [hpassed, byteWidth_append, hoffset]
        exact Nat.add_le_add_left (Nat.le_add_right _ _) _
    | cons c rest =>
        rw [hnext] at hwideAfter havoids
        exact offset_le_of_avoids hmem hwideAfter (havoids c rfl)
  rwa [within_eq_self hwide, within_eq_self hnarrow] at hsame

end Pattern

end SourceAtlas.Text
