import SourceAtlas.Proofs.Windows

/-!
# Scans in two windows

A scan tries a pattern at each place, goes past a match where there is one and on to the
next character where there is none.  Two windows on one text are scanned in lockstep as
long as the pattern matches alike in both, so the matches in the narrow window are found
again in the wider one.  Where the windows part, what follows is left to the reader of
the lemma.
-/

namespace SourceAtlas.Text.Pattern

variable {Part : Type} {pattern : Pattern Part}

theorem find?_eq (pattern : Pattern Part) (place : Cursor) :
    pattern.find? place =
      match pattern.matchAt? place with
      | some found => some found
      | none =>
          match place.next? with
          | some (_, next) => pattern.find? next
          | none => none := by
  obtain ⟨before, after, offset, stop⟩ := place
  unfold find? Cursor.next?
  cases after with
  | nil =>
      simp only [findLoop]
      cases pattern.matchAt? { before, after := [], offset, stop } <;> rfl
  | cons c after =>
      simp only [findLoop]
      cases pattern.matchAt? { before, after := c :: after, offset, stop } with
      | some found => rfl
      | none =>
          by_cases hinside : offset < stop
          · simp only [hinside, if_true]
            rfl
          · simp [hinside]

/-- A match of a pattern that passes something ends behind the place where it begins. -/
theorem offset_lt_of_matchAt? (hconsumes : pattern.consumes = true) {place : Cursor}
    {found : Match Part} (hfound : pattern.matchAt? place = some found) :
    place.offset < found.whole.stop.offset ∧ place.LeadsTo found.whole.stop := by
  obtain ⟨rfl, hproduces⟩ := produces_of_matchAt? hfound
  refine ⟨?_, hproduces.leadsTo⟩
  obtain ⟨reached, hreached, hstop, -⟩ := hproduces
  rw [hstop]
  exact offset_lt_of_mem_outcomes hconsumes hreached

theorem matchAt?_eq_none {place : Cursor}
    (houtcomes : pattern.outcomes { place, parts := [] } = []) :
    pattern.matchAt? place = none := by
  rw [matchAt?, houtcomes]

theorem exists_matchAt?_of_mem_outcomes {place : Cursor} {reached : Progress Part}
    (hreached : reached ∈ pattern.outcomes { place, parts := [] }) :
    ∃ found, pattern.matchAt? place = some found := by
  unfold matchAt?
  split
  · next hnil => simp [hnil] at hreached
  · exact ⟨_, rfl⟩

theorem matchAt?_eq_none_of_le (hconsumes : pattern.consumes = true) {place : Cursor}
    (hle : place.stop ≤ place.offset) : pattern.matchAt? place = none := by
  cases hfound : pattern.matchAt? place with
  | none => rfl
  | some found =>
      obtain ⟨hlt, passed, hmoves⟩ := offset_lt_of_matchAt? hconsumes hfound
      have hne : passed ≠ [] := by
        rintro rfl
        have hoffset := hmoves.offset
        rw [byteWidth_nil] at hoffset
        omega
      have hinside := hmoves.inside hne
      omega

theorem find?_eq_none_of_le (hconsumes : pattern.consumes = true) {place : Cursor}
    (hle : place.stop ≤ place.offset) : pattern.find? place = none := by
  rw [find?_eq, matchAt?_eq_none_of_le hconsumes hle, Widening.next?_eq_none_of_le hle]

theorem offset_lt_of_find? (hconsumes : pattern.consumes = true) {place : Cursor}
    {found : Match Part} (hfound : pattern.find? place = some found) :
    place.offset < found.whole.stop.offset ∧ found.whole.stop.stop = place.stop := by
  obtain ⟨hleads, hproduces⟩ := leadsTo_and_produces_of_find? hfound
  have hle := hleads.offset_le
  have hstop := hproduces.leadsTo.stop_eq.trans hleads.stop_eq
  obtain ⟨reached, hreached, hreachedStop, -⟩ := hproduces
  have hlt := offset_lt_of_mem_outcomes hconsumes hreached
  rw [← hreachedStop] at hlt
  exact ⟨Nat.lt_of_le_of_lt hle hlt, hstop⟩

theorem allLoop_eq_nil_of_le (hconsumes : pattern.consumes = true) (count : Nat) {place : Cursor}
    (hle : place.stop ≤ place.offset) : pattern.allLoop count place [] = [] := by
  cases count with
  | zero => rfl
  | succ count => simp only [allLoop, find?_eq_none_of_le hconsumes hle, List.reverse_nil]

/-- A count that suffices for the rest of the window finds all matches in it. -/
theorem allLoop_eq_of_le (hconsumes : pattern.consumes = true) {count other : Nat}
    {place : Cursor} (hcount : place.stop ≤ place.offset + count)
    (hother : place.stop ≤ place.offset + other) :
    pattern.allLoop count place [] = pattern.allLoop other place [] := by
  induction count generalizing other place with
  | zero =>
      rw [allLoop_eq_nil_of_le hconsumes 0 hcount, allLoop_eq_nil_of_le hconsumes other hcount]
  | succ count ih =>
      cases other with
      | zero =>
          rw [allLoop_eq_nil_of_le hconsumes 0 hother,
            allLoop_eq_nil_of_le hconsumes (count + 1) hother]
      | succ other =>
          unfold allLoop
          cases hfound : pattern.find? place with
          | none => rfl
          | some found =>
              obtain ⟨hlt, hstop⟩ := offset_lt_of_find? hconsumes hfound
              have hrest : pattern.allLoop count found.whole.stop [] =
                  pattern.allLoop other found.whole.stop [] := ih (by omega) (by omega)
              simp only
              rw [allLoop_eq, allLoop_eq pattern other, hrest]

theorem findAll_eq_find? (hconsumes : pattern.consumes = true) (place : Cursor) :
    pattern.findAll place =
      match pattern.find? place with
      | some found => found :: pattern.findAll found.whole.stop
      | none => [] := by
  have hmore : pattern.findAll place =
      pattern.allLoop (place.stop - place.offset + 1) place [] :=
    allLoop_eq_of_le hconsumes (by omega) (by omega)
  rw [hmore, allLoop]
  cases hfound : pattern.find? place with
  | none => rfl
  | some found =>
      obtain ⟨hlt, hstop⟩ := offset_lt_of_find? hconsumes hfound
      have hrest : pattern.allLoop (place.stop - place.offset) found.whole.stop [] =
          pattern.findAll found.whole.stop := allLoop_eq_of_le hconsumes (by omega) (by omega)
      simp only
      rw [allLoop_eq, hrest]
      rfl

/-- A scan takes a match where there is one and goes on behind it. -/
theorem findAll_of_matchAt? (hconsumes : pattern.consumes = true) {place : Cursor}
    {found : Match Part} (hfound : pattern.matchAt? place = some found) :
    pattern.findAll place = found :: pattern.findAll found.whole.stop := by
  rw [findAll_eq_find? hconsumes, find?_eq, hfound]

/-- Where there is no match, a scan goes on behind the next character. -/
theorem findAll_of_next? (hconsumes : pattern.consumes = true) {place next : Cursor} {c : Char}
    (hfound : pattern.matchAt? place = none) (hnext : place.next? = some (c, next)) :
    pattern.findAll place = pattern.findAll next := by
  rw [findAll_eq_find? hconsumes, find?_eq, hfound, hnext, ← findAll_eq_find? hconsumes]

theorem findAll_of_end (hconsumes : pattern.consumes = true) {place : Cursor}
    (hfound : pattern.matchAt? place = none) (hnext : place.next? = none) :
    pattern.findAll place = [] := by
  rw [findAll_eq_find? hconsumes, find?_eq, hfound, hnext]

theorem findAll_eq_nil_of_le (hconsumes : pattern.consumes = true) {place : Cursor}
    (hle : place.stop ≤ place.offset) : pattern.findAll place = [] :=
  findAll_of_end hconsumes (matchAt?_eq_none_of_le hconsumes hle)
    (Widening.next?_eq_none_of_le hle)

/-- A scan comes to every place that no match begun before it gets past. -/
theorem exists_findAll_eq_append (hconsumes : pattern.consumes = true) {start place : Cursor}
    {passed : List Char} (hmoves : start.Moves passed place)
    (hstay : ∀ (other : Cursor) (ahead : List Char) (found : Match Part),
      other.Moves ahead place → ahead ≠ [] → pattern.matchAt? other = some found →
        found.whole.stop.offset ≤ place.offset) :
    ∃ earlier, pattern.findAll start = earlier ++ pattern.findAll place := by
  induction hwidth : byteWidth passed using Nat.strongRecOn generalizing start passed with
  | ind width ih =>
      subst hwidth
      cases passed with
      | nil => exact ⟨[], by rw [hmoves.eq_of_nil]; rfl⟩
      | cons c rest =>
          have hinside := hmoves.inside (by simp)
          have hstart : start.Moves [c] (start.past c (rest ++ place.after)) :=
            .past hmoves.after hinside
          cases hfound : pattern.matchAt? start with
          | some found =>
              obtain ⟨hlt, taken, htaken⟩ := offset_lt_of_matchAt? hconsumes hfound
              have hle := hstay start (c :: rest) found hmoves (by simp) hfound
              obtain ⟨ahead, heq, hahead⟩ := htaken.between hmoves hle
              have hoffset := htaken.offset
              obtain ⟨earlier, hearlier⟩ := ih (byteWidth ahead)
                (by rw [heq, byteWidth_append]; omega) hahead rfl
              refine ⟨found :: earlier, ?_⟩
              rw [findAll_of_matchAt? hconsumes hfound, hearlier]
              rfl
          | none =>
              obtain ⟨ahead, heq, hahead⟩ := hstart.between hmoves (by
                have hoffset := hmoves.offset
                rw [byteWidth_cons] at hoffset
                simp only [Cursor.past]
                omega)
              have hrest : rest = ahead := (List.cons.inj heq).2
              have hc := c.utf8Size_pos
              obtain ⟨earlier, hearlier⟩ := ih (byteWidth ahead)
                (by rw [byteWidth_cons, hrest]; omega) hahead rfl
              refine ⟨earlier, ?_⟩
              have hnext : start.next? = some (c, start.past c (rest ++ place.after)) :=
                Widening.next?_of_after hmoves.after hinside
              rw [findAll_of_next? hconsumes hfound hnext, hearlier]

/-- Where outcomes are the same in both windows, so is the match. -/
theorem matchAt?_cursor {wide : Widening} {place : Cursor}
    (houtcomes : pattern.outcomes (wide.progress { place, parts := [] }) =
      (pattern.outcomes { place, parts := [] }).map wide.progress) :
    pattern.matchAt? (wide.cursor place) = (pattern.matchAt? place).map wide.occurrence := by
  have hwide : pattern.outcomes { place := wide.cursor place, parts := [] } =
      (pattern.outcomes { place, parts := [] }).map wide.progress := houtcomes
  unfold matchAt?
  rw [hwide]
  cases pattern.outcomes { place, parts := [] } <;> rfl

/-- As long as a pattern matches alike in both windows, the matches of a scan through the
narrow window come first in a scan through the wider one.  From the place where the
windows part, the narrow scan goes on by itself. -/
theorem findAll_cursor {wide : Widening} (hconsumes : pattern.consumes = true)
    {Parted : Cursor → Prop} {start : Cursor} (hholds : wide.Holds start)
    (hagree : ∀ place, start.LeadsTo place →
      pattern.matchAt? (wide.cursor place) = (pattern.matchAt? place).map wide.occurrence ∨
        Parted place) :
    ∃ common late later, pattern.findAll start = common ++ late ∧
      pattern.findAll (wide.cursor start) = common.map wide.occurrence ++ later ∧
      (late = [] ∨ ∃ place, start.LeadsTo place ∧ Parted place ∧ late = pattern.findAll place) := by
  induction hwidth : wide.stop - start.offset using Nat.strongRecOn generalizing start with
  | ind width ih =>
      -- Both scans have reached a further place, which the induction starts from.
      have hgo : ∀ place, start.LeadsTo place → start.offset < place.offset →
          ∃ common late later, pattern.findAll place = common ++ late ∧
            pattern.findAll (wide.cursor place) = common.map wide.occurrence ++ later ∧
            (late = [] ∨
              ∃ place, start.LeadsTo place ∧ Parted place ∧ late = pattern.findAll place) := by
        intro place hleads hlt
        have hleads' := hleads
        obtain ⟨passed, hmoves⟩ := hleads
        have hin := hholds.of_moves hmoves
        have hle := hin.offset_le
        obtain ⟨common, late, later, hnarrow, hwide, hlate⟩ := ih (wide.stop - place.offset)
          (by omega) hin (fun other hother => hagree other (hleads'.trans hother)) rfl
        refine ⟨common, late, later, hnarrow, hwide, hlate.imp id ?_⟩
        rintro ⟨other, hother, hparted, heq⟩
        exact ⟨other, hleads'.trans hother, hparted, heq⟩
      rcases hagree start (.refl start) with hmatch | hparted
      · cases hfound : pattern.matchAt? start with
        | some found =>
            obtain ⟨hlt, hleads⟩ := offset_lt_of_matchAt? hconsumes hfound
            obtain ⟨common, late, later, hnarrow, hwide, hlate⟩ :=
              hgo found.whole.stop hleads hlt
            refine ⟨found :: common, late, later, ?_, ?_, hlate⟩
            · rw [findAll_of_matchAt? hconsumes hfound, hnarrow]
              rfl
            · rw [hfound] at hmatch
              rw [findAll_of_matchAt? hconsumes hmatch]
              exact congrArg (wide.occurrence found :: ·) hwide
        | none =>
            rw [hfound] at hmatch
            rcases Widening.next?_cases hholds with ⟨c, next, hnext, hnextWide, -⟩ | ⟨hnext, -⟩
            · have hmoves := Cursor.moves_of_next? hnext
              obtain ⟨common, late, later, hnarrow, hwide, hlate⟩ :=
                hgo next ⟨_, hmoves⟩ (hmoves.offset_lt (by simp))
              refine ⟨common, late, later, ?_, ?_, hlate⟩
              · rw [findAll_of_next? hconsumes hfound hnext]
                exact hnarrow
              · rw [findAll_of_next? hconsumes hmatch hnextWide]
                exact hwide
            · refine ⟨[], [], pattern.findAll (wide.cursor start), ?_, rfl, Or.inl rfl⟩
              exact findAll_of_end hconsumes hfound hnext
      · exact ⟨[], pattern.findAll start, pattern.findAll (wide.cursor start), rfl, rfl,
          Or.inr ⟨start, .refl start, hparted, rfl⟩⟩

end SourceAtlas.Text.Pattern
