import SourceAtlas.Proofs.ByteOffsets
import SourceAtlas.Text.Cursor

/-!
# Moving through a text

A cursor moves to another when the characters between them are exactly those
that it has passed.  Every way to move is a sequence of single steps, so offsets
and windows follow from what has been passed, and a place that is reached by
moves from the start of a text stands where its offset says.
-/

namespace SourceAtlas.Text

namespace Cursor

/-- The move from one place to another past given characters.  Only places before
the end of the window can be left, so the last character begins there. -/
structure Moves (start : Cursor) (passed : List Char) (place : Cursor) : Prop where
  before : place.before = passed.reverse ++ start.before
  after : start.after = passed ++ place.after
  offset : place.offset = start.offset + byteWidth passed
  stop : place.stop = start.stop
  last : ∀ front c, passed = front ++ [c] → start.offset + byteWidth front < start.stop

namespace Moves

variable {start place goal : Cursor} {first second passed : List Char}

theorem refl (place : Cursor) : place.Moves [] place where
  before := rfl
  after := rfl
  offset := rfl
  stop := rfl
  last := by simp

/-- The move past the next character. -/
theorem past {c : Char} {after : List Char} (hafter : place.after = c :: after)
    (hinside : place.offset < place.stop) : place.Moves [c] (place.past c after) where
  before := rfl
  after := hafter
  offset := by simp [Cursor.past]
  stop := rfl
  last := by
    intro front d heq
    have hfront : front = [] := by
      cases front with
      | nil => rfl
      | cons e front => simp at heq
    simpa [hfront] using hinside

theorem trans (hfirst : start.Moves first place) (hsecond : place.Moves second goal) :
    start.Moves (first ++ second) goal where
  before := by
    rw [hsecond.before, hfirst.before, List.reverse_append, List.append_assoc]
  after := by rw [hfirst.after, hsecond.after, List.append_assoc]
  offset := by
    rw [hsecond.offset, hfirst.offset, byteWidth_append]
    omega
  stop := hsecond.stop.trans hfirst.stop
  last := by
    intro front c heq
    rcases List.eq_nil_or_concat second with rfl | ⟨later, d, rfl⟩
    · exact hfirst.last front c (by simpa using heq)
    · have hinside := hsecond.last later d (by simp)
      have hfront : front = first ++ later := by
        rw [List.concat_eq_append, ← List.append_assoc] at heq
        exact (List.append_inj_left' heq rfl).symm
      have hoffset := hfirst.offset
      rw [hfirst.stop] at hinside
      rw [hfront, byteWidth_append]
      omega

theorem inside (hmoves : start.Moves passed place) (hne : passed ≠ []) :
    start.offset < start.stop := by
  rcases List.eq_nil_or_concat passed with rfl | ⟨front, c, rfl⟩
  · contradiction
  · have hlast := hmoves.last front c (by simp)
    omega

theorem offset_le (hmoves : start.Moves passed place) : start.offset ≤ place.offset := by
  have hoffset := hmoves.offset
  omega

theorem offset_lt (hmoves : start.Moves passed place) (hne : passed ≠ []) :
    start.offset < place.offset := by
  have hoffset := hmoves.offset
  have hpos := byteWidth_pos hne
  omega

/-- Between two places stands what has been passed from one to the other. -/
theorem upTo_eq (hmoves : start.Moves passed place) : start.upTo place.offset = passed := by
  have hwidth : place.offset - start.offset = byteWidth passed := by
    have hoffset := hmoves.offset
    omega
  rw [Cursor.upTo, hwidth, hmoves.after, takeBytes_append]

theorem eq_of_nil (hmoves : start.Moves [] place) : place = start := by
  obtain ⟨before, after, offset, stop⟩ := place
  obtain ⟨hbefore, hafter, hoffset, hstop, -⟩ := hmoves
  simp only [List.reverse_nil, List.nil_append, byteWidth_nil, Nat.add_zero] at *
  subst hbefore hoffset hstop
  rw [← hafter]

/-- Of two places that are reached from one, the earlier one leads to the later one. -/
theorem between (hfirst : start.Moves first place) (hsecond : start.Moves second goal)
    (hle : place.offset ≤ goal.offset) :
    ∃ passed, second = first ++ passed ∧ place.Moves passed goal := by
  have hboth := hfirst.after.symm.trans hsecond.after
  have hwidth := hsecond.offset
  rw [hfirst.offset, hwidth] at hle
  obtain ⟨passed, heq, hafter⟩ : ∃ passed, second = first ++ passed ∧
      place.after = passed ++ goal.after := by
    rw [List.append_eq_append_iff] at hboth
    rcases hboth with ⟨passed, heq, hafter⟩ | ⟨extra, heq, hafter⟩
    · exact ⟨passed, heq, hafter⟩
    · cases extra with
      | nil => exact ⟨[], by simpa using heq.symm, by simpa using hafter.symm⟩
      | cons c extra =>
          have hc := c.utf8Size_pos
          rw [heq, byteWidth_append, byteWidth_cons] at hle
          omega
  refine ⟨passed, heq, ?_, hafter, ?_, hsecond.stop.trans hfirst.stop.symm, ?_⟩
  · rw [hsecond.before, hfirst.before, heq, List.reverse_append, List.append_assoc]
  · rw [hwidth, hfirst.offset, heq, byteWidth_append]
    omega
  · intro front c hlast
    have hinside := hsecond.last (first ++ front) c (by simp [heq, hlast])
    rw [byteWidth_append] at hinside
    rw [hfirst.offset, hfirst.stop]
    omega

/-- A move that does not pass a character ahead stays before it. -/
theorem offset_le_of_not_mem (hmoves : start.Moves passed place) {line rest : List Char} {c : Char}
    (hafter : start.after = line ++ c :: rest) (hnot : c ∉ passed) :
    place.offset ≤ start.offset + byteWidth line := by
  have hboth := hmoves.after
  rw [hmoves.offset]
  rw [hafter, List.append_eq_append_iff] at hboth
  rcases hboth with ⟨more, hpassed, hrest⟩ | ⟨more, hline, -⟩
  · cases more with
    | nil => simp [hpassed]
    | cons d more =>
        have hd : c = d := (List.cons.inj hrest).1
        exact absurd (by simp [hpassed, hd]) hnot
  · rw [hline, byteWidth_append]
    omega

end Moves

/-- The second place is reached from the first. -/
def LeadsTo (start place : Cursor) : Prop :=
  ∃ passed, start.Moves passed place

namespace LeadsTo

variable {start place goal : Cursor}

theorem refl (place : Cursor) : place.LeadsTo place :=
  ⟨[], Moves.refl place⟩

theorem trans (hfirst : start.LeadsTo place) (hsecond : place.LeadsTo goal) :
    start.LeadsTo goal := by
  obtain ⟨first, hfirst⟩ := hfirst
  obtain ⟨second, hsecond⟩ := hsecond
  exact ⟨first ++ second, hfirst.trans hsecond⟩

theorem offset_le (hleads : start.LeadsTo place) : start.offset ≤ place.offset := by
  obtain ⟨passed, hmoves⟩ := hleads
  exact hmoves.offset_le

theorem stop_eq (hleads : start.LeadsTo place) : place.stop = start.stop := by
  obtain ⟨passed, hmoves⟩ := hleads
  exact hmoves.stop

end LeadsTo

theorem moves_of_next? {place next : Cursor} {c : Char} (hnext : place.next? = some (c, next)) :
    place.Moves [c] next := by
  unfold next? at hnext
  split at hnext
  · contradiction
  · next d after hafter =>
      split at hnext
      · next hinside =>
          simp only [Option.some.injEq, Prod.mk.injEq] at hnext
          obtain ⟨rfl, rfl⟩ := hnext
          exact Moves.past hafter hinside
      · contradiction

theorem moves_of_skipWord? {word : List Char} {place reached : Cursor}
    (hskip : place.skipWord? word = some reached) : place.Moves word reached := by
  induction word generalizing place with
  | nil =>
      simp only [skipWord?, Option.some.injEq] at hskip
      exact hskip ▸ Moves.refl place
  | cons d word ih =>
      simp only [skipWord?] at hskip
      split at hskip
      · next c next hnext =>
          split at hskip
          · next hc =>
              have hfirst := moves_of_next? hnext
              rw [hc] at hfirst
              exact hfirst.trans (ih hskip)
          · contradiction
      · contradiction

theorem exists_moves_skipLoop (test : Char → Bool) (stop : Nat) (before : List Char)
    (offset : Nat) (after : List Char) :
    ∃ passed, Moves { before, after, offset, stop } passed
        (skipLoop test stop before offset after) ∧ ∀ c ∈ passed, test c = true := by
  induction after generalizing before offset with
  | nil => exact ⟨[], Moves.refl _, by simp⟩
  | cons c after ih =>
      unfold skipLoop
      split
      · next hpass =>
          simp only [Bool.and_eq_true, decide_eq_true_eq] at hpass
          obtain ⟨passed, hmoves, htest⟩ := ih (c :: before) (offset + c.utf8Size)
          have hstep : Moves { before, after := c :: after, offset, stop } [c]
              { before := c :: before, after, offset := offset + c.utf8Size, stop } :=
            Moves.past rfl hpass.1
          exact ⟨c :: passed, hstep.trans hmoves, List.forall_mem_cons.mpr ⟨hpass.2, htest⟩⟩
      · exact ⟨[], Moves.refl _, by simp⟩

theorem exists_moves_skipWhile (test : Char → Bool) (place : Cursor) :
    ∃ passed, place.Moves passed (place.skipWhile test) ∧ ∀ c ∈ passed, test c = true :=
  exists_moves_skipLoop test place.stop place.before place.offset place.after

/-- A run ends where a character of another kind follows, or where the window ends. -/
theorem head?_skipWhile (test : Char → Bool) (place : Cursor) :
    ∀ c ∈ (place.skipWhile test).head?, test c = false := by
  obtain ⟨before, after, offset, stop⟩ := place
  unfold skipWhile
  simp only
  induction after generalizing before offset with
  | nil =>
      intro c hc
      by_cases hinside : offset < stop <;> simp [skipLoop, head?, hinside] at hc
  | cons c after ih =>
      unfold skipLoop
      split
      · exact ih _ _
      · next hstop =>
          intro d hd
          simp only [head?] at hd
          split at hd
          · next hinside =>
              have hcd : c = d := by simpa using hd
              simpa [hinside, ← hcd] using hstop
          · contradiction

/-- The cursor stands in a text where its offset says, with the rest of the text
before it. -/
def StandsIn (place : Cursor) (text : List Char) : Prop :=
  ∃ front, text = front ++ place.after ∧ place.offset = byteWidth front

theorem standsIn_ofText (text : List Char) : (ofText text).StandsIn text :=
  ⟨[], rfl, rfl⟩

theorem StandsIn.of_leadsTo {start place : Cursor} {text : List Char}
    (hstands : start.StandsIn text) (hleads : start.LeadsTo place) :
    place.StandsIn text := by
  obtain ⟨front, htext, hoffset⟩ := hstands
  obtain ⟨passed, hmoves⟩ := hleads
  refine ⟨front ++ passed, ?_, ?_⟩
  · rw [htext, hmoves.after, List.append_assoc]
  · rw [hmoves.offset, hoffset, byteWidth_append]

end Cursor

end SourceAtlas.Text
