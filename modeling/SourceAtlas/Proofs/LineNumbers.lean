import SourceAtlas.Proofs.Masking

/-!
# Line numbers

A line table numbers offsets by the line breaks before them.  The numbers never fall along a
text, and whatever stands in the text stands on one of the lines that are counted, since a
last line counts as soon as it holds anything.
-/

namespace SourceAtlas

/-- Line numbers that never fall and belong to a file with so many lines. -/
structure LinesWithin (total : Nat) (numbers : List Nat) : Prop where
  ordered : numbers.Pairwise (· ≤ ·)
  inFile : ∀ number ∈ numbers, 1 ≤ number ∧ number ≤ total

namespace LinesWithin

variable {total : Nat} {numbers : List Nat}

theorem nil (total : Nat) : LinesWithin total [] where
  ordered := List.Pairwise.nil
  inFile := by simp

theorem mono {more : Nat} (hlines : LinesWithin total numbers) (hle : total ≤ more) :
    LinesWithin more numbers where
  ordered := hlines.ordered
  inFile number hnumber :=
    ⟨(hlines.inFile number hnumber).1, (hlines.inFile number hnumber).2.trans hle⟩

end LinesWithin

namespace Text

theorem one_le_lineCount_cons (c : Char) (text : List Char) : 1 ≤ lineCount (c :: text) := by
  unfold lineCount
  split <;> omega

theorem lineCount_le_append (text rest : List Char) :
    lineCount text ≤ lineCount (text ++ rest) := by
  induction text with
  | nil => exact Nat.zero_le _
  | cons c text ih =>
      rw [List.cons_append, lineCount, lineCount]
      split <;> omega

/-- A character stands on a line that counts. -/
theorem count_break_lt_lineCount (front : List Char) (c : Char) (rest : List Char) :
    front.count '\n' < lineCount (front ++ c :: rest) := by
  induction front with
  | nil => exact one_le_lineCount_cons c rest
  | cons d front ih =>
      rw [List.cons_append, lineCount, List.count_cons]
      by_cases hd : d = '\n'
      · rw [if_pos hd, if_pos (beq_iff_eq.mpr hd)]
        omega
      · rw [if_neg hd, if_neg (by simpa using hd)]
        omega

/-- Fewer further lines start up to an offset in a text than it has lines. -/
theorem countP_laterLineStarts_lt {first offset : Nat} {text : List Char} (hfrom : first ≤ offset)
    (hto : offset < first + byteWidth text) :
    (laterLineStarts first text).countP (· ≤ offset) < lineCount text := by
  induction text generalizing first with
  | nil =>
      rw [byteWidth_nil] at hto
      omega
  | cons c text ih =>
      have hpositive := one_le_lineCount_cons c text
      rw [byteWidth_cons] at hto
      by_cases hhere : offset < first + c.utf8Size
      · -- The offset lies in this character, and all further lines start behind it.
        have hnone : (laterLineStarts first (c :: text)).countP (· ≤ offset) = 0 := by
          rw [laterLineStarts]
          split
          · next hbreak =>
              have hwidth : c.utf8Size = 1 := by rw [hbreak]; decide
              rw [hwidth] at hhere
              rw [List.countP_cons_of_neg (by rw [decide_eq_true_eq]; omega)]
              exact countP_laterLineStarts_eq_zero text (by omega)
          · exact countP_laterLineStarts_eq_zero text (by omega)
        omega
      · have hrest : (laterLineStarts (first + c.utf8Size) text).countP (· ≤ offset) <
            lineCount text :=
          ih (by omega) (by omega)
        rw [laterLineStarts, lineCount]
        split
        · next hbreak =>
            have hwidth : c.utf8Size = 1 := by rw [hbreak]; decide
            rw [hwidth] at hrest hhere
            rw [List.countP_cons_of_pos (by rw [decide_eq_true_eq]; omega)]
            omega
        · omega

namespace LineTable

theorem number_ofText (text : List Char) (offset : Nat) :
    (ofText text).number offset = (laterLineStarts 0 text).countP (· ≤ offset) + 1 := by
  rw [number, indexOf_eq_countP, starts_ofText, List.countP_cons_of_pos (by simp)]
  rfl

theorem number_mono (text : List Char) {earlier later : Nat} (hle : earlier ≤ later) :
    (ofText text).number earlier ≤ (ofText text).number later := by
  rw [number_ofText, number_ofText]
  apply Nat.add_le_add_right
  apply List.countP_mono_left
  intro start _ hstart
  rw [decide_eq_true_eq] at hstart ⊢
  omega

/-- Offsets in a text that never fall have line numbers that never fall, all of them of lines
of the text. -/
theorem linesWithin_map_number {text : List Char} {offsets : List Nat}
    (hordered : offsets.Pairwise (· ≤ ·)) (hinside : ∀ offset ∈ offsets, offset < byteWidth text) :
    LinesWithin (lineCount text) (offsets.map (ofText text).number) where
  ordered := List.pairwise_map.mpr (hordered.imp fun hle => number_mono text hle)
  inFile := by
    intro number hnumber
    obtain ⟨offset, hoffset, rfl⟩ := List.mem_map.mp hnumber
    have hto : offset < 0 + byteWidth text := by
      have hlt := hinside offset hoffset
      omega
    have hcount := countP_laterLineStarts_lt (Nat.zero_le offset) hto
    rw [number_ofText]
    omega

end LineTable

end Text

end SourceAtlas
