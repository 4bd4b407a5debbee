import SourceAtlas.Text.Basic

/-!
# Byte offsets

Offsets count the bytes of what stands before a place, so the width of a text is
the sum of the widths of its parts, and cutting a text where one part ends gives
back that part.
-/

namespace SourceAtlas.Text

@[simp] theorem byteWidth_nil : byteWidth [] = 0 := rfl

theorem foldl_utf8Size (text : List Char) (start : Nat) :
    text.foldl (fun width c => width + c.utf8Size) start = start + byteWidth text := by
  unfold byteWidth
  induction text generalizing start with
  | nil => rfl
  | cons c text ih =>
      simp only [List.foldl_cons]
      rw [ih (start + c.utf8Size), ih (0 + c.utf8Size)]
      omega

@[simp] theorem byteWidth_cons (c : Char) (text : List Char) :
    byteWidth (c :: text) = c.utf8Size + byteWidth text := by
  have hfold := foldl_utf8Size text (0 + c.utf8Size)
  simpa [byteWidth] using hfold

@[simp] theorem byteWidth_append (first second : List Char) :
    byteWidth (first ++ second) = byteWidth first + byteWidth second := by
  induction first with
  | nil => simp
  | cons c first ih => simp [ih, Nat.add_assoc]

theorem byteWidth_pos {text : List Char} (htext : text ≠ []) : 0 < byteWidth text := by
  cases text with
  | nil => exact (htext rfl).elim
  | cons c text =>
      have hc := c.utf8Size_pos
      simp only [byteWidth_cons]
      omega

/-- A run of spaces takes as many bytes as it has characters. -/
theorem byteWidth_replicate_space (count : Nat) :
    byteWidth (List.replicate count ' ') = count := by
  have hspace : (' ' : Char).utf8Size = 1 := by decide
  induction count with
  | zero => rfl
  | succ count ih =>
      rw [List.replicate_succ, byteWidth_cons, ih, hspace]
      omega

theorem utf8ByteSize_ofList (text : List Char) :
    (String.ofList text).utf8ByteSize = byteWidth text := by
  induction text with
  | nil => rfl
  | cons c text ih =>
      rw [← List.singleton_append, String.ofList_append, String.utf8ByteSize_append, ih]
      simp

theorem utf8ByteSize_eq (text : String) : text.utf8ByteSize = byteWidth text.toList := by
  rw [← utf8ByteSize_ofList, String.ofList_toList]

theorem takeBytesLoop_eq (taken : List Char) (count : Nat) (text : List Char) :
    takeBytesLoop taken count text = taken.reverse ++ takeBytes count text := by
  unfold takeBytes
  induction text generalizing taken count with
  | nil => cases count <;> simp [takeBytesLoop]
  | cons c text ih =>
      cases count with
      | zero => simp [takeBytesLoop]
      | succ count =>
          simp only [takeBytesLoop]
          rw [ih (c :: taken), ih [c]]
          simp

@[simp] theorem takeBytes_nil (count : Nat) : takeBytes count [] = [] := by
  cases count <;> rfl

@[simp] theorem takeBytes_zero (text : List Char) : takeBytes 0 text = [] := by
  cases text <;> rfl

theorem takeBytes_cons {count : Nat} (hcount : 0 < count) (c : Char) (text : List Char) :
    takeBytes count (c :: text) = c :: takeBytes (count - c.utf8Size) text := by
  obtain ⟨count, rfl⟩ : ∃ previous, count = previous + 1 := ⟨count - 1, by omega⟩
  have hloop := takeBytesLoop_eq [c] (count + 1 - c.utf8Size) text
  simpa [takeBytes, takeBytesLoop] using hloop

/-- The first bytes of a text are its front part, if that has their number. -/
theorem takeBytes_append (first second : List Char) :
    takeBytes (byteWidth first) (first ++ second) = first := by
  induction first with
  | nil => simp
  | cons c first ih =>
      have hc := c.utf8Size_pos
      rw [List.cons_append, takeBytes_cons (by simp only [byteWidth_cons]; omega)]
      have hrest : byteWidth (c :: first) - c.utf8Size = byteWidth first := by simp
      rw [hrest, ih]

/-- From its width on a text is taken whole. -/
theorem takeBytes_of_le {text : List Char} {count : Nat} (hcount : byteWidth text ≤ count) :
    takeBytes count text = text := by
  induction text generalizing count with
  | nil => simp
  | cons c text ih =>
      have hc := c.utf8Size_pos
      rw [byteWidth_cons] at hcount
      rw [takeBytes_cons (by omega), ih (by omega)]

/-- Up to its width a part gives all the bytes that are taken. -/
theorem takeBytes_prefix (part rest : List Char) {count : Nat} (hcount : count ≤ byteWidth part) :
    takeBytes count (part ++ rest) <+: part := by
  induction part generalizing count with
  | nil =>
      have hzero : count = 0 := by simpa using hcount
      simp [hzero]
  | cons c part ih =>
      rcases Nat.eq_zero_or_pos count with rfl | hpos
      · simp
      · rw [List.cons_append, takeBytes_cons hpos, List.prefix_cons_inj]
        rw [byteWidth_cons] at hcount
        exact ih (by omega)

end SourceAtlas.Text
