import SourceAtlas.Proofs.ByteOffsets
import SourceAtlas.Text.Block
import Mathlib.Tactic.Linarith

/-!
# Brace heights

The height at an offset of a text is the number of opening minus closing braces
that begin before it.  Balances between offsets are differences of heights, and
the walk to a closing brace follows the height until it falls back to where it
was before the opening one.  Blocks are therefore stretches of text that stay
above the height at their opener.
-/

namespace SourceAtlas.Text

/-- What a character adds to the height. -/
def braceStep (c : Char) : Int :=
  if c = '{' then 1 else if c = '}' then -1 else 0

/-- Opening minus closing braces. -/
def braceSum (text : List Char) : Int :=
  (text.map braceStep).sum

/-- Opening minus closing braces among the characters that begin before an
offset. -/
def height (text : List Char) (offset : Nat) : Int :=
  braceSum (takeBytes offset text)

@[simp] theorem braceSum_nil : braceSum [] = 0 := rfl

@[simp] theorem braceSum_cons (c : Char) (text : List Char) :
    braceSum (c :: text) = braceStep c + braceSum text := by
  simp [braceSum]

theorem braceSum_eq_zero {text : List Char} (hopen : '{' ∉ text) (hclose : '}' ∉ text) :
    braceSum text = 0 := by
  induction text with
  | nil => rfl
  | cons c text ih =>
      rw [List.mem_cons, not_or] at hopen hclose
      rw [braceSum_cons, ih hopen.2 hclose.2, braceStep, if_neg (Ne.symm hopen.1),
        if_neg (Ne.symm hclose.1)]
      rfl

/-- Without opening braces the height falls with each closing one. -/
theorem braceSum_eq_neg_count {text : List Char} (hopen : '{' ∉ text) :
    braceSum text = -(text.count '}' : Int) := by
  induction text with
  | nil => rfl
  | cons c text ih =>
      rw [List.mem_cons, not_or] at hopen
      rw [braceSum_cons, ih hopen.2, braceStep, if_neg (Ne.symm hopen.1), List.count_cons]
      by_cases hc : c = '}'
      · rw [if_pos hc, if_pos (by simpa using hc)]
        omega
      · rw [if_neg hc, if_neg (by simpa using hc)]
        omega

@[simp] theorem height_nil (offset : Nat) : height [] offset = 0 := by
  simp [height]

@[simp] theorem height_zero (text : List Char) : height text 0 = 0 := by
  simp [height]

theorem height_cons {offset : Nat} (hoffset : 0 < offset) (c : Char) (text : List Char) :
    height (c :: text) offset = braceStep c + height text (offset - c.utf8Size) := by
  rw [height, takeBytes_cons hoffset, braceSum_cons, height]

/-- Behind a front part the height goes on from that of the part. -/
theorem height_append (front rest : List Char) (offset : Nat) :
    height (front ++ rest) (byteWidth front + offset) = braceSum front + height rest offset := by
  induction front with
  | nil => simp
  | cons c front ih =>
      have hc := c.utf8Size_pos
      have hoffset : byteWidth (c :: front) + offset - c.utf8Size = byteWidth front + offset := by
        rw [byteWidth_cons]
        omega
      rw [List.cons_append, height_cons (by rw [byteWidth_cons]; omega), hoffset, ih,
        braceSum_cons]
      omega

theorem height_byteWidth (front rest : List Char) :
    height (front ++ rest) (byteWidth front) = braceSum front := by
  have happend := height_append front rest 0
  simpa using happend

/-- Up to its end a front part has its own heights. -/
theorem height_append_of_le (front rest : List Char) {offset : Nat}
    (hoffset : offset ≤ byteWidth front) : height (front ++ rest) offset = height front offset := by
  induction front generalizing offset with
  | nil =>
      obtain rfl : offset = 0 := by simpa using hoffset
      simp
  | cons c front ih =>
      rcases Nat.eq_zero_or_pos offset with rfl | hpos
      · simp
      · rw [byteWidth_cons] at hoffset
        rw [List.cons_append, height_cons hpos, height_cons hpos, ih (by omega)]

/-- Behind its end a text stays at one height. -/
theorem height_of_byteWidth_le {text : List Char} {offset : Nat}
    (hoffset : byteWidth text ≤ offset) : height text offset = height text (byteWidth text) := by
  rw [height, height, takeBytes_of_le hoffset, takeBytes_of_le (Nat.le_refl _)]

/-- Along a part without braces the height stays. -/
theorem height_eq_zero_of_braceless {part : List Char} (hopen : '{' ∉ part) (hclose : '}' ∉ part)
    (rest : List Char) {offset : Nat} (hoffset : offset ≤ byteWidth part) :
    height (part ++ rest) offset = 0 := by
  have htaken := takeBytes_prefix part rest hoffset
  exact braceSum_eq_zero (fun hmem => hopen (htaken.subset hmem))
    fun hmem => hclose (htaken.subset hmem)

/-- Along a part without opening braces the height does not rise. -/
theorem height_le_zero_of_openless {part : List Char} (hopen : '{' ∉ part) (rest : List Char)
    {offset : Nat} (hoffset : offset ≤ byteWidth part) : height (part ++ rest) offset ≤ 0 := by
  have htaken := takeBytes_prefix part rest hoffset
  rw [height, braceSum_eq_neg_count fun hmem => hopen (htaken.subset hmem)]
  omega

theorem balanceFrom_eq (balance : Int) (stop offset : Nat) (text : List Char) :
    balanceFrom balance stop offset text = balance + height text (stop - offset) := by
  induction text generalizing balance offset with
  | nil => simp [balanceFrom]
  | cons c text ih =>
      unfold balanceFrom
      split
      · next hstop =>
          have hzero : stop - offset = 0 := by omega
          simp [hzero]
      · next hstop =>
          have hrest : stop - offset - c.utf8Size = stop - (offset + c.utf8Size) := by omega
          rw [height_cons (by omega), hrest, ih, braceStep]
          split
          · omega
          · split <;> omega

/-- Moving to a place splits the height at every later offset. -/
theorem height_seek {start stop : Nat} (hle : start ≤ stop) (offset : Nat) (text : List Char) :
    height text (stop - offset) =
      height text (start - offset) +
        height (seek start offset text).2 (stop - (seek start offset text).1) := by
  induction text generalizing offset with
  | nil => simp [seek]
  | cons c text ih =>
      unfold seek
      split
      · next hstart =>
          have hzero : start - offset = 0 := by omega
          simp [hzero]
      · next hstart =>
          have hstop : stop - offset - c.utf8Size = stop - (offset + c.utf8Size) := by omega
          have hfrom : start - offset - c.utf8Size = start - (offset + c.utf8Size) := by omega
          rw [height_cons (by omega), height_cons (by omega), hstop, hfrom,
            ih (offset + c.utf8Size)]
          omega

/-- The balance between two offsets is the difference of the heights there. -/
theorem balance_eq_sub (text : List Char) {start stop : Nat} (hle : start ≤ stop) :
    balance text start stop = height text stop - height text start := by
  have hseek := height_seek hle 0 text
  simp only [Nat.sub_zero] at hseek
  simp only [balance, balanceFrom_eq]
  omega

/-- The walk to a closing delimiter stops before one, or at the end of the text. -/
theorem exists_inside_closerLoop (opener closer : Char) (depth offset : Nat) (text : List Char) :
    ∃ inside rest, text = inside ++ rest ∧
      (closerLoop opener closer depth offset text).1 = offset + byteWidth inside ∧
      (∀ c ∈ rest.head?, c = closer) ∧
      (closerLoop opener closer depth offset text).2 = !rest.isEmpty := by
  induction text generalizing depth offset with
  | nil => exact ⟨[], [], rfl, rfl, by simp, rfl⟩
  | cons c text ih =>
      have hgo : ∀ next, ∃ inside rest, c :: text = inside ++ rest ∧
          (closerLoop opener closer next (offset + c.utf8Size) text).1 =
            offset + byteWidth inside ∧ (∀ d ∈ rest.head?, d = closer) ∧
          (closerLoop opener closer next (offset + c.utf8Size) text).2 = !rest.isEmpty := by
        intro next
        obtain ⟨inside, rest, htext, hoffset, hrest⟩ := ih next (offset + c.utf8Size)
        refine ⟨c :: inside, rest, by rw [htext]; rfl, ?_, hrest⟩
        rw [hoffset, byteWidth_cons]
        omega
      unfold closerLoop
      split
      · exact hgo _
      · split
        · next hc =>
            split
            · exact ⟨[], c :: text, rfl, rfl, by simp [hc], rfl⟩
            · exact hgo _
        · exact hgo _

/-- From a number of open braces on, a text stays within them over a width, and either
a closing brace there ends the last of them or the text ends. -/
structure Closes (depth : Nat) (text : List Char) (width : Nat) (terminated : Bool) : Prop where
  le : width ≤ byteWidth text
  within : ∀ inner ≤ width, 1 ≤ depth + height text inner
  closed : terminated = true →
    width + 1 ≤ byteWidth text ∧ depth + height text width = 1 ∧
      depth + height text (width + 1) = 0
  unclosed : terminated = false → width = byteWidth text

theorem Closes.nil {depth : Nat} (hdepth : 1 ≤ depth) : Closes depth [] 0 false where
  le := Nat.zero_le _
  within inner _ := by
    rw [height_nil]
    omega
  closed := by simp
  unclosed _ := rfl

theorem Closes.cons {depth next width : Nat} {text : List Char} {terminated : Bool} {c : Char}
    (hdepth : 1 ≤ depth) (hnext : (next : Int) = depth + braceStep c)
    (hcloses : Closes next text width terminated) :
    Closes depth (c :: text) (c.utf8Size + width) terminated where
  le := by
    have hle := hcloses.le
    rw [byteWidth_cons]
    omega
  within := by
    intro inner hinner
    rcases Nat.eq_zero_or_pos inner with rfl | hpos
    · rw [height_zero]
      omega
    · have hwithin := hcloses.within (inner - c.utf8Size) (by omega)
      rw [height_cons hpos]
      omega
  closed := by
    intro hterminated
    obtain ⟨hle, hlast, hpast⟩ := hcloses.closed hterminated
    have hc := c.utf8Size_pos
    have hwidth : c.utf8Size + width - c.utf8Size = width := by omega
    have hwidth' : c.utf8Size + width + 1 - c.utf8Size = width + 1 := by omega
    rw [byteWidth_cons, height_cons (by omega), height_cons (by omega), hwidth, hwidth']
    omega
  unclosed := by
    intro hterminated
    rw [byteWidth_cons, hcloses.unclosed hterminated]

/-- The walk to the closing brace stops where the text closes. -/
theorem exists_closes_closerLoop {depth : Nat} (hdepth : 1 ≤ depth) (offset : Nat)
    (text : List Char) :
    ∃ width, (closerLoop '{' '}' depth offset text).1 = offset + width ∧
      Closes depth text width (closerLoop '{' '}' depth offset text).2 := by
  have hclose : ('}' : Char).utf8Size = 1 := by decide
  induction text generalizing depth offset with
  | nil => exact ⟨0, rfl, Closes.nil hdepth⟩
  | cons c text ih =>
      have hgo : ∀ next : Nat, 1 ≤ next → (next : Int) = depth + braceStep c →
          ∃ width, (closerLoop '{' '}' next (offset + c.utf8Size) text).1 = offset + width ∧
            Closes depth (c :: text) width
              (closerLoop '{' '}' next (offset + c.utf8Size) text).2 := by
        intro next hle hnext
        obtain ⟨width, hoffset, hcloses⟩ := ih hle (offset + c.utf8Size)
        exact ⟨c.utf8Size + width, by omega, hcloses.cons hdepth hnext⟩
      unfold closerLoop
      split
      · next hc => exact hgo (depth + 1) (by omega) (by rw [braceStep, if_pos hc]; omega)
      · next hopen =>
          split
          · next hc =>
              have hstep : braceStep c = -1 := by rw [braceStep, if_neg hopen, if_pos hc]
              split
              · next hlast =>
                  subst hc
                  refine ⟨0, rfl, Nat.zero_le _, ?_, ?_, by simp⟩
                  · intro inner hinner
                    rw [Nat.le_zero.mp hinner, height_zero]
                    omega
                  · intro _
                    rw [byteWidth_cons, height_zero, height_cons (by omega), hstep, hclose,
                      Nat.sub_self, height_zero]
                    omega
              · exact hgo (depth - 1) (by omega) (by omega)
          · next hc =>
              have hstep : braceStep c = 0 := by rw [braceStep, if_neg hopen, if_neg hc]
              exact hgo depth hdepth (by omega)

/-- A block stands in a text: from its opener on the text stays above the height
there, up to the brace that ends the block or to the end of the text. -/
structure Block.StandsIn (block : Block) (text : List Char) : Prop where
  opener_lt : block.opener < block.closer
  closer_le : block.closer ≤ byteWidth text
  inside : ∀ offset, block.opener < offset → offset ≤ block.closer →
    height text block.opener + 1 ≤ height text offset
  start : height text (block.opener + 1) = height text block.opener + 1
  closed : block.terminated = true →
    block.closer + 1 ≤ byteWidth text ∧
      height text block.closer = height text block.opener + 1 ∧
      height text (block.closer + 1) = height text block.opener
  unclosed : block.terminated = false → block.closer = byteWidth text

/-- An opening brace opens a block that stands where the brace does. -/
theorem exists_standsIn_blockFrom? (front inside : List Char) :
    ∃ block, blockFrom? (byteWidth front) ('{' :: inside) = some block ∧
      block.opener = byteWidth front ∧ block.StandsIn (front ++ '{' :: inside) := by
  have hopen : ('{' : Char).utf8Size = 1 := by decide
  obtain ⟨width, hcloser, hcloses⟩ :=
    exists_closes_closerLoop (Nat.le_refl 1) (byteWidth front + 1) inside
  refine ⟨_, rfl, rfl, ?_⟩
  have hheight : ∀ inner,
      height (front ++ '{' :: inside) (byteWidth front + 1 + inner) =
        height (front ++ '{' :: inside) (byteWidth front) + 1 + height inside inner := by
    intro inner
    have happend := height_append front ('{' :: inside) (1 + inner)
    rw [height_cons (by omega), hopen, Nat.add_sub_cancel_left] at happend
    rw [Nat.add_assoc, happend, height_byteWidth, braceStep, if_pos rfl]
    omega
  have hwidth : byteWidth (front ++ '{' :: inside) = byteWidth front + 1 + byteWidth inside := by
    rw [byteWidth_append, byteWidth_cons, hopen]
    omega
  have hle := hcloses.le
  constructor
  · simp only [hcloser]
    omega
  · simp only [hcloser, hwidth]
    omega
  · intro offset hfrom hto
    simp only [hcloser] at hfrom hto
    obtain ⟨inner, rfl⟩ := Nat.exists_eq_add_of_le (Nat.succ_le_of_lt hfrom)
    have hwithin := hcloses.within inner (by omega)
    simp only [hheight]
    omega
  · have hzero := hheight 0
    simpa using hzero
  · intro hterminated
    obtain ⟨hend, hlast, hpast⟩ := hcloses.closed hterminated
    simp only [hcloser, hwidth, hheight, Nat.add_assoc _ width 1]
    omega
  · intro hterminated
    simp only [hcloser, hwidth, hcloses.unclosed hterminated]

end SourceAtlas.Text
