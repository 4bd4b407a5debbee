import SourceAtlas.Proofs.BraceHeights
import SourceAtlas.Proofs.Delimiters
import SourceAtlas.Proofs.MaskedBytes
import SourceAtlas.Proofs.TextCuts

/-!
# Matching braces

Blocks, closing delimiters and balances are found by walks over characters.  A byte of a
longer character is never an ASCII delimiter, so these walks find what the search over
the bytes of the text finds, from every offset, also from one inside a character or past
the end.  A block therefore ends at the first offset at which its braces balance, and
nowhere before.
-/

namespace SourceAtlas.Text

variable {text : List Char}

/-- An ASCII byte stands at an offset exactly if its character begins there. -/
theorem getElem?_encode_eq_some_iff {d : Char} (hd : IsAscii d) {offset : Nat} :
    (encode text)[offset]? = some d.toUInt8 ↔
      ∃ front rest, text = front ++ d :: rest ∧ byteWidth front = offset := by
  constructor
  · intro hbyte
    induction text generalizing offset with
    | nil => simp at hbyte
    | cons c text ih =>
        rw [encode_cons] at hbyte
        by_cases hinside : offset < (String.utf8EncodeChar c).length
        · rw [List.getElem?_append_left hinside] at hbyte
          have hmem := List.mem_of_getElem? hbyte
          have hc : IsAscii c := by
            by_contra hc
            exact hd.ne_of_le (le_of_mem_utf8EncodeChar hc _ hmem) rfl
          rw [hc.encode, List.mem_singleton, hd.toUInt8_eq_iff hc] at hmem
          rw [hc.encode, List.length_singleton] at hinside
          exact ⟨[], text, by rw [hmem]; rfl, by rw [byteWidth_nil]; omega⟩
        · rw [List.getElem?_append_right (by omega), String.length_utf8EncodeChar] at hbyte
          rw [String.length_utf8EncodeChar] at hinside
          obtain ⟨front, rest, rfl, hoffset⟩ := ih hbyte
          exact ⟨c :: front, rest, rfl, by rw [byteWidth_cons]; omega⟩
  · rintro ⟨front, rest, rfl, rfl⟩
    rw [encode_append, encode_cons_of_isAscii hd, ← length_encode,
      List.getElem?_append_right (Nat.le_refl _), Nat.sub_self]
    rfl

theorem mem_of_getElem?_encode {d : Char} (hd : IsAscii d) {offset : Nat}
    (hbyte : (encode text)[offset]? = some d.toUInt8) : d ∈ text := by
  obtain ⟨front, rest, rfl, -⟩ := (getElem?_encode_eq_some_iff hd).mp hbyte
  simp

theorem drop_encode (front rest : List Char) :
    (encode (front ++ rest)).drop (byteWidth front) = encode rest := by
  rw [encode_append, ← length_encode, List.drop_left]

/-- The bytes of a longer character are passed by every walk. -/
theorem Search.loop_append_of_le {opener closer : Char} (hopener : IsAscii opener)
    (hcloser : IsAscii closer) {bytes : List UInt8} (hbytes : ∀ b ∈ bytes, 128 ≤ b.toNat)
    (depth offset : Nat) (rest : List UInt8) :
    loop opener.toUInt8 closer.toUInt8 depth offset (bytes ++ rest) =
      loop opener.toUInt8 closer.toUInt8 depth (offset + bytes.length) rest := by
  induction bytes generalizing offset with
  | nil => rfl
  | cons b bytes ih =>
      obtain ⟨hb, hbytes⟩ := List.forall_mem_cons.mp hbytes
      rw [List.cons_append, loop, if_neg (hopener.ne_of_le hb), if_neg (hcloser.ne_of_le hb),
        ih hbytes, List.length_cons]
      congr 1
      omega

/-- The end of a walk over characters, if the text ends at `stop`. -/
def Search.closing (stop : Nat) : Search → Nat × Bool
  | found offset => (offset, true)
  | _ => (stop, false)

/-- The walk over characters ends where the one over their bytes does. -/
theorem closerLoop_eq {opener closer : Char} (hopener : IsAscii opener)
    (hcloser : IsAscii closer) {depth : Nat} (hdepth : 1 ≤ depth) (offset : Nat)
    (text : List Char) :
    closerLoop opener closer depth offset text =
      (Search.loop opener.toUInt8 closer.toUInt8 depth offset (encode text)).closing
        (offset + byteWidth text) := by
  induction text generalizing depth offset with
  | nil => rfl
  | cons c text ih =>
      have hstop : offset + byteWidth (c :: text) = offset + c.utf8Size + byteWidth text := by
        rw [byteWidth_cons]
        omega
      rw [closerLoop, hstop]
      by_cases hc : IsAscii c
      · have hsize : c.utf8Size = 1 := by
          rw [← String.length_utf8EncodeChar, hc.encode]
          rfl
        rw [encode_cons_of_isAscii hc, Search.loop, hsize]
        simp only [hc.toUInt8_eq_iff hopener, hc.toUInt8_eq_iff hcloser]
        by_cases hopens : c = opener
        · rw [if_pos hopens, if_pos hopens]
          exact ih (by omega) (offset + 1)
        · rw [if_neg hopens, if_neg hopens]
          by_cases hcloses : c = closer
          · have hzero : ¬depth = 0 := by omega
            rw [if_pos hcloses, if_pos hcloses, if_neg hzero]
            by_cases hlast : depth = 1
            · rw [if_pos hlast, if_pos (Nat.le_of_eq hlast)]
              rfl
            · have hmore : ¬depth ≤ 1 := by omega
              rw [if_neg hlast, if_neg hmore]
              exact ih (by omega) (offset + 1)
          · rw [if_neg hcloses, if_neg hcloses]
            exact ih hdepth (offset + 1)
      · have hopens : c ≠ opener := by
          rintro rfl
          exact hc hopener
        have hcloses : c ≠ closer := by
          rintro rfl
          exact hc hcloser
        rw [if_neg hopens, if_neg hcloses, ih hdepth, encode_cons,
          Search.loop_append_of_le hopener hcloser (le_of_mem_utf8EncodeChar hc),
          String.length_utf8EncodeChar]

theorem suffixAt?_byteWidth (front rest : List Char) :
    suffixAt? (byteWidth front) (front ++ rest) = some rest := by
  induction front with
  | nil => cases rest <;> simp [suffixAt?]
  | cons c front ih =>
      have hc := c.utf8Size_pos
      have hwidth : byteWidth (c :: front) - c.utf8Size = byteWidth front := by simp
      rw [List.cons_append, suffixAt?, if_neg (by rw [byteWidth_cons]; omega),
        if_neg (by rw [byteWidth_cons]; omega), hwidth, ih]

theorem eq_append_of_suffixAt? {offset : Nat} {rest : List Char}
    (hrest : suffixAt? offset text = some rest) :
    ∃ front, text = front ++ rest ∧ byteWidth front = offset := by
  induction text generalizing offset with
  | nil =>
      rw [suffixAt?] at hrest
      split at hrest
      · next hzero => exact ⟨[], by rw [← Option.some.inj hrest]; rfl, hzero.symm⟩
      · contradiction
  | cons c text ih =>
      rw [suffixAt?] at hrest
      split at hrest
      · next hzero => exact ⟨[], by rw [← Option.some.inj hrest]; rfl, hzero.symm⟩
      · split at hrest
        · contradiction
        · obtain ⟨front, rfl, hwidth⟩ := ih hrest
          exact ⟨c :: front, rfl, by rw [byteWidth_cons]; omega⟩

/-- The delimiter that closes the one at an offset is the one that the search over bytes
finds. -/
theorem closer?_eq {opener closer : Char} (hopener : IsAscii opener) (hcloser : IsAscii closer)
    (text : List Char) (start : Nat) :
    closer? text start opener closer =
      (Search.inBytes (encode text) start opener.toUInt8 closer.toUInt8).offset? := by
  by_cases hstart : (encode text)[start]? = some opener.toUInt8
  · have hbytes : Search.inBytes (encode text) start opener.toUInt8 closer.toUInt8 =
        Search.loop opener.toUInt8 closer.toUInt8 1 (start + 1) ((encode text).drop (start + 1)) :=
      Search.inBytes_eq hstart
    obtain ⟨front, rest, rfl, rfl⟩ := (getElem?_encode_eq_some_iff hopener).mp hstart
    have hsize : opener.utf8Size = 1 := by
      rw [← String.length_utf8EncodeChar, hopener.encode]
      rfl
    have hwidth : byteWidth (front ++ [opener]) = byteWidth front + 1 := by simp [hsize]
    rw [hbytes, ← hwidth, List.append_cons, drop_encode, hwidth, ← List.append_cons, closer?,
      suffixAt?_byteWidth, Option.bind_some, closerFrom?, if_pos rfl, hsize,
      closerLoop_eq hopener hcloser (Nat.le_refl 1)]
    cases Search.loop opener.toUInt8 closer.toUInt8 1 (byteWidth front + 1) (encode rest) <;> rfl
  · rw [Search.inBytes_eq_absent hstart, closer?]
    cases hrest : suffixAt? start text with
    | none => rfl
    | some rest =>
        obtain ⟨front, rfl, rfl⟩ := eq_append_of_suffixAt? hrest
        cases rest with
        | nil => rfl
        | cons c rest =>
            have hne : c ≠ opener := by
              rintro rfl
              exact hstart ((getElem?_encode_eq_some_iff hopener).mpr ⟨front, rest, rfl, rfl⟩)
            rw [Option.bind_some, closerFrom?, if_neg hne]
            rfl

/-! ## Balances -/

theorem tally_encode_singleton (c : Char) :
    tally '{'.toUInt8 '}'.toUInt8 (String.utf8EncodeChar c) = braceStep c := by
  have hne : '{'.toUInt8 ≠ '}'.toUInt8 := by decide
  by_cases hc : IsAscii c
  · rw [hc.encode, braceStep]
    by_cases hopen : c = '{'
    · rw [if_pos hopen, hopen, tally_opener hne]
    · rw [if_neg hopen]
      by_cases hclose : c = '}'
      · rw [if_pos hclose, hclose, tally_closer hne]
      · have hbyte := hc.toUInt8_eq_iff (d := '{') (by decide)
        have hbyte' := hc.toUInt8_eq_iff (d := '}') (by decide)
        rw [if_neg hclose, tally_eq_zero (by simp [hbyte, hbyte', hopen, hclose])]
  · have hopen : c ≠ '{' := by
      rintro rfl
      exact hc (by decide)
    have hclose : c ≠ '}' := by
      rintro rfl
      exact hc (by decide)
    rw [braceStep, if_neg hopen, if_neg hclose]
    apply tally_eq_zero
    intro b hb
    have hle := le_of_mem_utf8EncodeChar hc b hb
    exact ⟨IsAscii.ne_of_le (by decide) hle, IsAscii.ne_of_le (by decide) hle⟩

/-- A character counts as soon as one of its bytes is taken, and only ASCII ones count. -/
theorem height_eq_tally (text : List Char) (offset : Nat) :
    height text offset = tally '{'.toUInt8 '}'.toUInt8 ((encode text).take offset) := by
  induction text generalizing offset with
  | nil => simp
  | cons c text ih =>
      rcases Nat.eq_zero_or_pos offset with rfl | hpos
      · simp
      · rw [height_cons hpos, ih, encode_cons, List.take_append, tally_append,
          String.length_utf8EncodeChar]
        congr 1
        by_cases hc : IsAscii c
        · have hall : (String.utf8EncodeChar c).take offset = String.utf8EncodeChar c := by
            rw [hc.encode, List.take_of_length_le (Nat.succ_le_of_lt hpos)]
          rw [hall, tally_encode_singleton]
        · have hwhole := tally_encode_singleton c
          have hzero : ∀ b ∈ String.utf8EncodeChar c, b ≠ '{'.toUInt8 ∧ b ≠ '}'.toUInt8 := by
            intro b hb
            have hle := le_of_mem_utf8EncodeChar hc b hb
            exact ⟨IsAscii.ne_of_le (by decide) hle, IsAscii.ne_of_le (by decide) hle⟩
          rw [tally_eq_zero hzero] at hwhole
          rw [tally_eq_zero fun b hb => hzero b (List.mem_of_mem_take hb), hwhole]

/-- Moving to an offset passes the characters that begin before it. -/
theorem exists_front_seek (target offset : Nat) (text : List Char) :
    ∃ front, text = front ++ (seek target offset text).2 ∧
      (seek target offset text).1 = offset + byteWidth front ∧
      (∀ before c after, front = before ++ c :: after → offset + byteWidth before < target) ∧
      ((seek target offset text).2 = [] ∨ target ≤ (seek target offset text).1) := by
  induction text generalizing offset with
  | nil => exact ⟨[], rfl, rfl, by simp, .inl rfl⟩
  | cons c text ih =>
      rw [seek]
      split
      · next hle => exact ⟨[], rfl, rfl, by simp, .inr hle⟩
      · next hlt =>
          obtain ⟨front, htext, hoffset, hfront, hreached⟩ := ih (offset + c.utf8Size)
          refine ⟨c :: front, by rw [List.cons_append, ← htext], ?_, ?_, hreached⟩
          · rw [hoffset, byteWidth_cons]
            omega
          · intro before d after heq
            cases before with
            | nil =>
                rw [byteWidth_nil]
                omega
            | cons e before =>
                obtain ⟨rfl, hrest⟩ := List.cons.inj heq
                have hlt := hfront before d after hrest
                rw [byteWidth_cons]
                omega

/-- A balance is the tally of the bytes between its offsets. -/
theorem balance_eq_tally (text : List Char) (start stop : Nat) :
    balance text start stop =
      tally '{'.toUInt8 '}'.toUInt8 (bytesBetween (encode text) start stop) := by
  rcases Nat.le_total start stop with hle | hle
  · have hsplit : (encode text).take stop =
        (encode text).take start ++ bytesBetween (encode text) start stop := by
      have hparts := List.take_append_drop start ((encode text).take stop)
      rw [List.take_take, Nat.min_eq_left hle] at hparts
      exact hparts.symm
    have htally := height_eq_tally text stop
    rw [hsplit, tally_append, ← height_eq_tally] at htally
    rw [balance_eq_sub text hle]
    omega
  · have hnone : bytesBetween (encode text) start stop = [] := by
      rw [bytesBetween, List.drop_eq_nil_iff, List.length_take]
      omega
    obtain ⟨front, -, -, -, hreached⟩ := exists_front_seek start 0 text
    simp only [balance, balanceFrom_eq]
    rw [hnone, tally_nil]
    rcases hreached with hend | hreached
    · rw [hend, height_nil]
      rfl
    · have hzero : stop - (seek start 0 text).1 = 0 := by omega
      rw [hzero, height_zero]
      rfl

/-- The first brace of a text opens its block. -/
theorem blockFrom?_cases (offset : Nat) (text : List Char) :
    blockFrom? offset text = none ∧ '{' ∉ text ∨
      ∃ front inside, text = front ++ '{' :: inside ∧ '{' ∉ front ∧
        blockFrom? offset text = blockFrom? (offset + byteWidth front) ('{' :: inside) := by
  induction text generalizing offset with
  | nil => exact .inl ⟨rfl, by simp⟩
  | cons c text ih =>
      by_cases hc : c = '{'
      · subst hc
        exact .inr ⟨[], text, rfl, by simp, rfl⟩
      · rw [blockFrom?, if_neg hc]
        rcases ih (offset + c.utf8Size) with ⟨hnone, hmem⟩ | ⟨front, inside, rfl, hmem, hblock⟩
        · exact .inl ⟨hnone, by simp [Ne.symm hc, hmem]⟩
        · refine .inr ⟨c :: front, inside, rfl, by simp [Ne.symm hc, hmem], ?_⟩
          rw [hblock, byteWidth_cons, Nat.add_assoc]

/-- The offsets from another one on at which an opening brace stands. -/
def bracesFrom (text : List Char) (start : Nat) : Set Nat :=
  {offset | start ≤ offset ∧ (encode text)[offset]? = some '{'.toUInt8}

/-- Either no brace stands behind an offset, or the first one opens the block. -/
theorem block?_cases (text : List Char) (start : Nat) :
    block? text start = none ∧ bracesFrom text start = ∅ ∨
      ∃ front inside, text = front ++ '{' :: inside ∧
        IsLeast (bracesFrom text start) (byteWidth front) ∧
        block? text start = blockFrom? (byteWidth front) ('{' :: inside) := by
  have hbrace : IsAscii '{' := by decide
  obtain ⟨passed, htext, hoffset, hpassed, hreached⟩ := exists_front_seek start 0 text
  rw [Nat.zero_add] at hoffset
  have hblock : block? text start = blockFrom? (seek start 0 text).1 (seek start 0 text).2 := rfl
  rw [hblock, hoffset]
  rw [hoffset] at hreached
  generalize (seek start 0 text).2 = rest at htext hreached
  subst htext
  -- A brace among the characters that are passed begins before the offset.
  have hbefore : ∀ offset, (encode passed)[offset]? = some '{'.toUInt8 → offset < start := by
    intro offset hbyte
    obtain ⟨front, later, hfront, rfl⟩ := (getElem?_encode_eq_some_iff hbrace).mp hbyte
    have hlt := hpassed front '{' later hfront
    omega
  rcases blockFrom?_cases (byteWidth passed) rest with
    ⟨hnone, hmem⟩ | ⟨front, inside, rfl, hmem, hsome⟩
  · refine .inl ⟨hnone, Set.eq_empty_of_forall_notMem ?_⟩
    rintro offset ⟨hle, hbyte⟩
    rw [encode_append, List.getElem?_append] at hbyte
    split at hbyte
    · have hlt := hbefore offset hbyte
      omega
    · exact hmem (mem_of_getElem?_encode hbrace hbyte)
  · have hwidth := byteWidth_append passed front
    refine .inr ⟨passed ++ front, inside, (List.append_assoc _ _ _).symm, ⟨⟨?_, ?_⟩, ?_⟩, ?_⟩
    · have hle := hreached.resolve_left (by simp)
      omega
    · rw [← List.append_assoc]
      exact (getElem?_encode_eq_some_iff hbrace).mpr ⟨_, inside, rfl, rfl⟩
    · rintro offset ⟨hle, hbyte⟩
      by_contra hlt
      rw [encode_append, List.getElem?_append, length_encode] at hbyte
      split at hbyte
      · have hlt := hbefore offset hbyte
        omega
      · rw [encode_append, List.getElem?_append_left (by rw [length_encode]; omega)] at hbyte
        exact hmem (mem_of_getElem?_encode hbrace hbyte)
    · rw [hsome, hwidth]

/-- A block is the one that the first opening brace from an offset on opens. -/
structure Block.MatchesIn (block : Block) (text : List Char) (start : Nat) : Prop where
  opener : IsLeast (bracesFrom text start) block.opener
  search : Search.inBytes (encode text) block.opener '{'.toUInt8 '}'.toUInt8 =
    if block.terminated then .found block.closer else .absent
  closer?_iff : ∀ offset, block.terminated = true ∧ block.closer = offset ↔
    closer? text block.opener '{' '}' = some offset
  isLeast_iff : ∀ offset, block.terminated = true ∧ block.closer = offset ↔
    IsLeast {offset | block.opener ≤ offset ∧ offset < byteWidth text ∧
      balance text block.opener (offset + 1) = 0} offset
  inside : ∀ offset, block.opener < offset → offset ≤ block.closer →
    1 ≤ balance text block.opener offset
  unclosed : block.terminated = false → block.closer = byteWidth text
  contains_iff : ∀ offset, block.contains offset = true ↔
    block.opener < offset ∧ offset < block.closer
  body : IsCut text block.bodyStart block.closer
  whole : IsCut text block.opener block.past

/-- At the opener of a block one brace is open, so the balance falls to zero behind it. -/
theorem balancedAt_eq {start : Nat} (hstart : (encode text)[start]? = some '{'.toUInt8) :
    Search.balancedAt (encode text) start '{'.toUInt8 '}'.toUInt8 =
      {offset | start ≤ offset ∧ offset < byteWidth text ∧
        balance text start (offset + 1) = 0} := by
  have hne : '{'.toUInt8 ≠ '}'.toUInt8 := by decide
  ext offset
  simp only [Search.balancedAt, Set.mem_ofPred_eq, length_encode, balance_eq_tally]
  refine ⟨fun ⟨hlt, hrest⟩ => ⟨Nat.le_of_lt hlt, hrest⟩, fun ⟨hle, hoffset, hzero⟩ => ?_⟩
  refine ⟨Nat.lt_of_le_of_ne hle ?_, hoffset, hzero⟩
  rintro rfl
  have hone := Search.tally_bytesBetween hne hstart 0
  rw [List.take_zero, tally_nil, Nat.add_zero] at hone
  omega

theorem search_of_blockFrom? (front inside : List Char) {block : Block}
    (hblock : blockFrom? (byteWidth front) ('{' :: inside) = some block) :
    Search.inBytes (encode (front ++ '{' :: inside)) (byteWidth front) '{'.toUInt8 '}'.toUInt8 =
      if block.terminated then .found block.closer else .absent := by
  have hne : '{'.toUInt8 ≠ '}'.toUInt8 := by decide
  have hopen : IsAscii '{' := by decide
  have hstart : (encode (front ++ '{' :: inside))[byteWidth front]? = some '{'.toUInt8 :=
    (getElem?_encode_eq_some_iff hopen).mpr ⟨front, inside, rfl, rfl⟩
  have hdrop : (encode (front ++ '{' :: inside)).drop (byteWidth front + 1) = encode inside := by
    rw [List.append_cons, ← drop_encode (front ++ ['{']) inside, byteWidth_append]
    rfl
  have hnone := Search.inBytes_ne_underflow hne (encode (front ++ '{' :: inside)) (byteWidth front)
  rw [Search.inBytes_eq hstart, hdrop] at hnone ⊢
  rw [blockFrom?, if_pos rfl, closerLoop_eq hopen (by decide) (Nat.le_refl 1)] at hblock
  rw [← Option.some.inj hblock]
  cases hresult : Search.loop '{'.toUInt8 '}'.toUInt8 1 (byteWidth front + 1) (encode inside) with
  | found offset => rfl
  | absent => rfl
  | underflow => exact absurd hresult hnone

/-- A block ends between two characters of its text, and so does its body. -/
theorem isCut_of_blockFrom? (front inside : List Char) {block : Block}
    (hblock : blockFrom? (byteWidth front) ('{' :: inside) = some block) :
    IsCut (front ++ '{' :: inside) (byteWidth front + 1) block.closer ∧
      IsCut (front ++ '{' :: inside) (byteWidth front) block.past := by
  obtain ⟨body, rest, rfl, hcloser, hhead, hterminated⟩ :=
    exists_inside_closerLoop '{' '}' 1 (byteWidth front + 1) inside
  have hwidth : byteWidth (front ++ ['{']) = byteWidth front + 1 := by
    rw [byteWidth_append]
    rfl
  rw [blockFrom?, if_pos rfl] at hblock
  rw [← Option.some.inj hblock, Block.past]
  simp only [hcloser, hterminated]
  have hbody := isCut_append (front ++ ['{']) body rest
  rw [hwidth, ← List.append_cons] at hbody
  refine ⟨hbody, ?_⟩
  cases rest with
  | nil =>
      simp only [List.isEmpty_nil, Bool.not_true, Bool.false_eq_true, if_false]
      exact ⟨isBoundary_byteWidth front _, hbody.atStop, by omega⟩
  | cons c rest =>
      obtain rfl := hhead c rfl
      have hclose : ('}' : Char).utf8Size = 1 := by decide
      have hpast := isBoundary_byteWidth (front ++ ['{'] ++ body ++ ['}']) rest
      rw [byteWidth_append, byteWidth_append, hwidth, byteWidth_cons, hclose,
        byteWidth_nil] at hpast
      simp only [List.isEmpty_cons, Bool.not_false, if_true]
      refine ⟨isBoundary_byteWidth front _, ?_, by omega⟩
      simpa using hpast

theorem Block.matchesIn_of_blockFrom? {start : Nat} (front inside : List Char) {block : Block}
    (hleast : IsLeast (bracesFrom (front ++ '{' :: inside) start) (byteWidth front))
    (hblock : blockFrom? (byteWidth front) ('{' :: inside) = some block) :
    block.MatchesIn (front ++ '{' :: inside) start := by
  have hne : '{'.toUInt8 ≠ '}'.toUInt8 := by decide
  obtain ⟨found, hfound, hopener, hstands⟩ := exists_standsIn_blockFrom? front inside
  obtain rfl : found = block := Option.some.inj (hfound.symm.trans hblock)
  have hsearch := search_of_blockFrom? front inside hblock
  obtain ⟨hbody, hwhole⟩ := isCut_of_blockFrom? front inside hblock
  rw [← hopener] at hleast hsearch hbody hwhole
  have hbyte := hleast.1.2
  have hends : ∀ offset, found.terminated = true ∧ found.closer = offset ↔
      Search.inBytes (encode (front ++ '{' :: inside)) found.opener '{'.toUInt8 '}'.toUInt8 =
        .found offset := by
    intro offset
    rw [hsearch]
    cases found.terminated <;> simp
  constructor
  · exact hleast
  · exact hsearch
  · intro offset
    rw [hends, closer?_eq (by decide) (by decide)]
    cases Search.inBytes (encode (front ++ '{' :: inside)) found.opener '{'.toUInt8
      '}'.toUInt8 <;> simp [Search.offset?]
  · intro offset
    rw [hends, Search.inBytes_eq_found_iff hne, balancedAt_eq hbyte, and_iff_right hbyte]
  · intro offset hfrom hto
    rw [balance_eq_tally]
    refine Search.one_le_tally hne hbyte hfrom fun other hother => ?_
    obtain ⟨-, rfl⟩ := (hends other).mpr hother
    exact hto
  · exact hstands.unclosed
  · intro offset
    simp [Block.contains]
  · have hlt := hstands.opener_lt
    have hstart : found.bodyStart = found.opener + 1 := by
      rw [Block.bodyStart]
      omega
    rw [hstart]
    exact hbody
  · exact hwhole

/-- Blocks, closing delimiters and balances agree on which delimiters match. -/
structure MatchesDelimiters (text : List Char) : Prop where
  block?_eq_none_iff : ∀ start, block? text start = none ↔ bracesFrom text start = ∅
  block : ∀ start block, block? text start = some block → block.MatchesIn text start
  search_iff : ∀ start (opener closer : UInt8), opener ≠ closer → ∀ offset,
    Search.inBytes (encode text) start opener closer = .found offset ↔
      (encode text)[start]? = some opener ∧
        IsLeast (Search.balancedAt (encode text) start opener closer) offset
  search_ne_underflow : ∀ start (opener closer : UInt8), opener ≠ closer →
    Search.inBytes (encode text) start opener closer ≠ .underflow
  closer?_eq : ∀ start opener closer, IsAscii opener → IsAscii closer →
    closer? text start opener closer =
      (Search.inBytes (encode text) start opener.toUInt8 closer.toUInt8).offset?
  balance_eq : ∀ start stop, balance text start stop =
    tally '{'.toUInt8 '}'.toUInt8 (bytesBetween (encode text) start stop)

/-- In every text, from every offset on, a block is the one that the first brace opens, it ends
where the search for the closing brace ends, and that is where the balance falls to zero
first.  For any two delimiters the search finds the first offset at which as many are closed
as opened, and its counter never falls below zero. -/
theorem matchesDelimiters (text : List Char) : MatchesDelimiters text := by
  have hblock : ∀ start, block? text start = none ∧ bracesFrom text start = ∅ ∨
      ∃ block, block? text start = some block ∧ block.MatchesIn text start := by
    intro start
    rcases block?_cases text start with hnone | ⟨front, inside, rfl, hleast, hblock⟩
    · exact .inl hnone
    · obtain ⟨block, hsome, -⟩ := exists_standsIn_blockFrom? front inside
      exact .inr
        ⟨block, hblock.trans hsome, Block.matchesIn_of_blockFrom? front inside hleast hsome⟩
  constructor
  · intro start
    rcases hblock start with ⟨hnone, hempty⟩ | ⟨block, hsome, hmatches⟩
    · exact iff_of_true hnone hempty
    · refine iff_of_false (by simp [hsome]) fun hempty => ?_
      have hmem := hmatches.opener.1
      rw [hempty] at hmem
      exact hmem
  · intro start block hsome
    rcases hblock start with ⟨hnone, -⟩ | ⟨other, hother, hmatches⟩
    · rw [hnone] at hsome
      contradiction
    · rw [hother] at hsome
      rwa [← Option.some.inj hsome]
  · intro start opener closer hne offset
    exact Search.inBytes_eq_found_iff hne (encode text) start offset
  · intro start opener closer hne
    exact Search.inBytes_ne_underflow hne (encode text) start
  · intro start opener closer hopener hcloser
    exact closer?_eq hopener hcloser text start
  · exact balance_eq_tally text

end SourceAtlas.Text
