import SourceAtlas.Proofs.Masking
import Mathlib.Data.List.Forall2

/-!
# Masking bytes

Masking is defined on characters, but a scanner can as well run over the bytes of a
text and write single bytes: every sign that it waits for is ASCII, and no byte of a
longer character is.  That scanner is stated here, and it writes exactly the encoding
of the masked text, so its output is never torn.  An escape may take the first byte of
a longer character away from the others; they are blanked one by one in the literal
that goes on.
-/

namespace SourceAtlas.Text

/-- The bytes of a text. -/
def encode (text : List Char) : List UInt8 :=
  text.flatMap String.utf8EncodeChar

/-- Where in the bytes of a text the scanner stands between two steps. -/
inductive ByteRegion
  | code
  | lineComment
  | blockComment
  | literal (quote : UInt8)
  | verbatim
  | raw (quote : UInt8)
  deriving DecidableEq, Repr

def startsWithTwoBytes (b : UInt8) : List UInt8 → Bool
  | first :: second :: _ => first = b && second = b
  | _ => false

/-- The sign for which the bytes before a quote stand, nearest first. -/
def signBefore : List UInt8 → VerbatimSign
  | b :: before =>
      if b = '@'.toUInt8 then .direct
      else if b = '$'.toUInt8 && before.head? = some '@'.toUInt8 then .interpolated
      else .absent
  | [] => .absent

/-- The region after a step, how many further bytes the step takes, and whether its
bytes are blanked. -/
def ByteRegion.step (region : ByteRegion) (before : List UInt8) (b : UInt8)
    (rest : List UInt8) : ByteRegion × Nat × Bool :=
  match region with
  | .code =>
      if b = '/'.toUInt8 && rest.head? = some '/'.toUInt8 then (.lineComment, 1, true)
      else if b = '/'.toUInt8 && rest.head? = some '*'.toUInt8 then (.blockComment, 1, true)
      else if (b = '"'.toUInt8 || b = '\''.toUInt8) && startsWithTwoBytes b rest then
        (.raw b, 2, false)
      else if b = '"'.toUInt8 then
        (if signBefore before = .absent then .literal b else .verbatim, 0, false)
      else if b = '\''.toUInt8 then (.literal b, 0, false)
      else if b = '#'.toUInt8 then (.lineComment, 0, true)
      else (.code, 0, false)
  | .lineComment =>
      if b = '\n'.toUInt8 then (.code, 0, false) else (.lineComment, 0, true)
  | .blockComment =>
      if b = '*'.toUInt8 && rest.head? = some '/'.toUInt8 then (.code, 1, true)
      else (.blockComment, 0, true)
  | .literal quote =>
      if b = quote || b = '\n'.toUInt8 then (.code, 0, false)
      else if b = '\\'.toUInt8 && rest.head?.any (· ≠ '\n'.toUInt8) then
        (.literal quote, 1, true)
      else (.literal quote, 0, true)
  | .verbatim =>
      if b = '"'.toUInt8 && rest.head? = some '"'.toUInt8 then (.verbatim, 1, true)
      else if b = '"'.toUInt8 then (.code, 0, false)
      else (.verbatim, 0, true)
  | .raw quote =>
      if b = quote && startsWithTwoBytes quote rest then (.code, 2, false)
      else (.raw quote, 0, true)

def blankByte (b : UInt8) : UInt8 :=
  if b = '\n'.toUInt8 then b else ' '.toUInt8

/-- Runs over bytes, with those that it has passed, nearest first. -/
def maskBytesFrom (region : ByteRegion) (before : List UInt8) : List UInt8 → List UInt8
  | [] => []
  | b :: rest =>
      let (next, more, blanked) := region.step before b rest
      let taken := b :: rest.take more
      (if blanked then taken.map blankByte else taken) ++
        maskBytesFrom next (taken.reverse ++ before) (rest.drop more)
termination_by bytes => bytes.length
decreasing_by simp only [List.length_drop, List.length_cons]; omega

/-- The bytes that the scanner writes for an array of bytes. -/
def maskBytes (bytes : ByteArray) : ByteArray :=
  (maskBytesFrom .code [] bytes.data.toList).toByteArray

theorem maskBytesFrom_cons {region next : ByteRegion} {before rest : List UInt8} {b : UInt8}
    {more : Nat} {blanked : Bool}
    (hstep : region.step before b rest = (next, more, blanked)) :
    maskBytesFrom region before (b :: rest) =
      (if blanked then (b :: rest.take more).map blankByte else b :: rest.take more) ++
        maskBytesFrom next ((b :: rest.take more).reverse ++ before) (rest.drop more) := by
  rw [maskBytesFrom]
  simp only [hstep]

@[simp] theorem encode_nil : encode [] = [] := rfl

@[simp] theorem encode_append (first second : List Char) :
    encode (first ++ second) = encode first ++ encode second :=
  List.flatMap_append

theorem encode_cons (c : Char) (text : List Char) :
    encode (c :: text) = String.utf8EncodeChar c ++ encode text := rfl

theorem length_encode (text : List Char) : (encode text).length = byteWidth text := by
  induction text with
  | nil => rfl
  | cons c text ih =>
      rw [encode_cons, List.length_append, ih, String.length_utf8EncodeChar, byteWidth_cons]

/-- A character that is a single byte. -/
def IsAscii (c : Char) : Prop :=
  c.val < 128

instance (c : Char) : Decidable (IsAscii c) :=
  inferInstanceAs (Decidable (c.val < 128))

theorem IsAscii.encode {c : Char} (hc : IsAscii c) : String.utf8EncodeChar c = [c.toUInt8] := by
  have hsize : c.utf8Size = 1 := by
    rw [Char.utf8Size_eq_one_iff, UInt32.le_iff_toNat_le]
    have hlt : c.val.toNat < 128 := UInt32.lt_iff_toNat_lt.mp hc
    have hmax : (127 : UInt32).toNat = 127 := rfl
    omega
  rw [String.utf8EncodeChar_eq_singleton hsize, Char.toUInt8_val]

theorem encode_cons_of_isAscii {c : Char} (hc : IsAscii c) (text : List Char) :
    encode (c :: text) = c.toUInt8 :: encode text := by
  rw [encode_cons, hc.encode]
  rfl

theorem IsAscii.toNat_toUInt8 {c : Char} (hc : IsAscii c) : c.toUInt8.toNat = c.val.toNat := by
  have hlt : c.val.toNat < 128 := UInt32.lt_iff_toNat_lt.mp hc
  rw [Char.toUInt8, UInt32.toNat_toUInt8]
  omega

theorem IsAscii.toUInt8_eq_iff {c d : Char} (hc : IsAscii c) (hd : IsAscii d) :
    c.toUInt8 = d.toUInt8 ↔ c = d := by
  constructor
  · intro heq
    have hnat : c.val.toNat = d.val.toNat := by
      rw [← hc.toNat_toUInt8, ← hd.toNat_toUInt8, heq]
    exact Char.ext (UInt32.toNat_inj.mp hnat)
  · rintro rfl
    rfl

/-- The bytes of a longer character are not ASCII. -/
theorem le_of_mem_utf8EncodeChar {c : Char} (hc : ¬IsAscii c) :
    ∀ b ∈ String.utf8EncodeChar c, 128 ≤ b.toNat := by
  have hle : ¬c.val.toNat ≤ 127 := by
    intro hle
    apply hc
    rw [IsAscii, UInt32.lt_iff_toNat_lt]
    exact Nat.lt_succ_of_le hle
  intro b hb
  unfold String.utf8EncodeChar at hb
  simp only [hle, if_false] at hb
  split at hb
  · simp only [List.mem_cons, List.not_mem_nil, or_false] at hb
    rcases hb with rfl | rfl <;> simp only [UInt8.toNat_ofNat'] <;> omega
  · split at hb
    · simp only [List.mem_cons, List.not_mem_nil, or_false] at hb
      rcases hb with rfl | rfl | rfl <;> simp only [UInt8.toNat_ofNat'] <;> omega
    · simp only [List.mem_cons, List.not_mem_nil, or_false] at hb
      rcases hb with rfl | rfl | rfl | rfl <;> simp only [UInt8.toNat_ofNat'] <;> omega

theorem IsAscii.ne_of_le {d : Char} (hd : IsAscii d) {b : UInt8} (hb : 128 ≤ b.toNat) :
    b ≠ d.toUInt8 := by
  rintro rfl
  have hlt : d.val.toNat < 128 := UInt32.lt_iff_toNat_lt.mp hd
  rw [hd.toNat_toUInt8] at hb
  omega

/-- The first byte of a text tells whether it starts with an ASCII character. -/
theorem head?_encode_eq_some_iff {d : Char} (hd : IsAscii d) (text : List Char) :
    (encode text).head? = some d.toUInt8 ↔ text.head? = some d := by
  cases text with
  | nil => simp
  | cons c text =>
      by_cases hc : IsAscii c
      · rw [encode_cons_of_isAscii hc]
        simpa using hc.toUInt8_eq_iff hd
      · have hbytes := le_of_mem_utf8EncodeChar hc
        have hne : c ≠ d := by
          rintro rfl
          exact hc hd
        cases hencoded : String.utf8EncodeChar c with
        | nil =>
            have hsize := String.length_utf8EncodeChar c
            have hpos := c.utf8Size_pos
            rw [hencoded, List.length_nil] at hsize
            omega
        | cons b bytes =>
            have hb : b ≠ d.toUInt8 :=
              hd.ne_of_le (hbytes b (by rw [hencoded]; exact List.mem_cons_self))
            simp [encode_cons, hencoded, hb, hne]

theorem startsWithTwoBytes_encode {d : Char} (hd : IsAscii d) (text : List Char) :
    startsWithTwoBytes d.toUInt8 (encode text) = startsWithTwo d text := by
  have hbytes : ∀ bytes : List UInt8, startsWithTwoBytes d.toUInt8 bytes =
      (bytes.head? = some d.toUInt8 && bytes.tail.head? = some d.toUInt8) := by
    intro bytes
    rcases bytes with _ | ⟨b, _ | ⟨b', bytes⟩⟩ <;> simp [startsWithTwoBytes]
  have hchars : ∀ text : List Char, startsWithTwo d text =
      (text.head? = some d && text.tail.head? = some d) := by
    intro text
    rcases text with _ | ⟨c, _ | ⟨c', text⟩⟩ <;> simp [startsWithTwo]
  rw [hbytes, hchars]
  by_cases hfirst : text.head? = some d
  · obtain ⟨rest, rfl⟩ : ∃ rest, text = d :: rest := by
      cases text with
      | nil => simp at hfirst
      | cons c rest => exact ⟨rest, by simpa using hfirst⟩
    rw [encode_cons_of_isAscii hd]
    simp only [List.head?_cons, List.tail_cons, decide_true, Bool.true_and]
    exact decide_eq_decide.mpr (head?_encode_eq_some_iff hd rest)
  · have hbyte := (head?_encode_eq_some_iff hd text).not.mpr hfirst
    simp [hfirst, hbyte]

/-- Whether a text goes on on its line can be told from its first byte. -/
theorem any_head?_encode (text : List Char) :
    (encode text).head?.any (· ≠ '\n'.toUInt8) = text.head?.any (· ≠ '\n') := by
  have hbreak := head?_encode_eq_some_iff (d := '\n') (by decide) text
  cases text with
  | nil => rfl
  | cons c text =>
      cases hhead : (encode (c :: text)).head? with
      | none =>
          have hlength := length_encode (c :: text)
          have hpos := byteWidth_pos (List.cons_ne_nil c text)
          rw [List.head?_eq_none_iff.mp hhead, List.length_nil] at hlength
          omega
      | some b =>
          rw [hhead] at hbreak
          simpa [Option.any_some] using hbreak

/-- A quote that begins a literal. -/
def IsQuote (c : Char) : Prop :=
  c = '"' ∨ c = '\''

theorem IsQuote.isAscii {c : Char} (hc : IsQuote c) : IsAscii c := by
  rcases hc with rfl | rfl <;> decide

/-- Between two steps over bytes, a region of the characters is one of the bytes. -/
inductive Reads : Region → ByteRegion → List UInt8 → Prop
  | code (before : List UInt8) : Reads (.code (signBefore before)) .code before
  | lineComment (before : List UInt8) : Reads .lineComment .lineComment before
  | blockComment (before : List UInt8) : Reads .blockComment .blockComment before
  | literal {quote : Char} (hquote : IsQuote quote) (before : List UInt8) :
      Reads (.literal quote) (.literal quote.toUInt8) before
  | verbatim (before : List UInt8) : Reads .verbatim .verbatim before
  | raw {quote : Char} (hquote : IsQuote quote) (before : List UInt8) :
      Reads (.raw quote) (.raw quote.toUInt8) before

/-- Behind a byte that is no sign, code is plain. -/
theorem Reads.plainCode {b : UInt8} {before : List UInt8} (hdirect : b ≠ '@'.toUInt8)
    (hinterpolated : b ≠ '$'.toUInt8) : Reads .plainCode .code (b :: before) := by
  have hsign : signBefore (b :: before) = .absent := by
    simp [signBefore, hdirect, hinterpolated]
  have hcode := Reads.code (b :: before)
  rwa [hsign] at hcode

theorem blankByte_of_le {b : UInt8} (hb : 128 ≤ b.toNat) : blankByte b = ' '.toUInt8 := by
  have hne : b ≠ '\n'.toUInt8 := IsAscii.ne_of_le (by decide) hb
  rw [blankByte, if_neg hne]

theorem encode_blankOut {c : Char} (hc : c ≠ '\n') :
    encode (blankOut c) = List.replicate c.utf8Size ' '.toUInt8 := by
  have hspace : String.utf8EncodeChar ' ' = [' '.toUInt8] := IsAscii.encode (by decide)
  rw [blankOut, if_neg hc]
  induction c.utf8Size with
  | zero => rfl
  | succ count ih => rw [List.replicate_succ, encode_cons, ih, hspace]; rfl

theorem encode_blankOut_of_isAscii {c : Char} (hc : IsAscii c) :
    encode (blankOut c) = [blankByte c.toUInt8] := by
  have hsize : c.utf8Size = 1 := by
    rw [← String.length_utf8EncodeChar, hc.encode]
    rfl
  by_cases hbreak : c = '\n'
  · subst hbreak
    decide
  · have hne : c.toUInt8 ≠ '\n'.toUInt8 := (hc.toUInt8_eq_iff (by decide)).not.mpr hbreak
    rw [encode_blankOut hbreak, hsize, blankByte, if_neg hne]
    rfl

/-- Bytes of longer characters change no region; they are blanked outside of code. -/
theorem maskBytesFrom_append_of_le {region : Region} {byteRegion : ByteRegion}
    {before : List UInt8} (hreads : Reads region byteRegion before) {bytes : List UInt8}
    (hbytes : ∀ b ∈ bytes, 128 ≤ b.toNat) (rest : List UInt8) :
    maskBytesFrom byteRegion before (bytes ++ rest) =
      (if byteRegion = .code then bytes else List.replicate bytes.length ' '.toUInt8) ++
        maskBytesFrom byteRegion (bytes.reverse ++ before) rest := by
  have hstep : ∀ (before : List UInt8) (b : UInt8) (rest : List UInt8), 128 ≤ b.toNat →
      byteRegion.step before b rest = (byteRegion, 0, !decide (byteRegion = .code)) := by
    intro before b rest hb
    have hne : ∀ {d : Char}, IsAscii d → (b = d.toUInt8) = False := fun hd =>
      eq_false (hd.ne_of_le hb)
    cases hreads with
    | literal hquote | raw hquote =>
        simp [ByteRegion.step, hne hquote.isAscii, hne (d := '\n') (by decide),
          hne (d := '\\') (by decide)]
    | _ =>
        simp [ByteRegion.step, hne (d := '/') (by decide), hne (d := '"') (by decide),
          hne (d := '\'') (by decide), hne (d := '#') (by decide), hne (d := '\n') (by decide),
          hne (d := '*') (by decide)]
  clear hreads
  induction bytes generalizing before with
  | nil => simp
  | cons b bytes ih =>
      have hb := hbytes b List.mem_cons_self
      have hlater : ∀ d ∈ bytes, 128 ≤ d.toNat := fun d hd => hbytes d (List.mem_cons_of_mem _ hd)
      rw [List.cons_append, maskBytesFrom_cons (hstep before b _ hb)]
      simp only [List.take_zero, List.drop_zero, List.reverse_singleton, List.singleton_append,
        ih hlater]
      by_cases hcode : byteRegion = .code
      · simp [hcode]
      · simp [hcode, blankByte_of_le hb, List.replicate_succ]

/-! ## The scanners side by side -/

/-- On a text both scanners write the same, wherever they agree on the region. -/
def Follows (text : List Char) : Prop :=
  ∀ {region byteRegion before}, Reads region byteRegion before →
    maskBytesFrom byteRegion before (encode text) = encode (maskFrom region text)

section Steps

variable {region middle next : Region} {byteRegion byteNext : ByteRegion} {before : List UInt8}
  {c d : Char} {rest : List Char}

theorem follows_one (blanked : Bool) (hc : IsAscii c) (hchar : region.step c rest = (next, blanked))
    (hbyte : byteRegion.step before c.toUInt8 (encode rest) = (byteNext, 0, blanked))
    (hnext : Reads next byteNext (c.toUInt8 :: before)) (hrest : Follows rest) :
    maskBytesFrom byteRegion before (encode (c :: rest)) = encode (maskFrom region (c :: rest)) := by
  rw [encode_cons_of_isAscii hc, maskBytesFrom_cons hbyte, maskFrom_cons, hchar, encode_append]
  simp only [List.take_zero, List.drop_zero, List.reverse_singleton, List.singleton_append,
    hrest hnext]
  cases blanked with
  | false => simp [encode_cons_of_isAscii hc]
  | true => simp [encode_blankOut_of_isAscii hc]

theorem follows_two (hc : IsAscii c) (hd : IsAscii d)
    (hchar : region.step c (d :: rest) = (middle, true))
    (hmiddle : middle.step d rest = (next, true))
    (hbyte : byteRegion.step before c.toUInt8 (encode (d :: rest)) = (byteNext, 1, true))
    (hnext : Reads next byteNext (d.toUInt8 :: c.toUInt8 :: before)) (hrest : Follows rest) :
    maskBytesFrom byteRegion before (encode (c :: d :: rest)) =
      encode (maskFrom region (c :: d :: rest)) := by
  rw [encode_cons_of_isAscii hc, maskBytesFrom_cons hbyte, maskFrom_cons, hchar, maskFrom_cons,
    hmiddle, encode_cons_of_isAscii hd, encode_append, encode_append]
  simp only [if_true, encode_blankOut_of_isAscii hc, encode_blankOut_of_isAscii hd,
    ← hrest hnext]
  rfl

theorem follows_three (hc : IsAscii c) {last : Region}
    (hchar : region.step c (c :: c :: rest) = (middle, false))
    (hmiddle : middle.step c (c :: rest) = (last, false))
    (hlast : last.step c rest = (next, false))
    (hbyte : byteRegion.step before c.toUInt8 (encode (c :: c :: rest)) = (byteNext, 2, false))
    (hnext : Reads next byteNext (c.toUInt8 :: c.toUInt8 :: c.toUInt8 :: before))
    (hrest : Follows rest) :
    maskBytesFrom byteRegion before (encode (c :: c :: c :: rest)) =
      encode (maskFrom region (c :: c :: c :: rest)) := by
  rw [encode_cons_of_isAscii hc, maskBytesFrom_cons hbyte, maskFrom_cons, hchar, maskFrom_cons,
    hmiddle, maskFrom_cons, hlast, encode_cons_of_isAscii hc, encode_cons_of_isAscii hc]
  simp only [Bool.false_eq_true, if_false, encode_append, ← hrest hnext]
  simp [encode_cons_of_isAscii hc]

end Steps

theorem signBefore_eq_direct_iff {before : List UInt8} :
    signBefore before = .direct ↔ before.head? = some '@'.toUInt8 := by
  cases before with
  | nil => simp [signBefore]
  | cons b before =>
      by_cases hb : b = '@'.toUInt8
      · simp [signBefore, hb]
      · simp only [signBefore, hb, if_false, List.head?_cons, Option.some.injEq, iff_false]
        split <;> simp

theorem startsWithTwo_eq_true_iff {c : Char} {text : List Char} :
    startsWithTwo c text = true ↔ ∃ rest, text = c :: c :: rest := by
  rcases text with _ | ⟨d, _ | ⟨e, text⟩⟩
  · simp [startsWithTwo]
  · simp [startsWithTwo]
  · simp [startsWithTwo]

theorem head?_eq_some_iff {c : Char} {text : List Char} :
    text.head? = some c ↔ ∃ rest, text = c :: rest := by
  cases text with
  | nil => simp
  | cons d text => simp [eq_comm]

variable {c : Char} {rest : List Char}

/-- In code the next region is decided by the same signs for bytes as for characters. -/
theorem ByteRegion.step_code_encode (hc : IsAscii c) (before : List UInt8) (rest : List Char) :
    ByteRegion.code.step before c.toUInt8 (encode rest) =
      if c = '/' && rest.head? = some '/' then (.lineComment, 1, true)
      else if c = '/' && rest.head? = some '*' then (.blockComment, 1, true)
      else if (c = '"' || c = '\'') && startsWithTwo c rest then (.raw c.toUInt8, 2, false)
      else if c = '"' then
        (if signBefore before = .absent then .literal c.toUInt8 else .verbatim, 0, false)
      else if c = '\'' then (.literal c.toUInt8, 0, false)
      else if c = '#' then (.lineComment, 0, true)
      else (.code, 0, false) := by
  have hbyte : ∀ {d : Char}, IsAscii d → (c.toUInt8 = d.toUInt8 ↔ c = d) := fun hd =>
    hc.toUInt8_eq_iff hd
  simp only [ByteRegion.step, hbyte (d := '/') (by decide), hbyte (d := '"') (by decide),
    hbyte (d := '\'') (by decide), hbyte (d := '#') (by decide),
    head?_encode_eq_some_iff (d := '/') (by decide),
    head?_encode_eq_some_iff (d := '*') (by decide), startsWithTwoBytes_encode hc]

theorem signBefore_cons (hc : IsAscii c) (before : List UInt8) :
    signBefore (c.toUInt8 :: before) =
      if c = '@' then .direct
      else if c = '$' && signBefore before = .direct then .interpolated
      else .absent := by
  have hbyte : ∀ {d : Char}, IsAscii d → (c.toUInt8 = d.toUInt8 ↔ c = d) := fun hd =>
    hc.toUInt8_eq_iff hd
  rw [signBefore]
  simp only [hbyte (d := '@') (by decide), hbyte (d := '$') (by decide),
    signBefore_eq_direct_iff]

theorem follows_code (hc : IsAscii c) (before : List UInt8)
    (ih : ∀ text : List Char, text.length < (c :: rest).length → Follows text) :
    maskBytesFrom .code before (encode (c :: rest)) =
      encode (maskFrom (.code (signBefore before)) (c :: rest)) := by
  have hstep := ByteRegion.step_code_encode hc before rest
  by_cases hline : c = '/' ∧ rest.head? = some '/'
  · obtain ⟨rfl, hhead⟩ := hline
    obtain ⟨rest, rfl⟩ := head?_eq_some_iff.mp hhead
    have hsecond : Region.lineComment.step '/' rest = (.lineComment, true) := by
      simp [Region.step]
    exact follows_two (by decide) (by decide) (by simp [Region.step]) hsecond
      (by simpa using hstep) (.lineComment _) (ih rest (by simp only [List.length_cons]; omega))
  by_cases hblock : c = '/' ∧ rest.head? = some '*'
  · obtain ⟨rfl, hhead⟩ := hblock
    obtain ⟨rest, rfl⟩ := head?_eq_some_iff.mp hhead
    have hsecond : Region.commentOpener.step '*' rest = (.blockComment, true) := rfl
    exact follows_two (by decide) (by decide) (by simp [Region.step]) hsecond
      (by simpa using hstep) (.blockComment _) (ih rest (by simp only [List.length_cons]; omega))
  by_cases hraw : IsQuote c ∧ startsWithTwo c rest = true
  · obtain ⟨hquote, htwo⟩ := hraw
    obtain ⟨rest, rfl⟩ := startsWithTwo_eq_true_iff.mp htwo
    have hslash : c ≠ '/' := by
      rintro rfl
      exact absurd hquote (by simp [IsQuote])
    have hor : (c = '"' || c = '\'') = true := by simpa [IsQuote] using hquote
    simp only [hslash, hor, htwo, decide_false, Bool.false_and, Bool.and_self, if_true,
      Bool.false_eq_true, if_false] at hstep
    have hfirst : (Region.code (signBefore before)).step c (c :: c :: rest) =
        (.rawOpener c 2, false) := by
      simp only [Region.step, hslash, hor, htwo, decide_false, Bool.false_and, Bool.and_self,
        if_true, Bool.false_eq_true, if_false]
    have hsecond : (Region.rawOpener c 2).step c (c :: rest) = (.rawOpener c 1, false) := rfl
    have hthird : (Region.rawOpener c 1).step c rest = (.raw c, false) := rfl
    exact follows_three hc hfirst hsecond hthird hstep (.raw hquote _)
      (ih rest (by simp only [List.length_cons]; omega))
  -- From here on the step takes one character.
  have hrest : Follows rest := ih rest (by simp)
  have hquote : ((c = '"' || c = '\'') && startsWithTwo c rest) = false := by
    rw [← Bool.not_eq_true]
    simpa [IsQuote] using hraw
  have hnoLine : (c = '/' && rest.head? = some '/') = false := by simpa using hline
  have hnoBlock : (c = '/' && rest.head? = some '*') = false := by simpa using hblock
  simp only [hnoLine, hnoBlock, hquote, Bool.false_eq_true, if_false] at hstep
  have hchar : (Region.code (signBefore before)).step c rest =
      if c = '"' then (if signBefore before = .absent then .literal '"' else .verbatim, false)
      else if c = '\'' then (.literal '\'', false)
      else if c = '#' then (.lineComment, true)
      else (.code (signBefore (c.toUInt8 :: before)), false) := by
    simp only [Region.step, hnoLine, hnoBlock, hquote, Bool.false_eq_true, if_false,
      signBefore_cons hc]
    split_ifs <;> rfl
  by_cases hdouble : c = '"'
  · subst hdouble
    by_cases hsign : signBefore before = .absent
    · exact follows_one false hc (by simpa [hsign] using hchar) (by simpa [hsign] using hstep)
        (.literal (.inl rfl) _) hrest
    · exact follows_one false hc (by simpa [hsign] using hchar) (by simpa [hsign] using hstep)
        (.verbatim _) hrest
  by_cases hsingle : c = '\''
  · subst hsingle
    exact follows_one false hc (by simpa using hchar) (by simpa using hstep) (.literal (.inr rfl) _)
      hrest
  by_cases hhash : c = '#'
  · subst hhash
    exact follows_one true hc (by simpa using hchar) (by simpa using hstep) (.lineComment _) hrest
  exact follows_one false hc (by simpa [hdouble, hsingle, hhash] using hchar)
    (by simpa [hdouble, hsingle, hhash] using hstep) (.code _) hrest

theorem follows_lineComment (hc : IsAscii c) (before : List UInt8) (hrest : Follows rest) :
    maskBytesFrom .lineComment before (encode (c :: rest)) =
      encode (maskFrom .lineComment (c :: rest)) := by
  have hbyte := hc.toUInt8_eq_iff (d := '\n') (by decide)
  by_cases hbreak : c = '\n'
  · subst hbreak
    exact follows_one false hc rfl rfl (.plainCode (by decide) (by decide)) hrest
  · exact follows_one true hc (by simp [Region.step, hbreak])
      (by simp [ByteRegion.step, hbyte, hbreak]) (.lineComment _) hrest

theorem follows_blockComment (hc : IsAscii c) (before : List UInt8)
    (ih : ∀ text : List Char, text.length < (c :: rest).length → Follows text) :
    maskBytesFrom .blockComment before (encode (c :: rest)) =
      encode (maskFrom .blockComment (c :: rest)) := by
  have hbyte := hc.toUInt8_eq_iff (d := '*') (by decide)
  have hhead := head?_encode_eq_some_iff (d := '/') (by decide) rest
  by_cases hcloser : c = '*' ∧ rest.head? = some '/'
  · obtain ⟨rfl, hslash⟩ := hcloser
    obtain ⟨rest, rfl⟩ := head?_eq_some_iff.mp hslash
    have hsecond : Region.commentCloser.step '/' rest = (.plainCode, true) := rfl
    exact follows_two hc (by decide) (by simp [Region.step]) hsecond
      (by simp [ByteRegion.step, hhead]) (.plainCode (by decide) (by decide))
      (ih rest (by simp only [List.length_cons]; omega))
  · have hstay : (c = '*' && rest.head? = some '/') = false := by simpa using hcloser
    exact follows_one true hc (by simp only [Region.step, hstay]; rfl)
      (by simp only [ByteRegion.step, hbyte, hhead, hstay]; rfl) (.blockComment _)
      (ih rest (by simp))

theorem follows_verbatim (hc : IsAscii c) (before : List UInt8)
    (ih : ∀ text : List Char, text.length < (c :: rest).length → Follows text) :
    maskBytesFrom .verbatim before (encode (c :: rest)) =
      encode (maskFrom .verbatim (c :: rest)) := by
  have hbyte := hc.toUInt8_eq_iff (d := '"') (by decide)
  have hhead := head?_encode_eq_some_iff (d := '"') (by decide) rest
  by_cases hquote : c = '"'
  · subst hquote
    by_cases hdoubled : rest.head? = some '"'
    · obtain ⟨rest, rfl⟩ := head?_eq_some_iff.mp hdoubled
      have hsecond : Region.doubledQuote.step '"' rest = (.verbatim, true) := rfl
      exact follows_two hc hc (by simp [Region.step]) hsecond (by simp [ByteRegion.step, hhead])
        (.verbatim _) (ih rest (by simp only [List.length_cons]; omega))
    · exact follows_one false hc (by simp [Region.step, hdoubled])
        (by simp [ByteRegion.step, hhead, hdoubled]) (.plainCode (by decide) (by decide))
        (ih rest (by simp))
  · exact follows_one true hc (by simp [Region.step, hquote])
      (by simp [ByteRegion.step, hbyte, hquote]) (.verbatim _) (ih rest (by simp))

/-- Neither a quote nor a line break announces a verbatim string. -/
theorem reads_plainCode_of_isQuote {quote : Char} (hquote : IsQuote quote)
    (before : List UInt8) : Reads .plainCode .code (quote.toUInt8 :: before) := by
  rcases hquote with rfl | rfl <;> exact .plainCode (by decide) (by decide)

theorem follows_raw {quote : Char} (hquote : IsQuote quote) (hc : IsAscii c)
    (before : List UInt8)
    (ih : ∀ text : List Char, text.length < (c :: rest).length → Follows text) :
    maskBytesFrom (.raw quote.toUInt8) before (encode (c :: rest)) =
      encode (maskFrom (.raw quote) (c :: rest)) := by
  have hbyte := hc.toUInt8_eq_iff hquote.isAscii
  have htwo := startsWithTwoBytes_encode hquote.isAscii rest
  by_cases hcloser : c = quote ∧ startsWithTwo quote rest = true
  · obtain ⟨rfl, hcloser⟩ := hcloser
    obtain ⟨rest, rfl⟩ := startsWithTwo_eq_true_iff.mp hcloser
    have hfirst : (Region.raw c).step c (c :: c :: rest) = (.rawCloser c 2, false) := by
      simp only [Region.step, hcloser, decide_true, Bool.and_self, if_true]
    have hsecond : (Region.rawCloser c 2).step c (c :: rest) = (.rawCloser c 1, false) := rfl
    have hthird : (Region.rawCloser c 1).step c rest = (.plainCode, false) := rfl
    exact follows_three hc hfirst hsecond hthird (by simp [ByteRegion.step, htwo, hcloser])
      (reads_plainCode_of_isQuote hquote _) (ih rest (by simp only [List.length_cons]; omega))
  · have hstay : (c = quote && startsWithTwo quote rest) = false := by
      rw [← Bool.not_eq_true]
      simpa using hcloser
    exact follows_one true hc (by simp only [Region.step, hstay]; rfl)
      (by simp only [ByteRegion.step, hbyte, htwo, hstay]; rfl) (.raw hquote _)
      (ih rest (by simp))

/-- The first byte of an escaped character goes with the backslash, the others are blanked
in the literal. -/
theorem follows_escape {quote d : Char} (hquote : IsQuote quote) (hd : d ≠ '\n')
    (before : List UInt8) (hrest : Follows rest) :
    maskBytesFrom (.literal quote.toUInt8) before (encode ('\\' :: d :: rest)) =
      encode (maskFrom (.literal quote) ('\\' :: d :: rest)) := by
  have hbackslash : IsAscii '\\' := by decide
  have hne : '\\' ≠ quote := by
    rintro rfl
    exact absurd hquote (by simp [IsQuote])
  have hneByte : '\\'.toUInt8 ≠ quote.toUInt8 :=
    (hbackslash.toUInt8_eq_iff hquote.isAscii).not.mpr hne
  have hgoesOn := any_head?_encode (d :: rest)
  rw [List.head?_cons, Option.any_some, decide_eq_true hd] at hgoesOn
  have hfirst : (Region.literal quote).step '\\' (d :: rest) = (.escaped quote, true) := by
    simp [Region.step, hne, hd]
  have hsecond : (Region.escaped quote).step d rest = (.literal quote, true) := rfl
  have hbyte : (ByteRegion.literal quote.toUInt8).step before '\\'.toUInt8 (encode (d :: rest)) =
      (.literal quote.toUInt8, 1, true) := by
    have hbreak : '\\'.toUInt8 ≠ '\n'.toUInt8 := by decide
    simp only [ByteRegion.step, hneByte, hbreak, hgoesOn, decide_false, decide_true,
      Bool.or_self, Bool.and_self, Bool.false_eq_true, if_false, if_true]
  by_cases hascii : IsAscii d
  · exact follows_two hbackslash hascii hfirst hsecond hbyte (.literal hquote _) hrest
  · have hbytes := le_of_mem_utf8EncodeChar hascii
    have hlength := String.length_utf8EncodeChar d
    cases hencoded : String.utf8EncodeChar d with
    | nil =>
        have hpos := d.utf8Size_pos
        rw [hencoded, List.length_nil] at hlength
        omega
    | cons b bytes =>
        rw [hencoded, List.forall_mem_cons] at hbytes
        rw [hencoded, List.length_cons] at hlength
        rw [encode_cons_of_isAscii hbackslash, maskBytesFrom_cons hbyte, maskFrom_cons, hfirst,
          maskFrom_cons, hsecond, encode_cons, hencoded, encode_append, encode_append]
        simp only [if_true, List.cons_append, List.take_succ_cons, List.take_zero,
          List.drop_succ_cons, List.drop_zero]
        rw [maskBytesFrom_append_of_le (.literal hquote _) hbytes.2,
          hrest (.literal hquote _), encode_blankOut hd, ← hlength,
          encode_blankOut_of_isAscii hbackslash, List.map_cons, List.map_cons,
          blankByte_of_le hbytes.1, List.replicate_succ]
        simp

theorem follows_literal {quote : Char} (hquote : IsQuote quote) (hc : IsAscii c)
    (before : List UInt8)
    (ih : ∀ text : List Char, text.length < (c :: rest).length → Follows text) :
    maskBytesFrom (.literal quote.toUInt8) before (encode (c :: rest)) =
      encode (maskFrom (.literal quote) (c :: rest)) := by
  have hbyte := hc.toUInt8_eq_iff hquote.isAscii
  have hbreakByte := hc.toUInt8_eq_iff (d := '\n') (by decide)
  have hescapeByte := hc.toUInt8_eq_iff (d := '\\') (by decide)
  have hgoesOn := any_head?_encode rest
  have hrest : Follows rest := ih rest (by simp)
  by_cases hcloser : c = quote
  · subst hcloser
    exact follows_one false hc (by simp [Region.step]) (by simp [ByteRegion.step])
      (reads_plainCode_of_isQuote hquote _) hrest
  by_cases hbreak : c = '\n'
  · subst hbreak
    exact follows_one false hc (by simp [Region.step]) (by simp [ByteRegion.step])
      (.plainCode (by decide) (by decide)) hrest
  by_cases hescape : c = '\\' ∧ rest.head?.any (· ≠ '\n') = true
  · obtain ⟨rfl, hany⟩ := hescape
    cases rest with
    | nil => simp at hany
    | cons d rest =>
        exact follows_escape hquote (by simpa using hany) before
          (ih rest (by simp only [List.length_cons]; omega))
  · have hplain : (c = '\\' && rest.head?.any (· ≠ '\n')) = false := by
      rw [← Bool.not_eq_true]
      simpa using hescape
    exact follows_one true hc (by simp only [Region.step, hcloser, hbreak, hplain]; rfl)
      (by simp only [ByteRegion.step, hbyte, hbreakByte, hescapeByte, hgoesOn, hcloser, hbreak,
        hplain]; rfl)
      (.literal hquote _) hrest

theorem IsAscii.ne {c d : Char} (hc : ¬IsAscii c) (hd : IsAscii d) : c ≠ d := by
  rintro rfl
  exact hc hd

/-- A longer character is no sign in any region. -/
theorem follows_of_not_isAscii {region : Region} {byteRegion : ByteRegion}
    {before : List UInt8} (hreads : Reads region byteRegion before) (hc : ¬IsAscii c)
    (hrest : Follows rest) :
    maskBytesFrom byteRegion before (encode (c :: rest)) =
      encode (maskFrom region (c :: rest)) := by
  have hbytes := le_of_mem_utf8EncodeChar hc
  have hne : ∀ {d : Char}, IsAscii d → (c = d) = False := fun hd => eq_false (IsAscii.ne hc hd)
  have hbreak : c ≠ '\n' := IsAscii.ne hc (by decide)
  -- Outside of code the region stays and the character is blanked.
  have hblank : byteRegion ≠ .code → region.step c rest = (region, true) →
      (∀ passed, Reads region byteRegion (passed ++ before)) →
      maskBytesFrom byteRegion before (encode (c :: rest)) =
        encode (maskFrom region (c :: rest)) := by
    intro hcode hstep hstays
    rw [encode_cons, maskBytesFrom_append_of_le hreads hbytes, hrest (hstays _), maskFrom_cons,
      hstep, encode_append]
    simp only [hcode, if_false, if_true, encode_blankOut hbreak, String.length_utf8EncodeChar]
  cases hreads with
  | code before =>
      have hplain : Reads .plainCode .code ((String.utf8EncodeChar c).reverse ++ before) := by
        cases hreverse : (String.utf8EncodeChar c).reverse with
        | nil =>
            have hlength := String.length_utf8EncodeChar c
            have hpos := c.utf8Size_pos
            rw [List.reverse_eq_nil_iff.mp hreverse, List.length_nil] at hlength
            omega
        | cons b bytes =>
            have hb : 128 ≤ b.toNat := by
              apply hbytes
              rw [← List.mem_reverse, hreverse]
              exact List.mem_cons_self
            exact .plainCode (IsAscii.ne_of_le (by decide) hb) (IsAscii.ne_of_le (by decide) hb)
      have hstep : (Region.code (signBefore before)).step c rest = (.plainCode, false) := by
        simp only [Region.step, hne (d := '/') (by decide), hne (d := '"') (by decide),
          hne (d := '\'') (by decide), hne (d := '#') (by decide), hne (d := '@') (by decide),
          hne (d := '$') (by decide)]
        rfl
      rw [encode_cons, maskBytesFrom_append_of_le (.code before) hbytes, hrest hplain,
        maskFrom_cons, hstep, encode_append]
      simp [encode]
  | lineComment before =>
      exact hblank (by simp) (by simp [Region.step, hbreak]) fun _ => .lineComment _
  | blockComment before =>
      exact hblank (by simp) (by simp [Region.step, hne (d := '*') (by decide)])
        fun _ => .blockComment _
  | literal hquote before =>
      exact hblank (by simp)
        (by simp [Region.step, hne hquote.isAscii, hbreak, hne (d := '\\') (by decide)])
        fun _ => .literal hquote _
  | verbatim before =>
      exact hblank (by simp) (by simp [Region.step, hne (d := '"') (by decide)])
        fun _ => .verbatim _
  | raw hquote before =>
      exact hblank (by simp) (by simp [Region.step, hne hquote.isAscii]) fun _ => .raw hquote _

/-- Over the bytes of a text the scanner writes the bytes of the masked text. -/
theorem follows (text : List Char) : Follows text := by
  induction hlength : text.length using Nat.strong_induction_on generalizing text with
  | _ length ih =>
      subst hlength
      have hshorter : ∀ shorter : List Char, shorter.length < text.length → Follows shorter :=
        fun shorter hlt => ih _ hlt shorter rfl
      intro region byteRegion before hreads
      cases text with
      | nil => simp [maskBytesFrom]
      | cons c rest =>
          have hrest : Follows rest := hshorter rest (by simp)
          by_cases hc : IsAscii c
          · cases hreads with
            | code before => exact follows_code hc before hshorter
            | lineComment before => exact follows_lineComment hc before hrest
            | blockComment before => exact follows_blockComment hc before hshorter
            | literal hquote before => exact follows_literal hquote hc before hshorter
            | verbatim before => exact follows_verbatim hc before hshorter
            | raw hquote before => exact follows_raw hquote hc before hshorter
          · exact follows_of_not_isAscii hreads hc hrest

/-! ## Bytes of masked texts -/

theorem forall₂_blank {c : Char} (hbreak : c ≠ '\n') :
    List.Forall₂ (fun m b : UInt8 => (m = b ∨ m = ' '.toUInt8) ∧
      (m = '\n'.toUInt8 ↔ b = '\n'.toUInt8))
      (List.replicate c.utf8Size ' '.toUInt8) (String.utf8EncodeChar c) := by
  have hne : ∀ b ∈ String.utf8EncodeChar c, b ≠ '\n'.toUInt8 := by
    by_cases hc : IsAscii c
    · rw [hc.encode]
      simpa using (hc.toUInt8_eq_iff (d := '\n') (by decide)).not.mpr hbreak
    · exact fun b hb => IsAscii.ne_of_le (by decide) (le_of_mem_utf8EncodeChar hc b hb)
  rw [← String.length_utf8EncodeChar]
  generalize String.utf8EncodeChar c = bytes at hne
  induction bytes with
  | nil => exact .nil
  | cons b bytes ih =>
      rw [List.forall_mem_cons] at hne
      refine .cons ⟨.inr rfl, ?_⟩ (ih hne.2)
      exact iff_of_false (by decide) hne.1

/-- Byte by byte a masked text keeps its text or has a space, and line breaks stay. -/
theorem Covers.forall₂_encode {masked text : List Char} (hcovers : Covers masked text) :
    List.Forall₂ (fun m b : UInt8 => (m = b ∨ m = ' '.toUInt8) ∧
      (m = '\n'.toUInt8 ↔ b = '\n'.toUInt8)) (encode masked) (encode text) := by
  induction hcovers with
  | nil => exact .nil
  | keep c hrest ih =>
      rw [encode_cons, encode_cons]
      exact List.rel_append (List.forall₂_same.mpr fun b _ => ⟨.inl rfl, Iff.rfl⟩) ih
  | blank c hbreak hrest ih =>
      have hspaces := encode_blankOut hbreak
      rw [blankOut, if_neg hbreak] at hspaces
      rw [encode_append, hspaces, encode_cons]
      exact List.rel_append (forall₂_blank hbreak) ih

/-- Every character of a text is found again as it is, or as spaces, where it stands. -/
theorem Covers.exists_piece {masked text front rest : List Char} {c : Char}
    (hcovers : Covers masked text) (htext : text = front ++ c :: rest) :
    ∃ before piece after, masked = before ++ piece ++ after ∧
      byteWidth before = byteWidth front ∧
      (piece = [c] ∨ c ≠ '\n' ∧ piece = List.replicate c.utf8Size ' ') := by
  induction hcovers generalizing front with
  | nil => simp at htext
  | @keep d masked text hrest ih =>
      cases front with
      | nil =>
          obtain ⟨rfl, rfl⟩ := List.cons.inj htext
          exact ⟨[], [d], masked, rfl, rfl, .inl rfl⟩
      | cons e front =>
          obtain ⟨rfl, hbehind⟩ := List.cons.inj htext
          obtain ⟨before, piece, after, rfl, hwidth, hpiece⟩ := ih hbehind
          exact ⟨d :: before, piece, after, rfl, by simp [hwidth], hpiece⟩
  | @blank d hbreak masked text hrest ih =>
      cases front with
      | nil =>
          obtain ⟨rfl, rfl⟩ := List.cons.inj htext
          exact ⟨[], List.replicate d.utf8Size ' ', masked, rfl, rfl, .inr ⟨hbreak, rfl⟩⟩
      | cons e front =>
          obtain ⟨rfl, hbehind⟩ := List.cons.inj htext
          obtain ⟨before, piece, after, rfl, hwidth, hpiece⟩ := ih hbehind
          refine ⟨List.replicate d.utf8Size ' ' ++ before, piece, after, by simp, ?_, hpiece⟩
          rw [byteWidth_append, byteWidth_replicate_space, hwidth, byteWidth_cons]

/-- The bytes of a string. -/
def utf8 (text : String) : List UInt8 :=
  text.toUTF8.data.toList

theorem utf8_ofList (text : List Char) : utf8 (String.ofList text) = encode text := by
  simp [utf8, encode, List.utf8Encode]

/-- A masked string keeps the size of its text and every byte of it, or has a space there.
Line breaks stay and none comes in, and no character is torn. -/
structure KeepsPlaces (text masked : String) : Prop where
  size : masked.toUTF8.size = text.toUTF8.size
  byte : ∀ offset < text.toUTF8.size, (utf8 masked)[offset]? = (utf8 text)[offset]? ∨
    (utf8 masked)[offset]? = some ' '.toUInt8
  lineBreak : ∀ offset : Nat, (utf8 masked)[offset]? = some '\n'.toUInt8 ↔
    (utf8 text)[offset]? = some '\n'.toUInt8
  character : ∀ front c rest, text.toList = front ++ c :: rest →
    ∃ before piece after, utf8 masked = before ++ piece ++ after ∧
      before.length = (encode front).length ∧
      (piece = String.utf8EncodeChar c ∨ piece = List.replicate c.utf8Size ' '.toUInt8)

theorem utf8_eq_encode (text : String) : utf8 text = encode text.toList := by
  rw [← utf8_ofList, String.ofList_toList]

theorem Covers.keepsPlaces {text masked : String} (hcovers : Covers masked.toList text.toList) :
    KeepsPlaces text masked := by
  have hlength : ∀ text : String, text.toUTF8.size = (utf8 text).length := fun _ => rfl
  have hbytes := hcovers.forall₂_encode
  rw [← utf8_eq_encode, ← utf8_eq_encode, List.forall₂_iff_get] at hbytes
  obtain ⟨hsize, hbyte⟩ := hbytes
  simp only [List.get_eq_getElem] at hbyte
  constructor
  · exact hsize
  · intro offset hoffset
    rw [hlength] at hoffset
    rw [List.getElem?_eq_getElem (hsize ▸ hoffset), List.getElem?_eq_getElem hoffset]
    simpa using (hbyte offset (hsize ▸ hoffset) hoffset).1
  · intro offset
    by_cases hoffset : offset < (utf8 text).length
    · rw [List.getElem?_eq_getElem (hsize ▸ hoffset), List.getElem?_eq_getElem hoffset]
      simpa using (hbyte offset (hsize ▸ hoffset) hoffset).2
    · rw [List.getElem?_eq_none (by omega), List.getElem?_eq_none (by omega)]
  · intro front c rest htext
    obtain ⟨before, piece, after, hmasked, hwidth, hpiece⟩ := hcovers.exists_piece htext
    refine ⟨encode before, encode piece, encode after, ?_, ?_, ?_⟩
    · rw [utf8_eq_encode, hmasked, encode_append, encode_append]
    · rw [length_encode, length_encode, hwidth]
    · rcases hpiece with rfl | ⟨hbreak, rfl⟩
      · exact .inl (by simp [encode])
      · have hspaces := encode_blankOut hbreak
        rw [blankOut, if_neg hbreak] at hspaces
        exact .inr hspaces

/-- What the scanner writes for the bytes of a string can be decoded.  It is the masked
string, which keeps all places. -/
theorem fromUTF8?_maskBytes (text : String) :
    ∃ masked, String.fromUTF8? (maskBytes text.toUTF8) = some masked ∧
      masked = String.ofList (mask text.toList) ∧ KeepsPlaces text masked := by
  refine ⟨String.ofList (mask text.toList), ?_, rfl, ?_⟩
  · have hwritten : maskBytesFrom .code [] (utf8 text) =
        utf8 (String.ofList (mask text.toList)) := by
      rw [utf8_ofList, utf8_eq_encode]
      exact follows text.toList (.code [])
    have hbytes : maskBytes text.toUTF8 = (String.ofList (mask text.toList)).toUTF8 := by
      unfold maskBytes
      change (maskBytesFrom .code [] (utf8 text)).toByteArray = _
      rw [hwritten]
      apply ByteArray.ext
      simp [utf8]
    have hvalid : (String.ofList (mask text.toList)).toUTF8.IsValidUTF8 :=
      (String.ofList (mask text.toList)).isValidUTF8
    rw [hbytes, String.fromUTF8?, dif_pos hvalid]
    rfl
  · apply Covers.keepsPlaces
    rw [String.toList_ofList]
    exact covers_maskFrom _ _

end SourceAtlas.Text
