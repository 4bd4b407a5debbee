import SourceAtlas.Proofs.MaskedBytes

/-!
# Masking line by line

The scanner never looks past a line break, so the lines of a text are masked without regard
to what follows them, and what follows is masked from the region in which they leave the
scanner.  Only few signs lead it into a region that a line break does not end.  Where none of
them occurs, every line leaves it in plain code, and lines can be masked by themselves.
-/

namespace SourceAtlas.Text

namespace Region

/-- The region behind a text that is scanned from a region on. -/
def behind (region : Region) : List Char → Region
  | [] => region
  | c :: rest => (region.step c rest).1.behind rest

/-- Lines are masked without what follows them, which begins in the region behind them. -/
theorem QuotesOnLine.maskFrom_append {region : Region} (hregion : region.QuotesOnLine)
    {first : List Char} (hfirst : EndsInBreak first) (second : List Char) :
    maskFrom region (first ++ second) =
      maskFrom region first ++ maskFrom (region.behind first) second := by
  obtain ⟨front, rfl⟩ := hfirst
  induction front generalizing region with
  | nil =>
      simp only [List.nil_append, List.singleton_append, maskFrom_cons, maskFrom_nil,
        List.append_nil, behind, hregion.step_break second []]
  | cons c front ih =>
      have hstep : region.step c (front ++ ['\n'] ++ second) = region.step c (front ++ ['\n']) := by
        rw [List.append_assoc]
        exact hregion.step_append_break c front second []
      rw [List.cons_append, List.cons_append, maskFrom_cons, maskFrom_cons, hstep,
        ih (hregion.step c (front ++ ['\n'])), behind, List.append_assoc]

end Region

/-- The signs that open what a line break does not end. -/
def spanningSigns : List (List Char) :=
  [['/', '*'], ['"', '"', '"'], ['\'', '\'', '\''], ['@', '"'], ['@', '$', '"']]

/-- None of these signs occurs in the text. -/
def StaysOnLines (text : List Char) : Prop :=
  ∀ sign ∈ spanningSigns, ¬sign <:+: text

theorem StaysOnLines.of_suffix {text rest : List Char} (hstays : StaysOnLines text)
    (hrest : rest <:+ text) : StaysOnLines rest :=
  fun sign hsign hoccurs => hstays sign hsign (hoccurs.trans hrest.isInfix)

/-- A sign that has begun and may still come to its quote. -/
def VerbatimSign.text : VerbatimSign → List Char
  | .absent => []
  | .direct => ['@']
  | .interpolated => ['@', '$']

namespace Region

/-- The scanner stands before a text in a region that a line break ends, and nothing in the
text leads it anywhere else. -/
def OnLine : Region → List Char → Prop
  | .code sign, text => StaysOnLines (sign.text ++ text)
  | .lineComment, text | .literal _, text => StaysOnLines text
  | .escaped _, text => StaysOnLines text ∧ text.head? ≠ some '\n'
  | _, _ => False

theorem onLine_step_code {sign : VerbatimSign} {c : Char} {rest : List Char}
    (hline : StaysOnLines (sign.text ++ c :: rest)) : ((code sign).step c rest).1.OnLine rest := by
  have hrest : StaysOnLines rest :=
    hline.of_suffix ((List.suffix_cons c rest).trans (List.suffix_append _ _))
  by_cases hslash : c = '/'
  · subst hslash
    have hblock : rest.head? ≠ some '*' := by
      intro hhead
      obtain ⟨behind, rfl⟩ := head?_eq_some_iff.mp hhead
      exact hline ['/', '*'] (by decide) ⟨sign.text, behind, by simp⟩
    by_cases hcomment : rest.head? = some '/'
    · simpa [Region.step, hcomment, OnLine] using hrest
    · simpa [Region.step, hcomment, hblock, OnLine, VerbatimSign.text] using hrest
  by_cases hquote : IsQuote c
  · have htwo : startsWithTwo c rest = false := by
      rw [← Bool.not_eq_true]
      intro htwo
      obtain ⟨behind, rfl⟩ := startsWithTwo_eq_true_iff.mp htwo
      have hsign : [c, c, c] ∈ spanningSigns := by
        rcases hquote with rfl | rfl <;> decide
      exact hline [c, c, c] hsign ⟨sign.text, behind, by simp⟩
    rcases hquote with rfl | rfl
    · cases sign with
      | absent => simpa [Region.step, htwo, OnLine] using hrest
      | direct =>
          exact absurd ⟨[], rest, by simp [VerbatimSign.text]⟩
            (hline ['@', '"'] (by decide))
      | interpolated =>
          exact absurd ⟨[], rest, by simp [VerbatimSign.text]⟩
            (hline ['@', '$', '"'] (by decide))
    · simpa [Region.step, htwo, OnLine] using hrest
  rw [IsQuote, not_or] at hquote
  by_cases hhash : c = '#'
  · simpa [Region.step, hhash, OnLine] using hrest
  by_cases hdirect : c = '@'
  · have hsuffix : VerbatimSign.direct.text ++ rest <:+ sign.text ++ c :: rest := by
      rw [hdirect]
      exact List.suffix_append _ _
    simpa [Region.step, hdirect, OnLine] using hline.of_suffix hsuffix
  by_cases hdollar : c = '$' ∧ sign = .direct
  · simpa [Region.step, hdollar.1, hdollar.2, OnLine, VerbatimSign.text] using hline
  · simpa [Region.step, hslash, hquote.1, hquote.2, hhash, hdirect, hdollar, OnLine,
      VerbatimSign.text] using hrest

variable {region : Region} {c : Char} {rest : List Char}

theorem OnLine.step (honLine : region.OnLine (c :: rest)) :
    (region.step c rest).1.OnLine rest := by
  cases region with
  | code sign => exact onLine_step_code honLine
  | lineComment =>
      have hrest : StaysOnLines rest := honLine.of_suffix (List.suffix_cons c rest)
      simp only [Region.step]
      split_ifs <;> exact hrest
  | literal quote =>
      have hrest : StaysOnLines rest := honLine.of_suffix (List.suffix_cons c rest)
      simp only [Region.step]
      split_ifs with hend hescape
      · exact hrest
      · refine ⟨hrest, ?_⟩
        intro hhead
        simp [hhead] at hescape
      · exact hrest
  | escaped quote => exact honLine.1.of_suffix (List.suffix_cons c rest)
  | commentOpener | blockComment | commentCloser | verbatim | doubledQuote
  | rawOpener quote remaining | raw quote | rawCloser quote remaining => exact honLine.elim

theorem OnLine.step_break (honLine : region.OnLine ['\n']) :
    (region.step '\n' []).1 = plainCode := by
  cases region with
  | code sign | lineComment | literal quote => simp [Region.step]
  | escaped quote => exact absurd rfl honLine.2
  | commentOpener | blockComment | commentCloser | verbatim | doubledQuote
  | rawOpener quote remaining | raw quote | rawCloser quote remaining => exact honLine.elim

/-- A line that opens nothing else leaves the scanner in plain code. -/
theorem OnLine.behind_eq {front : List Char} (honLine : region.OnLine (front ++ ['\n'])) :
    region.behind (front ++ ['\n']) = plainCode := by
  induction front generalizing region with
  | nil => exact honLine.step_break
  | cons c front ih => exact ih honLine.step

end Region

/-- What follows a line has no influence on how it is masked.  A text in lines that opens no
literal and no comment on several lines has none on what follows either. -/
theorem mask_append_of_endsInBreak {first : List Char} (hfirst : EndsInBreak first)
    (second : List Char) :
    (encode (mask (first ++ second))).take (encode first).length = encode (mask first) ∧
      ((∀ sign ∈ spanningSigns, ¬sign <:+: first) →
        mask (first ++ second) = mask first ++ mask second) := by
  have hplain : Region.plainCode.QuotesOnLine := by
    simp [Region.QuotesOnLine, Region.quote?]
  have happend : mask (first ++ second) =
      mask first ++ maskFrom (Region.plainCode.behind first) second :=
    hplain.maskFrom_append hfirst second
  constructor
  · have hcovers : Covers (mask first) first := covers_maskFrom _ _
    rw [happend, encode_append, length_encode, ← hcovers.byteWidth_eq, ← length_encode,
      List.take_left]
  · intro hsigns
    have honLine : Region.plainCode.OnLine first := hsigns
    obtain ⟨front, rfl⟩ := hfirst
    rw [happend, honLine.behind_eq]
    rfl

/-- A comment, a directive and two literals that their lines end. -/
def brokenOffLines : List Char :=
  "int a; // it's\n#if \\\nvar s = \"open \\\nchar c = 'x\\'\n".toList

theorem mask_append_brokenOffLines :
    EndsInBreak brokenOffLines ∧ (∀ sign ∈ spanningSigns, ¬sign <:+: brokenOffLines) ∧
      mask (brokenOffLines ++ "class C { }".toList) =
        mask brokenOffLines ++ mask "class C { }".toList ∧
      (encode (mask (brokenOffLines ++ "class C { }".toList))).take
        (encode brokenOffLines).length = encode (mask brokenOffLines) := by
  have hlines : EndsInBreak brokenOffLines := ⟨brokenOffLines.dropLast, by decide +kernel⟩
  have hsigns : ∀ sign ∈ spanningSigns, ¬sign <:+: brokenOffLines := by decide +kernel
  obtain ⟨hbytes, hmask⟩ := mask_append_of_endsInBreak hlines "class C { }".toList
  exact ⟨hlines, hsigns, hmask hsigns, hbytes⟩

end SourceAtlas.Text
