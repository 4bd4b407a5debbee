import SourceAtlas.CSharp.TypeDeclaration
import SourceAtlas.Proofs.MaskedBytes

/-!
# Verbatim literals

A quote behind an at sign opens a literal in which two quotes stand for one.  It is meant to
be blanked up to the quote that ends it, and the text behind it to be masked as if it stood
alone.  But three quotes in a row open a raw string first, whatever stands before them.  So a
verbatim literal that begins with a doubled quote is taken for a raw string, which three
quotes end and no others.
-/

namespace SourceAtlas.Text

/-- A text in which every quote is doubled. -/
inductive DoublesQuotes : List Char → Prop
  | nil : DoublesQuotes []
  | char {c : Char} (hc : c ≠ '"') {inside : List Char} (hinside : DoublesQuotes inside) :
      DoublesQuotes (c :: inside)
  | quotes {inside : List Char} (hinside : DoublesQuotes inside) :
      DoublesQuotes ('"' :: '"' :: inside)

/-- The characters at which code ends. -/
def leavesCode (c : Char) : Bool :=
  c = '"' || c = '\'' || c = '/' || c = '#'

variable {front inside rest : List Char}

theorem exists_step_code {c : Char} (hc : leavesCode c = false) (sign : VerbatimSign)
    (rest : List Char) : ∃ next, (Region.code sign).step c rest = (.code next, false) := by
  simp only [leavesCode, Bool.or_eq_false_iff, decide_eq_false_iff_not] at hc
  obtain ⟨⟨⟨hquote, happ⟩, hslash⟩, hhash⟩ := hc
  exact Region.exists_step_plain ⟨hhash, hquote, happ⟩ (by simp [hslash]) (by simp [hslash]) sign

/-- Code is kept as long as nothing ends it. -/
theorem exists_maskFrom_code (hfront : ∀ c ∈ front, leavesCode c = false) (sign : VerbatimSign)
    (rest : List Char) :
    ∃ next, maskFrom (.code sign) (front ++ rest) = front ++ maskFrom (.code next) rest := by
  induction front generalizing sign with
  | nil => exact ⟨sign, rfl⟩
  | cons c front ih =>
      rw [List.forall_mem_cons] at hfront
      obtain ⟨next, hstep⟩ := exists_step_code hfront.1 sign (front ++ rest)
      obtain ⟨last, hlast⟩ := ih hfront.2 next
      refine ⟨last, ?_⟩
      rw [List.cons_append, maskFrom_cons, hstep, hlast]
      rfl

theorem mask_at_sign (hfront : ∀ c ∈ front, leavesCode c = false) (rest : List Char) :
    mask (front ++ '@' :: rest) = front ++ '@' :: maskFrom (.code .direct) rest := by
  obtain ⟨sign, hcode⟩ := exists_maskFrom_code hfront .absent ('@' :: rest)
  have hstep : (Region.code sign).step '@' rest = (.code .direct, false) := by
    simp [Region.step]
  rw [mask, Region.plainCode, hcode, maskFrom_cons, hstep]
  rfl

theorem maskFrom_verbatim (hinside : DoublesQuotes inside) (hrest : rest.head? ≠ some '"') :
    maskFrom .verbatim (inside ++ '"' :: rest) = inside.flatMap blankOut ++ '"' :: mask rest := by
  induction hinside with
  | nil =>
      have hstep : Region.verbatim.step '"' rest = (.plainCode, false) := by
        simp [Region.step, hrest]
      rw [List.nil_append, maskFrom_cons, hstep]
      rfl
  | @char c hc inside hinside ih =>
      have hstep : Region.verbatim.step c (inside ++ '"' :: rest) = (.verbatim, true) := by
        simp [Region.step, hc]
      rw [List.cons_append, maskFrom_cons, hstep, ih, List.flatMap_cons, List.append_assoc]
      rfl
  | @quotes inside hinside ih =>
      have hfirst : Region.verbatim.step '"' ('"' :: (inside ++ '"' :: rest)) =
          (.doubledQuote, true) := by
        simp [Region.step]
      have hsecond : Region.doubledQuote.step '"' (inside ++ '"' :: rest) = (.verbatim, true) := rfl
      rw [List.cons_append, List.cons_append, maskFrom_cons, hfirst, maskFrom_cons, hsecond, ih,
        List.flatMap_cons, List.flatMap_cons, List.append_assoc, List.append_assoc]
      rfl

/-- Two quotes behind the first one are those of a doubled quote at the start of the literal. -/
theorem startsWithTwo_inside (hinside : DoublesQuotes inside) (hrest : rest.head? ≠ some '"') :
    startsWithTwo '"' (inside ++ '"' :: rest) = true ↔ inside.head? = some '"' := by
  cases hinside with
  | nil =>
      cases rest with
      | nil => simp [startsWithTwo]
      | cons c rest => simpa [startsWithTwo] using hrest
  | @char c hc inside hinside =>
      have hstart : startsWithTwo '"' (c :: (inside ++ '"' :: rest)) = false := by
        cases inside <;> simp [startsWithTwo, hc]
      simp [hstart, hc]
  | quotes hinside => simp [startsWithTwo]

theorem maskFrom_direct {text : List Char} (htwo : startsWithTwo '"' text = false) :
    maskFrom (.code .direct) ('"' :: text) = '"' :: maskFrom .verbatim text := by
  have hstep : (Region.code .direct).step '"' text = (.verbatim, false) := by
    simp [Region.step, htwo]
  rw [maskFrom_cons, hstep]
  rfl

theorem maskFrom_threeQuotes (sign : VerbatimSign) (text : List Char) :
    maskFrom (.code sign) ('"' :: '"' :: '"' :: text) =
      '"' :: '"' :: '"' :: maskFrom (.raw '"') text := by
  have hstep : (Region.code sign).step '"' ('"' :: '"' :: text) = (.rawOpener '"' 2, false) := by
    simp [Region.step, startsWithTwo]
  have hsecond : (Region.rawOpener '"' 2).step '"' ('"' :: text) = (.rawOpener '"' 1, false) := rfl
  have hthird : (Region.rawOpener '"' 1).step '"' text = (.raw '"', false) := rfl
  rw [maskFrom_cons, hstep, maskFrom_cons, hsecond, maskFrom_cons, hthird]
  rfl

/-- A verbatim literal is blanked, and the text behind it masked by itself, exactly if it does
not begin with a doubled quote.  With one, three quotes stand where the literal opens, and all
that follows is masked as the inside of a raw string. -/
theorem mask_verbatim_literal (hfront : ∀ c ∈ front, leavesCode c = false)
    (hinside : DoublesQuotes inside) (hrest : rest.head? ≠ some '"') :
    (mask (front ++ '@' :: '"' :: (inside ++ '"' :: rest)) =
        front ++ '@' :: '"' :: (inside.flatMap blankOut ++ '"' :: mask rest) ↔
      inside.head? ≠ some '"') ∧
    ∀ behind, inside = '"' :: '"' :: behind →
      mask (front ++ '@' :: '"' :: (inside ++ '"' :: rest)) =
        front ++ '@' :: '"' :: '"' :: '"' :: maskFrom (.raw '"') (behind ++ '"' :: rest) := by
  have hraw : ∀ behind, inside = '"' :: '"' :: behind →
      mask (front ++ '@' :: '"' :: (inside ++ '"' :: rest)) =
        front ++ '@' :: '"' :: '"' :: '"' :: maskFrom (.raw '"') (behind ++ '"' :: rest) := by
    rintro behind rfl
    rw [mask_at_sign hfront, List.cons_append, List.cons_append, maskFrom_threeQuotes]
  refine ⟨⟨?_, ?_⟩, hraw⟩
  · intro hmask hhead
    obtain ⟨behind, rfl⟩ : ∃ behind, inside = '"' :: '"' :: behind := by
      cases hinside with
      | nil => simp at hhead
      | char hc hinside => exact absurd (Option.some.inj hhead) hc
      | @quotes inside hinside => exact ⟨inside, rfl⟩
    -- The masked text keeps a quote where a space should be.
    rw [hraw behind rfl, List.append_cancel_left_eq] at hmask
    have hblank : blankOut '"' = [' '] := by decide
    simp [hblank] at hmask
  · intro hhead
    have htwo : startsWithTwo '"' (inside ++ '"' :: rest) = false := by
      rw [← Bool.not_eq_true, startsWithTwo_inside hinside hrest]
      exact hhead
    rw [mask_at_sign hfront, maskFrom_direct htwo, maskFrom_verbatim hinside hrest]

/-- A class behind the literal. -/
def classBehind : List Char :=
  "; class C { }".toList

/-- A doubled quote, a line break and a brace in the midst of a literal. -/
theorem mask_verbatim_literal_quoteInside :
    (∀ c ∈ ['s', ' ', '=', '$'], leavesCode c = false) ∧
      DoublesQuotes ['a', '"', '"', '\n', '\x7b'] ∧ classBehind.head? ≠ some '"' ∧
      mask (['s', ' ', '=', '$'] ++
          '@' :: '"' :: (['a', '"', '"', '\n', '\x7b'] ++ '"' :: classBehind)) =
        ['s', ' ', '=', '$'] ++ '@' :: '"' ::
          (['a', '"', '"', '\n', '\x7b'].flatMap blankOut ++ '"' :: mask classBehind) := by
  have hfront : ∀ c ∈ ['s', ' ', '=', '$'], leavesCode c = false := by simp [leavesCode]
  have hinside : DoublesQuotes ['a', '"', '"', '\n', '\x7b'] :=
    .char (by decide) (.quotes (.char (by decide) (.char (by decide) .nil)))
  have hrest : classBehind.head? ≠ some '"' := by decide +kernel
  exact ⟨hfront, hinside, hrest,
    (mask_verbatim_literal hfront hinside hrest).1.mpr (by decide)⟩

/-- With a doubled quote first, the literal is not masked as a verbatim one, and the class behind
it is lost. -/
theorem not_mask_verbatim_quoteFirst :
    ¬(∀ front inside rest : List Char, (∀ c ∈ front, leavesCode c = false) →
        DoublesQuotes inside → rest.head? ≠ some '"' →
        mask (front ++ '@' :: '"' :: (inside ++ '"' :: rest)) =
          front ++ '@' :: '"' :: (inside.flatMap blankOut ++ '"' :: mask rest)) ∧
      (CSharp.TypeDeclaration.topLevel (mask classBehind)).map (·.name) = ["C"] ∧
      (CSharp.TypeDeclaration.topLevel
        (mask (['@', '"', '"', '"', 'a', '"'] ++ classBehind))).map (·.name) = [] := by
  refine ⟨?_, by decide +kernel, by decide +kernel⟩
  intro hmask
  have hinside : DoublesQuotes ['"', '"', 'a'] := .quotes (.char (by decide) .nil)
  have hwrong : mask ([] ++ '@' :: '"' :: (['"', '"', 'a'] ++ '"' :: classBehind)) ≠
      [] ++ '@' :: '"' :: (['"', '"', 'a'].flatMap blankOut ++ '"' :: mask classBehind) := by
    decide +kernel
  exact hwrong (hmask [] ['"', '"', 'a'] classBehind (by simp) hinside (by decide +kernel))

end SourceAtlas.Text
