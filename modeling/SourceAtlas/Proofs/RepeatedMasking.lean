import SourceAtlas.Proofs.MaskedBytes

/-!
# Masking a masked text

A masked text has the delimiters of its text and only spaces and line breaks between
them.  A second run therefore opens and closes every literal where the first one did; it
is one region behind only where the first run has skipped a character, and comments are
plain code to it.  Whatever the first run has blanked leaves the second one where it is,
and whatever it has kept is kept again.
-/

namespace SourceAtlas.Text

variable {masked text : List Char} {c : Char}

theorem Covers.exists_eq_cons (hcovers : Covers (c :: masked) text) (hc : c ≠ ' ') :
    ∃ rest, text = c :: rest ∧ Covers masked rest := by
  have hmasked : c :: masked = [] ++ c :: masked := rfl
  obtain ⟨before, rest, rfl, hfront, hrest⟩ := hcovers.exists_split hmasked hc
  have hbefore : before = [] := List.isEmpty_iff.mp hfront.isEmpty_eq.symm
  exact ⟨rest, by rw [hbefore, List.nil_append], hrest⟩

theorem Covers.head?_of_head? (hcovers : Covers masked text) (hc : c ≠ ' ')
    (hhead : masked.head? = some c) : text.head? = some c := by
  obtain ⟨rest, rfl⟩ := head?_eq_some_iff.mp hhead
  obtain ⟨behind, rfl, -⟩ := hcovers.exists_eq_cons hc
  rfl

theorem Covers.startsWithTwo_of_startsWithTwo (hcovers : Covers masked text) (hc : c ≠ ' ')
    (htwo : startsWithTwo c masked = true) : startsWithTwo c text = true := by
  obtain ⟨rest, rfl⟩ := startsWithTwo_eq_true_iff.mp htwo
  obtain ⟨behind, rfl, hrest⟩ := hcovers.exists_eq_cons hc
  obtain ⟨behind, rfl, -⟩ := hrest.exists_eq_cons hc
  exact startsWithTwo_eq_true_iff.mpr ⟨behind, rfl⟩

theorem IsQuote.ne_space {quote : Char} (hquote : IsQuote quote) : quote ≠ ' ' := by
  rcases hquote with rfl | rfl <;> decide

namespace Region

/-- The region in which the second run stands where the first one stands in a region. -/
def again : Region → Region
  | .lineComment | .commentOpener | .blockComment | .commentCloser => .plainCode
  | .escaped quote => .literal quote
  | .doubledQuote => .verbatim
  | .code sign => .code sign
  | .literal quote => .literal quote
  | .verbatim => .verbatim
  | .rawOpener quote remaining => .rawOpener quote remaining
  | .raw quote => .raw quote
  | .rawCloser quote remaining => .rawCloser quote remaining

/-- The scanner waits for quotes, and no line break is escaped. -/
structure Ready (region : Region) (text : List Char) : Prop where
  quote : ∀ quote ∈ region.quote?, IsQuote quote
  escaped : ∀ quote, region = .escaped quote → text.head? ≠ some '\n'

theorem ready_plainCode (text : List Char) : plainCode.Ready text where
  quote := by simp [quote?]
  escaped := by simp

variable {region : Region} {rest : List Char}

theorem Ready.step (hready : region.Ready (c :: rest)) : (region.step c rest).1.Ready rest := by
  obtain ⟨hquote, -⟩ := hready
  constructor
  · cases region <;> simp only [Region.step] <;> grind [quote?, IsQuote]
  · cases region <;> simp only [Region.step] <;> grind

/-- Two quotes behind a quote that opens or closes a raw string are kept. -/
theorem startsWithTwo_maskFrom {quote : Char} (htwo : startsWithTwo quote rest = true) :
    startsWithTwo quote (maskFrom (.rawOpener quote 2) rest) = true ∧
      startsWithTwo quote (maskFrom (.rawCloser quote 2) rest) = true := by
  obtain ⟨behind, rfl⟩ := startsWithTwo_eq_true_iff.mp htwo
  simp [maskFrom_cons, Region.step, startsWithTwo]

/-- What the scanner sees ahead of it is the same in a masked text as far as it kept anything
there. -/
theorem startsWithTwo_maskFrom_step {sign : VerbatimSign} (hquote : IsQuote c) :
    startsWithTwo c (maskFrom ((code sign).step c rest).1 rest) = startsWithTwo c rest := by
  have hcovers : Covers (maskFrom ((code sign).step c rest).1 rest) rest := covers_maskFrom _ _
  cases htwo : startsWithTwo c rest with
  | true =>
      have hnext : ((code sign).step c rest).1 = .rawOpener c 2 := by
        rcases hquote with rfl | rfl <;> simp [Region.step, htwo]
      rw [hnext]
      exact (startsWithTwo_maskFrom htwo).1
  | false =>
      rw [← Bool.not_eq_true] at htwo ⊢
      exact fun hmasked => htwo (hcovers.startsWithTwo_of_startsWithTwo hquote.ne_space hmasked)

theorem again_step_code {sign : VerbatimSign} (hkept : ((code sign).step c rest).2 = false) :
    (code sign).step c (maskFrom ((code sign).step c rest).1 rest) =
      (((code sign).step c rest).1.again, false) := by
  have hcovers : Covers (maskFrom ((code sign).step c rest).1 rest) rest := covers_maskFrom _ _
  have htwo : IsQuote c →
      startsWithTwo c (maskFrom ((code sign).step c rest).1 rest) = startsWithTwo c rest :=
    fun hquote => startsWithTwo_maskFrom_step hquote
  have hagain : ((code sign).step c rest).1.again = ((code sign).step c rest).1 := by
    revert hkept
    simp only [Region.step]
    split_ifs <;> simp [again]
  -- No comment begins here, and ahead of the second run stands none either.
  have hslash : c = '/' → ∀ d, d = '/' ∨ d = '*' →
      rest.head? ≠ some d ∧ (maskFrom ((code sign).step c rest).1 rest).head? ≠ some d := by
    rintro rfl d hd
    have hrest : rest.head? ≠ some d := by
      intro hhead
      rcases hd with rfl | rfl <;> simp [Region.step, hhead] at hkept
    refine ⟨hrest, mt (hcovers.head?_of_head? ?_) hrest⟩
    rcases hd with rfl | rfl <;> decide
  have hsame : (code sign).step c (maskFrom ((code sign).step c rest).1 rest) =
      (code sign).step c rest := by
    generalize maskFrom ((code sign).step c rest).1 rest = masked at htwo hslash
    by_cases hc : c = '/'
    · have hline := hslash hc '/' (.inl rfl)
      have hblock := hslash hc '*' (.inr rfl)
      simp [Region.step, hc, hline.1, hline.2, hblock.1, hblock.2]
    · by_cases hquote : IsQuote c
      · simp only [Region.step, hc, htwo hquote]
        simp
      · rw [IsQuote, not_or] at hquote
        simp [Region.step, hc, hquote.1, hquote.2]
  rw [hsame, hagain, ← hkept]

/-- What the first run keeps leads the second one on and is kept again. -/
theorem again_step (hkept : (region.step c rest).2 = false) :
    region.again.step c (maskFrom (region.step c rest).1 rest) =
      ((region.step c rest).1.again, false) := by
  have hcovers : Covers (maskFrom (region.step c rest).1 rest) rest := covers_maskFrom _ _
  cases region with
  | code sign => exact again_step_code hkept
  | lineComment =>
      have hc : c = '\n' := by
        by_contra hc
        simp [Region.step, hc] at hkept
      rw [hc]
      rfl
  | literal quote =>
      have hc : c = quote ∨ c = '\n' := by
        by_contra hc
        revert hkept
        simp only [Region.step]
        split_ifs <;> simp_all
      simp [Region.step, again, hc]
  | verbatim =>
      have hc : c = '"' ∧ rest.head? ≠ some '"' := by
        revert hkept
        simp only [Region.step]
        split_ifs <;> simp_all
      have hmasked := mt (hcovers.head?_of_head? (c := '"') (by decide)) hc.2
      have hnext : (verbatim.step c rest).1 = .plainCode := by
        simp [Region.step, hc.1, hc.2]
      rw [hnext] at hmasked ⊢
      simp [Region.step, again, hc.1, hmasked]
  | raw quote =>
      have hc : c = quote ∧ startsWithTwo quote rest = true := by
        revert hkept
        simp only [Region.step]
        split_ifs <;> simp_all
      have hnext : ((raw quote).step c rest).1 = .rawCloser quote 2 := by
        simp [Region.step, hc.1, hc.2]
      have hmasked := (startsWithTwo_maskFrom hc.2).2
      rw [hnext]
      simp [Region.step, again, hc.1, hmasked]
  | rawOpener quote remaining | rawCloser quote remaining =>
      simp only [Region.step, again]
      split_ifs <;> rfl
  | commentOpener | commentCloser | escaped quote | doubledQuote => simp [Region.step] at hkept
  | blockComment =>
      exfalso
      revert hkept
      simp only [Region.step]
      split_ifs <;> simp

/-- The regions that a blanked character leads into. -/
def behindBlank : Region → List Region
  | .code _ => [.lineComment, .commentOpener]
  | .lineComment => [.lineComment]
  | .commentOpener => [.blockComment]
  | .blockComment => [.blockComment, .commentCloser]
  | .commentCloser => [.plainCode]
  | .literal quote => [.literal quote, .escaped quote]
  | .escaped quote => [.literal quote]
  | .verbatim => [.verbatim, .doubledQuote]
  | .doubledQuote => [.verbatim]
  | .raw quote => [.raw quote]
  | .rawOpener _ _ | .rawCloser _ _ => []

theorem step_mem_behindBlank (hblanked : (region.step c rest).2 = true) :
    (region.step c rest).1 ∈ region.behindBlank := by
  revert hblanked
  cases region <;> simp only [Region.step, behindBlank] <;> (try split_ifs) <;> simp

/-- A space in the place of what the first run blanks brings the second one where it has to be,
and more spaces leave it there. -/
theorem Ready.step_space (hready : region.Ready (c :: rest))
    (hblanked : (region.step c rest).2 = true) (masked : List Char) :
    (region.again.step ' ' masked).1 = (region.step c rest).1.again ∧
      ((region.step c rest).1.again.step ' ' masked).1 = (region.step c rest).1.again := by
  have hquote := hready.quote
  have hnext := step_mem_behindBlank hblanked
  generalize (region.step c rest).1 = next at hnext ⊢
  cases region with
  | code sign | blockComment | verbatim =>
      rcases List.mem_pair.mp hnext with rfl | rfl <;> simp [again, Region.step]
  | literal quote =>
      have hne := (hquote quote rfl).ne_space.symm
      rcases List.mem_pair.mp hnext with rfl | rfl <;> simp [again, Region.step, hne]
  | escaped quote | raw quote =>
      have hne := (hquote quote rfl).ne_space.symm
      obtain rfl := List.mem_singleton.mp hnext
      simp [again, Region.step, hne]
  | lineComment | commentOpener | commentCloser | doubledQuote =>
      obtain rfl := List.mem_singleton.mp hnext
      simp [again, Region.step]
  | rawOpener quote remaining | rawCloser quote remaining =>
      exact absurd hnext List.not_mem_nil

/-- So does a line break in the place of one that the first run passes in a comment or a literal. -/
theorem Ready.step_break (hready : region.Ready ('\n' :: rest))
    (hblanked : (region.step '\n' rest).2 = true) (masked : List Char) :
    (region.again.step '\n' masked).1 = (region.step '\n' rest).1.again := by
  have hquote := hready.quote
  cases region with
  | code sign => simp [Region.step] at hblanked
  | lineComment => simp [Region.step] at hblanked
  | literal quote => simp [Region.step] at hblanked
  | escaped quote => exact absurd rfl (hready.escaped quote rfl)
  | raw quote =>
      have hne : '\n' ≠ quote := by
        rcases hquote quote rfl with rfl | rfl <;> decide
      simp [again, Region.step, hne]
  | rawOpener quote remaining | rawCloser quote remaining => simp [Region.step] at hblanked
  | commentOpener | blockComment | commentCloser | verbatim | doubledQuote =>
      simp [again, Region.step]

end Region

theorem maskFrom_spaces {region next : Region} (hfirst : ∀ text, (region.step ' ' text).1 = next)
    (hnext : ∀ text, (next.step ' ' text).1 = next) (count : Nat) (text : List Char) :
    maskFrom region (List.replicate (count + 1) ' ' ++ text) =
      List.replicate (count + 1) ' ' ++ maskFrom next text := by
  -- A space that is blanked is a space again.
  have hspace : blankOut ' ' = [' '] := by decide
  induction count generalizing region with
  | zero =>
      rw [List.replicate_one, List.singleton_append, maskFrom_cons, hfirst, hspace, ite_self]
  | succ count ih =>
      rw [List.replicate_succ, List.cons_append, maskFrom_cons, hfirst, hspace, ite_self, ih hnext]
      rfl

/-- The second run passes what the first one has blanked and writes it again. -/
theorem Region.Ready.maskFrom_blankOut {region : Region} {rest : List Char}
    (hready : region.Ready (c :: rest)) (hblanked : (region.step c rest).2 = true)
    (text : List Char) :
    maskFrom region.again (blankOut c ++ text) =
      blankOut c ++ maskFrom (region.step c rest).1.again text := by
  by_cases hc : c = '\n'
  · subst hc
    have hbreak : blankOut '\n' = ['\n'] := by decide
    rw [hbreak, List.singleton_append, maskFrom_cons, hready.step_break hblanked, hbreak, ite_self]
  · obtain ⟨count, hcount⟩ := Nat.exists_eq_add_one.mpr c.utf8Size_pos
    rw [blankOut, if_neg hc, hcount]
    exact maskFrom_spaces (fun text => (hready.step_space hblanked text).1)
      (fun text => (hready.step_space hblanked text).2) count text

theorem Region.Ready.maskFrom_again {region : Region} (hready : region.Ready text) :
    maskFrom region.again (maskFrom region text) = maskFrom region text := by
  induction text generalizing region with
  | nil => rfl
  | cons c rest ih =>
      have hrest := ih hready.step
      rw [maskFrom_cons]
      cases hblanked : (region.step c rest).2 with
      | true => rw [if_pos rfl, hready.maskFrom_blankOut hblanked, hrest]
      | false =>
          rw [if_neg Bool.false_ne_true, List.singleton_append, maskFrom_cons,
            Region.again_step hblanked, hrest]
          rfl

/-- Masking a masked text changes nothing. -/
theorem mask_mask (text : List Char) : mask (mask text) = mask text :=
  (Region.ready_plainCode text).maskFrom_again

end SourceAtlas.Text
