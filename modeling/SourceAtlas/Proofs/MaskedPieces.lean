import SourceAtlas.Proofs.RepeatedMasking

/-!
# Masking a piece of a text

A piece of a text is masked from the region that its front leaves behind, with an eye on
what follows.  At the start of a line the scanner is in plain code or in a comment or
literal that goes on over line breaks.  From there a piece without quotes can only get
back into code where a comment is closed, so a piece that ends in code and closes no
comment is kept as it is.
-/

namespace SourceAtlas.Text

namespace Region

/-- The masked form of the first part of a text that is scanned from a region on. -/
def maskPart (region : Region) : List Char → List Char → List Char
  | [], _ => []
  | c :: front, rest =>
      (if (region.step c (front ++ rest)).2 then blankOut c else [c]) ++
        (region.step c (front ++ rest)).1.maskPart front rest

/-- The region behind the first part of a text. -/
def behindPart (region : Region) : List Char → List Char → Region
  | [], _ => region
  | c :: front, rest => (region.step c (front ++ rest)).1.behindPart front rest

theorem maskFrom_append (region : Region) (front rest : List Char) :
    maskFrom region (front ++ rest) =
      region.maskPart front rest ++ maskFrom (region.behindPart front rest) rest := by
  induction front generalizing region with
  | nil => rfl
  | cons c front ih => rw [List.cons_append, maskFrom_cons, ih, maskPart, behindPart,
      List.append_assoc]

theorem covers_maskPart (region : Region) (front rest : List Char) :
    Covers (region.maskPart front rest) front := by
  induction front generalizing region with
  | nil => exact .nil
  | cons c front ih =>
      rw [maskPart]
      exact (ih _).cons c _

/-- The region is a comment or literal, in which the scanner blanks what it reads. -/
def Hides : Region → Prop
  | .lineComment | .commentOpener | .blockComment | .literal _ | .escaped _ | .verbatim
  | .doubledQuote | .raw _ => True
  | .code _ | .commentCloser | .rawOpener _ _ | .rawCloser _ _ => False

/-- The quotes that the scanner has seen ahead. -/
def quotesAhead : Region → List Char
  | .rawOpener quote remaining | .rawCloser quote remaining => List.replicate remaining quote
  | _ => []

/-- The scanner waits for quotes, and those that it has seen ahead are there. -/
structure Fits (region : Region) (text : List Char) : Prop where
  quote : ∀ quote ∈ region.quote?, IsQuote quote
  ahead : region.quotesAhead <+: text

theorem fits_plainCode (text : List Char) : plainCode.Fits text where
  quote := by simp [quote?]
  ahead := List.nil_prefix

variable {region : Region} {c : Char} {piece rest : List Char}

theorem replicate_two_prefix (htwo : startsWithTwo c rest = true) :
    List.replicate 2 c <+: rest := by
  obtain ⟨behind, rfl⟩ := startsWithTwo_eq_true_iff.mp htwo
  exact ⟨behind, rfl⟩

theorem replicate_sub_one_prefix {quote : Char} {remaining : Nat}
    (hahead : List.replicate remaining quote <+: c :: rest) :
    List.replicate (remaining - 1) quote <+: rest := by
  cases remaining with
  | zero => exact List.nil_prefix
  | succ remaining => exact (List.cons_prefix_cons.mp hahead).2

theorem Fits.step (hfits : region.Fits (c :: rest)) : (region.step c rest).1.Fits rest := by
  obtain ⟨hquote, hahead⟩ := hfits
  constructor
  · cases region <;> simp only [Region.step] <;> grind [quote?, IsQuote]
  · cases region with
    | code sign =>
        simp only [Region.step, Bool.and_eq_true]
        split_ifs with _ _ htwo
        · exact List.nil_prefix
        · exact List.nil_prefix
        · exact replicate_two_prefix htwo.2
        all_goals exact List.nil_prefix
    | rawOpener quote remaining | rawCloser quote remaining =>
        simp only [Region.step]
        split_ifs
        · exact List.nil_prefix
        · exact replicate_sub_one_prefix hahead
    | raw quote =>
        simp only [Region.step, Bool.and_eq_true, decide_eq_true_eq]
        split_ifs with htwo
        · exact replicate_two_prefix htwo.2
        · exact List.nil_prefix
    | lineComment | blockComment | literal quote | verbatim =>
        simp only [Region.step]
        split_ifs <;> exact List.nil_prefix
    | commentOpener | commentCloser | escaped quote | doubledQuote => exact List.nil_prefix

/-- Behind a line break the scanner is in plain code, or in what goes on over lines. -/
theorem Fits.step_break (hfits : region.Fits ('\n' :: rest)) :
    (region.step '\n' rest).1 = plainCode ∨ (region.step '\n' rest).1.Hides := by
  have hbreak : ∀ quote ∈ region.quote?, quote ≠ '\n' := by
    rintro quote hmem rfl
    rcases hfits.quote '\n' hmem with h | h <;> contradiction
  cases region with
  | rawOpener quote remaining | rawCloser quote remaining =>
      by_cases hlast : remaining ≤ 1
      · simp [Region.step, hlast, Hides]
      · obtain ⟨more, rfl⟩ := Nat.exists_eq_add_one.mpr (by omega : 0 < remaining)
        have hquote : quote = '\n' := (List.cons_prefix_cons.mp hfits.ahead).1
        exact absurd hquote (hbreak quote (by simp [quote?]))
  | raw quote =>
      have hquote := hbreak quote (by simp [quote?])
      simp [Region.step, hquote.symm, Hides]
  | code sign | lineComment | commentOpener | blockComment | commentCloser | literal quote
  | escaped quote | verbatim | doubledQuote =>
      simp [Region.step, Hides]

theorem Fits.behindPart (hfits : region.Fits (piece ++ rest)) :
    (region.behindPart piece rest).Fits rest := by
  induction piece generalizing region with
  | nil => exact hfits
  | cons c piece ih => exact ih hfits.step

theorem Fits.behindPart_break (hfits : region.Fits ((piece ++ ['\n']) ++ rest)) :
    region.behindPart (piece ++ ['\n']) rest = plainCode ∨
      (region.behindPart (piece ++ ['\n']) rest).Hides := by
  induction piece generalizing region with
  | nil => exact hfits.step_break
  | cons c piece ih => exact ih hfits.step

/-- In hiding, a character is blanked and leads nowhere else, unless it is kept as a line
break or a quote or closes a comment. -/
theorem Hides.step (hhides : region.Hides) (hfits : region.Fits (c :: rest)) :
    ((region.step c rest).2 = true ∧ (region.step c rest).1.Hides) ∨
      ((region.step c rest).2 = false ∧ (c = '\n' ∨ IsQuote c)) ∨
      (c = '*' ∧ rest.head? = some '/' ∧ (region.step c rest).2 = true) := by
  have hquote := hfits.quote
  cases region <;> simp only [Region.step] <;> grind [quote?, IsQuote, Hides]

/-- In code, a character that is kept leads on in code or is a quote, and one that is
blanked begins a comment. -/
theorem code_step_cases (sign : VerbatimSign) :
    ((∃ next, (code sign).step c rest = (.code next, false)) ∨
      (((code sign).step c rest).2 = false ∧ IsQuote c)) ∨
      (((code sign).step c rest).2 = true ∧ ((code sign).step c rest).1.Hides) := by
  simp only [Region.step]
  grind [IsQuote, Hides]

theorem eq_space_of_mem_blankOut {d : Char} (hbreak : '\n' ∉ blankOut c)
    (hd : d ∈ blankOut c) : d = ' ' := by
  unfold blankOut at hbreak hd
  split at hd
  · next hc => simp [hc] at hbreak
  · exact List.eq_of_mem_replicate hd

/-- The characters can be found in a directive: none is a line break or a quote. -/
def IsClean (masked : List Char) : Prop :=
  ∀ c ∈ masked, c ≠ '\n' ∧ ¬IsQuote c

/-- A piece that begins in hiding is blanked if nothing of it is kept as a line break or
a quote and it closes no comment. -/
theorem Hides.maskPart_blank (hhides : region.Hides) (hfits : region.Fits (piece ++ rest))
    (hclean : IsClean (region.maskPart piece rest)) (hcomment : ¬['*', '/'] <:+: piece) :
    ∀ c ∈ region.maskPart piece rest, c = ' ' := by
  induction piece generalizing region with
  | nil => simp [maskPart]
  | cons c piece ih =>
      have hhead : region.Fits (c :: (piece ++ rest)) := hfits
      have hrest : ¬['*', '/'] <:+: piece := fun hcloses => hcomment (List.infix_cons hcloses)
      rw [maskPart] at hclean ⊢
      obtain ⟨hfirst, htail⟩ := List.forall_mem_append.mp hclean
      rw [List.forall_mem_append]
      rcases hhides.step hhead with ⟨hblanked, hgoesOn⟩ | ⟨hkept, hc⟩ | ⟨rfl, hslash, hblanked⟩
      · rw [if_pos hblanked] at hfirst ⊢
        exact ⟨fun d => eq_space_of_mem_blankOut fun hbreak => (hfirst _ hbreak).1 rfl,
          ih hgoesOn hhead.step htail hrest⟩
      · have hsign := hfirst c (by simp [hkept])
        exact absurd hc (not_or.mpr hsign)
      · -- The comment is closed behind the piece.
        cases piece with
        | nil =>
            rw [if_pos hblanked]
            exact ⟨fun d => eq_space_of_mem_blankOut (by decide), by simp [maskPart]⟩
        | cons d piece =>
            obtain rfl : d = '/' := by simpa using hslash
            exact absurd ⟨[], piece, rfl⟩ hcomment

/-- A piece that begins in code and ends in a kept semicolon is kept if it closes no
comment. -/
theorem maskPart_code_eq (sign : VerbatimSign) (hfits : (code sign).Fits (piece ++ rest))
    (hclean : IsClean ((code sign).maskPart piece rest)) (hcomment : ¬['*', '/'] <:+: piece)
    (hlast : ((code sign).maskPart piece rest).getLast? = some ';') :
    (code sign).maskPart piece rest = piece := by
  induction piece generalizing sign with
  | nil => rfl
  | cons c piece ih =>
      have hhead : (code sign).Fits (c :: (piece ++ rest)) := hfits
      have hrest : ¬['*', '/'] <:+: piece := fun hcloses => hcomment (List.infix_cons hcloses)
      rw [maskPart] at hclean hlast ⊢
      obtain ⟨hfirst, htail⟩ := List.forall_mem_append.mp hclean
      rcases code_step_cases sign with (⟨next, hstep⟩ | ⟨hkept, hc⟩) | ⟨hblanked, hhides⟩
      · have hnext := hhead.step
        rw [hstep] at htail hlast hnext ⊢
        cases piece with
        | nil => rfl
        | cons d piece =>
            have hne : (code next).maskPart (d :: piece) rest ≠ [] := by
              intro hnil
              have hempty := (covers_maskPart (code next) (d :: piece) rest).isEmpty_eq
              rw [hnil] at hempty
              contradiction
            rw [List.getLast?_append_of_ne_nil _ hne] at hlast
            rw [ih next hnext htail hrest hlast]
            rfl
      · exact absurd hc (hfirst c (by simp [hkept])).2
      · rw [if_pos hblanked] at hfirst hlast
        have htailBlank := hhides.maskPart_blank hhead.step htail hrest
        have hspace : ';' = ' ' := by
          rcases List.mem_append.mp (List.mem_of_getLast? hlast) with hmem | hmem
          · exact eq_space_of_mem_blankOut (fun hbreak => (hfirst _ hbreak).1 rfl) hmem
          · exact htailBlank _ hmem
        contradiction

/-- A piece without stars is kept as it is exactly if it closes no comment, when it begins
with a line, ends in a kept semicolon and has no line break and no quote. -/
theorem maskPart_eq_self_iff (hregion : region = plainCode ∨ region.Hides)
    (hfits : region.Fits (piece ++ rest)) (hclean : IsClean (region.maskPart piece rest))
    (hstar : '*' ∉ region.maskPart piece rest)
    (hlast : (region.maskPart piece rest).getLast? = some ';') :
    region.maskPart piece rest = piece ↔ ¬['*', '/'] <:+: piece := by
  constructor
  · intro hkept hcloses
    rw [hkept] at hstar
    exact hstar (hcloses.subset (by simp))
  · intro hcomment
    rcases hregion with rfl | hhides
    · exact maskPart_code_eq .absent hfits hclean hcomment hlast
    · have hspace : ';' = ' ' :=
        hhides.maskPart_blank hfits hclean hcomment _ (List.mem_of_getLast? hlast)
      contradiction

end Region

/-- Where a masked text is cut behind a line break or at its start, what is cut out is the
masked form of the same stretch of the text, scanned from a region in which lines begin. -/
theorem exists_region_of_cut {front piece rest before found after : List Char}
    (hmask : mask (front ++ (piece ++ rest)) = before ++ (found ++ after))
    (hfront : byteWidth front = byteWidth before) (hpiece : byteWidth piece = byteWidth found)
    (hline : ∀ c ∈ before.getLast?, c = '\n') :
    ∃ region : Region, (region = .plainCode ∨ region.Hides) ∧ region.Fits (piece ++ rest) ∧
      region.maskPart piece rest = found := by
  have hsplit : mask (front ++ (piece ++ rest)) =
      Region.plainCode.maskPart front (piece ++ rest) ++
        ((Region.plainCode.behindPart front (piece ++ rest)).maskPart piece rest ++
          maskFrom ((Region.plainCode.behindPart front (piece ++ rest)).behindPart piece rest)
            rest) := by
    rw [mask, Region.maskFrom_append, Region.maskFrom_append]
  have hbefore : Region.plainCode.maskPart front (piece ++ rest) = before := by
    have hwidth := (Region.covers_maskPart .plainCode front (piece ++ rest)).byteWidth_eq
    rw [← takeBytes_append before (found ++ after), ← hmask, ← hfront, ← hwidth, hsplit,
      takeBytes_append]
  have hfits : Region.plainCode.Fits (front ++ (piece ++ rest)) := Region.fits_plainCode _
  refine ⟨Region.plainCode.behindPart front (piece ++ rest), ?_, hfits.behindPart, ?_⟩
  · have hcovers := Region.covers_maskPart .plainCode front (piece ++ rest)
    rw [hbefore] at hcovers
    rcases List.eq_nil_or_concat before with rfl | ⟨init, c, rfl⟩
    · have hnil : front = [] := List.isEmpty_iff.mp hcovers.isEmpty_eq.symm
      rw [hnil]
      exact .inl rfl
    · obtain rfl : c = '\n' := hline c (by simp)
      have hlast : init.concat '\n' = init ++ '\n' :: [] := List.concat_eq_append
      obtain ⟨first, behind, rfl, -, hbehind⟩ := hcovers.exists_split hlast (by decide)
      obtain rfl : behind = [] := List.isEmpty_iff.mp hbehind.isEmpty_eq.symm
      exact hfits.behindPart_break
  · have hwidth := (Region.covers_maskPart (Region.plainCode.behindPart front (piece ++ rest))
      piece rest).byteWidth_eq
    rw [hbefore] at hsplit
    rw [hsplit] at hmask
    have hrest := List.append_cancel_left hmask
    rw [← takeBytes_append found after, ← hrest, ← hpiece, ← hwidth, takeBytes_append]

end SourceAtlas.Text
