import SourceAtlas.Proofs.BraceMatching
import SourceAtlas.Proofs.MaskedPieces
import SourceAtlas.Proofs.PlacedLines

/-!
# Line endings

A text may end its lines with a line break alone or with a carriage return before it.  The
scanner meets one character more at the end of each line, but it takes it like any other one
that is no sign: a region that goes on behind the line break goes on behind the carriage
return, and one that the line break ends is ended by it as before.  Only a backslash at the end
of a literal finds something to escape, and what it escapes would have been blanked anyway.  So
both scanners stand in the same region at the start of each line, and the masked texts differ
by the character before each line break.
-/

namespace SourceAtlas

open Text

namespace Text

/-- The text with a carriage return before every line break. -/
def withReturns (text : List Char) : List Char :=
  text.flatMap fun c => if c = '\n' then ['\r', '\n'] else [c]

/-- The bytes without those that a line break follows. -/
def dropBeforeBreaks : List UInt8 → List UInt8
  | [] => []
  | b :: rest =>
      if rest.head? = some '\n'.toUInt8 then dropBeforeBreaks rest
      else b :: dropBeforeBreaks rest

@[simp] theorem withReturns_nil : withReturns [] = [] := rfl

@[simp] theorem withReturns_break (text : List Char) :
    withReturns ('\n' :: text) = '\r' :: '\n' :: withReturns text := rfl

theorem withReturns_append (first second : List Char) :
    withReturns (first ++ second) = withReturns first ++ withReturns second :=
  List.flatMap_append

variable {c d : Char} {region : Region} {text rest : List Char}

theorem withReturns_cons (hc : c ≠ '\n') (text : List Char) :
    withReturns (c :: text) = c :: withReturns text := by
  simp [withReturns, hc]

theorem withReturns_of_notMem (htext : '\n' ∉ text) : withReturns text = text := by
  induction text with
  | nil => rfl
  | cons c text ih =>
      rw [List.mem_cons, not_or] at htext
      rw [withReturns_cons (Ne.symm htext.1), ih htext.2]

/-- A character other than those two begins the text with carriage returns where it begins the
text without them. -/
theorem head?_withReturns_iff (hbreak : d ≠ '\n') (hreturn : d ≠ '\r') :
    (withReturns text).head? = some d ↔ text.head? = some d := by
  cases text with
  | nil => rfl
  | cons c text =>
      by_cases hc : c = '\n'
      · subst hc
        simp [hbreak.symm, hreturn.symm]
      · simp [withReturns_cons hc]

theorem head?_withReturns_ne_break (text : List Char) : (withReturns text).head? ≠ some '\n' := by
  cases text with
  | nil => simp
  | cons c text =>
      by_cases hc : c = '\n'
      · simp [hc]
      · simp [withReturns_cons hc, hc]

theorem startsWithTwo_withReturns (hbreak : d ≠ '\n') (hreturn : d ≠ '\r') (text : List Char) :
    startsWithTwo d (withReturns text) = startsWithTwo d text := by
  cases text with
  | nil => rfl
  | cons c text =>
      by_cases hc : c = '\n'
      · subst hc
        rw [withReturns_break]
        cases text <;> simp [startsWithTwo, hbreak.symm, hreturn.symm]
      · rw [withReturns_cons hc]
        cases text with
        | nil => rfl
        | cons e text =>
            by_cases he : e = '\n'
            · subst he
              simp [startsWithTwo, hbreak.symm, hreturn.symm]
            · simp [startsWithTwo, withReturns_cons he]

theorem IsQuote.ne_lineEnd {quote : Char} (hquote : IsQuote quote) :
    '\r' ≠ quote ∧ '\n' ≠ quote ∧ '\\' ≠ quote := by
  rcases hquote with rfl | rfl <;> decide

namespace Region

/-- At the end of a line the scanner comes into the same region by a carriage return and a line
break as by the line break alone. -/
theorem Ready.step_return (hready : region.Ready ('\n' :: rest)) (hfits : region.Fits ('\n' :: rest))
    (more : List Char) :
    ((region.step '\r' ('\n' :: more)).1.step '\n' more).1 = (region.step '\n' rest).1 := by
  obtain ⟨hquote, hescaped⟩ := hready
  cases region with
  | literal quote | raw quote =>
      obtain ⟨hreturn, hbreak, -⟩ := (hquote quote rfl).ne_lineEnd
      simp [Region.step, hreturn, hbreak]
  | escaped quote => exact absurd rfl (hescaped quote rfl)
  | rawOpener quote remaining | rawCloser quote remaining =>
      have hbreak := (hquote quote rfl).ne_lineEnd.2.1
      cases remaining with
      | zero => simp [Region.step, hbreak]
      | succ remaining =>
          -- The scanner has seen a quote ahead, and here stands a line break.
          have hahead := hfits.ahead
          rw [quotesAhead, List.replicate_succ, List.cons_prefix_cons] at hahead
          exact absurd hahead.1.symm hbreak
  | code sign | lineComment | commentOpener | blockComment | commentCloser | verbatim
  | doubledQuote => simp [Region.step]

end Region

/-- A carriage return in a literal is blanked whether it is escaped or not. -/
theorem maskFrom_return_escaped {quote : Char} (hquote : IsQuote quote) (text : List Char) :
    maskFrom (.escaped quote) ('\r' :: text) = maskFrom (.literal quote) ('\r' :: text) := by
  simp [maskFrom_cons, Region.step, hquote.ne_lineEnd.1]

/-- Within a line the scanner makes the same step with carriage returns behind it.  Only a
backslash at the end of a line has something behind it that it can escape. -/
theorem Region.Ready.step_withReturns (hready : region.Ready (c :: rest))
    (hescape : ∀ quote, region = .literal quote → c = '\\' → rest.head? ≠ some '\n') :
    region.step c (withReturns rest) = region.step c rest := by
  have hhead : ∀ {d}, d ≠ '\n' → d ≠ '\r' →
      ((withReturns rest).head? = some d) = (rest.head? = some d) :=
    fun hbreak hreturn => propext (head?_withReturns_iff hbreak hreturn)
  have htwo : ∀ {quote}, IsQuote quote →
      startsWithTwo quote (withReturns rest) = startsWithTwo quote rest := by
    rintro quote (rfl | rfl) <;> exact startsWithTwo_withReturns (by decide) (by decide) rest
  cases region with
  | code sign =>
      have hslash := hhead (d := '/') (by decide) (by decide)
      have hasterisk := hhead (d := '*') (by decide) (by decide)
      by_cases hquote : IsQuote c
      · simp only [Region.step, hslash, hasterisk, htwo hquote]
      · rw [IsQuote, not_or] at hquote
        simp only [Region.step, hslash, hasterisk, hquote.1, hquote.2]
        simp
  | blockComment => simp only [Region.step, hhead (d := '/') (by decide) (by decide)]
  | verbatim => simp only [Region.step, hhead (d := '"') (by decide) (by decide)]
  | raw quote => simp only [Region.step, htwo (hready.quote quote rfl)]
  | literal quote =>
      by_cases hc : c = '\\'
      · have hnext := hescape quote rfl hc
        cases rest with
        | nil => rfl
        | cons d rest =>
            have hd : d ≠ '\n' := by simpa using hnext
            simp [Region.step, withReturns_cons hd]
      · simp [Region.step, hc]
  | lineComment | commentOpener | commentCloser | escaped quote | doubledQuote
  | rawOpener quote remaining | rawCloser quote remaining => rfl

/-- A character within a line is masked the same with carriage returns behind it, and what
follows it is masked from the same region on. -/
theorem Region.Ready.maskFrom_withReturns (hready : region.Ready (c :: rest)) :
    maskFrom region (c :: withReturns rest) =
      (if (region.step c rest).2 then blankOut c else [c]) ++
        maskFrom (region.step c rest).1 (withReturns rest) := by
  by_cases hescape : ∃ quote, region = .literal quote ∧ c = '\\' ∧ rest.head? = some '\n'
  · obtain ⟨quote, rfl, rfl, hhead⟩ := hescape
    obtain ⟨behind, rfl⟩ := head?_eq_some_iff.mp hhead
    have hquote := hready.quote quote rfl
    have hne := hquote.ne_lineEnd.2.2
    have hshort : (Region.literal quote).step '\\' ('\n' :: behind) = (.literal quote, true) := by
      simp [Region.step, hne]
    have hlong : (Region.literal quote).step '\\' ('\r' :: '\n' :: withReturns behind) =
        (.escaped quote, true) := by
      simp [Region.step, hne]
    rw [withReturns_break, maskFrom_cons, hlong, hshort, maskFrom_return_escaped hquote]
  · rw [maskFrom_cons, hready.step_withReturns]
    intro quote hregion hc hhead
    exact hescape ⟨quote, hregion, hc, hhead⟩

theorem dropBeforeBreaks_append {front rest : List UInt8} (hfront : '\n'.toUInt8 ∉ front)
    (hrest : rest.head? ≠ some '\n'.toUInt8) :
    dropBeforeBreaks (front ++ rest) = front ++ dropBeforeBreaks rest := by
  induction front with
  | nil => rfl
  | cons b front ih =>
      rw [List.mem_cons, not_or] at hfront
      have hnext : (front ++ rest).head? ≠ some '\n'.toUInt8 := by
        cases front with
        | nil => exact hrest
        | cons d front =>
            rw [List.mem_cons, not_or] at hfront
            simpa using Ne.symm hfront.2.1
      rw [List.cons_append, dropBeforeBreaks, if_neg hnext, ih hfront.2, List.cons_append]

theorem dropBeforeBreaks_cons_break (b : UInt8) {rest : List UInt8}
    (hrest : rest.head? ≠ some '\n'.toUInt8) :
    dropBeforeBreaks (b :: '\n'.toUInt8 :: rest) = '\n'.toUInt8 :: dropBeforeBreaks rest := by
  rw [dropBeforeBreaks, List.head?_cons, if_pos rfl, dropBeforeBreaks, if_neg hrest]

theorem break_notMem_encode (htext : '\n' ∉ text) : '\n'.toUInt8 ∉ encode text := by
  intro hmem
  obtain ⟨offset, hbyte⟩ := List.mem_iff_getElem?.mp hmem
  exact htext (mem_of_getElem?_encode (by decide) hbyte)

/-- What a text with carriage returns becomes does not begin with a line break. -/
theorem head?_encode_maskFrom_withReturns (region : Region) (text : List Char) :
    (encode (maskFrom region (withReturns text))).head? ≠ some '\n'.toUInt8 := by
  rw [Ne, head?_encode_eq_some_iff (by decide)]
  exact mt ((covers_maskFrom region _).head?_of_head? (by decide))
    (head?_withReturns_ne_break text)

theorem encode_maskFrom_break (region : Region) (text : List Char) :
    encode (maskFrom region ('\n' :: text)) =
      '\n'.toUInt8 :: encode (maskFrom (region.step '\n' text).1 text) := by
  rw [maskFrom_cons, encode_append]
  split <;> rfl

theorem exists_encode_maskFrom_return (region : Region) (text : List Char) :
    ∃ b, encode (maskFrom region ('\r' :: text)) =
      b :: encode (maskFrom (region.step '\r' text).1 text) := by
  rw [maskFrom_cons, encode_append]
  split
  · exact ⟨' '.toUInt8, rfl⟩
  · exact ⟨'\r'.toUInt8, rfl⟩

/-- From every region in which the scanner may stand before a text it writes the same with
carriage returns in the text, but for the byte before each line break. -/
theorem Region.Ready.dropBeforeBreaks_maskFrom (hready : region.Ready text)
    (hfits : region.Fits text) :
    dropBeforeBreaks (encode (maskFrom region (withReturns text))) =
      encode (maskFrom region text) := by
  induction text generalizing region with
  | nil => rfl
  | cons c rest ih =>
      have hrest := ih hready.step hfits.step
      by_cases hc : c = '\n'
      · subst hc
        obtain ⟨b, hreturn⟩ :=
          exists_encode_maskFrom_return region ('\n' :: withReturns rest)
        rw [withReturns_break, hreturn, encode_maskFrom_break, hready.step_return hfits,
          encode_maskFrom_break,
          dropBeforeBreaks_cons_break b (head?_encode_maskFrom_withReturns _ rest), hrest]
      · have hpiece : '\n'.toUInt8 ∉
            encode (if (region.step c rest).2 then blankOut c else [c]) := by
          apply break_notMem_encode
          split
          · simp [blankOut, hc]
          · simpa using Ne.symm hc
        rw [withReturns_cons hc, hready.maskFrom_withReturns, maskFrom_cons,
          encode_append, encode_append,
          dropBeforeBreaks_append hpiece (head?_encode_maskFrom_withReturns _ rest), hrest]

theorem trim_append_return (row : List Char) : trim (row ++ ['\r']) = trim row := by
  have hreturn : isBlank '\r' = true := by decide
  have hlast : trimEnd ['\r'] = [] := by decide
  rw [trim, trim, trimStart, List.dropWhile_append]
  split
  · next hempty =>
      rw [List.isEmpty_iff] at hempty
      rw [trimStart, hempty, List.dropWhile_cons_of_pos hreturn, List.dropWhile_nil]
  · rw [trimEnd_append, hlast]
    rfl

theorem trim_dropCarriageReturn (row : List Char) : trim (dropCarriageReturn row) = trim row := by
  rcases dropCarriageReturn_cases row with heq | heq
  · rw [← heq]
  · conv => rhs; rw [heq, trim_append_return]

theorem map_trim_lines_withReturns (text : List Char) :
    (lines (withReturns text)).map trim = (lines text).map trim := by
  induction text using byLines with
  | nil => rfl
  | last row hne hrow => rw [withReturns_of_notMem hrow]
  | more row rest hrow ih =>
      have hreturned : '\n' ∉ row ++ ['\r'] := by simpa using hrow
      have htext : withReturns (row ++ '\n' :: rest) =
          (row ++ ['\r']) ++ '\n' :: withReturns rest := by
        simp [withReturns_append, withReturns_of_notMem hrow]
      rw [htext, lines_append_break hreturned, lines_append_break hrow, List.map_cons,
        List.map_cons, ih, trim_dropCarriageReturn, trim_dropCarriageReturn, trim_append_return]

end Text

/-- White space at the ends of lines does not count. -/
theorem Metrics.countLines_eq_of_map_trim_eq (style : CommentStyle) (metrics : Metrics)
    (inBlock : Bool) {first second : List (List Char)}
    (htrim : first.map trim = second.map trim) :
    countLines style metrics inBlock first = countLines style metrics inBlock second := by
  induction first generalizing second metrics inBlock with
  | nil =>
      rw [List.map_eq_nil_iff.mp htrim.symm]
  | cons line rest ih =>
      obtain ⟨line', rest', rfl, hline, hrest⟩ := List.map_eq_cons_iff.mp htrim.symm
      have hclass : style.classify inBlock line' = style.classify inBlock line := by
        simp only [CommentStyle.classify, hline]
      simp only [countLines, hclass, ih _ _ hrest.symm]

namespace Text

/-- Carriage returns before the line breaks change what is masked by the byte before each line
break and nothing else, and lines count as they do without them. -/
theorem mask_withReturns (text : List Char) :
    dropBeforeBreaks (encode (mask (withReturns text))) = encode (mask text) ∧
      ∀ style, Metrics.ofText style (withReturns text) = Metrics.ofText style text := by
  constructor
  · exact (Region.ready_plainCode text).dropBeforeBreaks_maskFrom (Region.fits_plainCode text)
  · intro style
    exact Metrics.countLines_eq_of_map_trim_eq style _ _ (map_trim_lines_withReturns text)

/-- The backslash escapes the carriage return, and the literal ends with its line all the same. -/
example : mask (withReturns "s = \"a\\\nb".toList) = "s = \"   \nb".toList := by decide +kernel

end Text

end SourceAtlas
