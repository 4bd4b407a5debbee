import SourceAtlas.CSharp.Listing
import SourceAtlas.Proofs.ByteOffsets
import SourceAtlas.Proofs.Paths

/-!
# What masking keeps

A masked text has line breaks and characters at the same offsets as the text it
stands for.  Whatever is counted in lines or bytes therefore comes out the same
for both.  The scanner never looks past a line break, so cutting a text after a
line and masking it is the same as masking it and cutting after that line.
-/

namespace SourceAtlas

namespace Text

/-- A text covers another one when it keeps some of its characters and replaces
others, but no line break, with as many spaces as they have bytes. -/
inductive Covers : List Char → List Char → Prop
  | nil : Covers [] []
  | keep (c : Char) {masked text : List Char} (hrest : Covers masked text) :
      Covers (c :: masked) (c :: text)
  | blank (c : Char) (hbreak : c ≠ '\n') {masked text : List Char}
      (hrest : Covers masked text) :
      Covers (List.replicate c.utf8Size ' ' ++ masked) (c :: text)

/-- One character more, kept or blanked. -/
theorem Covers.cons {masked text : List Char} (hrest : Covers masked text) (c : Char)
    (blanked : Bool) : Covers ((if blanked then blankOut c else [c]) ++ masked) (c :: text) := by
  split
  · by_cases hbreak : c = '\n'
    · subst hbreak
      simpa [blankOut] using Covers.keep '\n' hrest
    · simpa [blankOut, hbreak] using Covers.blank c hbreak hrest
  · simpa using Covers.keep c hrest

theorem covers_maskFrom (region : Region) (text : List Char) :
    Covers (maskFrom region text) text := by
  induction text generalizing region with
  | nil => exact Covers.nil
  | cons c rest ih =>
      rw [maskFrom_cons]
      exact (ih _).cons c _

theorem Covers.byteWidth_eq {masked text : List Char} (hcovers : Covers masked text) :
    byteWidth masked = byteWidth text := by
  induction hcovers with
  | nil => rfl
  | keep c hrest ih => simp [ih]
  | blank c hbreak hrest ih => simp [byteWidth_replicate_space, ih]

theorem Covers.isEmpty_eq {masked text : List Char} (hcovers : Covers masked text) :
    masked.isEmpty = text.isEmpty := by
  cases hcovers with
  | nil => rfl
  | keep c hrest => rfl
  | blank c hbreak hrest =>
      have hwidth : c.utf8Size ≠ 0 := Nat.pos_iff_ne_zero.mp c.utf8Size_pos
      simp [hwidth]

/-- What a masked text has kept stands in the text as well, between what the parts around
it cover. -/
theorem Covers.exists_split {masked text front rest : List Char} {c : Char}
    (hcovers : Covers masked text) (hmasked : masked = front ++ c :: rest) (hc : c ≠ ' ') :
    ∃ before after, text = before ++ c :: after ∧ Covers front before ∧ Covers rest after := by
  induction hcovers generalizing front with
  | nil => simp at hmasked
  | @keep d masked text hrest ih =>
      cases front with
      | nil =>
          obtain ⟨rfl, rfl⟩ := List.cons.inj hmasked
          exact ⟨[], text, rfl, .nil, hrest⟩
      | cons e front =>
          obtain ⟨rfl, hbehind⟩ := List.cons.inj hmasked
          obtain ⟨before, after, rfl, hfront, hafter⟩ := ih hbehind
          exact ⟨d :: before, after, rfl, .keep d hfront, hafter⟩
  | @blank d hbreak masked text hrest ih =>
      -- The kept character stands behind the spaces.
      obtain ⟨more, rfl, hbehind⟩ : ∃ more, front = List.replicate d.utf8Size ' ' ++ more ∧
          masked = more ++ c :: rest := by
        rcases List.append_eq_append_iff.mp hmasked with
          ⟨more, hfront, hbehind⟩ | ⟨more, hspaces, hbehind⟩
        · exact ⟨more, hfront, hbehind⟩
        · cases more with
          | nil => exact ⟨[], by simpa using hspaces.symm, by simpa using hbehind.symm⟩
          | cons e more =>
              obtain ⟨rfl, -⟩ := List.cons.inj hbehind
              have hmem : c ∈ List.replicate d.utf8Size ' ' := by
                rw [hspaces]
                simp
              exact absurd (List.eq_of_mem_replicate hmem) hc
      obtain ⟨before, after, rfl, hfront, hafter⟩ := ih hbehind
      exact ⟨d :: before, after, rfl, .blank d hbreak hfront, hafter⟩

/-- The offsets where the lines after the first one start, in a text that begins
at an offset. -/
def laterLineStarts (offset : Nat) : List Char → List Nat
  | [] => []
  | c :: text =>
      if c = '\n' then (offset + 1) :: laterLineStarts (offset + 1) text
      else laterLineStarts (offset + c.utf8Size) text

theorem laterLineStarts_replicate_space (offset count : Nat) (text : List Char) :
    laterLineStarts offset (List.replicate count ' ' ++ text) =
      laterLineStarts (offset + count) text := by
  have hspace : (' ' : Char).utf8Size = 1 := by decide
  induction count generalizing offset with
  | zero => simp
  | succ count ih =>
      rw [List.replicate_succ, List.cons_append, laterLineStarts, if_neg (by decide), hspace, ih]
      congr 1
      omega

theorem Covers.laterLineStarts_eq {masked text : List Char} (hcovers : Covers masked text)
    (offset : Nat) : laterLineStarts offset masked = laterLineStarts offset text := by
  induction hcovers generalizing offset with
  | nil => rfl
  | keep c hrest ih => simp only [laterLineStarts, ih]
  | blank c hbreak hrest ih =>
      rw [laterLineStarts_replicate_space, ih, laterLineStarts, if_neg hbreak]

theorem LineTable.starts_build (entries : Array TextLine) (start offset : Nat)
    (line text : List Char) :
    (LineTable.build entries start offset line text).toList.map (·.start) =
      entries.toList.map (·.start) ++ start :: laterLineStarts offset text := by
  induction text generalizing entries start offset line with
  | nil => simp [LineTable.build, laterLineStarts]
  | cons c text ih =>
      simp only [LineTable.build, laterLineStarts]
      split
      · rw [ih]
        simp
      · exact ih _ _ _ _

theorem LineTable.indexOf_eq_countP (table : LineTable) (offset : Nat) :
    table.indexOf offset =
      (table.entries.toList.map (·.start)).countP (· ≤ offset) - 1 := by
  have hfold : ∀ (entries : List TextLine) (count : Nat),
      entries.foldl (fun count line => if line.start ≤ offset then count + 1 else count) count =
        count + (entries.map (·.start)).countP (· ≤ offset) := by
    intro entries
    induction entries with
    | nil => simp
    | cons line entries ih =>
        intro count
        simp only [List.foldl_cons, List.map_cons, List.countP_cons, decide_eq_true_eq]
        rw [ih]
        split <;> omega
  unfold LineTable.indexOf
  rw [← Array.foldl_toList, hfold]
  omega

theorem LineTable.starts_ofText (text : List Char) :
    (LineTable.ofText text).entries.toList.map (·.start) = 0 :: laterLineStarts 0 text := by
  simpa [LineTable.ofText] using LineTable.starts_build #[] 0 0 [] text

/-- Lines stand at the same offsets in a text and in its masked form. -/
theorem LineTable.number_ofText_mask (text : List Char) :
    (LineTable.ofText (mask text)).number = (LineTable.ofText text).number := by
  have hcovers : Covers (mask text) text := covers_maskFrom _ _
  funext offset
  simp only [LineTable.number, LineTable.indexOf_eq_countP, LineTable.starts_ofText,
    hcovers.laterLineStarts_eq]

/-- Texts with the same masked form have their lines at the same offsets. -/
theorem LineTable.number_eq_of_mask_eq {first second : List Char}
    (hmask : mask first = mask second) :
    (LineTable.ofText first).number = (LineTable.ofText second).number := by
  rw [← LineTable.number_ofText_mask first, hmask, LineTable.number_ofText_mask]

theorem laterLineStarts_append (offset : Nat) (text rest : List Char) :
    laterLineStarts offset (text ++ rest) =
      laterLineStarts offset text ++ laterLineStarts (offset + byteWidth text) rest := by
  have hbreak : ('\n' : Char).utf8Size = 1 := by decide
  induction text generalizing offset with
  | nil => simp [laterLineStarts]
  | cons c text ih =>
      rw [List.cons_append, laterLineStarts, laterLineStarts, byteWidth_cons, ← Nat.add_assoc]
      split
      · next hc => rw [ih, hc, hbreak, List.cons_append]
      · exact ih _

theorem lt_of_mem_laterLineStarts {offset start : Nat} {text : List Char}
    (hmem : start ∈ laterLineStarts offset text) : offset < start := by
  induction text generalizing offset with
  | nil => contradiction
  | cons c text ih =>
      have hc := c.utf8Size_pos
      unfold laterLineStarts at hmem
      split at hmem
      · rcases List.mem_cons.mp hmem with rfl | hmem
        · omega
        · have hlt := ih hmem
          omega
      · have hlt := ih hmem
        omega

theorem countP_laterLineStarts_eq_zero {first offset : Nat} (text : List Char)
    (hle : offset ≤ first) :
    (laterLineStarts first text).countP (· ≤ offset) = 0 := by
  rw [List.countP_eq_zero]
  intro start hstart
  have hlt := lt_of_mem_laterLineStarts hstart
  rw [decide_eq_true_eq]
  omega

/-- What follows a text does not change the numbers of its lines. -/
theorem LineTable.number_append (text rest : List Char) {offset : Nat}
    (hoffset : offset < byteWidth text) :
    (LineTable.ofText (text ++ rest)).number offset = (LineTable.ofText text).number offset := by
  have hlate : (laterLineStarts (0 + byteWidth text) rest).countP (· ≤ offset) = 0 :=
    countP_laterLineStarts_eq_zero rest (by omega)
  have hcount : (0 :: laterLineStarts 0 (text ++ rest)).countP (· ≤ offset) =
      (0 :: laterLineStarts 0 text).countP (· ≤ offset) := by
    rw [laterLineStarts_append, ← List.cons_append, List.countP_append, hlate, Nat.add_zero]
  rw [LineTable.number, LineTable.number, LineTable.indexOf_eq_countP, LineTable.indexOf_eq_countP,
    LineTable.starts_ofText, LineTable.starts_ofText, hcount]

/-- The number of lines of a text, where a last line counts if it holds anything. -/
def lineCount : List Char → Nat
  | [] => 0
  | c :: text => if c = '\n' then lineCount text + 1 else max 1 (lineCount text)

theorem lineCount_replicate_space {count : Nat} (hcount : 0 < count) (text : List Char) :
    lineCount (List.replicate count ' ' ++ text) = max 1 (lineCount text) := by
  induction count with
  | zero => contradiction
  | succ count ih =>
      rw [List.replicate_succ, List.cons_append, lineCount, if_neg (by decide)]
      cases count with
      | zero => simp
      | succ count =>
          rw [ih (by omega)]
          omega

theorem Covers.lineCount_eq {masked text : List Char} (hcovers : Covers masked text) :
    lineCount masked = lineCount text := by
  induction hcovers with
  | nil => rfl
  | keep c hrest ih => simp only [lineCount, ih]
  | blank c hbreak hrest ih =>
      rw [lineCount_replicate_space c.utf8Size_pos, ih, lineCount, if_neg hbreak]

/-- What has been read of the first piece stands before the rest of it. -/
theorem exists_splitLoop_eq_cons (separates : Char → Bool) (text : List Char) :
    ∃ first rest, ∀ piece,
      splitLoop separates piece text [] = (piece.reverse ++ first) :: rest := by
  induction text with
  | nil => exact ⟨[], [], fun piece => by simp [splitLoop]⟩
  | cons c text ih =>
      obtain ⟨first, rest, htext⟩ := ih
      by_cases hc : separates c = true
      · refine ⟨[], first :: rest, fun piece => ?_⟩
        simp only [splitLoop, hc, if_true]
        rw [splitLoop_eq, htext]
        simp
      · refine ⟨c :: first, rest, fun piece => ?_⟩
        simp only [splitLoop, hc]
        rw [htext]
        simp

/-- The number of lines in the pieces of a text: the last piece is a line unless it
is empty. -/
theorem length_lines_eq (text : List Char) {first : List Char} {rest : List (List Char)}
    (hpieces : splitWhere (· = '\n') text = first :: rest) :
    (lines text).length =
      rest.length + if (rest.getLast?.getD first).isEmpty then 0 else 1 := by
  have hlast : ∃ finished, finished.length = rest.length ∧
      first :: rest = finished ++ [rest.getLast?.getD first] := by
    rcases List.eq_nil_or_concat rest with rfl | ⟨finished, last, rfl⟩
    · exact ⟨[], rfl, rfl⟩
    · exact ⟨first :: finished, by simp, by simp⟩
  obtain ⟨finished, hlength, hsplit⟩ := hlast
  unfold lines
  rw [hpieces, hsplit]
  simp only [List.reverse_append, List.reverse_cons, List.reverse_nil, List.nil_append,
    List.singleton_append, List.reverse_reverse]
  split <;> simp [hlength]

theorem length_lines (text : List Char) : (lines text).length = lineCount text := by
  induction text with
  | nil => rfl
  | cons c text ih =>
      obtain ⟨first, rest, htext⟩ := exists_splitLoop_eq_cons (· = '\n') text
      have hpieces : splitWhere (· = '\n') text = first :: rest := by
        simpa [splitWhere] using htext []
      rw [length_lines_eq text hpieces] at ih
      by_cases hc : c = '\n'
      · have hnext : splitWhere (· = '\n') (c :: text) = [] :: first :: rest := by
          simp only [splitWhere, splitLoop, hc, decide_true, if_true]
          rw [splitLoop_eq, htext]
          rfl
        rw [length_lines_eq _ hnext, lineCount, if_pos hc, ← ih]
        have hlast : (first :: rest).getLast?.getD [] = rest.getLast?.getD first := by
          simp [List.getLast?_cons]
        rw [hlast, List.length_cons]
        omega
      · have hnext : splitWhere (· = '\n') (c :: text) = (c :: first) :: rest := by
          simp only [splitWhere, splitLoop, hc, decide_false, Bool.false_eq_true, if_false]
          exact htext [c]
        rw [length_lines_eq _ hnext, lineCount, if_neg hc, ← ih]
        cases rest with
        | nil => cases first <;> rfl
        | cons second rest =>
            simp only [List.getLast?_cons, Option.getD_some, List.length_cons]
            omega

/-- Texts with the same masked form have the same number of lines. -/
theorem length_lines_eq_of_mask_eq {first second : List Char}
    (hmask : mask first = mask second) : (lines first).length = (lines second).length := by
  have hfirst : Covers (mask first) first := covers_maskFrom _ _
  have hsecond : Covers (mask second) second := covers_maskFrom _ _
  rw [length_lines, length_lines, ← hfirst.lineCount_eq, ← hsecond.lineCount_eq, hmask]

/-- Code goes on behind a character that opens neither a comment nor a literal. -/
theorem Region.exists_step_plain {c : Char} {text : List Char}
    (hc : c ≠ '#' ∧ c ≠ '"' ∧ c ≠ '\'')
    (hline : (decide (c = '/') && decide (text.head? = some '/')) = false)
    (hblock : (decide (c = '/') && decide (text.head? = some '*')) = false)
    (sign : VerbatimSign) :
    ∃ next, (Region.code sign).step c text = (.code next, false) := by
  obtain ⟨hhash, hdouble, hsingle⟩ := hc
  simp only [Region.step, hline, hblock, hdouble, hsingle, hhash, decide_false, Bool.or_self,
    Bool.false_and, Bool.false_eq_true, if_false]
  split
  · exact ⟨_, rfl⟩
  · split
    · exact ⟨_, rfl⟩
    · exact ⟨_, rfl⟩

/-- The quote that a region waits for. -/
def Region.quote? : Region → Option Char
  | .literal quote | .escaped quote | .rawOpener quote _ | .raw quote | .rawCloser quote _ =>
      some quote
  | _ => none

/-- The scanner does not wait for a line break as if it were a quote. -/
def Region.QuotesOnLine (region : Region) : Prop :=
  region.quote? ≠ some '\n'

theorem Region.QuotesOnLine.step {region : Region} (hregion : region.QuotesOnLine) (c : Char)
    (rest : List Char) : (region.step c rest).1.QuotesOnLine := by
  unfold QuotesOnLine at *
  cases region <;> simp only [Region.step] <;> grind [Region.quote?]

theorem startsWithTwo_append_break {c : Char} (hc : c ≠ '\n') (front rest rest' : List Char) :
    startsWithTwo c (front ++ '\n' :: rest) = startsWithTwo c (front ++ '\n' :: rest') := by
  have hbreak : ('\n' = c) = False := eq_false (Ne.symm hc)
  match front with
  | [] => cases rest <;> cases rest' <;> simp [startsWithTwo, hbreak]
  | [d] => simp [startsWithTwo, hbreak]
  | d :: e :: front => simp [startsWithTwo]

theorem head?_append_break (front rest rest' : List Char) :
    (front ++ '\n' :: rest).head? = (front ++ '\n' :: rest').head? := by
  cases front <;> rfl

/-- What stands beyond the next line break has no influence on a step. -/
theorem Region.QuotesOnLine.step_append_break {region : Region}
    (hregion : region.QuotesOnLine) (c : Char) (front rest rest' : List Char) :
    region.step c (front ++ '\n' :: rest) = region.step c (front ++ '\n' :: rest') := by
  have hhead := head?_append_break front rest rest'
  have htwo : ∀ d ≠ '\n', startsWithTwo d (front ++ '\n' :: rest) =
      startsWithTwo d (front ++ '\n' :: rest') := fun d hd =>
    startsWithTwo_append_break hd front rest rest'
  cases region with
  | code sign =>
      by_cases hc : c = '\n'
      · subst hc
        simp [Region.step]
      · simp only [Region.step, hhead, htwo c hc]
  | raw quote =>
      have hquote : quote ≠ '\n' := fun heq => hregion (congrArg some heq)
      simp only [Region.step, htwo quote hquote]
  | _ => simp only [Region.step, hhead]

/-- A line break is read the same whatever follows it. -/
theorem Region.QuotesOnLine.step_break {region : Region} (hregion : region.QuotesOnLine)
    (rest rest' : List Char) : region.step '\n' rest = region.step '\n' rest' := by
  cases region with
  | raw quote =>
      have hquote : '\n' ≠ quote := fun heq => hregion (congrArg some heq.symm)
      simp [Region.step, hquote]
  | _ => simp [Region.step]

end Text

/-! ## Cutting after a line -/

/-- A text that a line break ends. -/
def Text.EndsInBreak (text : List Char) : Prop :=
  ∃ front, text = front ++ ['\n']

namespace CSharp.Listing

open Text

theorem firstLinesLoop_cons {c : Char} (hc : c ≠ '\n') (taken : List Char) (more : Nat)
    (text : List Char) :
    firstLinesLoop taken more (c :: text) = firstLinesLoop (c :: taken) more text := by
  conv => lhs; unfold firstLinesLoop
  rw [if_neg hc]

theorem firstLinesLoop_break (taken : List Char) (more : Nat) (text : List Char) :
    firstLinesLoop taken more ('\n' :: text) =
      if text.isEmpty then (('\n' :: taken).reverse, false)
      else
        match more with
        | 0 => (('\n' :: taken).reverse, true)
        | more + 1 => firstLinesLoop ('\n' :: taken) more text := by
  cases more <;> simp [firstLinesLoop]

theorem firstLinesLoop_eq (taken : List Char) (more : Nat) (text : List Char) :
    firstLinesLoop taken more text =
      (taken.reverse ++ (firstLinesLoop [] more text).1, (firstLinesLoop [] more text).2) := by
  induction text generalizing taken more with
  | nil => simp [firstLinesLoop]
  | cons c text ih =>
      unfold firstLinesLoop
      split
      · split
        · simp
        · cases more with
          | zero => simp
          | succ more =>
              simp only
              rw [ih (c :: taken), ih [c]]
              simp
      · rw [ih (c :: taken), ih [c]]
        simp

/-- The first lines are the whole text, or they end with one of its line breaks. -/
theorem firstLinesLoop_cases (more : Nat) (text : List Char) :
    firstLinesLoop [] more text = (text, false) ∨
      ∃ front rest, text = front ++ '\n' :: rest ∧
        firstLinesLoop [] more text = (front ++ ['\n'], true) := by
  induction text generalizing more with
  | nil => exact Or.inl rfl
  | cons c text ih =>
      have hnext : ∀ more, firstLinesLoop [c] more text = (c :: text, false) ∨
          ∃ front rest, c :: text = front ++ '\n' :: rest ∧
            firstLinesLoop [c] more text = (front ++ ['\n'], true) := by
        intro more
        rw [firstLinesLoop_eq]
        rcases ih more with hall | ⟨front, rest, htext, hcut⟩
        · exact Or.inl (by rw [hall]; rfl)
        · exact Or.inr ⟨c :: front, rest, by rw [htext]; rfl, by rw [hcut]; rfl⟩
      unfold firstLinesLoop
      split
      · next hc =>
          subst hc
          split
          · next hempty =>
              rw [List.isEmpty_iff.mp hempty]
              exact Or.inl rfl
          · cases more with
            | zero => exact Or.inr ⟨[], text, rfl, rfl⟩
            | succ more => exact hnext more
      · exact hnext more

/-- Fewer first lines end with a line break, unless they are as many. -/
theorem firstLinesLoop_mono {less more : Nat} (hle : less ≤ more) (text : List Char) :
    (firstLinesLoop [] less text).1 = (firstLinesLoop [] more text).1 ∨
      EndsInBreak (firstLinesLoop [] less text).1 ∧
        ∃ rest, (firstLinesLoop [] more text).1 = (firstLinesLoop [] less text).1 ++ rest := by
  induction text generalizing less more with
  | nil => exact Or.inl rfl
  | cons c text ih =>
      have hnext : ∀ {less more : Nat}, less ≤ more →
          (firstLinesLoop [c] less text).1 = (firstLinesLoop [c] more text).1 ∨
            EndsInBreak (firstLinesLoop [c] less text).1 ∧
              ∃ rest, (firstLinesLoop [c] more text).1 =
                (firstLinesLoop [c] less text).1 ++ rest := by
        intro less more hle
        rw [firstLinesLoop_eq, firstLinesLoop_eq [c] more]
        rcases ih hle with hsame | ⟨⟨front, hfront⟩, rest, hrest⟩
        · exact Or.inl (by rw [hsame])
        · exact Or.inr ⟨⟨c :: front, by rw [hfront]; rfl⟩, rest, by rw [hrest]; simp⟩
      by_cases hc : c = '\n'
      · subst hc
        rw [firstLinesLoop_break, firstLinesLoop_break]
        split
        · exact Or.inl rfl
        · cases less with
          | zero =>
              cases more with
              | zero => exact Or.inl rfl
              | succ more =>
                  refine Or.inr ⟨⟨[], rfl⟩, (firstLinesLoop [] more text).1, ?_⟩
                  simp only
                  rw [firstLinesLoop_eq]
          | succ less =>
              cases more with
              | zero => contradiction
              | succ more => exact hnext (Nat.le_of_succ_le_succ hle)
      · rw [firstLinesLoop_cons hc, firstLinesLoop_cons hc]
        exact hnext hle

/-- Text is left out where there are more lines than those that are taken. -/
theorem firstLinesLoop_isCut_iff (more : Nat) (text : List Char) :
    (firstLinesLoop [] more text).2 = true ↔ more + 1 < lineCount text := by
  induction text generalizing more with
  | nil => simp [firstLinesLoop, lineCount]
  | cons c text ih =>
      by_cases hc : c = '\n'
      · subst hc
        rw [firstLinesLoop_break, lineCount, if_pos rfl]
        cases text with
        | nil => simp [lineCount]
        | cons d text =>
            have hpos : 0 < lineCount (d :: text) := by
              unfold lineCount
              split <;> omega
            cases more with
            | zero => simpa using hpos
            | succ more =>
                have hrest := ih more
                simp only [List.isEmpty_cons, Bool.false_eq_true, if_false]
                rw [firstLinesLoop_eq, hrest]
                omega
      · rw [firstLinesLoop_cons hc, firstLinesLoop_eq, ih, lineCount, if_neg hc]
        omega

theorem firstLinesLoop_append {front : List Char} (hfront : '\n' ∉ front) (more : Nat)
    (text : List Char) :
    firstLinesLoop [] more (front ++ text) =
      (front ++ (firstLinesLoop [] more text).1, (firstLinesLoop [] more text).2) := by
  induction front with
  | nil => simp
  | cons c front ih =>
      have hc : c ≠ '\n' := fun heq => hfront (heq ▸ List.mem_cons_self)
      have hrest := ih fun hmem => hfront (List.mem_cons_of_mem _ hmem)
      rw [List.cons_append, firstLinesLoop_cons hc, firstLinesLoop_eq, hrest]
      simp

/-- Masking and cutting after a line can be done in either order. -/
theorem firstLinesLoop_maskFrom {region : Region} (hregion : region.QuotesOnLine) (more : Nat)
    (text : List Char) :
    firstLinesLoop [] more (maskFrom region text) =
      (maskFrom region (firstLinesLoop [] more text).1, (firstLinesLoop [] more text).2) := by
  induction text generalizing region more with
  | nil => rfl
  | cons c text ih =>
      have hrest := fun more => ih (hregion.step c text) more
      by_cases hc : c = '\n'
      · subst hc
        have hcons : ∀ rest, maskFrom region ('\n' :: rest) =
            '\n' :: maskFrom (region.step '\n' text).1 rest := by
          intro rest
          rw [maskFrom_cons, hregion.step_break rest text]
          split <;> rfl
        have hempty := (covers_maskFrom (region.step '\n' text).1 text).isEmpty_eq
        rw [hcons, firstLinesLoop_break, firstLinesLoop_break, hempty]
        split
        · next htext => simp [hcons, List.isEmpty_iff.mp htext]
        · cases more with
          | zero => simp [hcons]
          | succ more =>
              simp only
              rw [firstLinesLoop_eq, hrest, firstLinesLoop_eq ['\n'] more text]
              simp [hcons]
      · have hstep : region.step c (firstLinesLoop [] more text).1 = region.step c text := by
          rcases firstLinesLoop_cases more text with hall | ⟨front, rest, htext, hcut⟩
          · rw [hall]
          · rw [hcut, htext]
            exact hregion.step_append_break c front [] rest
        have hpiece : '\n' ∉ if (region.step c text).2 then blankOut c else [c] := by
          split
          · simp [blankOut, hc]
          · simpa using Ne.symm hc
        rw [maskFrom_cons, firstLinesLoop_append hpiece, hrest, firstLinesLoop_cons hc,
          firstLinesLoop_eq [c], List.reverse_singleton, List.singleton_append, maskFrom_cons,
          hstep]

theorem firstLines_mask (limit : Nat) (text : List Char) :
    firstLines limit (mask text) =
      (mask (firstLines limit text).1, (firstLines limit text).2) := by
  have hplain : Region.plainCode.QuotesOnLine := by
    simp [Region.QuotesOnLine, Region.quote?]
  exact firstLinesLoop_maskFrom hplain (limit - 1) text

/-- The first lines of texts with the same masked form have the same masked form, and
either both texts go on or none does. -/
theorem firstLines_eq_of_mask_eq {first second : List Char} (hmask : mask first = mask second)
    (limit : Nat) :
    mask (firstLines limit first).1 = mask (firstLines limit second).1 ∧
      (firstLines limit first).2 = (firstLines limit second).2 := by
  have hboth := congrArg (firstLines limit) hmask
  rw [firstLines_mask, firstLines_mask] at hboth
  exact ⟨congrArg (·.1) hboth, congrArg (·.2) hboth⟩

end CSharp.Listing

end SourceAtlas
