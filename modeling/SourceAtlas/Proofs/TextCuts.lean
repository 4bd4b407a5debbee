import SourceAtlas.Proofs.LineNumbers

/-!
# Cutting texts

Offsets count bytes, so an offset may lie inside a character, and a text cannot be cut there.
Offsets that are found in a masked text lie between characters of the text itself when they
are next to a character that masking has kept.  A line table gives only offsets of this kind:
its lines stand one behind the other and make up the text.
-/

namespace SourceAtlas.Text

/-- An offset that lies in a text and inside none of its characters. -/
def IsBoundary (text : List Char) (offset : Nat) : Prop :=
  (String.Pos.Raw.mk offset).IsValid (String.ofList text)

instance (text : List Char) (offset : Nat) : Decidable (IsBoundary text offset) :=
  inferInstanceAs (Decidable (String.Pos.Raw.IsValid _ _))

variable {text masked front piece rest : List Char}

theorem isBoundary_iff {offset : Nat} :
    IsBoundary text offset ↔ ∃ front rest, text = front ++ rest ∧ offset = byteWidth front := by
  rw [IsBoundary, String.Pos.Raw.isValid_iff_exists_append]
  constructor
  · rintro ⟨first, second, htext, hoffset⟩
    refine ⟨first.toList, second.toList, ?_, ?_⟩
    · rw [← String.toList_append, ← htext, String.toList_ofList]
    · rw [← utf8ByteSize_eq]
      exact congrArg String.Pos.Raw.byteIdx hoffset
  · rintro ⟨front, rest, rfl, rfl⟩
    refine ⟨String.ofList front, String.ofList rest, String.ofList_append, ?_⟩
    rw [String.rawEndPos, utf8ByteSize_ofList]

theorem isBoundary_byteWidth (front rest : List Char) :
    IsBoundary (front ++ rest) (byteWidth front) :=
  isBoundary_iff.mpr ⟨front, rest, rfl, rfl⟩

/-- A character that masking has kept lies between boundaries of the text. -/
theorem Covers.isBoundary (hcovers : Covers masked text) {c : Char}
    (hmasked : masked = front ++ c :: rest) (hc : c ≠ ' ') :
    IsBoundary text (byteWidth front) ∧ IsBoundary text (byteWidth front + c.utf8Size) := by
  obtain ⟨before, after, rfl, hfront, -⟩ := hcovers.exists_split hmasked hc
  rw [hfront.byteWidth_eq]
  refine ⟨isBoundary_byteWidth before (c :: after), ?_⟩
  have hbehind := isBoundary_byteWidth (before ++ [c]) after
  simpa using hbehind

/-- A character that is blanked leaves boundaries behind that the text does not have. -/
example : IsBoundary (mask ['/', '/', 'é']) 3 ∧ ¬IsBoundary ['/', '/', 'é'] 3 := by
  decide +kernel

/-- Two offsets between which a text can be cut. -/
structure IsCut (text : List Char) (start stop : Nat) : Prop where
  atStart : IsBoundary text start
  atStop : IsBoundary text stop
  ordered : start ≤ stop

instance (text : List Char) (start stop : Nat) : Decidable (IsCut text start stop) :=
  decidable_of_iff (IsBoundary text start ∧ IsBoundary text stop ∧ start ≤ stop)
    ⟨fun ⟨hstart, hstop, hle⟩ => ⟨hstart, hstop, hle⟩,
      fun ⟨hstart, hstop, hle⟩ => ⟨hstart, hstop, hle⟩⟩

theorem isCut_append (front piece rest : List Char) :
    IsCut (front ++ (piece ++ rest)) (byteWidth front) (byteWidth front + byteWidth piece) where
  atStart := isBoundary_byteWidth front (piece ++ rest)
  atStop := by
    have hbehind := isBoundary_byteWidth (front ++ piece) rest
    rwa [byteWidth_append, List.append_assoc] at hbehind
  ordered := Nat.le_add_right _ _

/-- A cut is a piece of the text between two others. -/
theorem IsCut.exists_parts {start stop : Nat} (hcut : IsCut text start stop) :
    ∃ front piece rest, text = front ++ (piece ++ rest) ∧ start = byteWidth front ∧
      stop = byteWidth front + byteWidth piece := by
  obtain ⟨front, behind, htext, hstart⟩ := isBoundary_iff.mp hcut.atStart
  obtain ⟨upTo, rest, htext', hstop⟩ := isBoundary_iff.mp hcut.atStop
  have hordered := hcut.ordered
  rw [hstart, hstop] at hordered
  rw [htext, List.append_eq_append_iff] at htext'
  rcases htext' with ⟨piece, hupTo, hbehind⟩ | ⟨piece, hfront, -⟩
  · exact ⟨front, piece, rest, by rw [htext, hbehind], hstart, by
      rw [hstop, hupTo, byteWidth_append]⟩
  · have hnil : piece = [] := by
      by_contra hne
      have hpos := byteWidth_pos hne
      rw [hfront, byteWidth_append] at hordered
      omega
    exact ⟨front, [], behind, htext, hstart, by simp [hstop, hfront, hnil]⟩

theorem dropBytes_cons {count : Nat} (hcount : 0 < count) (c : Char) (text : List Char) :
    dropBytes count (c :: text) = dropBytes (count - c.utf8Size) text := by
  obtain ⟨count, rfl⟩ := Nat.exists_eq_add_one.mpr hcount
  rfl

theorem dropBytes_byteWidth (front rest : List Char) :
    dropBytes (byteWidth front) (front ++ rest) = rest := by
  induction front with
  | nil => cases rest <;> rfl
  | cons c front ih =>
      have hc := c.utf8Size_pos
      have hrest : byteWidth (c :: front) - c.utf8Size = byteWidth front := by simp
      rw [List.cons_append, dropBytes_cons (by rw [byteWidth_cons]; omega), hrest, ih]

/-- What a cut gives. -/
theorem slice_append (front piece rest : List Char) :
    slice (front ++ (piece ++ rest)) (byteWidth front) (byteWidth front + byteWidth piece) =
      piece := by
  rw [slice, dropBytes_byteWidth, Nat.add_sub_cancel_left, takeBytes_append]

theorem takeBytes_append_of_le {count : Nat} (hcount : count ≤ byteWidth piece)
    (rest : List Char) : takeBytes count (piece ++ rest) = takeBytes count piece := by
  induction piece generalizing count with
  | nil =>
      have hzero : count = 0 := by simpa using hcount
      simp [hzero]
  | cons c piece ih =>
      rcases Nat.eq_zero_or_pos count with rfl | hpos
      · simp
      · rw [byteWidth_cons] at hcount
        rw [List.cons_append, takeBytes_cons hpos, takeBytes_cons hpos, ih (by omega)]

/-- Lines that begin at an offset, stand one behind the other and make up a text. -/
inductive Stacked : Nat → List TextLine → List Char → Prop
  | last (offset : Nat) (line : List Char) : Stacked offset [{ start := offset, text := line }] line
  | cons (offset : Nat) (line : List Char) {lines : List TextLine} {rest : List Char}
      (hrest : Stacked (offset + byteWidth line) lines rest) :
      Stacked offset ({ start := offset, text := line } :: lines) (line ++ rest)

namespace Stacked

variable {offset : Nat} {lines : List TextLine}

theorem exists_head (hstacked : Stacked offset lines text) :
    ∃ line rest, lines = line :: rest ∧ line.start = offset := by
  cases hstacked with
  | last line => exact ⟨_, [], rfl, rfl⟩
  | cons line hrest => exact ⟨_, _, rfl, rfl⟩

/-- Every line is a part of the text and ends where the next one or nothing more begins. -/
theorem exists_parts (hstacked : Stacked offset lines text) {index : Nat} {line : TextLine}
    (hline : lines[index]? = some line) :
    ∃ front rest, text = front ++ (line.text ++ rest) ∧ line.start = offset + byteWidth front ∧
      ((lines[index + 1]?).map (·.start)).getD (offset + byteWidth text) =
        line.start + byteWidth line.text := by
  induction hstacked generalizing index with
  | last offset first =>
      cases index with
      | zero =>
          obtain rfl := Option.some.inj hline
          exact ⟨[], [], by simp, rfl, rfl⟩
      | succ index => simp at hline
  | @cons offset first lines rest hrest ih =>
      cases index with
      | zero =>
          obtain rfl := Option.some.inj hline
          obtain ⟨second, others, rfl, hsecond⟩ := hrest.exists_head
          exact ⟨[], rest, rfl, rfl, hsecond⟩
      | succ index =>
          obtain ⟨front, behind, rfl, hstart, hstop⟩ := ih hline
          refine ⟨first ++ front, behind, by simp, ?_, ?_⟩
          · rw [hstart, byteWidth_append]
            omega
          · rw [← hstop, byteWidth_append first, Nat.add_assoc offset]
            rfl

end Stacked

theorem byteWidth_reverse (text : List Char) : byteWidth text.reverse = byteWidth text := by
  induction text with
  | nil => rfl
  | cons c text ih =>
      rw [List.reverse_cons, byteWidth_append, ih, byteWidth_cons, byteWidth_cons, byteWidth_nil]
      omega

namespace LineTable

theorem exists_stacked_build (entries : Array TextLine) (start : Nat) (line text : List Char) :
    ∃ lines, (build entries start (start + byteWidth line) line text).toList =
        entries.toList ++ lines ∧ Stacked start lines (line.reverse ++ text) := by
  have hbreak : ('\n' : Char).utf8Size = 1 := by decide
  induction text generalizing entries start line with
  | nil =>
      refine ⟨[{ start, text := line.reverse }], by simp [build], ?_⟩
      rw [List.append_nil]
      exact .last start line.reverse
  | cons c text ih =>
      have htext : line.reverse ++ c :: text = (c :: line).reverse ++ text := by simp
      rw [build, htext]
      by_cases hc : c = '\n'
      · have hstop : start + byteWidth line + 1 = start + byteWidth (c :: line).reverse := by
          rw [byteWidth_reverse, byteWidth_cons, hc, hbreak]
          omega
        obtain ⟨lines, hlines, hstacked⟩ :=
          ih (entries.push { start, text := (c :: line).reverse })
            (start + byteWidth (c :: line).reverse) []
        refine ⟨{ start, text := (c :: line).reverse } :: lines, ?_, .cons start _ hstacked⟩
        rw [if_pos hc, hstop]
        simpa using hlines
      · have hoffset : start + byteWidth line + c.utf8Size = start + byteWidth (c :: line) := by
          rw [byteWidth_cons]
          omega
        rw [if_neg hc, hoffset]
        exact ih entries start (c :: line)

theorem stacked_ofText (text : List Char) : Stacked 0 (ofText text).entries.toList text := by
  obtain ⟨lines, hlines, hstacked⟩ := exists_stacked_build #[] 0 [] text
  have hentries : (ofText text).entries.toList = lines := by simpa [ofText] using hlines
  rw [hentries]
  exact hstacked

/-- Where a line of a text ends: where the next one starts, or where the text ends. -/
def stopIn (table : LineTable) (text : List Char) (index : Nat) : Nat :=
  (table.entries[index + 1]?.map (·.start)).getD (byteWidth text)

theorem exists_line_parts (text : List Char) {index : Nat}
    (hindex : index < (ofText text).entries.size) :
    ∃ front rest, text = front ++ ((ofText text).line index ++ rest) ∧
      (ofText text).start index = byteWidth front ∧
      (ofText text).stopIn text index = byteWidth front + byteWidth ((ofText text).line index) := by
  have hentry : (ofText text).entries[index]? = some (ofText text).entries[index] :=
    Array.getElem?_eq_getElem hindex
  obtain ⟨front, rest, htext, hstart, hstop⟩ :=
    (stacked_ofText text).exists_parts (by rw [Array.getElem?_toList, hentry])
  rw [Nat.zero_add] at hstart hstop
  rw [Array.getElem?_toList] at hstop
  have hline : (ofText text).line index = (ofText text).entries[index].text := by
    rw [line, hentry]
    rfl
  refine ⟨front, rest, by rw [hline]; exact htext, ?_, ?_⟩
  · rw [start, hentry]
    exact hstart
  · rw [stopIn, hstop, hstart, hline]

/-- The lines of a table are cuts of its text. -/
theorem isCut_line (text : List Char) {index : Nat} (hindex : index < (ofText text).entries.size) :
    IsCut text ((ofText text).start index) ((ofText text).stopIn text index) ∧
      slice text ((ofText text).start index) ((ofText text).stopIn text index) =
        (ofText text).line index := by
  obtain ⟨front, rest, htext, hstart, hstop⟩ := exists_line_parts text hindex
  rw [hstart, hstop]
  generalize (ofText text).line index = piece at htext ⊢
  rw [htext]
  exact ⟨isCut_append front piece rest, slice_append front piece rest⟩

end LineTable

theorem pairwise_laterLineStarts (offset : Nat) (text : List Char) :
    (laterLineStarts offset text).Pairwise (· < ·) := by
  induction text generalizing offset with
  | nil => exact .nil
  | cons c text ih =>
      rw [laterLineStarts]
      split
      · exact .cons (fun start hstart => lt_of_mem_laterLineStarts hstart) (ih _)
      · exact ih _

/-- Where no entry that fails a test stands before one that passes it, those that pass stand in
front. -/
theorem passes_iff_lt_countP {α : Type} {test : α → Bool} {entries : List α}
    (hordered : entries.Pairwise fun earlier later => test later = true → test earlier = true)
    {index : Nat} (hindex : index < entries.length) :
    test entries[index] = true ↔ index < entries.countP test := by
  induction entries generalizing index with
  | nil => simp at hindex
  | cons entry entries ih =>
      obtain ⟨hentry, hrest⟩ := List.pairwise_cons.mp hordered
      by_cases hpasses : test entry = true
      · rw [List.countP_cons_of_pos hpasses]
        cases index with
        | zero => simpa using hpasses
        | succ index =>
            rw [List.getElem_cons_succ, ih hrest (by simpa using hindex)]
            omega
      · have hfails : ∀ later ∈ entries, ¬test later = true := fun later hlater hpasses' =>
          hpasses (hentry later hlater hpasses')
        rw [List.countP_cons_of_neg hpasses, List.countP_eq_zero.mpr hfails]
        cases index with
        | zero => simpa using hpasses
        | succ index =>
            rw [List.getElem_cons_succ]
            simpa using hfails _ (List.getElem_mem _)

/-- In a strictly rising list those up to a bound stand in front. -/
theorem le_iff_lt_countP {numbers : List Nat} (hordered : numbers.Pairwise (· < ·)) (bound : Nat)
    {index : Nat} (hindex : index < numbers.length) :
    numbers[index] ≤ bound ↔ index < numbers.countP (· ≤ bound) := by
  have hfront : numbers.Pairwise fun earlier later =>
      decide (later ≤ bound) = true → decide (earlier ≤ bound) = true := by
    refine hordered.imp fun {earlier later} hlt hle => ?_
    rw [decide_eq_true_eq] at hle ⊢
    omega
  rw [← passes_iff_lt_countP hfront hindex, decide_eq_true_eq]

namespace LineTable

variable (text : List Char) (offset : Nat)

/-- Where the lines of a text start. -/
def lineStarts : List Nat :=
  0 :: laterLineStarts 0 text

theorem pairwise_lineStarts : (lineStarts text).Pairwise (· < ·) :=
  .cons (fun _ hstart => lt_of_mem_laterLineStarts hstart) (pairwise_laterLineStarts 0 text)

theorem start?_eq (index : Nat) :
    ((ofText text).entries[index]?).map (·.start) = (lineStarts text)[index]? := by
  rw [lineStarts, ← starts_ofText, List.getElem?_map, Array.getElem?_toList]

theorem size_entries : (ofText text).entries.size = (lineStarts text).length := by
  rw [lineStarts, ← starts_ofText, List.length_map, Array.length_toList]

theorem indexOf_eq : (ofText text).indexOf offset = (lineStarts text).countP (· ≤ offset) - 1 := by
  rw [indexOf_eq_countP, starts_ofText, lineStarts]

theorem countP_lineStarts_pos : 0 < (lineStarts text).countP (· ≤ offset) := by
  rw [lineStarts, List.countP_cons_of_pos (by simp)]
  omega

theorem indexOf_lt_size : (ofText text).indexOf offset < (ofText text).entries.size := by
  have hpos := countP_lineStarts_pos text offset
  have hle : (lineStarts text).countP (· ≤ offset) ≤ (lineStarts text).length :=
    List.countP_le_length
  rw [indexOf_eq, size_entries]
  omega

/-- The line of an offset does not start behind it. -/
theorem start_indexOf_le : (ofText text).start ((ofText text).indexOf offset) ≤ offset := by
  have hpos := countP_lineStarts_pos text offset
  have hlt := indexOf_lt_size text offset
  rw [size_entries] at hlt
  rw [start, start?_eq, List.getElem?_eq_getElem hlt, Option.getD_some,
    le_iff_lt_countP (pairwise_lineStarts text), indexOf_eq]
  omega

/-- The line of an offset ends behind it. -/
theorem lt_stopIn_indexOf {offset : Nat} (hoffset : offset < byteWidth text) :
    offset < (ofText text).stopIn text ((ofText text).indexOf offset) := by
  have hpos := countP_lineStarts_pos text offset
  have hnext : (ofText text).indexOf offset + 1 = (lineStarts text).countP (· ≤ offset) := by
    rw [indexOf_eq]
    omega
  rw [stopIn, start?_eq, hnext]
  by_cases hlt : (lineStarts text).countP (· ≤ offset) < (lineStarts text).length
  · have hlater := (le_iff_lt_countP (pairwise_lineStarts text) offset hlt).not.mpr (lt_irrefl _)
    rw [List.getElem?_eq_getElem hlt, Option.getD_some]
    omega
  · rwa [List.getElem?_eq_none (by omega), Option.getD_none]

/-- What stands before an offset on its line is a cut of the text. -/
theorem isCut_before {offset : Nat} (hoffset : offset < byteWidth text)
    (hboundary : IsBoundary text offset) :
    IsCut text ((ofText text).start ((ofText text).indexOf offset)) offset ∧
      slice text ((ofText text).start ((ofText text).indexOf offset)) offset =
        takeBytes (offset - (ofText text).start ((ofText text).indexOf offset))
          ((ofText text).line ((ofText text).indexOf offset)) := by
  have hindex := indexOf_lt_size text offset
  obtain ⟨front, rest, htext, hstart, hstop⟩ := exists_line_parts text hindex
  have hlt := lt_stopIn_indexOf text hoffset
  refine ⟨⟨(isCut_line text hindex).1.atStart, hboundary, start_indexOf_le text offset⟩, ?_⟩
  rw [hstop] at hlt
  rw [hstart]
  generalize (ofText text).line ((ofText text).indexOf offset) = piece at htext hlt ⊢
  rw [htext, slice, dropBytes_byteWidth, takeBytes_append_of_le (by omega)]

end LineTable

end SourceAtlas.Text
