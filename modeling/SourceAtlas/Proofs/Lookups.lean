import SourceAtlas.CSharp.Extraction
import SourceAtlas.Proofs.LineEndings
import SourceAtlas.Proofs.OutermostTypes

/-!
# Looking up offsets

The line of an offset is the last one that starts at or before it, and the type that owns a
method is the last one that starts before it.  Lines and types are listed by rising starts, so
those that come into question stand in front, and how many they are can be found by halving the
list.  The line of an offset is also told by the line breaks before it.
-/

namespace SourceAtlas

open Text

section Bisection

variable {α : Type} {test : α → Bool} {entries : Array α}

/-- Halves a window of a list until nothing is left of it.  If the entry in the middle passes the
test, the part behind it is searched, and otherwise the part before it. -/
def bisectWithin (test : α → Bool) (entries : Array α) (low high : Nat) : Nat :=
  if low < high then
    let middle := low + (high - low) / 2
    if entries[middle]?.any test then bisectWithin test entries (middle + 1) high
    else bisectWithin test entries low middle
  else low
termination_by high - low

/-- The index of the first entry that fails a test, where those that pass it stand in front. -/
def bisect (test : α → Bool) (entries : Array α) : Nat :=
  bisectWithin test entries 0 entries.size

/-- The index of the last entry that passes a test, where those that pass it stand in front. -/
def bisectLast? (test : α → Bool) (entries : Array α) : Option Nat :=
  match bisect test entries with
  | 0 => none
  | index + 1 => some index

/-- The entry at an index passes a test, and none behind it does. -/
structure IsLast (test : α → Bool) (entries : Array α) (index : Nat) : Prop where
  passes : entries[index]?.any test = true
  behind : ∀ later, index < later → entries[later]?.any test = false

/-- What passes a test is what stands in front, if nothing that fails it stands before it. -/
theorem filter_eq_take_countP {entries : List α}
    (hordered : entries.Pairwise fun earlier later => test later = true → test earlier = true) :
    entries.filter test = entries.take (entries.countP test) := by
  induction entries with
  | nil => rfl
  | cons entry rest ih =>
      obtain ⟨hentry, hrest⟩ := List.pairwise_cons.mp hordered
      by_cases hpasses : test entry = true
      · rw [List.filter_cons_of_pos hpasses, List.countP_cons_of_pos hpasses,
          List.take_succ_cons, ih hrest]
      · have hfails : ∀ later ∈ rest, ¬test later = true := fun later hlater hlater' =>
          hpasses (hentry later hlater hlater')
        rw [List.filter_cons_of_neg hpasses, List.countP_cons_of_neg hpasses,
          List.countP_eq_zero.mpr hfails, List.filter_eq_nil_iff.mpr hfails, List.take_zero]

/-- No entry that fails a test stands before one that passes it. -/
def PassInFront (test : α → Bool) (entries : Array α) : Prop :=
  entries.toList.Pairwise fun earlier later => test later = true → test earlier = true

namespace PassInFront

variable (hfront : PassInFront test entries)

include hfront

theorem passes_iff (index : Nat) :
    entries[index]?.any test = true ↔ index < entries.toList.countP test := by
  by_cases hindex : index < entries.toList.length
  · rw [← Text.passes_iff_lt_countP hfront hindex, ← Array.getElem?_toList,
      List.getElem?_eq_getElem hindex, Option.any_some]
  · have hcount : entries.toList.countP test ≤ entries.toList.length := List.countP_le_length
    rw [← Array.getElem?_toList, List.getElem?_eq_none (by omega), Option.any_none]
    exact iff_of_false Bool.false_ne_true (by omega)

/-- While the window holds the place where entries begin to fail, so does the half that is
searched next. -/
theorem bisectWithin_eq {low high : Nat} (hlow : low ≤ entries.toList.countP test)
    (hhigh : entries.toList.countP test ≤ high) :
    bisectWithin test entries low high = entries.toList.countP test := by
  induction low, high using bisectWithin.induct test entries with
  | case1 low high hlt middle hpasses ih =>
      have hmiddle := (hfront.passes_iff middle).mp hpasses
      rw [bisectWithin, if_pos hlt, if_pos hpasses]
      exact ih hmiddle hhigh
  | case2 low high hlt middle hfails ih =>
      have hmiddle := (hfront.passes_iff middle).not.mp hfails
      rw [bisectWithin, if_pos hlt, if_neg hfails]
      exact ih hlow (by omega)
  | case3 low high hdone =>
      rw [bisectWithin, if_neg hdone]
      omega

theorem bisect_eq : bisect test entries = entries.toList.countP test := by
  refine hfront.bisectWithin_eq (Nat.zero_le _) ?_
  rw [← Array.length_toList]
  exact List.countP_le_length

theorem bisectLast?_eq_some_iff {index : Nat} :
    bisectLast? test entries = some index ↔ IsLast test entries index := by
  have hcount : bisectLast? test entries = some index ↔
      entries.toList.countP test = index + 1 := by
    rw [bisectLast?, hfront.bisect_eq]
    cases entries.toList.countP test <;> simp
  rw [hcount]
  constructor
  · intro hindex
    constructor
    · rw [hfront.passes_iff]
      omega
    · intro later hlater
      rw [← Bool.not_eq_true, hfront.passes_iff]
      omega
  · rintro ⟨hpasses, hbehind⟩
    have hnext := hbehind (index + 1) (by omega)
    rw [← Bool.not_eq_true, hfront.passes_iff] at hnext
    rw [hfront.passes_iff] at hpasses
    omega

theorem bisectLast?_eq_none_iff :
    bisectLast? test entries = none ↔ ∀ entry ∈ entries, test entry = false := by
  have hcount : bisectLast? test entries = none ↔ entries.toList.countP test = 0 := by
    rw [bisectLast?, hfront.bisect_eq]
    cases entries.toList.countP test <;> simp
  rw [hcount, List.countP_eq_zero]
  simp

theorem getLast?_filter :
    (entries.toList.filter test).getLast? = (bisectLast? test entries).bind (entries[·]?) := by
  have hcount : entries.toList.countP test ≤ entries.toList.length := List.countP_le_length
  rw [filter_eq_take_countP hfront, List.getLast?_take, bisectLast?, hfront.bisect_eq]
  cases hfound : entries.toList.countP test with
  | zero => rfl
  | succ index =>
      rw [hfound] at hcount
      have hindex : entries.toList[index]? = some entries.toList[index] :=
        List.getElem?_eq_getElem (by omega)
      rw [Array.getElem?_toList] at hindex
      simp [hindex]

end PassInFront

end Bisection

namespace Text

/-- How many line breaks there are among the first bytes of a text. -/
def breaksBefore (text : List Char) (offset : Nat) : Nat :=
  ((encode text).take offset).count '\n'.toUInt8

@[simp] theorem breaksBefore_zero (text : List Char) : breaksBefore text 0 = 0 := rfl

theorem breaksBefore_cons_break (text : List Char) (offset : Nat) :
    breaksBefore ('\n' :: text) (offset + 1) = breaksBefore text offset + 1 := by
  rw [breaksBefore, encode_cons_of_isAscii (by decide), List.take_succ_cons, List.count_cons_self,
    breaksBefore]

theorem breaksBefore_cons {c : Char} (hc : c ≠ '\n') (text : List Char) (offset : Nat) :
    breaksBefore (c :: text) offset = breaksBefore text (offset - c.utf8Size) := by
  have hnone : '\n'.toUInt8 ∉ (encode [c]).take offset := fun hmem =>
    break_notMem_encode (by simpa using hc.symm) (List.mem_of_mem_take hmem)
  rw [breaksBefore, ← List.singleton_append, encode_append, List.take_append, List.count_append,
    List.count_eq_zero.mpr hnone, length_encode, byteWidth_cons, byteWidth_nil, Nat.zero_add,
    breaksBefore]
  rfl

/-- As many lines start up to an offset behind the start of a text as it has line breaks before
it. -/
theorem countP_laterLineStarts (first offset : Nat) (text : List Char) :
    (laterLineStarts first text).countP (· ≤ first + offset) = breaksBefore text offset := by
  induction text generalizing first offset with
  | nil => simp [laterLineStarts, breaksBefore]
  | cons c text ih =>
      rw [laterLineStarts]
      split
      · next hc =>
          subst hc
          cases offset with
          | zero =>
              rw [List.countP_cons_of_neg (by simp), breaksBefore_zero]
              exact countP_laterLineStarts_eq_zero text (by omega)
          | succ offset =>
              have hnext : first + (offset + 1) = first + 1 + offset := by omega
              rw [List.countP_cons_of_pos (by simp), hnext, ih, breaksBefore_cons_break]
      · next hc =>
          rw [breaksBefore_cons hc]
          rcases Nat.lt_or_ge offset c.utf8Size with hinside | hbehind
          · rw [Nat.sub_eq_zero_of_le hinside.le, breaksBefore_zero]
            exact countP_laterLineStarts_eq_zero text (by omega)
          · have hnext : first + offset = first + c.utf8Size + (offset - c.utf8Size) := by omega
            rw [hnext, ih]

theorem Stacked.flatten_eq {offset : Nat} {lines : List TextLine} {text : List Char}
    (hstacked : Stacked offset lines text) : (lines.map (·.text)).flatten = text := by
  induction hstacked with
  | last offset line => exact List.append_nil line
  | cons offset line hrest ih => rw [List.map_cons, List.flatten_cons, ih]

namespace LineTable

/-- A line table that tells for every offset on which line it lies, with lines that make up the
text. -/
structure IsExact (table : LineTable) (text : List Char) : Prop where
  index : ∀ offset, table.indexOf offset = breaksBefore text offset
  number : ∀ offset, table.number offset = breaksBefore text offset + 1
  ascending : (table.entries.toList.map (·.start)).Pairwise (· < ·)
  bisected : ∀ offset, bisectLast? (·.start ≤ offset) table.entries = some (table.indexOf offset)
  last : ∀ offset, IsLast (·.start ≤ offset) table.entries (table.indexOf offset)
  line : ∀ index < table.entries.size,
    table.line index = slice text (table.start index) (table.stopIn text index)
  joined : (List.range table.entries.size).flatMap table.line = text

variable (text : List Char)

theorem pairwise_start_ofText :
    ((ofText text).entries.toList.map (·.start)).Pairwise (· < ·) := by
  rw [starts_ofText]
  exact pairwise_lineStarts text

theorem number_eq_breaksBefore (offset : Nat) :
    (ofText text).number offset = breaksBefore text offset + 1 := by
  rw [number_ofText]
  simpa using countP_laterLineStarts 0 offset text

theorem passInFront_ofText (offset : Nat) :
    PassInFront (·.start ≤ offset) (ofText text).entries := by
  have hordered := pairwise_start_ofText text
  rw [List.pairwise_map] at hordered
  refine hordered.imp fun {earlier later} hlt hlater => ?_
  rw [decide_eq_true_eq] at hlater ⊢
  omega

theorem bisectLast?_ofText (offset : Nat) :
    bisectLast? (·.start ≤ offset) (ofText text).entries = some ((ofText text).indexOf offset) := by
  have hpositive := countP_lineStarts_pos text offset
  have hcount : (ofText text).entries.toList.countP (·.start ≤ offset) =
      (lineStarts text).countP (· ≤ offset) := by
    rw [lineStarts, ← starts_ofText, List.countP_map]
    rfl
  rw [bisectLast?, (passInFront_ofText text offset).bisect_eq, hcount, indexOf_eq]
  cases hfound : (lineStarts text).countP (· ≤ offset) with
  | zero => omega
  | succ index => rfl

theorem flatMap_line :
    (List.range (ofText text).entries.size).flatMap (ofText text).line = text := by
  have hlines : (List.range (ofText text).entries.size).map (ofText text).line =
      (ofText text).entries.toList.map (·.text) := by
    apply List.ext_getElem (by simp)
    intro index hindex _
    rw [List.length_map, List.length_range] at hindex
    simp [line, hindex]
  rw [List.flatMap_def, hlines, (stacked_ofText text).flatten_eq]

theorem isExact_ofText : (ofText text).IsExact text where
  index offset := by
    have hnumber := number_eq_breaksBefore text offset
    rw [number] at hnumber
    omega
  number := number_eq_breaksBefore text
  ascending := pairwise_start_ofText text
  bisected := bisectLast?_ofText text
  last offset := (passInFront_ofText text offset).bisectLast?_eq_some_iff.mp
    (bisectLast?_ofText text offset)
  line index hindex := (isCut_line text hindex).2.symm
  joined := flatMap_line text

/-- Behind a line break at the end of a text lies a line that holds nothing. -/
example : (ofText "é\r\nb\n".toList).number 6 = 3 := by decide +kernel

end LineTable

end Text

namespace CSharp.TypeDeclaration

open Text

/-- Types by rising starts.  The last one that starts before an offset is found by halving, and
it decides whether the offset lies inside a type and which type owns a method. -/
structure FoundByStart (types : List TypeDeclaration) (masked : List Char) : Prop where
  ascending : types.Pairwise fun earlier later => earlier.start < later.start
  last : ∀ offset index, bisectLast? (·.start < offset) types.toArray = some index ↔
    IsLast (·.start < offset) types.toArray index
  absent : ∀ offset, bisectLast? (·.start < offset) types.toArray = none ↔
    ∀ type ∈ types, offset ≤ type.start
  inside : ∀ offset, insideAny types masked offset =
    (bisectLast? (·.start < offset) types.toArray).any fun index =>
      types[index]?.any (·.enclosing masked offset)
  owner : ∀ method, typesBefore types method = bisect (·.start < method.start) types.toArray

theorem foundByStart_of_pairwise {types : List TypeDeclaration}
    (hordered : types.Pairwise fun earlier later => earlier.start < later.start)
    (masked : List Char) : FoundByStart types masked := by
  have hfront : ∀ offset, PassInFront (fun type => decide (type.start < offset)) types.toArray := by
    intro offset
    refine hordered.imp fun {earlier later} hlt hlater => ?_
    rw [decide_eq_true_eq] at hlater ⊢
    omega
  constructor
  · exact hordered
  · intro offset index
    exact (hfront offset).bisectLast?_eq_some_iff
  · intro offset
    simpa using (hfront offset).bisectLast?_eq_none_iff
  · intro offset
    have hnearest : (preceding types offset).head? =
        (bisectLast? (·.start < offset) types.toArray).bind (types[·]?) := by
      rw [preceding, List.head?_reverse]
      simpa using (hfront offset).getLast?_filter
    rw [insideAny_eq, hnearest]
    cases bisectLast? (fun type => decide (type.start < offset)) types.toArray <;> rfl
  · intro method
    exact (hfront method.start).bisect_eq.symm

end CSharp.TypeDeclaration

namespace CSharp.Listing

/-- The line of an offset is told by the line breaks before it, and it is the last one that
starts at or before the offset; the lines make up the text.  Lines and reported types have
rising starts, so halving finds the last one of either. -/
theorem isExact_lines_and_foundByStart_topLevel (text : List Char) :
    (ofText text).lines.IsExact text ∧
      TypeDeclaration.FoundByStart (TypeDeclaration.topLevel (ofText text).masked)
        (ofText text).masked := by
  constructor
  · exact LineTable.isExact_ofText text
  · exact TypeDeclaration.foundByStart_of_pairwise (TypeDeclaration.pairwise_start_topLevel _) _

end CSharp.Listing

end SourceAtlas
