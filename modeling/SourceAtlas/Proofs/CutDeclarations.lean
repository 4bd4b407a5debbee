import SourceAtlas.Proofs.CutScans
import SourceAtlas.Proofs.OutermostTypes
import Mathlib.Data.List.TakeWhile

/-!
# Declarations of a cut text

The declarations in the first lines of a text are the first ones of the whole text.  Behind
the cut a header may go on and braces may be closed, but whether one declaration belongs to
another is decided by what stands between their starts, and that is the same in both.
-/

namespace SourceAtlas.CSharp

open Text Text.Pattern

variable {text rest : List Char}

/-- Whether a keyword fits depends on the first character behind the name that is not white
space.  A keyword that needs such a character does not fit before there is one. -/
theorem keywordFits_append_cases (keyword after rest : List Char) :
    TypeDeclaration.keywordFits keyword (after ++ rest) =
        TypeDeclaration.keywordFits keyword after ∨
      TypeDeclaration.keywordFits keyword after = false ∧ ∀ c ∈ after, isBlank c = true := by
  unfold TypeDeclaration.keywordFits trimStart
  by_cases hblank : ∀ c ∈ after, isBlank c = true
  · have hnil : after.dropWhile isBlank = [] := List.dropWhile_eq_nil_iff.mpr hblank
    cases startsWith keyword "record".toList with
    | true => exact Or.inr ⟨by rw [hnil]; rfl, hblank⟩
    | false => exact Or.inl rfl
  · left
    have hne : after.dropWhile isBlank ≠ [] := fun hnil =>
      hblank (List.dropWhile_eq_nil_iff.mp hnil)
    rw [List.dropWhile_append, if_neg (by simpa using hne), List.head?_append_of_ne_nil _ hne]

/-- A declaration has a name, so there is more than white space where it begins. -/
theorem exists_isWord_of_produces {found : Match Mark} (hproduces : typeShape.Produces found) :
    ∃ c ∈ found.whole.start.after, isWord c = true := by
  obtain ⟨reading, -⟩ := exists_typeReading_of_produces hproduces
  obtain ⟨c, hc⟩ := List.exists_mem_of_ne_nil _ reading.name_ne
  refine ⟨c, ?_, reading.name_word c hc⟩
  rw [(reading.edge_moves.trans reading.front_moves).after, reading.name_moves.after]
  simp [hc]

namespace TypeDeclaration

/-- A declaration of a text and the same one of a longer text, which may differ in what
stands behind a width. -/
structure SameUpTo (width : Nat) (inner outer : TypeDeclaration) : Prop where
  name : outer.name = inner.name
  kind : outer.kind = inner.kind
  start : outer.start = inner.start
  start_lt : inner.start < width
  header : ∀ offset < width, outer.headerContains offset = inner.headerContains offset

/-- The header reaches to the place where it ends. -/
theorem headerContains_ofSpans (modifiers keyword name : Span) (offset : Nat) :
    (ofSpans modifiers keyword name).headerContains offset =
      (decide (name.stop.offset ≤ offset) && decide (offset < (headerEnd name.stop).offset)) := by
  obtain ⟨header, hheader, -⟩ :=
    Cursor.exists_moves_skipWhile (fun c => !(c = '{' || c = ';')) name.stop
  have hmoves : name.stop.Moves header (headerEnd name.stop) := hheader
  have htext : name.stop.upTo (headerEnd name.stop).offset = header := hmoves.upTo_eq
  simp only [headerContains, ofSpans, htext]
  rw [hmoves.offset]

theorem headerEnd_cut {place : Cursor} (hholds : (Widening.cut text rest).Holds place)
    {offset : Nat} (hoffset : offset < byteWidth text) :
    decide (offset < (headerEnd ((Widening.cut text rest).cursor place)).offset) =
      decide (offset < (headerEnd place).offset) := by
  have hbehind : (Widening.cut text rest).behind offset = none := if_pos hoffset
  unfold headerEnd
  rcases Widening.skipWhile_cases (by rw [hbehind]; rfl) hholds with hsame | ⟨hnear, hfar⟩
  · rw [hsame, Widening.cursor_offset]
  · rw [decide_eq_true hnear, decide_eq_true hfar]

theorem sameUpTo_ofSpans {modifiers keyword name : Span}
    (hkeyword : keyword.start.LeadsTo keyword.stop) (hname : name.start.LeadsTo name.stop)
    (hholds : (Widening.cut text rest).Holds name.stop)
    (hstart : modifiers.start.offset < byteWidth text) :
    SameUpTo (byteWidth text) (ofSpans modifiers keyword name)
      (ofSpans ((Widening.cut text rest).span modifiers) ((Widening.cut text rest).span keyword)
        ((Widening.cut text rest).span name)) where
  name := congrArg String.ofList (Widening.text_span_of_leadsTo hname)
  kind := congrArg TypeKind.ofKeyword (Widening.text_span_of_leadsTo hkeyword)
  start := rfl
  start_lt := hstart
  header := by
    intro offset hoffset
    rw [headerContains_ofSpans, headerContains_ofSpans]
    exact congrArg (decide (name.stop.offset ≤ offset) && ·) (headerEnd_cut hholds hoffset)

/-- A match before the cut stands for the same declaration with more text behind it, unless
nothing but white space follows it before the cut. -/
theorem rel_ofMatch?_occurrence (rest : List Char) {found : Match Mark}
    (hfound : found ∈ typeShape.findAll (Cursor.ofText text)) :
    Option.Rel (SameUpTo (byteWidth text)) (ofMatch? found)
        (ofMatch? ((Widening.cut text rest).occurrence found)) ∨
      ofMatch? found = none ∧ ∀ c ∈ found.whole.stop.after, isBlank c = true := by
  have hproduces := produces_of_mem_findAll hfound
  obtain ⟨modifiers, keyword, name, hparts, -, hkeyword, hname, hstop, passed, hpassed, hne, -⟩ :=
    parts_of_produces_typeShape hproduces
  obtain ⟨ahead, hmoves⟩ := (leadsTo_of_mem_findAll hfound).trans hproduces.leadsTo
  have hholds : (Widening.cut text rest).Holds name.stop := by
    rw [hstop]
    exact (Widening.holds_cut_ofText text rest).of_moves hmoves
  have hstart : modifiers.start.offset < byteWidth text :=
    Nat.lt_of_lt_of_le (hpassed.offset_lt hne) hholds.offset_le
  have hpartsWide : ((Widening.cut text rest).occurrence found).parts =
      [(.name, (Widening.cut text rest).span name),
        (.keyword, (Widening.cut text rest).span keyword),
        (.modifiers, (Widening.cut text rest).span modifiers)] := by
    simp [Widening.occurrence, Widening.parts, hparts]
  have hstring : ((Widening.cut text rest).span name).string = name.string :=
    congrArg String.ofList (Widening.text_span_of_leadsTo hname)
  rw [ofMatch?_eq hparts, ofMatch?_eq hpartsWide, hstring, Widening.text_span_of_leadsTo hkeyword,
    ← hstop]
  rcases keywordFits_append_cases keyword.text name.stop.after rest with hfits | ⟨hfits, hblank⟩
  · left
    have hfitsWide : keywordFits keyword.text ((Widening.cut text rest).span name).stop.after =
        keywordFits keyword.text name.stop.after := hfits
    rw [hfitsWide]
    split
    · exact Option.Rel.none
    · exact Option.Rel.some (sameUpTo_ofSpans hkeyword hname hholds hstart)
  · exact Or.inr ⟨by simp [hfits], hblank⟩

/-- Matches in a row before the cut stand for the same declarations with more text behind
it, as long as there is more than white space before the cut. -/
theorem exists_filterMap_occurrence (rest : List Char) {common : List (Match Mark)}
    (hmem : ∀ found ∈ common, found ∈ typeShape.findAll (Cursor.ofText text))
    (hordered : common.Pairwise
      (fun earlier later => earlier.whole.stop.LeadsTo later.whole.start)) :
    ∃ front back,
      (common.map (Widening.cut text rest).occurrence).filterMap ofMatch? = front ++ back ∧
        List.Forall₂ (SameUpTo (byteWidth text)) (common.filterMap ofMatch?) front := by
  induction common with
  | nil => exact ⟨[], [], rfl, .nil⟩
  | cons found common ih =>
      obtain ⟨hbehind, hordered⟩ := List.pairwise_cons.mp hordered
      obtain ⟨hfound, hmem⟩ := List.forall_mem_cons.mp hmem
      rcases rel_ofMatch?_occurrence rest hfound with hrel | ⟨hnone, hblank⟩
      · obtain ⟨front, back, hfront, hsame⟩ := ih hmem hordered
        rw [List.map_cons, List.filterMap_cons, List.filterMap_cons]
        generalize ofMatch? found = inner at hrel
        generalize ofMatch? ((Widening.cut text rest).occurrence found) = outer at hrel
        cases hrel with
        | none => exact ⟨front, back, hfront, hsame⟩
        | some hfirst => exact ⟨_ :: front, back, by simp [hfront], .cons hfirst hsame⟩
      · -- No match follows, since there is nothing but white space.
        have hlast : common = [] := by
          rw [List.eq_nil_iff_forall_not_mem]
          intro other hother
          obtain ⟨passed, hmoves⟩ := hbehind other hother
          obtain ⟨c, hc, hword⟩ :=
            exists_isWord_of_produces (produces_of_mem_findAll (hmem other hother))
          have hwhite := hblank c (by rw [hmoves.after]; simp [hc])
          rw [isWord_eq_false_of_isBlank hwhite] at hword
          contradiction
        refine ⟨[], _, rfl, ?_⟩
        simp [hlast, hnone]

/-- The declarations in the first lines are the first ones of the whole text. -/
theorem exists_candidates_append (hbreak : EndsInBreak text) (rest : List Char) :
    ∃ front back, candidates (text ++ rest) = front ++ back ∧
      List.Forall₂ (SameUpTo (byteWidth text)) (candidates text) front := by
  obtain ⟨common, late, later, hnear, hfar, hlate⟩ :=
    findAll_cursor (by decide) (Widening.holds_cut_ofText text rest)
      (fun place hleads => typeShape_agree hbreak hleads)
  rw [Widening.cut_cursor_ofText] at hfar
  have hlateNone : late.filterMap ofMatch? = [] := by
    rcases hlate with hnil | ⟨place, hleads, ⟨reached, hreached, hcross⟩, rfl⟩
    · rw [hnil]
      rfl
    · rw [List.filterMap_eq_nil_iff]
      exact fun found hfound => ofMatch?_eq_none_of_cut hbreak hleads hreached hcross hfound
  have hmem : ∀ found ∈ common, found ∈ typeShape.findAll (Cursor.ofText text) := by
    intro found hfound
    rw [hnear]
    exact List.mem_append_left late hfound
  have hordered := pairwise_findAll typeShape (Cursor.ofText text)
  rw [hnear, List.pairwise_append] at hordered
  obtain ⟨front, back, hfront, hsame⟩ := exists_filterMap_occurrence rest hmem hordered.1
  refine ⟨front, back ++ later.filterMap ofMatch?, ?_, ?_⟩
  · rw [candidates, hfar, List.filterMap_append, hfront, List.append_assoc]
  · rwa [candidates, hnear, List.filterMap_append, hlateNone, List.append_nil]

/-- Whether a place before the cut belongs to a declaration does not depend on what follows
the cut. -/
theorem SameUpTo.nests {inner outer : TypeDeclaration}
    (hsame : SameUpTo (byteWidth text) inner outer) (rest : List Char) {offset : Nat}
    (hfrom : inner.start ≤ offset) (hto : offset < byteWidth text) :
    outer.nests (text ++ rest) offset = inner.nests text offset := by
  have hstart := hsame.start_lt
  unfold TypeDeclaration.nests enclosing
  rw [hsame.header offset hto, hsame.start, balance_eq_sub _ hfrom, balance_eq_sub _ hfrom,
    height_append_of_le text rest (by omega), height_append_of_le text rest (by omega)]

theorem forall₂_keptAfter (rest : List Char) {inner outer : List TypeDeclaration}
    (hboth : List.Forall₂ (SameUpTo (byteWidth text)) inner outer)
    {last lastOuter : Option TypeDeclaration}
    (hlast : Option.Rel (SameUpTo (byteWidth text)) last lastOuter)
    (hsorted : (last.toList ++ inner).Pairwise
      (fun earlier later => earlier.start < later.start)) :
    List.Forall₂ (SameUpTo (byteWidth text)) (keptAfter text last inner)
      (keptAfter (text ++ rest) lastOuter outer) := by
  induction hboth generalizing last lastOuter with
  | nil => exact .nil
  | @cons declaration declarationOuter inner outer hfirst hboth ih =>
      obtain ⟨-, hrest, hbefore⟩ := List.pairwise_append.mp hsorted
      have hnests : lastOuter.any (·.nests (text ++ rest) declarationOuter.start) =
          last.any (·.nests text declaration.start) := by
        cases hlast with
        | none => rfl
        | some hprevious =>
            have hlt := hbefore _ List.mem_cons_self declaration List.mem_cons_self
            rw [hfirst.start]
            exact hprevious.nests rest (Nat.le_of_lt hlt) hfirst.start_lt
      unfold keptAfter
      rw [hnests]
      split
      · apply ih hlast
        exact hsorted.sublist ((List.Sublist.refl _).append (List.sublist_cons_self _ _))
      · exact .cons hfirst (ih (.some hfirst) hrest)

/-- More declarations behind those before the cut only add to the ones kept. -/
theorem exists_keptAfter_append (masked : List Char) (last : Option TypeDeclaration)
    (front back : List TypeDeclaration) :
    ∃ later, keptAfter masked last (front ++ back) = keptAfter masked last front ++ later := by
  induction front generalizing last with
  | nil => exact ⟨keptAfter masked last back, rfl⟩
  | cons declaration front ih =>
      rw [List.cons_append]
      unfold keptAfter
      split
      · exact ih last
      · obtain ⟨later, hlater⟩ := ih (some declaration)
        exact ⟨later, by rw [hlater]; rfl⟩

/-- The reported declarations of the first lines are the first ones of the whole text. -/
theorem exists_topLevel_append (hbreak : EndsInBreak text) (rest : List Char) :
    ∃ front back, topLevel (text ++ rest) = front ++ back ∧
      List.Forall₂ (SameUpTo (byteWidth text)) (topLevel text) front := by
  obtain ⟨front, back, hfront, hsame⟩ := exists_candidates_append hbreak rest
  obtain ⟨later, hlater⟩ := exists_keptAfter_append (text ++ rest) none front back
  refine ⟨keptAfter (text ++ rest) none front, later, ?_, ?_⟩
  · rw [topLevel_eq, hfront, hlater]
  · rw [topLevel_eq]
    exact forall₂_keptAfter rest hsame .none (pairwise_start_candidates text)

end TypeDeclaration

end SourceAtlas.CSharp
