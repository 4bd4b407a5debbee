import SourceAtlas.CSharp.Extraction
import SourceAtlas.Proofs.BraceHeights
import SourceAtlas.Proofs.Matching

/-!
# Where methods stand

The methods found in a window start inside it and in order, so two of them never
share a start.  A method counted as a direct member of a body starts one brace
deep in it.
-/

namespace SourceAtlas.CSharp

open Text Text.Pattern

/-- A match of the shape of methods marks its modifiers and, not before them, its name,
which something is passed for.  No space stands where the modifiers begin. -/
theorem parts_of_produces_methodShape {found : Match Mark}
    (hproduces : methodShape.Produces found) :
    ∃ modifiers name : Span,
      found.part? .modifiers = some modifiers ∧ found.part? .name = some name ∧
      found.whole.start.LeadsTo modifiers.start ∧ modifiers.start.LeadsTo name.start ∧
      (∃ passed, name.start.Moves passed found.whole.stop ∧ passed ≠ []) ∧
      ∃ passed, modifiers.start.Moves passed name.stop ∧ passed ≠ [] ∧
        passed.head? ≠ some ' ' := by
  obtain ⟨reached, hreached, hstop, hparts⟩ := hproduces
  unfold methodShape at hreached
  simp only [mem_outcomes_seq] at hreached
  obtain ⟨beforeParen, ⟨behindArguments, ⟨behindBlanks, ⟨behindName, ⟨behindType,
    ⟨behindModifiers, ⟨behindEdge, hedge, hmodifiers⟩, htype⟩, hname⟩, hblanks⟩, harguments⟩,
    hmoreBlanks⟩, hparen⟩ := hreached
  obtain ⟨signature, hsignature⟩ := exists_passes
    (mem_outcomes_seq.mpr ⟨_, mem_outcomes_seq.mpr ⟨_, hmodifiers, htype⟩, hname⟩)
  rw [mem_outcomes_part] at hmodifiers hname
  obtain ⟨modifiers, hmodifiers, rfl⟩ := hmodifiers
  obtain ⟨name, hname, rfl⟩ := hname
  obtain ⟨edgePassed, hedge⟩ := exists_passes hedge
  obtain ⟨modifiersPassed, hmodifiers⟩ := exists_passes hmodifiers
  obtain ⟨typePassed, htypePasses⟩ := exists_passes htype
  obtain ⟨namePassed, hname⟩ := exists_passes hname
  obtain ⟨blanksPassed, hblanks⟩ := exists_passes hblanks
  obtain ⟨argumentsPassed, harguments⟩ := exists_passes harguments
  obtain ⟨moreBlanksPassed, hmoreBlanks⟩ := exists_passes hmoreBlanks
  obtain ⟨parenPassed, hparen⟩ := exists_passes hparen
  -- A result type may or may not be marked between the modifiers and the name.
  have htypeParts : ∃ types : List (Mark × Span), (∀ part ∈ types, part.1 = .type) ∧
      behindType.parts =
        types ++ [(.modifiers, { start := behindEdge.place, stop := modifiers.place })] := by
    have hfirst : modifiers.parts = [] := by
      rw [hmodifiers.parts (by decide), hedge.parts (by decide)]
    simp only [outcomes, List.mem_append, List.mem_singleton] at htype
    rcases htype with htype | rfl
    · rw [mem_outcomes_seq] at htype
      obtain ⟨typed, htyped, hgap⟩ := htype
      rw [mem_outcomes_part] at htyped
      obtain ⟨type, htype, rfl⟩ := htyped
      obtain ⟨gapPassed, hgap⟩ := exists_passes hgap
      obtain ⟨typePassed, htype⟩ := exists_passes htype
      refine ⟨[(.type, { start := modifiers.place, stop := type.place })], by simp, ?_⟩
      rw [hgap.parts (by decide), htype.parts (by decide), hfirst]
      rfl
    · exact ⟨[], by simp, by rw [hfirst]; rfl⟩
  obtain ⟨types, htypes, hmarks⟩ := htypeParts
  have hall : found.parts =
      (.name, { start := behindType.place, stop := name.place }) ::
        (types ++ [(.modifiers, { start := behindEdge.place, stop := modifiers.place })]) := by
    rw [hparts, hparen.parts (by decide), hmoreBlanks.parts (by decide),
      harguments.parts (by decide), hblanks.parts (by decide), hname.parts (by decide), hmarks]
  refine ⟨⟨behindEdge.place, modifiers.place⟩, ⟨behindType.place, name.place⟩, ?_, ?_,
    ⟨edgePassed, hedge.moves⟩, ⟨_, hmodifiers.moves.trans htypePasses.moves⟩,
    ⟨_, (((hname.moves.trans hblanks.moves).trans harguments.moves).trans
      hmoreBlanks.moves).trans (hstop ▸ hparen.moves), ?_⟩,
    signature, hsignature.moves, hsignature.consumes (by decide),
    hsignature.opening ' ' (by decide)⟩
  · have hskip : types.find? (fun part => part.1 = .modifiers) = none := by
      rw [List.find?_eq_none]
      intro part hmem
      simp [htypes part hmem]
    simp [Match.part?, hall, List.find?_append, hskip]
  · simp [Match.part?, hall]
  · have hne : parenPassed ≠ [] := hparen.consumes (by decide)
    simp [hne]

namespace Method

theorem offsets_of_ofMatch? {found : Match Mark} {modifiers name : Span} {method : Method}
    (hmodifiers : found.part? .modifiers = some modifiers) (hname : found.part? .name = some name)
    (hmethod : ofMatch? found = some method) :
    method.start = modifiers.start.offset ∧ method.nameStart = name.start.offset := by
  unfold ofMatch? at hmethod
  rw [hmodifiers, hname] at hmethod
  simp only at hmethod
  split at hmethod
  · contradiction
  split at hmethod
  · contradiction
  split at hmethod
  · contradiction
  split at hmethod
  · rw [Option.some.injEq] at hmethod
    rw [← hmethod]
    exact ⟨rfl, rfl⟩
  · contradiction

/-- A method starts within the match that it stands for, and so does its name. -/
theorem places_of_ofMatch? {found : Match Mark} {method : Method}
    (hproduces : methodShape.Produces found) (hmethod : ofMatch? found = some method) :
    found.whole.start.offset ≤ method.start ∧ method.start ≤ method.nameStart ∧
      method.nameStart < found.whole.stop.offset ∧ method.nameStart < found.whole.start.stop := by
  obtain ⟨modifiers, name, hmodifiers, hname, hedge, hbetween, ⟨passed, hpassed, hne⟩, -⟩ :=
    parts_of_produces_methodShape hproduces
  obtain ⟨hstart, hnameStart⟩ := offsets_of_ofMatch? hmodifiers hname hmethod
  have hinside := hpassed.inside hne
  rw [hbetween.stop_eq, hedge.stop_eq] at hinside
  have hlt := hpassed.offset_lt hne
  have hle := hbetween.offset_le
  have hfrom := hedge.offset_le
  rw [hstart, hnameStart]
  omega

variable {place : Cursor} {method : Method}

theorem exists_match_of_mem_allIn (hmem : method ∈ allIn place) :
    ∃ found ∈ methodShape.findAll place, ofMatch? found = some method :=
  List.mem_filterMap.mp hmem

/-- The methods of a window start inside it, and so do their names. -/
theorem places_of_mem_allIn (hmem : method ∈ allIn place) :
    place.offset ≤ method.start ∧ method.start ≤ method.nameStart ∧
      method.nameStart < place.stop := by
  obtain ⟨found, hfound, hmethod⟩ := exists_match_of_mem_allIn hmem
  obtain ⟨hfrom, hname, -, hto⟩ := places_of_ofMatch? (produces_of_mem_findAll hfound) hmethod
  have hleads := leadsTo_of_mem_findAll hfound
  have hle := hleads.offset_le
  rw [hleads.stop_eq] at hto
  omega

/-- The methods of a window stand one behind the other, each from its start to its name. -/
theorem pairwise_allIn (place : Cursor) :
    (allIn place).Pairwise (fun earlier later => earlier.nameStart < later.start) := by
  unfold allIn
  rw [List.pairwise_filterMap]
  apply (pairwise_findAll methodShape place).imp_of_mem
  intro found later hfound hlater hleads method hmethod method' hmethod'
  obtain ⟨-, -, hstop, -⟩ := places_of_ofMatch? (produces_of_mem_findAll hfound) hmethod
  obtain ⟨hstart, -⟩ := places_of_ofMatch? (produces_of_mem_findAll hlater) hmethod'
  have hle := hleads.offset_le
  omega

/-- The methods of a window come in the order of their starts. -/
theorem pairwise_start_allIn (place : Cursor) :
    (allIn place).Pairwise (fun earlier later => earlier.start < later.start) := by
  apply (pairwise_allIn place).imp_of_mem
  intro earlier later hearlier _ hlt
  have hname := (places_of_mem_allIn hearlier).2.1
  omega

/-- The methods of a window come in the order of their names. -/
theorem pairwise_nameStart_allIn (place : Cursor) :
    (allIn place).Pairwise (fun earlier later => earlier.nameStart < later.nameStart) := by
  apply (pairwise_allIn place).imp_of_mem
  intro earlier later _ hlater hlt
  have hname := (places_of_mem_allIn hlater).2.1
  omega

end Method

theorem isDirectlyIn_iff {text : List Char} {place : Cursor} (hplace : place.StandsIn text)
    {offset : Nat} (hle : place.offset ≤ offset) :
    isDirectlyIn place offset = true ↔ height text offset = height text place.offset := by
  obtain ⟨front, htext, hoffset⟩ := hplace
  obtain ⟨inner, rfl⟩ := Nat.exists_eq_add_of_le (hoffset ▸ hle)
  rw [isDirectlyIn, balanceFrom_eq, decide_eq_true_eq, htext, hoffset, height_append,
    height_byteWidth, Nat.add_sub_cancel_left]
  omega

end SourceAtlas.CSharp
