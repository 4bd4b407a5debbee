import SourceAtlas.Proofs.TypePlaces
import SourceAtlas.Proofs.Words

/-!
# How type declarations read

A match of the shape of types reads as an edge, then modifiers and a keyword with gaps
behind them, then a name.  Where a line break cuts a declaration before its name, what is
left of it are the first of these words.  No other declaration can be read from them,
unless the second word of `record class` is taken for a name, which it cannot be.
-/

namespace SourceAtlas.CSharp

open Text Text.Pattern

/-- The words that begin the keyword of a type declaration. -/
def kindWords : List (List Char) :=
  ["class", "interface", "struct", "enum", "record"].map String.toList

/-- The words that may follow `record` in a keyword. -/
def recordWords : List (List Char) :=
  ["class", "struct"].map String.toList

/-- A declaration read from a place up to the end of its name. -/
structure TypeReading (start : Cursor) where
  edge : List Char
  behindEdge : Cursor
  /-- What stands between the edge and the name. -/
  front : List Char
  modifiers : List (List Char)
  kind : List Char
  /-- What follows the first word of the keyword. -/
  more : List (List Char)
  nameStart : Cursor
  name : List Char
  stop : Cursor
  edge_moves : start.Moves edge behindEdge
  edge_cases : edge = [] ∧ start.before = [] ∨ ∃ c, edge = [c] ∧ isEdge c = true
  front_moves : behindEdge.Moves front nameStart
  spells : Spells front (modifiers ++ kind :: more)
  plain : ∀ word ∈ modifiers ++ kind :: more, isPlainWord word = true
  modifiers_not_mem : ∀ word ∈ modifiers, word ∉ kindWords
  kind_mem : kind ∈ kindWords
  more_mem : ∀ word ∈ more, word ∈ recordWords
  name_moves : nameStart.Moves name stop
  name_ne : name ≠ []
  name_word : ∀ c ∈ name, isWord c = true
  name_ends : ∀ c ∈ stop.head?, isWord c = false

theorem isWord_of_opensName {c : Char} (hc : opensName c = true) : isWord c = true := by
  simp only [opensName, Bool.or_eq_true, decide_eq_true_eq] at hc
  have hlow : c.val < 128 := by
    rcases hc with hletter | rfl
    · simp only [isAsciiLetter, Bool.or_eq_true, Bool.and_eq_true, decide_eq_true_eq,
        Char.le_def, UInt32.le_iff_toNat_le] at hletter
      rw [UInt32.lt_iff_toNat_lt]
      have hz : ('z' : Char).val.toNat = 122 := by decide
      have hZ : ('Z' : Char).val.toNat = 90 := by decide
      have hbound : (128 : UInt32).toNat = 128 := by decide
      omega
    · decide
  simp only [isWord, hlow, if_true, Bool.or_eq_true, decide_eq_true_eq]
  tauto

/-- A name is a run of word characters that is not broken off. -/
theorem exists_name_of_mem_outcomes {start reached : Progress Mark}
    (hreached : reached ∈ simpleName.outcomes start) :
    ∃ name, start.place.Moves name reached.place ∧ name ≠ [] ∧
      (∀ c ∈ name, isWord c = true) ∧ ∀ c ∈ reached.place.head?, isWord c = false := by
  obtain ⟨middle, hmiddle, hrun⟩ := mem_outcomes_seq.mp hreached
  obtain ⟨c, next, hnext, hc, rfl⟩ := mem_outcomes_one.mp hmiddle
  simp only [outcomes, List.mem_singleton] at hrun
  obtain ⟨rest, hmoves, hrest⟩ := Cursor.exists_moves_skipWhile isWord next
  rw [hrun]
  refine ⟨c :: rest, (Cursor.moves_of_next? hnext).trans hmoves, by simp, ?_,
    Cursor.head?_skipWhile isWord next⟩
  exact List.forall_mem_cons.mpr ⟨isWord_of_opensName hc, hrest⟩

/-- A keyword with the gap behind it. -/
theorem exists_spells_keyword {start middle behind reached : Progress Mark}
    (hmiddle : middle ∈ (anyWord "class" ["interface", "struct", "enum"]
      <|> literal "record" ++ maybe (gap ++ anyWord "class" ["struct"]) : Shape).outcomes start)
    (hgap : reached ∈ gap.outcomes behind) (hbehind : behind.place = middle.place) :
    ∃ passed kind more, start.place.Moves passed reached.place ∧ Spells passed (kind :: more) ∧
      kind ∈ kindWords ∧ ∀ word ∈ more, word ∈ recordWords := by
  obtain ⟨c, blanks, hgapMoves, hc, hblanks⟩ := exists_moves_of_mem_outcomes_runOf hgap
  rw [hbehind] at hgapMoves
  have hspells : ∀ text ∈ ["class", "interface", "struct", "enum", "record"],
      ∀ {d : Char} {gap : List Char}, isBlank d = true → (∀ e ∈ gap, isBlank e = true) →
        Spells (text.toList ++ d :: gap) [text.toList] := by
    intro text htext d gap hd hgap
    have hplain : ∀ text ∈ ["class", "interface", "struct", "enum", "record"],
        isPlainWord text.toList = true := by decide
    obtain ⟨hne, hword⟩ := isPlainWord_iff.mp (hplain text htext)
    exact .word hne hword hd hgap
  rcases List.mem_append.mp hmiddle with hword | hrecord
  · obtain ⟨text, htext, hmoves⟩ := exists_moves_of_mem_outcomes_anyWord hword
    have hmem : text ∈ ["class", "interface", "struct", "enum", "record"] :=
      List.mem_append_left ["record"] htext
    exact ⟨_, text.toList, [], hmoves.trans hgapMoves, hspells text hmem hc hblanks,
      List.mem_map_of_mem hmem, by simp⟩
  · obtain ⟨behindRecord, hword, hmaybe⟩ := mem_outcomes_seq.mp hrecord
    have hmoves := moves_of_mem_outcomes_literal hword
    rcases List.mem_append.mp hmaybe with hmore | hnone
    · obtain ⟨behindGap, hfirstGap, hsecond⟩ := mem_outcomes_seq.mp hmore
      obtain ⟨d, firstBlanks, hfirstMoves, hd, hfirstBlanks⟩ :=
        exists_moves_of_mem_outcomes_runOf hfirstGap
      obtain ⟨text, htext, hsecondMoves⟩ := exists_moves_of_mem_outcomes_anyWord hsecond
      have hmem : text ∈ ["class", "interface", "struct", "enum", "record"] := by
        rcases List.mem_cons.mp htext with rfl | hstruct
        · exact List.mem_cons_self
        · rw [List.mem_singleton.mp hstruct]
          simp
      have hrecordSpells := hspells "record" (by simp) hd hfirstBlanks
      exact ⟨_, "record".toList, [text.toList],
        (hmoves.trans hfirstMoves).trans (hsecondMoves.trans hgapMoves),
        hrecordSpells.append (hspells text hmem hc hblanks), by decide,
        List.forall_mem_singleton.mpr (List.mem_map_of_mem htext)⟩
    · rw [List.mem_singleton] at hnone
      subst hnone
      exact ⟨_, "record".toList, [], hmoves.trans hgapMoves,
        hspells "record" (by simp) hc hblanks, by decide, by simp⟩

/-- The modifiers of a type with the gaps behind them. -/
theorem exists_spells_modifiers {start reached : Progress Mark}
    (hreached : reached ∈ (copies (anyWord "public" ["private", "protected", "internal", "static",
      "abstract", "sealed", "partial", "readonly", "unsafe", "new", "file", "ref"] ++ gap) :
        Shape).outcomes start) :
    ∃ passed words, start.place.Moves passed reached.place ∧ Spells passed words ∧
      ∀ word ∈ words, isPlainWord word = true ∧ word ∉ kindWords := by
  have hplain : ∀ text ∈ ["public", "private", "protected", "internal", "static", "abstract",
      "sealed", "partial", "readonly", "unsafe", "new", "file", "ref"],
      isPlainWord text.toList = true ∧ text.toList ∉ kindWords := by decide
  obtain ⟨passed, words, hmoves, hspells, hwords⟩ :=
    spellsOut_copies (fun text htext => (hplain text htext).1) _ _ hreached
  refine ⟨passed, words, hmoves, hspells, ?_⟩
  intro word hword
  obtain ⟨text, htext, rfl⟩ := List.mem_map.mp (hwords word hword)
  exact hplain text htext

/-- An edge is empty at the start of the window and one character elsewhere. -/
theorem exists_edge_of_mem_outcomes {start reached : Progress Mark}
    (hreached : reached ∈ declarationEdge.outcomes start) :
    ∃ edge, start.place.Moves edge reached.place ∧
      (edge = [] ∧ start.place.before = [] ∨ ∃ c, edge = [c] ∧ isEdge c = true) := by
  rcases mem_outcomes_declarationEdge.mp hreached with
    ⟨hbefore, rfl⟩ | ⟨c, next, hnext, hc, rfl⟩
  · exact ⟨[], Cursor.Moves.refl _, Or.inl ⟨rfl, hbefore⟩⟩
  · exact ⟨[c], Cursor.moves_of_next? hnext, Or.inr ⟨c, rfl, hc⟩⟩

/-- Every outcome of the shape of types reads as a declaration. -/
theorem exists_typeReading {start reached : Progress Mark}
    (hreached : reached ∈ typeShape.outcomes start) :
    ∃ reading : TypeReading start.place, reached.place = reading.stop ∧
      reached.parts.head? = some (.name, ⟨reading.nameStart, reading.stop⟩) := by
  unfold typeShape at hreached
  simp only [mem_outcomes_seq] at hreached
  obtain ⟨behindGap, ⟨behindKeyword, ⟨behindModifiers, ⟨behindEdge, hedge, hmodifiers⟩,
    hkeyword⟩, hgap⟩, hname⟩ := hreached
  rw [mem_outcomes_part] at hmodifiers hkeyword hname
  obtain ⟨modifiers, hmodifiers, rfl⟩ := hmodifiers
  obtain ⟨keyword, hkeyword, rfl⟩ := hkeyword
  obtain ⟨name, hname, rfl⟩ := hname
  obtain ⟨edge, hedgeMoves, hedgeCases⟩ := exists_edge_of_mem_outcomes hedge
  obtain ⟨firstPassed, words, hfirstMoves, hfirstSpells, hwords⟩ :=
    exists_spells_modifiers hmodifiers
  obtain ⟨secondPassed, kind, more, hsecondMoves, hsecondSpells, hkind, hmore⟩ :=
    exists_spells_keyword hkeyword hgap rfl
  obtain ⟨namePassed, hnameMoves, hnameNe, hnameWord, hnameEnds⟩ :=
    exists_name_of_mem_outcomes hname
  have hkeywordPlain : ∀ word ∈ kindWords ++ recordWords, isPlainWord word = true := by decide
  have hplain : ∀ word ∈ words ++ kind :: more, isPlainWord word = true := by
    intro word hmem
    rcases List.mem_append.mp hmem with hmem | hmem
    · exact (hwords word hmem).1
    · apply hkeywordPlain
      rcases List.mem_cons.mp hmem with rfl | hmem
      · exact List.mem_append_left _ hkind
      · exact List.mem_append_right _ (hmore word hmem)
  let reading : TypeReading start.place := {
    edge, behindEdge := behindEdge.place, front := firstPassed ++ secondPassed,
    modifiers := words, kind, more, nameStart := behindGap.place, name := namePassed,
    stop := name.place, edge_moves := hedgeMoves, edge_cases := hedgeCases,
    front_moves := hfirstMoves.trans hsecondMoves, spells := hfirstSpells.append hsecondSpells,
    plain := hplain, modifiers_not_mem := fun word hword => (hwords word hword).2,
    kind_mem := hkind, more_mem := hmore, name_moves := hnameMoves, name_ne := hnameNe,
    name_word := hnameWord, name_ends := hnameEnds }
  exact ⟨reading, rfl, rfl⟩

/-- A match of the shape of types reads as a declaration whose name it marks. -/
theorem exists_typeReading_of_produces {found : Match Mark} (hproduces : typeShape.Produces found) :
    ∃ reading : TypeReading found.whole.start, reading.stop = found.whole.stop ∧
      found.part? .name = some ⟨reading.nameStart, reading.stop⟩ := by
  obtain ⟨reached, hreached, hstop, hparts⟩ := hproduces
  obtain ⟨reading, hreadingStop, hhead⟩ := exists_typeReading hreached
  refine ⟨reading, ?_, ?_⟩
  · rw [hstop, hreadingStop]
  · rw [Match.part?, hparts]
    cases hlist : reached.parts with
    | nil => simp [hlist] at hhead
    | cons first rest =>
        rw [hlist] at hhead
        have hfirst : first = (.name, ⟨reading.nameStart, reading.stop⟩) := Option.some.inj hhead
        simp [hfirst]

theorem isWord_eq_false_of_isEdge {c : Char} (hc : isEdge c = true) : isWord c = false := by
  simp only [isEdge, Bool.or_eq_true, decide_eq_true_eq] at hc
  rcases hc with (((hblank | rfl) | rfl) | rfl) | rfl
  · exact isWord_eq_false_of_isBlank hblank
  · decide
  · decide
  · decide
  · decide

/-- Behind modifiers, what follows the first word that is none of them stands behind the
keyword. -/
theorem mem_of_append_eq {α : Type} {modifiers more before rest behind : List α}
    {kind other name : α}
    (heq : modifiers ++ kind :: more = before ++ other :: (rest ++ name :: behind))
    (hother : other ∉ modifiers) : name ∈ more := by
  rw [List.append_eq_append_iff] at heq
  rcases heq with ⟨between, -, hmore⟩ | ⟨between, hmodifiers, hmore⟩
  · cases between with
    | nil =>
        rw [(List.cons.inj hmore).2]
        simp
    | cons first between =>
        rw [(List.cons.inj hmore).2]
        simp
  · cases between with
    | nil =>
        rw [← (List.cons.inj hmore).2]
        simp
    | cons first between =>
        have hfirst : other = first := (List.cons.inj hmore).1
        exact absurd (by simp [hmodifiers, hfirst]) hother

namespace TypeReading

variable {start place : Cursor} (outer : TypeReading start) (inner : TypeReading place)

theorem isBlank_or_isWord {c : Char} (hc : c ∈ outer.front) :
    isBlank c = true ∨ isWord c = true := by
  rcases isBlank_or_mem_words hc with hblank | ⟨word, hword, hmem⟩
  · exact Or.inl hblank
  · rw [outer.spells.words_eq] at hword
    exact Or.inr ((isPlainWord_iff.mp (outer.plain word hword)).2 c hmem)

/-- The words read before a name and the name itself are the first words from the edge
on, where the text goes on with words and white space only. -/
theorem words_name {behind : List Char}
    (hbehind : ∀ c ∈ behind.head?, isBlank c = true) :
    words (inner.front ++ (inner.name ++ behind)) =
      inner.modifiers ++ inner.kind :: (inner.more ++ inner.name :: words behind.tail) := by
  have hsolid : ∀ c ∈ inner.name, isBlank c = false := by
    intro c hc
    by_contra hblank
    have hfalse := isWord_eq_false_of_isBlank (by simpa using hblank)
    rw [inner.name_word c hc] at hfalse
    contradiction
  have hname : words (inner.name ++ behind) = inner.name :: words behind.tail := by
    cases behind with
    | nil => simp [words_of_forall inner.name_ne hsolid]
    | cons c behind =>
        have hc := hbehind c rfl
        rw [words_append_blank hc, words_of_forall inner.name_ne hsolid]
        rfl
  rw [inner.spells.words, hname]
  simp

/-- If the text breaks off before the name of a declaration, a name read from what is
left of it is a later word of the keyword. -/
theorem name_mem_more {left cut behind : List Char} (hfront : outer.front = left ++ cut)
    (hleft : left = [] ∨ ∃ line c, left = line ++ [c] ∧ isBlank c = true)
    (hplace : left = inner.front ++ (inner.name ++ behind) ∨ ∃ before c,
      left = before ++ c :: (inner.front ++ (inner.name ++ behind)) ∧ isEdge c = true)
    (hends : ∀ c ∈ behind.head?, isWord c = false) : inner.name ∈ outer.more := by
  have hchars : ∀ c ∈ left, isWord c = false → isBlank c = true := by
    intro c hc hword
    have hmem : c ∈ outer.front := by simp [hfront, hc]
    rcases outer.isBlank_or_isWord hmem with hblank | htrue
    · exact hblank
    · rw [hword] at htrue
      contradiction
  have hmem : ∀ c ∈ behind, c ∈ left := by
    intro c hc
    rcases hplace with heq | ⟨before, d, heq, -⟩ <;> rw [heq] <;> simp [hc]
  have hbehind : ∀ c ∈ behind.head?, isBlank c = true := fun c hc =>
    hchars c (hmem c (List.mem_of_head? hc)) (hends c hc)
  -- The words of what is left end with those that the inner reading goes through.
  have hinner : ∃ before, words left = before ++
      (inner.modifiers ++ inner.kind :: (inner.more ++ inner.name :: words behind.tail)) := by
    rw [← inner.words_name hbehind]
    rcases hplace with heq | ⟨before, c, heq, hc⟩
    · exact ⟨[], by rw [heq]; rfl⟩
    · have hblank := hchars c (by rw [heq]; simp) (isWord_eq_false_of_isEdge hc)
      exact ⟨words before, by rw [heq, words_append_blank hblank]⟩
  -- They are the first words of the declaration that is broken off.
  have houter : outer.modifiers ++ outer.kind :: outer.more = words left ++ words cut := by
    rw [← outer.spells.words_eq, hfront]
    rcases hleft with rfl | ⟨line, c, rfl, hc⟩
    · rfl
    · have hline : words (line ++ [c]) = words line := by
        rw [words_append_blank hc, words_nil, List.append_nil]
      rw [List.append_assoc, hline]
      exact words_append_blank hc line cut
  obtain ⟨before, hwords⟩ := hinner
  rw [hwords] at houter
  have hsplit : outer.modifiers ++ outer.kind :: outer.more =
      (before ++ inner.modifiers) ++
        inner.kind :: (inner.more ++ inner.name :: (words behind.tail ++ words cut)) := by
    rw [houter]
    simp
  exact mem_of_append_eq hsplit fun hmodifier =>
    outer.modifiers_not_mem _ hmodifier inner.kind_mem

/-- If the name of a declaration ends behind a line break, the text up to the break is its
edge and the first part of what precedes its name. -/
theorem exists_left {line rest : List Char} (hafter : start.after = line ++ '\n' :: rest)
    (hcross : start.offset + byteWidth line < outer.stop.offset) :
    ∃ left cut, outer.front = left ++ cut ∧
      (left = [] ∨ ∃ line c, left = line ++ [c] ∧ isBlank c = true) ∧
      line ++ ['\n'] = outer.edge ++ left := by
  have hbreak : isBlank '\n' = true := by decide
  have hmoves := outer.edge_moves.trans outer.front_moves
  have hboth : (line ++ ['\n']) ++ rest =
      (outer.edge ++ outer.front) ++ outer.nameStart.after := by
    rw [← hmoves.after, hafter, List.append_assoc]
    rfl
  obtain ⟨cut, hcut⟩ : ∃ cut, outer.edge ++ outer.front = (line ++ ['\n']) ++ cut := by
    rcases List.append_eq_append_iff.mp hboth with ⟨cut, hcut, -⟩ | ⟨behind, hline, hname⟩
    · exact ⟨cut, hcut⟩
    · rcases List.eq_nil_or_concat behind with rfl | ⟨before, c, rfl⟩
      · exact ⟨[], by rw [hline]; simp⟩
      · -- The name would have to get past the line break.
        rw [List.concat_eq_append, ← List.append_assoc] at hline
        obtain ⟨hsame, hc⟩ := List.append_inj' hline rfl
        have hnot : '\n' ∉ outer.name := fun hmem =>
          absurd (outer.name_word '\n' hmem) (by decide)
        have hnameAfter : outer.nameStart.after = before ++ '\n' :: rest := by
          rw [hname, List.concat_eq_append, ← hc]
          simp
        have hle := outer.name_moves.offset_le_of_not_mem hnameAfter hnot
        rw [hmoves.offset] at hle
        rw [hsame, byteWidth_append] at hcross
        omega
  rcases outer.edge_cases with ⟨hedge, -⟩ | ⟨c, hedge, -⟩
  · rw [hedge, List.nil_append] at hcut
    exact ⟨line ++ ['\n'], cut, hcut, Or.inr ⟨line, '\n', rfl, hbreak⟩, by rw [hedge]; rfl⟩
  · rw [hedge] at hcut ⊢
    cases line with
    | nil =>
        obtain ⟨hc, hfront⟩ := List.cons.inj hcut
        exact ⟨[], cut, hfront, Or.inl rfl, by rw [hc]; rfl⟩
    | cons d line =>
        obtain ⟨hc, hfront⟩ := List.cons.inj hcut
        exact ⟨line ++ ['\n'], cut, hfront, Or.inr ⟨line, '\n', rfl, hbreak⟩, by rw [hc]; rfl⟩

/-- A reading that begins no earlier than another one begins with the words behind the
edge of that one, or behind an edge among them. -/
theorem place_cases {text left passed behind : List Char} (hleft : text = outer.edge ++ left)
    (hbefore : place.before = passed.reverse ++ start.before)
    (hinner : text = passed ++ (inner.edge ++ (inner.front ++ (inner.name ++ behind)))) :
    left = inner.front ++ (inner.name ++ behind) ∨ ∃ before c,
      left = before ++ c :: (inner.front ++ (inner.name ++ behind)) ∧ isEdge c = true := by
  rw [hleft] at hinner
  rcases inner.edge_cases with ⟨hedge, hstart⟩ | ⟨c, hedge, hc⟩
  · left
    have hpassed : passed = [] := by
      rw [hstart] at hbefore
      simpa using (List.append_eq_nil_iff.mp hbefore.symm).1
    rw [hedge, hpassed, List.nil_append, List.nil_append] at hinner
    rcases outer.edge_cases with ⟨houter, -⟩ | ⟨d, houter, hd⟩
    · rwa [houter] at hinner
    · -- The first word would begin with the edge.
      exfalso
      rw [houter] at hinner
      cases hfront : inner.front with
      | nil => exact inner.spells.ne_nil (by simp) hfront
      | cons e front =>
          have hword := inner.spells.starts e (by rw [hfront]; rfl)
          rw [hfront] at hinner
          have hde : d = e := (List.cons.inj hinner).1
          rw [← hde, isWord_eq_false_of_isEdge hd] at hword
          contradiction
  · rw [hedge] at hinner
    rcases outer.edge_cases with ⟨houter, -⟩ | ⟨d, houter, -⟩
    · rw [houter] at hinner
      exact Or.inr ⟨passed, c, hinner, hc⟩
    · rw [houter] at hinner
      cases passed with
      | nil => exact Or.inl (List.cons.inj hinner).2
      | cons e passed => exact Or.inr ⟨passed, c, (List.cons.inj hinner).2, hc⟩

/-- If a line break cuts a declaration before its name, the name of a declaration that is
read from what is left of it is a keyword. -/
theorem isKeyword_name {line rest passed behind : List Char}
    (hafter : start.after = line ++ '\n' :: rest)
    (hcross : start.offset + byteWidth line < outer.stop.offset)
    (hbefore : place.before = passed.reverse ++ start.before)
    (hinner : line ++ ['\n'] =
      passed ++ (inner.edge ++ (inner.front ++ (inner.name ++ behind))))
    (hends : ∀ c ∈ behind.head?, isWord c = false) :
    isKeyword (String.ofList inner.name) = true := by
  obtain ⟨left, cut, hfront, hleft, hedge⟩ := outer.exists_left hafter hcross
  have hplace := outer.place_cases inner hedge hbefore hinner
  have hmem := outer.name_mem_more inner hfront hleft hplace hends
  have hkeywords : ∀ word ∈ recordWords, isKeyword (String.ofList word) = true := by decide
  exact hkeywords inner.name (outer.more_mem inner.name hmem)

end TypeReading

end SourceAtlas.CSharp
