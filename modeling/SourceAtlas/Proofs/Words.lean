import SourceAtlas.Proofs.Paths
import SourceAtlas.Proofs.Windows

/-!
# Words of a text

White space separates the words of a text, so where a part of a text ends in white space
its words can be told without what follows.  A pattern of fixed words with gaps behind
them spells these words whatever comes next.
-/

namespace SourceAtlas.Text

theorem insideFlips_cons_cons {first second : Nat} {flips : List Nat} {code : Nat} :
    insideFlips (first :: second :: flips) code = true ↔
      first ≤ code ∧ (code < second ∨ insideFlips flips code = true ∧ second ≤ code) := by
  simp only [insideFlips]
  by_cases hfirst : code < first
  · simp [hfirst]
  · by_cases hsecond : code < second
    · simp [hfirst, hsecond, Nat.le_of_not_lt hfirst]
    · simp [hfirst, hsecond, Nat.le_of_not_lt hfirst, Nat.le_of_not_lt hsecond]

/-- The code points of white space. -/
def blankCodes : List Nat :=
  [9, 10, 11, 12, 13, 32, 0x85, 0xa0, 0x1680, 0x2000, 0x2001, 0x2002, 0x2003, 0x2004, 0x2005,
    0x2006, 0x2007, 0x2008, 0x2009, 0x200a, 0x2028, 0x2029, 0x202f, 0x205f, 0x3000]

theorem mem_blankCodes {c : Char} (hc : isBlank c = true) : c.toNat ∈ blankCodes := by
  have hval : c.val.toNat = c.toNat := rfl
  unfold isBlank at hc
  split at hc
  · simp only [Bool.or_eq_true, decide_eq_true_eq, Bool.and_eq_true, UInt32.le_iff_toNat_le,
      hval] at hc
    rcases hc with rfl | hrange
    · decide
    · have hlow : 9 ≤ c.toNat := hrange.1
      have hhigh : c.toNat ≤ 13 := hrange.2
      simp only [blankCodes, List.mem_cons, List.not_mem_nil, or_false]
      omega
  · simp only [blankFlips, insideFlips_cons_cons] at hc
    have hnil : insideFlips [] c.toNat = false := rfl
    simp only [hnil, Bool.false_eq_true, false_and, or_false] at hc
    simp only [blankCodes, List.mem_cons, List.not_mem_nil, or_false]
    omega

theorem isWord_eq_false_of_isBlank {c : Char} (hc : isBlank c = true) : isWord c = false := by
  have hcodes : ∀ code ∈ blankCodes, isWord (Char.ofNat code) = false := by
    decide +kernel
  have hword := hcodes c.toNat (mem_blankCodes hc)
  rwa [Char.ofNat_toNat] at hword

theorem isBlank_eq_false_of_isWord {c : Char} (hc : isWord c = true) : isBlank c = false := by
  by_contra hblank
  have hfalse := isWord_eq_false_of_isBlank (by simpa using hblank)
  rw [hc] at hfalse
  contradiction

theorem splitLoop_append_separator {separates : Char → Bool} {c : Char}
    (hc : separates c = true) (piece first rest : List Char) :
    splitLoop separates piece (first ++ c :: rest) [] =
      splitLoop separates piece first [] ++ splitWhere separates rest := by
  induction first generalizing piece with
  | nil =>
      simp only [List.nil_append, splitLoop, hc, if_true, splitWhere]
      rw [splitLoop_eq]
  | cons d first ih =>
      simp only [List.cons_append, splitLoop]
      split
      · rw [splitLoop_eq, ih, splitLoop_eq separates [] first [piece.reverse],
          List.append_assoc]
      · exact ih _

@[simp] theorem words_nil : words [] = [] := rfl

theorem words_append_blank {c : Char} (hc : isBlank c = true) (first rest : List Char) :
    words (first ++ c :: rest) = words first ++ words rest := by
  unfold words
  rw [splitWhere, splitLoop_append_separator hc, List.filter_append]
  rfl

theorem words_blanks_append {blanks : List Char} (hblanks : ∀ c ∈ blanks, isBlank c = true)
    (rest : List Char) : words (blanks ++ rest) = words rest := by
  induction blanks with
  | nil => rfl
  | cons c blanks ih =>
      obtain ⟨hc, hblanks⟩ := List.forall_mem_cons.mp hblanks
      rw [List.cons_append, ← List.nil_append (c :: (blanks ++ rest)), words_append_blank hc,
        ih hblanks, words_nil, List.nil_append]

theorem words_of_forall {word : List Char} (hne : word ≠ [])
    (hword : ∀ c ∈ word, isBlank c = false) : words word = [word] := by
  rw [words, splitWhere_of_forall hword]
  simp [hne]

/-- Every character of a text is white space or stands in one of its words. -/
theorem isBlank_or_mem_words {text : List Char} {c : Char} (hc : c ∈ text) :
    isBlank c = true ∨ ∃ word ∈ words text, c ∈ word := by
  have hpieces : ∀ (piece text : List Char), c ∈ piece ∨ c ∈ text ∧ isBlank c = false →
      ∃ word ∈ splitLoop isBlank piece text [], c ∈ word := by
    intro piece text hmem
    induction text generalizing piece with
    | nil => exact ⟨piece.reverse, by simp [splitLoop], by simpa using hmem⟩
    | cons d text ih =>
        simp only [splitLoop]
        split
        · next hd =>
            rw [splitLoop_eq]
            rcases hmem with hpiece | ⟨hmem, hblank⟩
            · exact ⟨piece.reverse, by simp, by simpa using hpiece⟩
            · have hne : c ≠ d := by
                rintro rfl
                simp [hd] at hblank
              obtain ⟨word, hword, hcword⟩ :=
                ih [] (Or.inr ⟨(List.mem_cons.mp hmem).resolve_left hne, hblank⟩)
              exact ⟨word, List.mem_append_right _ hword, hcword⟩
        · apply ih
          rcases hmem with hpiece | ⟨hmem, hblank⟩
          · exact Or.inl (List.mem_cons_of_mem _ hpiece)
          · rcases List.mem_cons.mp hmem with rfl | hmem
            · exact Or.inl List.mem_cons_self
            · exact Or.inr ⟨hmem, hblank⟩
  by_cases hblank : isBlank c = true
  · exact Or.inl hblank
  · obtain ⟨word, hword, hcword⟩ := hpieces [] text (Or.inr ⟨hc, by simpa using hblank⟩)
    refine Or.inr ⟨word, List.mem_filter.mpr ⟨hword, ?_⟩, hcword⟩
    cases word with
    | nil => contradiction
    | cons d word => rfl

theorem mem_of_mem_words {text word : List Char} {c : Char} (hword : word ∈ words text)
    (hc : c ∈ word) : c ∈ text := by
  have hpieces : ∀ (piece text : List Char), word ∈ splitLoop isBlank piece text [] →
      c ∈ piece ∨ c ∈ text := by
    intro piece text hmem
    induction text generalizing piece with
    | nil =>
        have hpiece : word = piece.reverse := by simpa [splitLoop] using hmem
        rw [hpiece] at hc
        exact Or.inl (List.mem_reverse.mp hc)
    | cons d text ih =>
        simp only [splitLoop] at hmem
        split at hmem
        · rw [splitLoop_eq] at hmem
          rcases List.mem_append.mp hmem with hfirst | hrest
          · have hpiece : word = piece.reverse := by simpa using hfirst
            rw [hpiece] at hc
            exact Or.inl (List.mem_reverse.mp hc)
          · exact Or.inr (List.mem_cons_of_mem _ ((ih [] hrest).resolve_left (by simp)))
        · rcases ih (d :: piece) hmem with hpiece | hrest
          · exact (List.mem_cons.mp hpiece).elim (fun heq => Or.inr (by simp [heq])) Or.inl
          · exact Or.inr (List.mem_cons_of_mem _ hrest)
  exact (hpieces [] text (List.mem_filter.mp hword).1).resolve_left (by simp)

theorem words_append_blanks {blanks : List Char} (hblanks : ∀ c ∈ blanks, isBlank c = true)
    (text : List Char) : words (text ++ blanks) = words text := by
  cases blanks with
  | nil => rw [List.append_nil]
  | cons c blanks =>
      obtain ⟨hc, hblanks⟩ := List.forall_mem_cons.mp hblanks
      have hnone := words_blanks_append hblanks []
      rw [List.append_nil, words_nil] at hnone
      rw [words_append_blank hc, hnone, List.append_nil]

/-- What is cut off the start of a text is white space. -/
theorem exists_blanks_trimStart (text : List Char) :
    ∃ front, (∀ c ∈ front, isBlank c = true) ∧ text = front ++ trimStart text :=
  ⟨text.takeWhile isBlank, List.all_eq_true.mp List.all_takeWhile,
    List.takeWhile_append_dropWhile.symm⟩

theorem words_trimStart (text : List Char) : words (trimStart text) = words text := by
  obtain ⟨front, hfront, htext⟩ := exists_blanks_trimStart text
  conv => rhs; rw [htext]
  rw [words_blanks_append hfront]

/-- What is cut off the end of a text is white space. -/
theorem exists_blanks_trimEnd (text : List Char) :
    ∃ behind, (∀ c ∈ behind, isBlank c = true) ∧ text = trimEnd text ++ behind := by
  have hblank : ∀ c ∈ text.reverse.takeWhile isBlank, isBlank c = true :=
    List.all_eq_true.mp List.all_takeWhile
  refine ⟨(text.reverse.takeWhile isBlank).reverse,
    fun c hc => hblank c (List.mem_reverse.mp hc), ?_⟩
  rw [trimEnd, dropEndWhile, ← List.reverse_append, List.takeWhile_append_dropWhile,
    List.reverse_reverse]

theorem words_trim (text : List Char) : words (trim text) = words text := by
  obtain ⟨behind, hbehind, htext⟩ := exists_blanks_trimEnd (trimStart text)
  rw [← words_trimStart text, htext, words_append_blanks hbehind, trim]

theorem words_ne_nil {text : List Char} {c : Char} (hc : c ∈ text) (hsolid : isBlank c = false) :
    words text ≠ [] := by
  intro hnil
  rcases isBlank_or_mem_words hc with hblank | ⟨word, hword, -⟩
  · rw [hsolid] at hblank
    contradiction
  · rw [hnil] at hword
    contradiction

theorem trim_ne_nil {text : List Char} {c : Char} (hc : c ∈ text) (hsolid : isBlank c = false) :
    trim text ≠ [] := by
  intro hnil
  apply words_ne_nil hc hsolid
  rw [← words_trim, hnil, words_nil]

/-- A stretch of text that spells words, whatever follows it. -/
structure Spells (passed : List Char) (spelled : List (List Char)) : Prop where
  words : ∀ rest, words (passed ++ rest) = spelled ++ words rest
  starts : ∀ c ∈ passed.head?, isWord c = true

namespace Spells

variable {passed passed' : List Char} {spelled spelled' : List (List Char)}

theorem nil : Spells [] [] where
  words _ := rfl
  starts := by simp

theorem append (hfirst : Spells passed spelled) (hsecond : Spells passed' spelled') :
    Spells (passed ++ passed') (spelled ++ spelled') where
  words := by
    intro rest
    rw [List.append_assoc, hfirst.words, hsecond.words, List.append_assoc]
  starts := by
    cases passed with
    | nil => exact hsecond.starts
    | cons c passed => exact hfirst.starts

/-- A word with a gap behind it. -/
theorem word {word : List Char} (hne : word ≠ []) (hword : ∀ c ∈ word, isWord c = true) {c : Char}
    {blanks : List Char} (hc : isBlank c = true) (hblanks : ∀ d ∈ blanks, isBlank d = true) :
    Spells (word ++ c :: blanks) [word] where
  words := by
    intro rest
    have hsolid : ∀ d ∈ word, isBlank d = false := fun d hd =>
      isBlank_eq_false_of_isWord (hword d hd)
    rw [List.append_assoc, List.cons_append, words_append_blank hc,
      words_of_forall hne hsolid, words_blanks_append hblanks]
  starts := by
    cases word with
    | nil => contradiction
    | cons d word =>
        intro e he
        exact hword e (by simp [Option.some.inj he])

theorem words_eq (hspells : Spells passed spelled) : SourceAtlas.Text.words passed = spelled := by
  have hall := hspells.words []
  simpa using hall

theorem ne_nil (hspells : Spells passed spelled) (hne : spelled ≠ []) : passed ≠ [] := by
  rintro rfl
  exact hne hspells.words_eq.symm

end Spells

namespace Pattern

variable {Part : Type}

theorem moves_of_mem_outcomes_literal {text : String} {start reached : Progress Part}
    (hreached : reached ∈ (literal text).outcomes start) :
    start.place.Moves text.toList reached.place := by
  simp only [literal, outcomes] at hreached
  split at hreached
  · next place hplace =>
      rw [List.mem_singleton] at hreached
      exact hreached ▸ Cursor.moves_of_skipWord? hplace
  · contradiction

/-- One of some words is passed by a choice between them. -/
theorem exists_moves_of_mem_outcomes_anyWord {first : String} {others : List String}
    {start reached : Progress Part} (hreached : reached ∈ (anyWord first others).outcomes start) :
    ∃ text ∈ first :: others, start.place.Moves text.toList reached.place := by
  induction others generalizing first with
  | nil => exact ⟨first, List.mem_cons_self, moves_of_mem_outcomes_literal hreached⟩
  | cons second others ih =>
      rcases List.mem_append.mp hreached with hreached | hreached
      · exact ⟨first, List.mem_cons_self, moves_of_mem_outcomes_literal hreached⟩
      · obtain ⟨text, htext, hmoves⟩ := ih hreached
        exact ⟨text, List.mem_cons_of_mem _ htext, hmoves⟩

theorem exists_moves_of_mem_outcomes_runOf {test : Char → Bool} {start reached : Progress Part}
    (hreached : reached ∈ (runOf test).outcomes start) :
    ∃ c passed, start.place.Moves (c :: passed) reached.place ∧ test c = true ∧
      ∀ d ∈ passed, test d = true := by
  obtain ⟨middle, hmiddle, hrun⟩ := List.mem_flatMap.mp hreached
  obtain ⟨c, next, hnext, hc, rfl⟩ := mem_outcomes_one.mp hmiddle
  simp only [outcomes, List.mem_singleton] at hrun
  obtain ⟨passed, hmoves, hpassed⟩ := Cursor.exists_moves_skipWhile test next
  refine ⟨c, passed, ?_, hc, hpassed⟩
  rw [hrun]
  exact (Cursor.moves_of_next? hnext).trans hmoves

/-- What a pattern passes spells words of a kind. -/
def SpellsOut (pattern : Pattern Part) (Kind : List (List Char) → Prop) : Prop :=
  ∀ start, ∀ reached ∈ pattern.outcomes start,
    ∃ passed spelled, start.place.Moves passed reached.place ∧ Spells passed spelled ∧
      Kind spelled

/-- Whether a text is a word that has word characters only. -/
def isPlainWord (text : List Char) : Bool :=
  !text.isEmpty && text.all isWord

theorem isPlainWord_iff {text : List Char} :
    isPlainWord text = true ↔ text ≠ [] ∧ ∀ c ∈ text, isWord c = true := by
  simp [isPlainWord]

theorem spellsOut_copies {first : String} {others : List String}
    (hplain : ∀ text ∈ first :: others, isPlainWord text.toList = true) :
    (copies (anyWord first others ++ gap) : Pattern Part).SpellsOut fun spelled =>
      ∀ word ∈ spelled, word ∈ (first :: others).map String.toList := by
  intro start reached hreached
  simp only [outcomes] at hreached
  generalize start.place.stop - start.place.offset = count at hreached
  induction count generalizing start with
  | zero =>
      simp only [repeated, List.mem_singleton] at hreached
      exact ⟨[], [], hreached ▸ Cursor.Moves.refl _, .nil, by simp⟩
  | succ count ih =>
      simp only [repeated, List.mem_append, List.mem_flatMap, List.mem_singleton] at hreached
      rcases hreached with ⟨middle, hmiddle, hreached⟩ | rfl
      · obtain ⟨behindWord, hword, hgap⟩ := List.mem_flatMap.mp hmiddle
        obtain ⟨text, htext, hmoves⟩ := exists_moves_of_mem_outcomes_anyWord hword
        obtain ⟨c, blanks, hgapMoves, hc, hblanks⟩ := exists_moves_of_mem_outcomes_runOf hgap
        obtain ⟨passed, spelled, hrest, hspells, hkind⟩ := ih middle hreached
        obtain ⟨hne, hword⟩ := isPlainWord_iff.mp (hplain text htext)
        have hfirst : Spells (text.toList ++ c :: blanks) [text.toList] :=
          .word hne hword hc hblanks
        refine ⟨_, _, (hmoves.trans hgapMoves).trans hrest, hfirst.append hspells, ?_⟩
        intro word hmem
        rcases List.mem_append.mp hmem with hmem | hmem
        · rw [List.mem_singleton] at hmem
          exact List.mem_map.mpr ⟨text, htext, hmem.symm⟩
        · exact hkind word hmem
      · exact ⟨[], [], Cursor.Moves.refl _, .nil, by simp⟩

end Pattern

end SourceAtlas.Text
