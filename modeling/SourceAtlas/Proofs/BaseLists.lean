import SourceAtlas.Proofs.ParameterLists
import SourceAtlas.Proofs.Scans

/-!
# Base lists

Behind the name of a type its header may hold type parameters, a primary constructor, a
colon with base types, and constraints.  The two lists in front are walked over by counting
their own brackets, the constraints begin with the first `where` that is a word of its own,
and what is left is cut at its commas.  So the base types are read back as they were
written, and without a colon there are none.
-/

namespace SourceAtlas.Text

/-- At a place in a text begins a word that no further word character touches.  What stands
before the place is given with the nearest character first. -/
def GoesOnWith (word before after : List Char) : Prop :=
  before.head?.any isWord = false ∧
    ∃ rest, after = word ++ rest ∧ rest.head?.any isWord = false

/-- A word stands in a text with no further word character next to it. -/
def HasWord (word text : List Char) : Prop :=
  ∃ before after, text = before ++ after ∧ GoesOnWith word before.reverse after

instance (word before after : List Char) : Decidable (GoesOnWith word before after) :=
  decidable_of_iff (before.head?.any isWord = false ∧ word <+: after ∧
      (after.drop word.length).head?.any isWord = false) <| by
    constructor
    · rintro ⟨hbefore, ⟨rest, rfl⟩, hrest⟩
      exact ⟨hbefore, rest, rfl, by simpa using hrest⟩
    · rintro ⟨hbefore, rest, rfl, hrest⟩
      exact ⟨hbefore, List.prefix_append word rest, by simpa using hrest⟩

instance (word text : List Char) : Decidable (HasWord word text) :=
  decidable_of_iff (∃ count ≤ text.length,
      GoesOnWith word (text.take count).reverse (text.drop count)) <| by
    constructor
    · rintro ⟨count, -, hword⟩
      exact ⟨text.take count, text.drop count, (List.take_append_drop count text).symm, hword⟩
    · rintro ⟨before, after, rfl, hword⟩
      refine ⟨before.length, by simp, ?_⟩
      rwa [List.take_left', List.drop_left'] <;> rfl

variable {word text front rest clause : List Char}

/-- A comma keeps the words of a text apart. -/
theorem HasWord.of_append_comma (hword : HasWord word (front ++ ',' :: rest)) (hne : word ≠ [])
    (hcomma : ',' ∉ word) : HasWord word front ∨ HasWord word rest := by
  obtain ⟨before, after, htext, hbefore, behind, rfl, hbehind⟩ := hword
  rcases List.append_eq_append_iff.mp htext with ⟨more, rfl, hrest⟩ | ⟨more, rfl, hafter⟩
  · -- The word begins behind the comma.
    cases more with
    | nil =>
        obtain ⟨c, word, rfl⟩ := List.exists_cons_of_ne_nil hne
        obtain ⟨rfl, -⟩ := List.cons.inj hrest
        exact absurd List.mem_cons_self hcomma
    | cons c more =>
        obtain ⟨-, rfl⟩ := List.cons.inj hrest
        refine Or.inr ⟨more, word ++ behind, rfl, ?_, behind, rfl, hbehind⟩
        rcases List.eq_nil_or_concat more with rfl | ⟨init, d, rfl⟩
        · rfl
        · simpa using hbefore
  · -- The word ends before the comma.
    rcases List.append_eq_append_iff.mp hafter with ⟨more', rfl, hbehind'⟩ | ⟨more', rfl, hrest⟩
    · refine Or.inl ⟨before, word ++ more', rfl, hbefore, more', rfl, ?_⟩
      cases more' with
      | nil => rfl
      | cons c more' => simpa [hbehind'] using hbehind
    · cases more' with
      | nil => exact Or.inl ⟨before, more, rfl, hbefore, [], by simp, rfl⟩
      | cons c more' =>
          obtain ⟨rfl, -⟩ := List.cons.inj hrest
          exact absurd (by simp) hcomma

theorem not_hasWord_join {pieces : List (List Char)} (hne : word ≠ []) (hcomma : ',' ∉ word)
    (hpieces : ∀ piece ∈ pieces, ¬HasWord word piece) : ¬HasWord word (join [','] pieces) := by
  induction pieces with
  | nil =>
      rintro ⟨before, after, htext, -, behind, rfl, -⟩
      simp [join, hne] at htext
  | cons piece pieces ih =>
      obtain ⟨hpiece, hpieces⟩ := List.forall_mem_cons.mp hpieces
      by_cases hlast : pieces = []
      · rwa [hlast, join_singleton]
      · rw [join_cons hlast, List.append_assoc, List.singleton_append]
        intro hword
        rcases hword.of_append_comma hne hcomma with hfirst | hrest
        · exact hpiece hfirst
        · exact ih hpieces hrest

namespace Cursor

variable {start place goal : Cursor} {passed : List Char}

/-- The window reaches to the end of the text. -/
def IsWhole (place : Cursor) : Prop :=
  place.stop = place.offset + byteWidth place.after

theorem isWhole_ofText (text : List Char) : (ofText text).IsWhole := by
  simp [IsWhole, ofText]

theorem Moves.isWhole (hmoves : start.Moves passed place) (hstart : start.IsWhole) :
    place.IsWhole := by
  have hoffset := hmoves.offset
  unfold IsWhole at *
  rw [hmoves.after, byteWidth_append] at hstart
  rw [hmoves.stop]
  omega

theorem IsWhole.head?_eq (hplace : place.IsWhole) : place.head? = place.after.head? := by
  unfold IsWhole at hplace
  unfold head?
  cases hafter : place.after with
  | nil => simp
  | cons c after =>
      have hc := c.utf8Size_pos
      rw [hafter, byteWidth_cons] at hplace
      rw [if_pos (by omega)]

/-- From the start of a text every part of it is moved over. -/
theorem moves_ofText (front rest : List Char) :
    ∃ goal, (ofText (front ++ rest)).Moves front goal := by
  refine ⟨⟨front.reverse, rest, byteWidth front, byteWidth (front ++ rest)⟩, ?_⟩
  constructor
  · simp [ofText]
  · rfl
  · simp [ofText]
  · rfl
  · intro init c hfront
    have hc := c.utf8Size_pos
    simp only [ofText, hfront, byteWidth_append, byteWidth_cons]
    omega

theorem IsWhole.exists_next? {c : Char} (hplace : place.IsWhole)
    (hafter : place.after = c :: rest) :
    ∃ next, place.next? = some (c, next) ∧ next.IsWhole ∧ next.after = rest := by
  have hinside : place.offset < place.stop := by
    have hc := c.utf8Size_pos
    rw [hplace, hafter, byteWidth_cons]
    omega
  have hmoves : place.Moves [c] (place.past c rest) := .past hafter hinside
  exact ⟨_, Widening.next?_of_after hafter hinside, hmoves.isWhole hplace, rfl⟩

theorem exists_skipWord? (hafter : place.after = word ++ rest) (hplace : place.IsWhole) :
    ∃ goal, place.skipWord? word = some goal := by
  induction word generalizing place with
  | nil => exact ⟨place, rfl⟩
  | cons c word ih =>
      obtain ⟨next, hnext, hwhole, hrest⟩ := hplace.exists_next? hafter
      obtain ⟨goal, hgoal⟩ := ih hrest hwhole
      refine ⟨goal, ?_⟩
      rw [skipWord?, hnext]
      simpa using hgoal

end Cursor

namespace Pattern

variable {Part : Type} {pattern : Pattern Part} {start goal : Cursor} {passed : List Char}

/-- A search goes on past places where the pattern does not match. -/
theorem find?_of_moves (hmoves : start.Moves passed goal)
    (hnone : ∀ other ahead, start.LeadsTo other → other.Moves ahead goal → ahead ≠ [] →
      pattern.matchAt? other = none) :
    pattern.find? start = pattern.find? goal := by
  induction passed generalizing start with
  | nil => rw [hmoves.eq_of_nil]
  | cons c passed ih =>
      have hinside := hmoves.inside (by simp)
      have hstep : start.Moves [c] (start.past c (passed ++ goal.after)) :=
        .past hmoves.after hinside
      have hle : (start.past c (passed ++ goal.after)).offset ≤ goal.offset := by
        rw [hmoves.offset, byteWidth_cons]
        simp only [Cursor.past]
        omega
      obtain ⟨ahead, heq, hahead⟩ := hstep.between hmoves hle
      obtain rfl : passed = ahead := (List.cons.inj heq).2
      rw [find?_eq, hnone start _ (.refl start) hmoves (by simp),
        Widening.next?_of_after hmoves.after hinside]
      exact ih hahead fun other ahead hleads => hnone other ahead (.trans ⟨[c], hstep⟩ hleads)

theorem mem_outcomes_wordEdge {start reached : Progress Part} :
    reached ∈ wordEdge.outcomes start ↔ atWordEdge start.place = true ∧ reached = start := by
  simp only [outcomes]
  split <;> simp_all

end Pattern

end SourceAtlas.Text

namespace SourceAtlas.CSharp.TypeDeclaration

open Text Text.Pattern

variable {list clause : List Char} {place : Cursor}

theorem goesOnWith_of_matchAt? (hplace : place.IsWhole) {found : Match Mark}
    (hfound : whereShape.matchAt? place = some found) :
    GoesOnWith "where".toList place.before place.after := by
  obtain ⟨rfl, reached, hreached, -⟩ := produces_of_matchAt? hfound
  obtain ⟨behind, hbehind, hlast⟩ := mem_outcomes_seq.mp hreached
  obtain ⟨first, hfirst, hword⟩ := mem_outcomes_seq.mp hbehind
  obtain ⟨hedge, rfl⟩ := mem_outcomes_wordEdge.mp hfirst
  obtain ⟨hedge', rfl⟩ := mem_outcomes_wordEdge.mp hlast
  have hmoves := moves_of_mem_outcomes_literal hword
  rw [atWordEdge, hplace.head?_eq, hmoves.after] at hedge
  rw [atWordEdge, (hmoves.isWhole hplace).head?_eq, Cursor.previous?, hmoves.before] at hedge'
  refine ⟨?_, reached.place.after, hmoves.after, ?_⟩
  · have hw : isWord 'w' = true := by decide
    simpa [Cursor.previous?, hw] using hedge
  · have he : isWord 'e' = true := by decide
    simpa [he] using hedge'

theorem exists_matchAt?_of_goesOnWith (hplace : place.IsWhole)
    (hword : GoesOnWith "where".toList place.before place.after) :
    ∃ found, whereShape.matchAt? place = some found ∧ found.whole.start = place := by
  obtain ⟨hbefore, rest, hafter, hrest⟩ := hword
  obtain ⟨goal, hgoal⟩ := Cursor.exists_skipWord? hafter hplace
  have hmoves := Cursor.moves_of_skipWord? hgoal
  have hbehind : goal.after = rest := by
    rw [hmoves.after] at hafter
    exact List.append_cancel_left hafter
  have hedge : atWordEdge place = true := by
    have hw : isWord 'w' = true := by decide
    rw [atWordEdge, hplace.head?_eq, hafter, Cursor.previous?, hbefore]
    simp [hw]
  have hedge' : atWordEdge goal = true := by
    have he : isWord 'e' = true := by decide
    rw [atWordEdge, (hmoves.isWhole hplace).head?_eq, hbehind, hrest, Cursor.previous?,
      hmoves.before]
    simp [he]
  have hreached : ({ place := goal, parts := [] } : Progress Mark) ∈
      whereShape.outcomes { place, parts := [] } := by
    refine mem_outcomes_seq.mpr ⟨{ place := goal, parts := [] }, mem_outcomes_seq.mpr
      ⟨_, mem_outcomes_wordEdge.mpr ⟨hedge, rfl⟩, ?_⟩, mem_outcomes_wordEdge.mpr ⟨hedge', rfl⟩⟩
    simp only [literal, outcomes, hgoal, List.mem_singleton]
  obtain ⟨found, hfound⟩ := exists_matchAt?_of_mem_outcomes hreached
  exact ⟨found, hfound, (produces_of_matchAt? hfound).1⟩

theorem withoutConstraints_eq_self (hlist : ¬HasWord "where".toList list) :
    withoutConstraints list = list := by
  obtain ⟨goal, hmoves⟩ := Cursor.moves_ofText list []
  rw [List.append_nil] at hmoves
  have hgoal := hmoves.isWhole (Cursor.isWhole_ofText list)
  have hend : goal.after = [] := by
    have hafter : list = list ++ goal.after := hmoves.after
    simpa using hafter
  have hnone : whereShape.find? (Cursor.ofText list) = none := by
    rw [find?_of_moves hmoves, find?_eq_none_of_le (by decide)]
    · rw [hgoal, hend]
      simp
    · intro other ahead hleads hahead _
      by_contra hmatch
      obtain ⟨found, hfound⟩ := Option.ne_none_iff_exists'.mp hmatch
      obtain ⟨before, hbefore⟩ := hleads
      have hword := goesOnWith_of_matchAt? (hbefore.isWhole (Cursor.isWhole_ofText list)) hfound
      have hreverse : other.before = before.reverse := by
        simpa [Cursor.ofText] using hbefore.before
      exact hlist ⟨before, other.after, hbefore.after, hreverse ▸ hword⟩
  unfold withoutConstraints
  simp only [hnone]

/-- Before the first `where` stands what is read. -/
theorem withoutConstraints_append (hlist : ¬HasWord "where".toList list)
    (hlast : list.getLast?.any isWord = false) (hclause : clause.head?.any isWord = false) :
    withoutConstraints (list ++ ("where".toList ++ clause)) = list := by
  obtain ⟨goal, hmoves⟩ := Cursor.moves_ofText list ("where".toList ++ clause)
  have hwhole := Cursor.isWhole_ofText (list ++ ("where".toList ++ clause))
  have hsplit : list ++ ("where".toList ++ clause) = list ++ goal.after := hmoves.after
  have hafter := (List.append_cancel_left hsplit).symm
  have hbefore : goal.before = list.reverse := by
    simpa [Cursor.ofText] using hmoves.before
  obtain ⟨found, hfound, hstart⟩ := exists_matchAt?_of_goesOnWith (hmoves.isWhole hwhole)
    ⟨by rwa [hbefore, List.head?_reverse], clause, hafter, hclause⟩
  have hfind : whereShape.find? (Cursor.ofText (list ++ ("where".toList ++ clause))) =
      some found := by
    rw [find?_of_moves hmoves, find?_eq, hfound]
    intro other ahead hleads hahead hne
    by_contra hmatch
    obtain ⟨found, hfound⟩ := Option.ne_none_iff_exists'.mp hmatch
    obtain ⟨before, hother⟩ := hleads
    obtain ⟨hbeforeOther, rest, hword, hrest⟩ :=
      goesOnWith_of_matchAt? (hother.isWhole hwhole) hfound
    have hboth := hahead.after
    rw [hword, hafter] at hboth
    have hlistEq : list = before ++ ahead := by
      have hwords : list ++ ("where".toList ++ clause) = before ++ other.after := hother.after
      rw [hword, hboth, ← List.append_assoc before] at hwords
      exact List.append_cancel_right hwords
    have hreverse : other.before = before.reverse := by
      simpa [Cursor.ofText] using hother.before
    rw [hreverse] at hbeforeOther
    rcases List.append_eq_append_iff.mp hboth with ⟨more, rfl, hmore⟩ | ⟨more, hmore, -⟩
    · -- A whole word before the constraints would be one of the list.
      refine hlist ⟨before, "where".toList ++ more, hlistEq, hbeforeOther, more, rfl, ?_⟩
      cases more with
      | nil => rfl
      | cons c more => simpa [hmore] using hrest
    · -- A part of the word would stand at the end of the list.
      rcases List.eq_nil_or_concat ahead with rfl | ⟨init, c, rfl⟩
      · contradiction
      · have hchars := (isPlainWord_iff.mp (by decide : isPlainWord "where".toList = true)).2
        have hc := hchars c (by simp [hmore])
        rw [hlistEq] at hlast
        simp [hc] at hlast
  unfold withoutConstraints
  simp only [hfind, hstart]
  exact hmoves.upTo_eq

/-! ## Lists in brackets -/

/-- A list in brackets with the blanks behind it, if there is one. -/
def listText (pair : Char × Char) (list? : Option (List Char × List Char)) : List Char :=
  match list? with
  | none => []
  | some (inside, gap) => pair.1 :: (inside ++ pair.2 :: gap)

/-- What a list holds is nested, and blanks follow it. -/
def IsList (list? : Option (List Char × List Char)) : Prop :=
  ∀ list ∈ list?, Nested bracketPairs list.1 ∧ ∀ c ∈ list.2, isBlank c = true

variable {pair : Char × Char} {list? : Option (List Char × List Char)} {rest : List Char}

theorem solid_listText_append (hpair : pair ∈ bracketPairs)
    (hrest : ∀ c ∈ rest.head?, isBlank c = false) :
    ∀ c ∈ (listText pair list? ++ rest).head?, isBlank c = false := by
  have hsolid : ∀ pair ∈ bracketPairs, isBlank pair.1 = false := by decide
  cases list? with
  | none => exact hrest
  | some list =>
      intro c hc
      obtain rfl := Option.some.inj hc
      exact hsolid pair hpair

/-- A list is skipped, and so is the absence of one if no list follows. -/
theorem skipBracketed?_listText (hpair : pair ∈ bracketPairs) (hlist : IsList list?)
    (habsent : list? = none → rest.head? ≠ some pair.1)
    (hrest : ∀ c ∈ rest.head?, isBlank c = false) :
    skipBracketed? pair.1 pair.2 (listText pair list? ++ rest) = some rest := by
  unfold skipBracketed?
  cases list? with
  | none => rw [listText, List.nil_append, if_neg (habsent rfl)]
  | some list =>
      obtain ⟨inside, gap⟩ := list
      obtain ⟨hinside, hgap⟩ := hlist _ rfl
      rw [listText, List.cons_append, List.append_assoc, List.cons_append, List.head?_cons,
        if_pos rfl, closerFrom?_group hpair hinside, Option.map_some, dropBytes_group hpair,
        trimStart_blanks_append hgap, trimStart_of_solid hrest]

/-- What a header holds before its base types, with the blanks in front. -/
structure HeaderFront where
  lead : List Char
  typeParameters? : Option (List Char × List Char)
  parameters? : Option (List Char × List Char)

namespace HeaderFront

def text (front : HeaderFront) : List Char :=
  front.lead ++ (listText ('<', '>') front.typeParameters? ++
    listText ('(', ')') front.parameters?)

structure WellWritten (front : HeaderFront) : Prop where
  lead : ∀ c ∈ front.lead, isBlank c = true
  typeParameters : IsList front.typeParameters?
  parameters : IsList front.parameters?

/-- What follows the front is no further part of it. -/
structure EndsBefore (front : HeaderFront) (rest : List Char) : Prop where
  solid : ∀ c ∈ rest.head?, isBlank c = false
  parameters : front.parameters? = none → rest.head? ≠ some '('
  typeParameters : front.parameters? = none → front.typeParameters? = none →
    rest.head? ≠ some '<'

variable {front : HeaderFront}

/-- Behind the lists of the front the reading of base types begins. -/
theorem WellWritten.skipBracketed? (hfront : front.WellWritten) (hends : front.EndsBefore rest) :
    (TypeDeclaration.skipBracketed? '<' '>' (trimStart (front.text ++ rest))).bind
      (TypeDeclaration.skipBracketed? '(' ')') = some rest := by
  have hangle : ('<', '>') ∈ bracketPairs := by decide
  have hround : ('(', ')') ∈ bracketPairs := by decide
  have hsolid : ∀ c ∈ (listText ('(', ')') front.parameters? ++ rest).head?,
      isBlank c = false :=
    solid_listText_append hround hends.solid
  have habsent : front.typeParameters? = none →
      (listText ('(', ')') front.parameters? ++ rest).head? ≠ some '<' := by
    intro hnone
    have htypes := hends.typeParameters
    cases hlist : front.parameters? with
    | none => exact htypes hlist hnone
    | some list => simp [listText]
  rw [text, List.append_assoc, List.append_assoc, trimStart_blanks_append hfront.lead,
    trimStart_of_solid (solid_listText_append hangle hsolid),
    skipBracketed?_listText hangle hfront.typeParameters habsent hsolid, Option.bind_some,
    skipBracketed?_listText hround hfront.parameters hends.parameters hends.solid]

end HeaderFront

/-- Base types as they stand between the commas of a list, and what follows the word that
begins the constraints, if there are any. -/
structure BaseList where
  bases : List (List Char)
  clause? : Option (List Char)

namespace BaseList

def clauseText (list : BaseList) : List Char :=
  match list.clause? with
  | none => []
  | some clause => "where".toList ++ clause

def text (list : BaseList) : List Char :=
  join [','] list.bases ++ list.clauseText

/-- Every base type has a character that is not blank and commas in its brackets only, and
`where` is a word of its own only where it begins the constraints. -/
structure WellWritten (list : BaseList) : Prop where
  ne_nil : list.bases ≠ []
  unbroken : ∀ base ∈ list.bases, Unbroken bracketPairs base
  solid : ∀ base ∈ list.bases, ∃ c ∈ base, isBlank c = false
  unconstrained : ∀ base ∈ list.bases, ¬HasWord "where".toList base
  clause : ∀ clause ∈ list.clause?,
    (join [','] list.bases).getLast?.any isWord = false ∧ clause.head?.any isWord = false

variable {list : BaseList}

theorem WellWritten.withoutConstraints_text (hwritten : list.WellWritten) :
    withoutConstraints list.text = join [','] list.bases := by
  have hnone : ¬HasWord "where".toList (join [','] list.bases) :=
    not_hasWord_join (by decide) (by decide) hwritten.unconstrained
  have hclause := hwritten.clause
  unfold text clauseText
  cases hcase : list.clause? with
  | none => rw [List.append_nil, withoutConstraints_eq_self hnone]
  | some clause =>
      obtain ⟨hlast, hhead⟩ := hclause clause hcase
      exact withoutConstraints_append hnone hlast hhead

theorem WellWritten.pieces_join (hwritten : list.WellWritten) :
    pieces (join [','] list.bases) = list.bases.map trim := by
  rw [pieces_eq, piecesFrom_join hwritten.ne_nil hwritten.unbroken, List.filter_eq_self]
  intro piece hpiece
  obtain ⟨base, hbase, rfl⟩ := List.mem_map.mp hpiece
  obtain ⟨c, hc, hsolid⟩ := hwritten.solid base hbase
  simpa using trim_ne_nil hc hsolid

end BaseList

/-- The base types that a header lists are read back, their inner blanks made single
spaces.  Without a colon behind the lists in front there are none. -/
theorem baseTypes_of_header (declaration : TypeDeclaration) (front : HeaderFront)
    (hfront : front.WellWritten) :
    (∀ list : BaseList, list.WellWritten →
      declaration.header = front.text ++ ':' :: list.text →
      declaration.baseTypes = list.bases.map fun base => String.ofList (collapseBlanks base)) ∧
    ∀ rest, front.EndsBefore rest → rest.head? ≠ some ':' →
      declaration.header = front.text ++ rest → declaration.baseTypes = [] := by
  constructor
  · intro list hlist hheader
    have hends : front.EndsBefore (':' :: list.text) := by
      constructor
      · intro c hc
        obtain rfl := Option.some.inj hc
        decide
      · simp
      · simp
    unfold baseTypes baseTypesOf
    simp only [hheader, hfront.skipBracketed? hends, hlist.withoutConstraints_text,
      hlist.pieces_join, List.map_map]
    apply List.map_congr_left
    intro base _
    simp only [Function.comp_apply, collapseBlanks, words_trim]
  · intro rest hends hcolon hheader
    unfold baseTypes baseTypesOf
    simp only [hheader, hfront.skipBracketed? hends]
    split
    · next list heq =>
        obtain rfl := Option.some.inj heq
        exact absurd rfl hcolon
    · rfl

/-- Type parameters and a primary constructor with a call among its default values. -/
def repositoryFront : HeaderFront where
  lead := []
  typeParameters? := some ("T".toList, [])
  parameters? := some ("int size = F".toList ++ '(' :: ("a, b".toList ++ [')']), [' '])

/-- A base type with arguments, another one with blanks in it, and constraints. -/
def repositoryList : BaseList where
  bases := [" Elsewhere".toList ++ '<' :: ("T".toList ++ '>' :: '(' :: ("size, 1".toList ++ [')'])),
    "\n  IStore ".toList ++ '<' :: (" T,\tint ".toList ++ ['>', ' '])]
  clause? := some " T : class ".toList

def repository : TypeDeclaration where
  name := "Repository"
  kind := .class
  start := 0
  headerStart := 16
  header := "<T>(int size = F(a, b)) : Elsewhere<T>(size, 1),\n  IStore < T,\tint > where T : class ".toList
  body := none

theorem baseTypes_of_header_repository :
    repositoryFront.WellWritten ∧ repositoryList.WellWritten ∧
      repository.header = repositoryFront.text ++ ':' :: repositoryList.text ∧
      repository.baseTypes = ["Elsewhere<T>(size, 1)", "IStore < T, int >"] := by
  have hround : ('(', ')') ∈ bracketPairs := by decide
  have hangle : ('<', '>') ∈ bracketPairs := by decide
  have hcall : Nested bracketPairs ("int size = F".toList ++ '(' :: ("a, b".toList ++ [')'])) :=
    .append (.of_forall (by simp [bracketPairs, groupPairs]))
      (.group hround (.of_forall (by simp [bracketPairs, groupPairs])) .nil)
  have hfront : repositoryFront.WellWritten := {
    lead := by simp [repositoryFront]
    typeParameters := fun _ hlist => Option.some.inj hlist ▸
      ⟨.of_forall (by simp [bracketPairs, groupPairs]), by simp⟩
    parameters := fun _ hlist => Option.some.inj hlist ▸
      ⟨hcall, List.all_eq_true.mp (by decide)⟩ }
  have helsewhere : Unbroken bracketPairs (" Elsewhere".toList ++
      '<' :: ("T".toList ++ '>' :: '(' :: ("size, 1".toList ++ [')']))) :=
    .append (.of_forall (by simp [bracketPairs, groupPairs]))
      (.group hangle (.of_forall (by simp [bracketPairs, groupPairs]))
        (.group hround (.of_forall (by simp [bracketPairs, groupPairs])) .nil))
  have hstore : Unbroken bracketPairs ("\n  IStore ".toList ++
      '<' :: (" T,\tint ".toList ++ ['>', ' '])) :=
    .append (.of_forall (by simp [bracketPairs, groupPairs]))
      (.group hangle (.of_forall (by simp [bracketPairs, groupPairs]))
        (.of_forall (by simp [bracketPairs, groupPairs])))
  have hlist : repositoryList.WellWritten := {
    ne_nil := by decide
    unbroken := by simpa [repositoryList] using ⟨helsewhere, hstore⟩
    solid := by
      intro base hbase
      simp only [repositoryList, List.mem_cons, List.not_mem_nil, or_false] at hbase
      rcases hbase with rfl | rfl
      · exact ⟨'E', by simp, by decide⟩
      · exact ⟨'I', by simp, by decide⟩
    unconstrained := by decide +kernel
    clause := by decide }
  have hheader : repository.header = repositoryFront.text ++ ':' :: repositoryList.text := by
    decide +kernel
  have hbases := (baseTypes_of_header repository repositoryFront hfront).1 repositoryList hlist
    hheader
  exact ⟨hfront, hlist, hheader, hbases.trans (by decide +kernel)⟩

end SourceAtlas.CSharp.TypeDeclaration
