import SourceAtlas.Proofs.NestedTexts
import SourceAtlas.Text.Block

/-!
# Pieces between commas

The splitter counts opening minus closing brackets of four kinds and splits at a comma
where they do not outnumber each other any more.  Angle signs are brackets for it, but in
a text they can be operators as well.  So each closing angle sign that closes nothing
weighs as much as a bracket, and a comma inside a group is passed only as long as these
signs are fewer than the groups around it.
-/

namespace SourceAtlas.Text

/-- What a character adds to the depth of the splitter. -/
def bracketStep (c : Char) : Int :=
  if opensBracket c then 1 else if closesBracket c then -1 else 0

/-- What the characters of a text add up to. -/
def stepSum (step : Char → Int) : List Char → Int
  | [] => 0
  | c :: text => step c + stepSum step text

/-- The pieces of a text at whose start a depth has been reached. -/
def piecesFrom (depth : Int) (text : List Char) : List (List Char) :=
  piecesLoop depth [] [] text

variable {depth : Int} {text before behind : List Char}

@[simp] theorem stepSum_nil (step : Char → Int) : stepSum step [] = 0 := rfl

@[simp] theorem stepSum_cons (step : Char → Int) (c : Char) (text : List Char) :
    stepSum step (c :: text) = step c + stepSum step text := rfl

@[simp] theorem stepSum_append (step : Char → Int) (first second : List Char) :
    stepSum step (first ++ second) = stepSum step first + stepSum step second := by
  induction first with
  | nil => simp
  | cons c first ih => simp [ih, Int.add_assoc]

theorem piecesLoop_eq (depth : Int) (piece : List Char) (pieces : List (List Char))
    (text : List Char) :
    piecesLoop depth piece pieces text =
      pieces.reverse ++ (piecesFrom depth text).modifyHead (piece.reverse ++ ·) := by
  unfold piecesFrom
  induction text generalizing depth piece pieces with
  | nil => simp [piecesLoop]
  | cons c text ih =>
      have hgo : ∀ next, piecesLoop next (c :: piece) pieces text =
          pieces.reverse ++
            (piecesLoop next [c] [] text).modifyHead (piece.reverse ++ ·) := by
        intro next
        rw [ih next (c :: piece) pieces, ih next [c] [], List.reverse_nil, List.nil_append,
          List.modifyHead_modifyHead]
        simp [Function.comp_def]
      simp only [piecesLoop]
      split
      · exact hgo _
      · split
        · exact hgo _
        · split
          · rw [ih depth [] (piece.reverse :: pieces), ih depth [] [[].reverse]]
            simp
          · exact hgo _

theorem pieces_eq (text : List Char) :
    pieces text = ((piecesFrom 0 text).map trim).filter (!·.isEmpty) := rfl

@[simp] theorem piecesFrom_nil (depth : Int) : piecesFrom depth [] = [[]] := rfl

theorem piecesFrom_comma (hdepth : depth ≤ 0) (text : List Char) :
    piecesFrom depth (',' :: text) = [] :: piecesFrom depth text := by
  have hopen : opensBracket ',' = false := by decide
  have hclose : closesBracket ',' = false := by decide
  rw [piecesFrom, piecesLoop, hopen, hclose]
  simp only [Bool.false_eq_true, if_false, decide_true, Bool.true_and, hdepth, if_true]
  rw [piecesLoop_eq]
  exact congrArg ([] :: ·) (congrFun List.modifyHead_id _)

theorem piecesFrom_cons {c : Char} (hc : ¬(c = ',' ∧ depth ≤ 0)) (text : List Char) :
    piecesFrom depth (c :: text) =
      (piecesFrom (depth + bracketStep c) text).modifyHead (c :: ·) := by
  rw [piecesFrom, piecesLoop, bracketStep]
  split
  · rw [piecesLoop_eq]
    simp
  · split
    · rw [piecesLoop_eq]
      simp [Int.sub_eq_add_neg]
    · rw [if_neg (by simpa using hc), piecesLoop_eq]
      simp

theorem piecesFrom_ne_nil (depth : Int) (text : List Char) : piecesFrom depth text ≠ [] := by
  induction text generalizing depth with
  | nil => simp
  | cons c text ih =>
      by_cases hc : c = ',' ∧ depth ≤ 0
      · rw [hc.1, piecesFrom_comma hc.2]
        simp
      · rw [piecesFrom_cons hc]
        simp [List.modifyHead_eq_nil_iff, ih]

@[simp] theorem join_singleton (separator piece : List Char) : join separator [piece] = piece := by
  simp [join]

theorem join_cons {pieces : List (List Char)} (hne : pieces ≠ []) (separator piece : List Char) :
    join separator (piece :: pieces) = piece ++ separator ++ join separator pieces := by
  cases pieces with
  | nil => contradiction
  | cons second pieces => simp [join]

theorem join_modifyHead_cons {pieces : List (List Char)} (hne : pieces ≠ []) (c : Char)
    (separator : List Char) :
    join separator (pieces.modifyHead (c :: ·)) = c :: join separator pieces := by
  cases pieces with
  | nil => contradiction
  | cons piece pieces =>
      cases pieces with
      | nil => simp
      | cons second pieces => simp [join]

/-- Between the pieces only commas have been taken out. -/
theorem join_piecesFrom (depth : Int) (text : List Char) :
    join [','] (piecesFrom depth text) = text := by
  induction text generalizing depth with
  | nil => simp
  | cons c text ih =>
      by_cases hc : c = ',' ∧ depth ≤ 0
      · rw [hc.1, piecesFrom_comma hc.2, join_cons (piecesFrom_ne_nil depth text), ih]
        rfl
      · rw [piecesFrom_cons hc, join_modifyHead_cons (piecesFrom_ne_nil _ text), ih]

/-- The comma between two parts of a text is one at which the text is split: its pieces
make up the part before the comma and the part behind it. -/
def SplitsFrom (depth : Int) (before behind : List Char) : Prop :=
  ∃ front back, piecesFrom depth (before ++ ',' :: behind) = front ++ back ∧ front ≠ [] ∧
    back ≠ [] ∧ join [','] front = before ∧ join [','] back = behind

/-- The splitter splits a text at the comma between two parts. -/
def SplitsAt (before behind : List Char) : Prop :=
  SplitsFrom 0 before behind

theorem splitsFrom_nil_iff : SplitsFrom depth [] behind ↔ depth ≤ 0 := by
  constructor
  · rintro ⟨front, back, hpieces, hfront, -, hjoin, -⟩
    refine Int.not_lt.mp fun hdepth => ?_
    rw [List.nil_append, piecesFrom_cons (by omega)] at hpieces
    obtain ⟨piece, rest, hrest⟩ := List.exists_cons_of_ne_nil (piecesFrom_ne_nil
      (depth + bracketStep ',') behind)
    obtain ⟨first, others, rfl⟩ := List.exists_cons_of_ne_nil hfront
    rw [hrest] at hpieces
    obtain rfl := (List.cons.inj hpieces).1
    cases others with
    | nil => simp at hjoin
    | cons second others => simp [join] at hjoin
  · intro hdepth
    refine ⟨[[]], piecesFrom depth behind, ?_, by simp, piecesFrom_ne_nil depth behind, by simp,
      join_piecesFrom depth behind⟩
    rw [List.nil_append, piecesFrom_comma hdepth]
    rfl

theorem splitsFrom_comma_iff (hdepth : depth ≤ 0) :
    SplitsFrom depth (',' :: before) behind ↔ SplitsFrom depth before behind := by
  unfold SplitsFrom
  rw [List.cons_append, piecesFrom_comma hdepth]
  constructor
  · rintro ⟨front, back, hpieces, hfront, hback, hjoin, hbehind⟩
    obtain ⟨first, others, rfl⟩ := List.exists_cons_of_ne_nil hfront
    obtain ⟨rfl, hothers⟩ := List.cons.inj hpieces
    have hne : others ≠ [] := by
      rintro rfl
      simp at hjoin
    rw [join_cons hne] at hjoin
    exact ⟨others, back, hothers, hne, hback, (List.cons.inj hjoin).2, hbehind⟩
  · rintro ⟨front, back, hpieces, hfront, hback, rfl, hbehind⟩
    refine ⟨[] :: front, back, by rw [hpieces]; rfl, by simp, hback, ?_, hbehind⟩
    rw [join_cons hfront]
    rfl

theorem splitsFrom_cons_iff {c : Char} (hc : ¬(c = ',' ∧ depth ≤ 0)) :
    SplitsFrom depth (c :: before) behind ↔
      SplitsFrom (depth + bracketStep c) before behind := by
  unfold SplitsFrom
  rw [List.cons_append, piecesFrom_cons hc]
  constructor
  · rintro ⟨front, back, hpieces, hfront, hback, hjoin, hbehind⟩
    obtain ⟨piece, rest, hrest⟩ := List.exists_cons_of_ne_nil (piecesFrom_ne_nil
      (depth + bracketStep c) (before ++ ',' :: behind))
    obtain ⟨first, others, rfl⟩ := List.exists_cons_of_ne_nil hfront
    rw [hrest] at hpieces
    obtain ⟨rfl, rfl⟩ := List.cons.inj hpieces
    have hhead := join_modifyHead_cons (List.cons_ne_nil piece others) c [',']
    rw [List.modifyHead_cons, hjoin] at hhead
    exact ⟨piece :: others, back, hrest, by simp, hback, (List.cons.inj hhead).2.symm, hbehind⟩
  · rintro ⟨front, back, hpieces, hfront, hback, rfl, hbehind⟩
    refine ⟨front.modifyHead (c :: ·), back, ?_, ?_, hback, join_modifyHead_cons hfront c [','],
      hbehind⟩
    · rw [hpieces]
      obtain ⟨first, others, rfl⟩ := List.exists_cons_of_ne_nil hfront
      rfl
    · simpa [List.modifyHead_eq_nil_iff] using hfront

/-- A text is split at a comma exactly if the brackets before it do not leave the depth
above zero. -/
theorem splitsFrom_iff :
    SplitsFrom depth before behind ↔ depth + stepSum bracketStep before ≤ 0 := by
  induction before generalizing depth with
  | nil => rw [splitsFrom_nil_iff, stepSum_nil, Int.add_zero]
  | cons c before ih =>
      by_cases hc : c = ',' ∧ depth ≤ 0
      · have hstep : bracketStep ',' = 0 := by decide
        rw [hc.1, splitsFrom_comma_iff hc.2, ih, stepSum_cons, hstep, Int.zero_add]
      · rw [splitsFrom_cons_iff hc, ih, stepSum_cons, Int.add_assoc]

theorem splitsAt_iff : SplitsAt before behind ↔ stepSum bracketStep before ≤ 0 := by
  rw [SplitsAt, splitsFrom_iff, Int.zero_add]

/-- From a depth on a text is passed as a part of one piece. -/
def PassedFrom (depth : Int) (text : List Char) : Prop :=
  ∀ rest, piecesFrom depth (text ++ rest) = (piecesFrom depth rest).modifyHead (text ++ ·)

namespace PassedFrom

theorem nil (depth : Int) : PassedFrom depth [] := fun rest =>
  (congrFun List.modifyHead_id (piecesFrom depth rest)).symm

theorem cons {c : Char} (hc : ¬(c = ',' ∧ depth ≤ 0))
    (htext : ∀ rest, piecesFrom (depth + bracketStep c) (text ++ rest) =
      (piecesFrom depth rest).modifyHead (text ++ ·)) : PassedFrom depth (c :: text) := by
  intro rest
  rw [List.cons_append, piecesFrom_cons hc, htext, List.modifyHead_modifyHead]
  rfl

theorem char {c : Char} (hc : ∀ pair ∈ bracketPairs, c ≠ pair.1 ∧ c ≠ pair.2)
    (hcomma : ¬(c = ',' ∧ depth ≤ 0)) (htext : PassedFrom depth text) :
    PassedFrom depth (c :: text) := by
  have hstep : bracketStep c = 0 := by
    simp only [bracketPairs, groupPairs, List.forall_mem_cons] at hc
    obtain ⟨⟨hangle, hangle'⟩, ⟨hround, hround'⟩, ⟨hsquare, hsquare'⟩, ⟨hcurly, hcurly'⟩, -⟩ := hc
    simp [bracketStep, opensBracket, closesBracket, hangle, hangle', hround, hround', hsquare,
      hsquare', hcurly, hcurly']
  refine cons hcomma fun rest => ?_
  rw [hstep, Int.add_zero, htext]

/-- Below a group there is room for what is inside. -/
theorem group {pair : Char × Char} (hpair : pair ∈ bracketPairs) {inside : List Char}
    (hinside : PassedFrom (depth + 1) inside) (htext : PassedFrom depth text) :
    PassedFrom depth (pair.1 :: (inside ++ pair.2 :: text)) := by
  obtain ⟨hopen, hclose, hne, hne'⟩ : bracketStep pair.1 = 1 ∧ bracketStep pair.2 = -1 ∧
      pair.1 ≠ ',' ∧ pair.2 ≠ ',' := by
    revert pair
    decide
  have hback : depth + 1 + -1 = depth := by omega
  refine cons (fun hc => hne hc.1) fun rest => ?_
  rw [hopen, List.append_assoc, hinside, List.cons_append, piecesFrom_cons (fun hc => hne' hc.1),
    hclose, hback, htext, List.modifyHead_modifyHead, List.modifyHead_modifyHead]
  congr 1
  funext piece
  simp

end PassedFrom

theorem Nested.passedFrom (htext : Nested bracketPairs text) (hdepth : 0 < depth) :
    PassedFrom depth text := by
  induction htext generalizing depth with
  | nil => exact .nil depth
  | char hc _ ih => exact .char hc (by omega) (ih hdepth)
  | group hpair _ _ ihInside ihRest =>
      exact .group hpair (ihInside (by omega)) (ihRest hdepth)

theorem Unbroken.passedFrom (htext : Unbroken bracketPairs text) : PassedFrom 0 text := by
  induction htext with
  | nil => exact .nil 0
  | char hc hcomma _ ih => exact .char hc (fun hboth => hcomma hboth.1) ih
  | group hpair hinside _ ih =>
      exact .group hpair (hinside.passedFrom (by decide)) ih

/-- Texts without a comma at the top are the pieces of what joins them. -/
theorem piecesFrom_join {texts : List (List Char)} (hne : texts ≠ [])
    (htexts : ∀ text ∈ texts, Unbroken bracketPairs text) :
    piecesFrom 0 (join [','] texts) = texts := by
  induction texts with
  | nil => contradiction
  | cons text texts ih =>
      obtain ⟨htext, htexts⟩ := List.forall_mem_cons.mp htexts
      by_cases hlast : texts = []
      · have hpassed := htext.passedFrom []
        rw [List.append_nil] at hpassed
        rw [hlast, join_singleton, hpassed]
        simp
      · rw [join_cons hlast, List.append_assoc, htext.passedFrom, List.singleton_append,
          piecesFrom_comma (Int.le_refl 0), ih hlast htexts]
        simp

/-- What an angle sign adds to the depth of the splitter. -/
def angleStep (c : Char) : Int :=
  if c = '<' then 1 else if c = '>' then -1 else 0

theorem bracketStep_eq_angleStep {c : Char} (hc : ∀ pair ∈ groupPairs, c ≠ pair.1 ∧ c ≠ pair.2) :
    bracketStep c = angleStep c := by
  simp only [groupPairs, List.forall_mem_cons] at hc
  obtain ⟨⟨hround, hround'⟩, ⟨hsquare, hsquare'⟩, ⟨hcurly, hcurly'⟩, -⟩ := hc
  simp [bracketStep, opensBracket, closesBracket, angleStep, hround, hround', hsquare, hsquare',
    hcurly, hcurly']

theorem steps_of_mem_groupPairs {pair : Char × Char} (hpair : pair ∈ groupPairs) :
    bracketStep pair.1 = 1 ∧ bracketStep pair.2 = -1 ∧ angleStep pair.1 = 0 ∧
      angleStep pair.2 = 0 := by
  revert pair
  decide

theorem stepSum_angleStep (text : List Char) :
    stepSum angleStep text = (text.count '<' : Int) - text.count '>' := by
  induction text with
  | nil => rfl
  | cons c text ih =>
      rw [stepSum_cons, ih, angleStep, List.count_cons, List.count_cons]
      by_cases hopen : c = '<'
      · simp [hopen]
        omega
      · by_cases hclose : c = '>'
        · simp [hclose]
          omega
        · simp [hopen, hclose]

/-- In a text whose groups are closed only the angle signs count. -/
theorem stepSum_of_nested (htext : Nested groupPairs text) :
    stepSum bracketStep text = stepSum angleStep text := by
  induction htext with
  | nil => rfl
  | char hc _ ih => rw [stepSum_cons, stepSum_cons, bracketStep_eq_angleStep hc, ih]
  | group hpair _ _ ihInside ihRest =>
      obtain ⟨hopen, hclose, hopenAngle, hcloseAngle⟩ := steps_of_mem_groupPairs hpair
      simp only [stepSum_append, stepSum_cons, ihInside, ihRest, hopen, hclose, hopenAngle,
        hcloseAngle]
      omega

theorem stepSum_of_leavesOpen {groups : Nat} (htext : LeavesOpen groupPairs groups text) :
    stepSum bracketStep text = groups + stepSum angleStep text := by
  induction htext with
  | nested htext =>
      rw [stepSum_of_nested htext]
      omega
  | group _ hpair hinside ih =>
      obtain ⟨hopen, -, hopenAngle, -⟩ := steps_of_mem_groupPairs hpair
      simp only [stepSum_append, stepSum_cons, ih, stepSum_of_nested hinside, hopen, hopenAngle]
      omega

/-- A comma in a group of a text whose groups are nested is a place to split exactly if, before
it, the closing angle signs outnumber the opening ones by at least as many as there are
groups around it. -/
theorem splitsAt_inside_iff {before first second after : List Char} {pair : Char × Char}
    (hpair : pair ∈ groupPairs)
    (htext : Nested groupPairs (before ++ pair.1 :: (first ++ ',' :: second ++ pair.2 :: after)))
    (hinside : Nested groupPairs (first ++ ',' :: second)) :
    ∃ groups, 1 ≤ groups ∧ LeavesOpen groupPairs groups (before ++ pair.1 :: first) ∧
      (SplitsAt (before ++ pair.1 :: first) (second ++ pair.2 :: after) ↔
        (before ++ pair.1 :: first).count '<' + groups ≤
          (before ++ pair.1 :: first).count '>') := by
  obtain ⟨outer, houter⟩ := htext.exists_leavesOpen
  obtain ⟨inner, hinner⟩ := hinside.exists_leavesOpen
  have hopen : LeavesOpen groupPairs (outer + (1 + inner)) (before ++ ([pair.1] ++ first)) :=
    houter.append ((LeavesOpen.opener hpair).append hinner)
  rw [List.singleton_append] at hopen
  refine ⟨outer + (1 + inner), by omega, hopen, ?_⟩
  rw [splitsAt_iff, stepSum_of_leavesOpen hopen, stepSum_angleStep]
  omega

/-- A call up to the last comma in its arguments, with a comparison in the first one. -/
def comparisonFront : List Char :=
  ['f', '(', 'a', '>', 'b', ',', '(', 'c']

/-- Two groups around a comma outweigh a comparison before it, one does not. -/
theorem splitsAt_inside_iff_comparison :
    ('(', ')') ∈ groupPairs ∧ Nested groupPairs (comparisonFront ++ [',', 'd', ')', ')']) ∧
      Nested groupPairs ['c', ',', 'd'] ∧ LeavesOpen groupPairs 2 comparisonFront ∧
      ¬SplitsAt comparisonFront ['d', ')', ')'] ∧
      SplitsAt ['f', '(', 'a', '>', 'b'] ['(', 'c', ',', 'd', ')', ')'] := by
  have hpair : ('(', ')') ∈ groupPairs := by decide
  have hinside : Nested groupPairs (['c'] ++ ',' :: ['d']) := .of_forall (by simp [groupPairs])
  have harguments : Nested groupPairs (['a', '>', 'b', ','] ++ ['(', 'c', ',', 'd', ')']) :=
    .append (.of_forall (by simp [groupPairs])) (.group hpair hinside .nil)
  have htext : Nested groupPairs (['f', '(', 'a', '>', 'b', ','] ++ '(' :: (['c'] ++ ',' :: ['d'] ++
      ')' :: [')'])) :=
    .char (by decide) (.group hpair harguments .nil)
  obtain ⟨groups, -, hopen, hsplits⟩ := splitsAt_inside_iff hpair htext hinside
  have hsum : stepSum bracketStep comparisonFront = groups + stepSum angleStep comparisonFront :=
    stepSum_of_leavesOpen hopen
  have hbrackets : stepSum bracketStep comparisonFront = 1 := by decide
  have hangles : stepSum angleStep comparisonFront = -1 := by decide
  obtain rfl : groups = 2 := by omega
  have hcounts : ¬comparisonFront.count '<' + 2 ≤ comparisonFront.count '>' := by decide
  have hkeeps : ¬SplitsAt comparisonFront ['d', ')', ')'] := fun hsplit =>
    hcounts (hsplits.mp hsplit)
  exact ⟨hpair, htext, hinside, hopen, hkeeps, splitsAt_iff.mpr (by decide)⟩

/-- Behind an arrow a comma in parentheses is taken for one between two pieces. -/
theorem not_keeps_groups_arrow :
    ¬(∀ (before first second after : List Char) (pair : Char × Char), pair ∈ groupPairs →
        Nested groupPairs (before ++ pair.1 :: (first ++ ',' :: second ++ pair.2 :: after)) →
        Nested groupPairs (first ++ ',' :: second) →
        ¬SplitsAt (before ++ pair.1 :: first) (second ++ pair.2 :: after)) ∧
      pieces "a => f(x, y)".toList = ["a => f(x".toList, "y)".toList] := by
  refine ⟨fun hkeeps => ?_, by decide +kernel⟩
  have hpair : ('(', ')') ∈ groupPairs := by decide
  have hinside : Nested groupPairs (['x'] ++ ',' :: ['y']) := .of_forall (by simp [groupPairs])
  have htext : Nested groupPairs (['a', '=', '>', 'f'] ++ '(' :: (['x'] ++ ',' :: ['y'] ++
      ')' :: [])) :=
    .append (.of_forall (by simp [groupPairs])) (.group hpair hinside .nil)
  exact hkeeps _ _ _ _ _ hpair htext hinside (splitsAt_iff.mpr (by decide))

end SourceAtlas.Text
