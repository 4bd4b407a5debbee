import SourceAtlas.CSharp.Method
import SourceAtlas.Proofs.Pieces
import SourceAtlas.Proofs.TextCuts
import SourceAtlas.Proofs.Words

/-!
# Parameter lists

A parameter is written as groups of attributes, a type, a name and perhaps a default
value.  Whatever brackets and commas stand inside of the groups of its parts, the names
that are read from a list of parameters are the ones that were written into it.

A type may itself begin with a group in square brackets, which is skipped like attributes
are.  So it is not the way in which a text was written that the reading of a name follows,
but what can be cut off its front with the same name left to be read.
-/

namespace SourceAtlas.Text

theorem trimEnd_append (first second : List Char) :
    trimEnd (first ++ second) =
      if (trimEnd second).isEmpty then trimEnd first else first ++ trimEnd second := by
  unfold trimEnd dropEndWhile
  rw [List.reverse_append, List.dropWhile_append]
  simp only [List.isEmpty_reverse]
  split
  · rfl
  · rw [List.reverse_append, List.reverse_reverse]

theorem trimEnd_of_forall {text : List Char} (htext : ∀ c ∈ text, isBlank c = false) :
    trimEnd text = text := by
  induction text with
  | nil => rfl
  | cons c text ih =>
      obtain ⟨hc, htext⟩ := List.forall_mem_cons.mp htext
      have hhead : trimEnd [c] = [c] := by simp [trimEnd, dropEndWhile, hc]
      rw [← List.singleton_append, trimEnd_append, ih htext, hhead]
      cases text <;> rfl

theorem trimEnd_prefix (text : List Char) : trimEnd text <+: text := by
  have hsuffix : text.reverse.dropWhile isBlank <:+ text.reverse := List.dropWhile_suffix isBlank
  have hbegins := List.reverse_prefix.mpr hsuffix
  rwa [List.reverse_reverse] at hbegins

theorem isBlank_of_mem_head?_trimStart {text : List Char} {c : Char}
    (hc : c ∈ (trimStart text).head?) : isBlank c = false := by
  have hdropped := List.head?_dropWhile_not isBlank text
  rwa [← trimStart, Option.mem_def.mp hc] at hdropped

theorem isBlank_of_mem_head?_trim {text : List Char} {c : Char} (hc : c ∈ (trim text).head?) :
    isBlank c = false := by
  obtain ⟨rest, hrest⟩ := trimEnd_prefix (trimStart text)
  apply isBlank_of_mem_head?_trimStart
  rw [← hrest, List.head?_append, ← trim, Option.mem_def.mp hc]
  rfl

theorem isBlank_of_mem_getLast?_trim {text : List Char} {c : Char}
    (hc : c ∈ (trim text).getLast?) : isBlank c = false := by
  rw [trim, trimEnd, dropEndWhile, List.getLast?_reverse] at hc
  have hdropped := List.head?_dropWhile_not isBlank (trimStart text).reverse
  rwa [Option.mem_def.mp hc] at hdropped

theorem trimStart_of_solid {text : List Char} (htext : ∀ c ∈ text.head?, isBlank c = false) :
    trimStart text = text := by
  cases text with
  | nil => rfl
  | cons c text => exact List.dropWhile_cons_of_neg (by simp [htext c rfl])

theorem trimEnd_of_solid {text : List Char} (htext : ∀ c ∈ text.getLast?, isBlank c = false) :
    trimEnd text = text := by
  rw [← List.head?_reverse] at htext
  rw [trimEnd, dropEndWhile, ← trimStart, trimStart_of_solid htext, List.reverse_reverse]

theorem trimStart_blanks_append {blanks : List Char} (hblanks : ∀ c ∈ blanks, isBlank c = true)
    (rest : List Char) : trimStart (blanks ++ rest) = trimStart rest :=
  List.dropWhile_append_of_pos hblanks

/-- A character of a class that has neither the comma nor a bracket. -/
theorem ne_sign_of_class {test : Char → Bool} (hcomma : test ',' = false)
    (hpairs : ∀ pair ∈ bracketPairs, test pair.1 = false ∧ test pair.2 = false) {c : Char}
    (hc : test c = true) : c ≠ ',' ∧ ∀ pair ∈ bracketPairs, c ≠ pair.1 ∧ c ≠ pair.2 := by
  have hne : ∀ d, test d = false → c ≠ d := by
    rintro d hd rfl
    rw [hc] at hd
    contradiction
  exact ⟨hne ',' hcomma, fun pair hpair =>
    ⟨hne pair.1 (hpairs pair hpair).1, hne pair.2 (hpairs pair hpair).2⟩⟩

theorem Unbroken.of_blanks {blanks : List Char} (hblanks : ∀ c ∈ blanks, isBlank c = true) :
    Unbroken bracketPairs blanks :=
  .of_forall fun c hc => ne_sign_of_class (by decide) (by decide) (hblanks c hc)

/-- Blanks before a text do not change its pieces. -/
theorem pieces_blanks_append {blanks : List Char} (hblanks : ∀ c ∈ blanks, isBlank c = true)
    (text : List Char) : pieces (blanks ++ text) = pieces text := by
  have hpassed : piecesFrom 0 (blanks ++ text) =
      (piecesFrom 0 text).modifyHead (blanks ++ ·) :=
    (Unbroken.of_blanks hblanks).passedFrom text
  obtain ⟨piece, rest, hpieces⟩ := List.exists_cons_of_ne_nil (piecesFrom_ne_nil 0 text)
  have htrim : trim (blanks ++ piece) = trim piece := by
    rw [trim, trimStart_blanks_append hblanks, trim]
  rw [pieces_eq, pieces_eq, hpassed, hpieces, List.modifyHead_cons, List.map_cons, List.map_cons,
    htrim]

theorem eq_or_apart_of_mem_bracketPairs {pair other : Char × Char} (hpair : pair ∈ bracketPairs)
    (hother : other ∈ bracketPairs) :
    other = pair ∧ other.2 ≠ other.1 ∨
      (other.1 ≠ pair.1 ∧ other.1 ≠ pair.2) ∧ other.2 ≠ pair.1 ∧ other.2 ≠ pair.2 := by
  have hall : ∀ pair ∈ bracketPairs, ∀ other ∈ bracketPairs, other = pair ∧ other.2 ≠ other.1 ∨
      (other.1 ≠ pair.1 ∧ other.1 ≠ pair.2) ∧ other.2 ≠ pair.1 ∧ other.2 ≠ pair.2 := by
    decide
  exact hall pair hpair other hother

/-- Inside of a group nested text is walked over. -/
theorem Nested.closerLoop_append {text : List Char} (htext : Nested bracketPairs text)
    {pair : Char × Char} (hpair : pair ∈ bracketPairs) (depth offset : Nat) (rest : List Char) :
    closerLoop pair.1 pair.2 (depth + 1) offset (text ++ rest) =
      closerLoop pair.1 pair.2 (depth + 1) (offset + byteWidth text) rest := by
  induction htext generalizing depth offset rest with
  | nil => rfl
  | char hc _ ih =>
      obtain ⟨hopen, hclose⟩ := hc pair hpair
      rw [List.cons_append, closerLoop, if_neg hopen, if_neg hclose, ih, byteWidth_cons,
        Nat.add_assoc]
  | @group other hother inside behind _ _ ihInside ihRest =>
      have hwidth : offset + byteWidth (other.1 :: (inside ++ other.2 :: behind)) =
          offset + other.1.utf8Size + byteWidth inside + other.2.utf8Size + byteWidth behind := by
        simp only [byteWidth_cons, byteWidth_append]
        omega
      rw [hwidth, List.cons_append, List.append_assoc, List.cons_append, closerLoop]
      rcases eq_or_apart_of_mem_bracketPairs hpair hother with
        ⟨rfl, hne⟩ | ⟨⟨hopen, hopen'⟩, hclose, hclose'⟩
      · rw [if_pos rfl, ihInside, closerLoop, if_neg hne, if_pos rfl, if_neg (by omega),
          Nat.add_sub_cancel, ihRest]
      · rw [if_neg hopen, if_neg hopen', ihInside, closerLoop, if_neg hclose, if_neg hclose',
          ihRest]

theorem utf8Size_of_mem_bracketPairs {pair : Char × Char} (hpair : pair ∈ bracketPairs) :
    pair.1.utf8Size = 1 ∧ pair.2.utf8Size = 1 := by
  revert pair
  decide

/-- The bracket that opens a group is closed by the one at the end of the group. -/
theorem closerFrom?_group {pair : Char × Char} (hpair : pair ∈ bracketPairs) {inside : List Char}
    (hinside : Nested bracketPairs inside) (rest : List Char) :
    closerFrom? pair.1 pair.2 0 (pair.1 :: (inside ++ pair.2 :: rest)) =
      some (1 + byteWidth inside) := by
  have hdistinct : ∀ pair ∈ bracketPairs, pair.2 ≠ pair.1 := by decide
  have hloop : closerLoop pair.1 pair.2 1 1 (inside ++ pair.2 :: rest) =
      (1 + byteWidth inside, true) := by
    rw [hinside.closerLoop_append hpair 0, closerLoop, if_neg (hdistinct pair hpair), if_pos rfl,
      if_pos (Nat.le_refl 1)]
  rw [closerFrom?, if_pos rfl, (utf8Size_of_mem_bracketPairs hpair).1, Nat.zero_add, hloop]

theorem dropBytes_group {pair : Char × Char} (hpair : pair ∈ bracketPairs)
    (inside rest : List Char) :
    dropBytes (1 + byteWidth inside + 1) (pair.1 :: (inside ++ pair.2 :: rest)) = rest := by
  obtain ⟨hopen, hclose⟩ := utf8Size_of_mem_bracketPairs hpair
  have hgroup := dropBytes_byteWidth (pair.1 :: (inside ++ [pair.2])) rest
  have hwidth : byteWidth (pair.1 :: (inside ++ [pair.2])) = 1 + byteWidth inside + 1 := by
    simp only [byteWidth_cons, byteWidth_append, byteWidth_nil, hopen, hclose]
    omega
  rw [hwidth] at hgroup
  simpa using hgroup

end SourceAtlas.Text

namespace SourceAtlas.CSharp

open Text

/-! ## Written parameters -/

/-- A name has no blanks, no brackets and no signs that end a declaration. -/
structure IsName (name : List Char) : Prop where
  ne_nil : name ≠ []
  solid : ∀ c ∈ name, isBlank c = false
  unassigned : '=' ∉ name
  unbroken : ∀ c ∈ name, c ≠ ',' ∧ ∀ pair ∈ bracketPairs, c ≠ pair.1 ∧ c ≠ pair.2
  bare : name.head? ≠ some '@'

/-- The parts of a parameter.  A group of attributes comes with the blanks behind it, a
default value with the ones before its sign. -/
structure Parameter where
  attributes : List (List Char × List Char)
  type : List Char
  gap : List Char
  escaped : Bool
  name : List Char
  value? : Option (List Char × List Char)

namespace Parameter

variable (parameter : Parameter)

def word : List Char :=
  if parameter.escaped then '@' :: parameter.name else parameter.name

def attributeText : List Char :=
  parameter.attributes.flatMap fun (inside, gap) => '[' :: (inside ++ ']' :: gap)

def valueText : List Char :=
  match parameter.value? with
  | none => []
  | some (gap, value) => gap ++ '=' :: value

def text : List Char :=
  parameter.attributeText ++ (parameter.type ++ parameter.gap ++ (parameter.word ++
    parameter.valueText))

structure WellWritten : Prop where
  attributes : ∀ group ∈ parameter.attributes,
    Nested bracketPairs group.1 ∧ ∀ c ∈ group.2, isBlank c = true
  type : Unbroken bracketPairs parameter.type
  unassigned : '=' ∉ parameter.type
  gap : ∀ c ∈ parameter.gap, isBlank c = true
  separate : parameter.gap ≠ []
  name : IsName parameter.name
  value : ∀ default ∈ parameter.value?,
    (∀ c ∈ default.1, isBlank c = true) ∧ Unbroken bracketPairs default.2

end Parameter

/-- A parameter in a list, with the blanks around it. -/
structure Entry where
  before : List Char
  parameter : Parameter
  behind : List Char

namespace Entry

def text (entry : Entry) : List Char :=
  entry.before ++ (entry.parameter.text ++ entry.behind)

structure WellWritten (entry : Entry) : Prop where
  before : ∀ c ∈ entry.before, isBlank c = true
  parameter : entry.parameter.WellWritten
  behind : ∀ c ∈ entry.behind, isBlank c = true

end Entry

/-- A text from which a word is read as the name, with anything before it that is skipped. -/
inductive Declares (word : List Char) : List Char → Prop
  | typed {type gap behind : List Char} (htype : Nested bracketPairs type)
      (hassign : '=' ∉ type) (hgap : ∀ c ∈ gap, isBlank c = true)
      (hseparate : gap = [] → type = [])
      (hbehind : ∀ c ∈ behind.takeWhile (· ≠ '='), isBlank c = true) :
      Declares word (type ++ (gap ++ (word ++ behind)))
  | group {inside rest : List Char} (hinside : Nested bracketPairs inside)
      (hrest : Declares word rest) : Declares word ('[' :: (inside ++ ']' :: rest))
  | blank {c : Char} (hc : isBlank c = true) {rest : List Char}
      (hrest : Declares word rest) : Declares word (c :: rest)

/-- A word that is read as a whole, with the sign before a name or without it. -/
structure Readable (word : List Char) : Prop where
  ne_nil : word ≠ []
  solid : ∀ c ∈ word, isBlank c = false
  unassigned : '=' ∉ word
  unopened : word.head? ≠ some '['

namespace Declares

variable {word text : List Char}

theorem blanks_append {blanks : List Char} (hblanks : ∀ c ∈ blanks, isBlank c = true)
    (htext : Declares word text) : Declares word (blanks ++ text) := by
  induction blanks with
  | nil => exact htext
  | cons c blanks ih =>
      obtain ⟨hc, hblanks⟩ := List.forall_mem_cons.mp hblanks
      exact .blank hc (ih hblanks)

theorem ne_nil (hword : Readable word) (htext : Declares word text) : text ≠ [] := by
  cases htext with
  | typed => simp [hword.ne_nil]
  | group => simp
  | blank => simp

/-- A blank at the front belongs to the type, to the gap behind it or to no part at all. -/
theorem of_blank {c : Char} (hword : Readable word) (hc : isBlank c = true)
    (htext : Declares word (c :: text)) : Declares word text := by
  generalize heq : c :: text = whole at htext
  cases htext with
  | @typed type gap behind htype hassign hgap hseparate hbehind =>
      cases htype with
      | nil =>
          cases gap with
          | nil =>
              obtain ⟨d, rest, rfl⟩ := List.exists_cons_of_ne_nil hword.ne_nil
              have hd := hword.solid d List.mem_cons_self
              rw [← (List.cons.inj heq).1, hc] at hd
              exact absurd hd (by decide)
          | cons d gap =>
              obtain ⟨-, rfl⟩ := List.cons.inj heq
              exact .typed .nil (by simp) (List.forall_mem_cons.mp hgap).2 (fun _ => rfl) hbehind
      | char _ hrest =>
          obtain ⟨-, rfl⟩ := List.cons.inj heq
          exact .typed hrest (fun hmem => hassign (List.mem_cons_of_mem _ hmem)) hgap
            (fun hgap => absurd (hseparate hgap) (List.cons_ne_nil _ _)) hbehind
      | group hpair =>
          have hsolid : ∀ pair ∈ bracketPairs, isBlank pair.1 = false := by decide
          rw [(List.cons.inj heq).1, hsolid _ hpair] at hc
          contradiction
  | group =>
      rw [(List.cons.inj heq).1] at hc
      contradiction
  | blank _ hrest => exact (List.cons.inj heq).2 ▸ hrest

/-- Blanks at the front can be cut off. -/
theorem trimStart (hword : Readable word) (htext : Declares word text) :
    Declares word (Text.trimStart text) := by
  induction text with
  | nil => exact htext
  | cons c text ih =>
      by_cases hc : isBlank c = true
      · rw [Text.trimStart, List.dropWhile_cons_of_pos hc]
        exact ih (htext.of_blank hword hc)
      · rwa [Text.trimStart, List.dropWhile_cons_of_neg hc]

/-- Blanks at the end can be cut off. -/
theorem trimEnd (hword : Readable word) (htext : Declares word text) :
    Declares word (Text.trimEnd text) := by
  have hkept : ∀ (front : List Char) {rest : List Char}, Declares word (Text.trimEnd rest) →
      Text.trimEnd (front ++ rest) = front ++ Text.trimEnd rest := by
    intro front rest hrest
    have hne : (Text.trimEnd rest).isEmpty = false := by
      simpa using hrest.ne_nil hword
    rw [trimEnd_append, hne]
    rfl
  induction htext with
  | @typed type gap behind htype hassign hgap hseparate hbehind =>
      have hcut : ∀ c ∈ (Text.trimEnd behind).takeWhile (· ≠ '='), isBlank c = true := by
        obtain ⟨rest, hrest⟩ := trimEnd_prefix behind
        intro c hc
        refine hbehind c ?_
        rw [← hrest, List.takeWhile_append]
        split
        · exact List.mem_append_left _ ((List.takeWhile_sublist _).mem hc)
        · exact hc
      have hdeclares : Declares word (type ++ (gap ++ (word ++ Text.trimEnd behind))) :=
        .typed htype hassign hgap hseparate hcut
      have hend : Text.trimEnd (word ++ behind) = word ++ Text.trimEnd behind := by
        rw [trimEnd_append, trimEnd_of_forall hword.solid]
        split
        · next hempty => rw [List.isEmpty_iff.mp hempty, List.append_nil]
        · rfl
      have hne : (word ++ Text.trimEnd behind).isEmpty = false := by
        simp [hword.ne_nil]
      rw [← List.append_assoc, trimEnd_append, hend, hne]
      simpa using hdeclares
  | @group inside rest hinside _ ih =>
      have hgroup := hkept ('[' :: (inside ++ [']'])) ih
      simp only [List.cons_append, List.append_assoc, List.nil_append] at hgroup
      exact hgroup ▸ .group hinside ih
  | @blank c hc rest _ ih =>
      have hblank := hkept [c] ih
      exact hblank ▸ .blank hc ih

/-- A text that begins with a group goes on behind it. -/
theorem exists_group (hword : Readable word) (htext : Declares word text)
    (hopen : text.head? = some '[') :
    ∃ inside rest, text = '[' :: (inside ++ ']' :: rest) ∧ Nested bracketPairs inside ∧
      Declares word rest := by
  cases htext with
  | @typed type gap behind htype hassign hgap hseparate hbehind =>
      cases htype with
      | nil =>
          cases gap with
          | nil =>
              obtain ⟨c, rest, rfl⟩ := List.exists_cons_of_ne_nil hword.ne_nil
              exact absurd hopen hword.unopened
          | cons c gap =>
              have hc := hgap c List.mem_cons_self
              rw [Option.some.inj hopen] at hc
              contradiction
      | @char c hc =>
          have hsquare := hc ('[', ']') (by decide)
          exact absurd (Option.some.inj hopen) hsquare.1
      | @group pair hpair inside rest hinside hrest =>
          -- The group is the first part of the type, which goes on behind it.
          have hsquare : ∀ pair ∈ bracketPairs, pair.1 = '[' → pair.2 = ']' := by decide
          have hpair' : pair.1 = '[' := Option.some.inj hopen
          have hne : gap ≠ [] := fun hgap => List.cons_ne_nil _ _ (hseparate hgap)
          refine ⟨inside, rest ++ (gap ++ (word ++ behind)), ?_, hinside,
            .typed hrest ?_ hgap (fun hgap => absurd hgap hne) hbehind⟩
          · rw [hpair', hsquare pair hpair hpair', List.cons_append, List.append_assoc,
              List.cons_append]
          · exact fun hmem => hassign (by simp [hmem])
  | group hinside hrest => exact ⟨_, _, rfl, hinside, hrest⟩
  | blank hc =>
      rw [Option.some.inj hopen] at hc
      contradiction

/-- Skipping attributes leaves a text that starts with none. -/
theorem exists_skipAttributes? (hword : Readable word) {fuel : Nat} (htext : Declares word text)
    (hhead : ∀ c ∈ text.head?, isBlank c = false) (hfuel : text.length ≤ fuel) :
    ∃ rest, skipAttributes? fuel text = some rest ∧ Declares word rest ∧
      rest.head? ≠ some '[' ∧ ∀ c ∈ rest.head?, isBlank c = false := by
  induction fuel generalizing text with
  | zero => exact absurd (List.length_eq_zero_iff.mp (Nat.le_zero.mp hfuel)) (htext.ne_nil hword)
  | succ fuel ih =>
      rw [skipAttributes?]
      split
      · next hopen =>
          obtain ⟨inside, rest, rfl, hinside, hrest⟩ := htext.exists_group hword hopen
          have hsquare : ('[', ']') ∈ bracketPairs := by decide
          rw [closerFrom?_group hsquare hinside]
          simp only [dropBytes_group hsquare]
          refine ih (hrest.trimStart hword) ?_ ?_
          · exact fun c => isBlank_of_mem_head?_trimStart
          · have hshorter := (List.dropWhile_sublist (l := rest) isBlank).length_le
            simp only [List.length_cons, List.length_append] at hfuel
            rw [Text.trimStart]
            omega
      · next hopen => exact ⟨text, rfl, htext, hopen, hhead⟩

/-- Without attributes the name is the last word before the default value. -/
theorem getLast?_words (hword : Readable word) (htext : Declares word text)
    (hopen : text.head? ≠ some '[') (hhead : ∀ c ∈ text.head?, isBlank c = false) :
    (words (text.takeWhile (· ≠ '='))).getLast? = some word := by
  cases htext with
  | group => exact absurd rfl hopen
  | @blank c hc =>
      rw [hhead c rfl] at hc
      contradiction
  | @typed type gap behind htype hassign hgap hseparate hbehind =>
      have hunassigned : ∀ {part : List Char}, '=' ∉ part →
          ∀ c ∈ part, decide (c ≠ '=') = true := by
        intro part hpart c hc
        exact decide_eq_true fun heq => hpart (heq ▸ hc)
      have hgapUnassigned : '=' ∉ gap := fun hmem => absurd (hgap '=' hmem) (by decide)
      rw [List.takeWhile_append_of_pos (hunassigned hassign),
        List.takeWhile_append_of_pos (hunassigned hgapUnassigned),
        List.takeWhile_append_of_pos (hunassigned hword.unassigned)]
      generalize behind.takeWhile (· ≠ '=') = blanks at hbehind
      have hname : words (word ++ blanks) = [word] := by
        cases blanks with
        | nil => rw [List.append_nil, words_of_forall hword.ne_nil hword.solid]
        | cons c blanks =>
            obtain ⟨hc, hblanks⟩ := List.forall_mem_cons.mp hbehind
            have hnone := words_blanks_append hblanks []
            rw [List.append_nil, words_nil] at hnone
            rw [words_append_blank hc, words_of_forall hword.ne_nil hword.solid, hnone,
              List.append_nil]
      cases gap with
      | nil => rw [hseparate rfl, List.nil_append, List.nil_append, hname, List.getLast?_singleton]
      | cons c gap =>
          obtain ⟨hc, hgap⟩ := List.forall_mem_cons.mp hgap
          rw [List.cons_append, words_append_blank hc, words_blanks_append hgap, hname,
            List.getLast?_concat]

end Declares

theorem parameterName?_of_declares {word name text : List Char} (hword : Readable word)
    (htext : Declares word text) (hne : name ≠ []) (hname : word.dropWhile (· = '@') = name) :
    parameterName? text = some (String.ofList name) := by
  have htrimmed : Declares word (trim text) := (htext.trimStart hword).trimEnd hword
  obtain ⟨rest, hskipped, hrest, hopen, hhead⟩ := htrimmed.exists_skipAttributes? hword
    (fun c hc => isBlank_of_mem_head?_trim hc) (Nat.le_refl _)
  unfold parameterName?
  simp only [hskipped, Option.bind_some, hrest.getLast?_words hword hopen hhead, hname]
  simp [hne]

/-! ## Reading written parameters -/

namespace IsName

variable {name : List Char}

theorem of_isWord (hne : name ≠ []) (hname : ∀ c ∈ name, isWord c = true) : IsName name where
  ne_nil := hne
  solid c hc := isBlank_eq_false_of_isWord (hname c hc)
  unassigned hmem := absurd (hname '=' hmem) (by decide)
  unbroken c hc := ne_sign_of_class (by decide) (by decide) (hname c hc)
  bare hhead := absurd (hname '@' (List.mem_of_mem_head? hhead)) (by decide)

theorem head_ne (hname : IsName name) : name.head? ≠ some '[' := fun hhead =>
  ((hname.unbroken '[' (List.mem_of_mem_head? hhead)).2 ('[', ']') (by decide)).1 rfl

end IsName

namespace Parameter

variable {parameter : Parameter}

theorem WellWritten.readable_word (hwritten : parameter.WellWritten) :
    Readable parameter.word := by
  have hname := hwritten.name
  unfold word
  split
  · exact {
      ne_nil := List.cons_ne_nil _ _
      solid := List.forall_mem_cons.mpr ⟨by decide, hname.solid⟩
      unassigned := by simp [hname.unassigned]
      unopened := by simp }
  · exact {
      ne_nil := hname.ne_nil
      solid := hname.solid
      unassigned := hname.unassigned
      unopened := hname.head_ne }

theorem WellWritten.dropWhile_word (hwritten : parameter.WellWritten) :
    parameter.word.dropWhile (· = '@') = parameter.name := by
  have hname : parameter.name.dropWhile (· = '@') = parameter.name := by
    have hbare := hwritten.name.bare
    generalize parameter.name = name at hbare
    cases name with
    | nil => rfl
    | cons c name => exact List.dropWhile_cons_of_neg (by simpa using hbare)
  unfold word
  split
  · rw [List.dropWhile_cons_of_pos (by decide), hname]
  · exact hname

theorem WellWritten.declares (hwritten : parameter.WellWritten) {behind : List Char}
    (hbehind : ∀ c ∈ behind, isBlank c = true) :
    Declares parameter.word (parameter.text ++ behind) := by
  have hvalue : ∀ c ∈ (parameter.valueText ++ behind).takeWhile (· ≠ '='), isBlank c = true := by
    unfold valueText
    split
    · exact fun c hc => hbehind c ((List.takeWhile_sublist _).mem hc)
    · next gap value hdefault =>
        have hgap := (hwritten.value _ hdefault).1
        intro c hc
        rw [List.append_assoc, List.takeWhile_append_of_pos] at hc
        · simpa using hgap c (by simpa using hc)
        · exact fun d hd => decide_eq_true fun heq =>
            absurd (hgap d hd) (heq ▸ by decide)
  have htyped : Declares parameter.word (parameter.type ++ (parameter.gap ++ (parameter.word ++
      (parameter.valueText ++ behind)))) :=
    .typed hwritten.type.nested hwritten.unassigned hwritten.gap
      (fun hgap => absurd hgap hwritten.separate) hvalue
  have hgroups := hwritten.attributes
  simp only [text, attributeText, List.append_assoc]
  generalize parameter.attributes = groups at hgroups
  induction groups with
  | nil => exact htyped
  | cons group groups ih =>
      obtain ⟨hgroup, hgroups⟩ := List.forall_mem_cons.mp hgroups
      have hfollows := Declares.group hgroup.1 ((ih hgroups).blanks_append hgroup.2)
      simpa using hfollows

theorem WellWritten.unbroken (hwritten : parameter.WellWritten) :
    Unbroken bracketPairs parameter.text := by
  have hword : Unbroken bracketPairs parameter.word := by
    have hname := Unbroken.of_forall hwritten.name.unbroken
    unfold word
    split
    · exact .char (by decide) (by decide) hname
    · exact hname
  have hvalue : Unbroken bracketPairs parameter.valueText := by
    unfold valueText
    split
    · exact .nil
    · next gap value hdefault =>
        obtain ⟨hgap, hvalue⟩ := hwritten.value _ hdefault
        exact (Unbroken.of_blanks hgap).append (.char (by decide) (by decide) hvalue)
  have hattributes : Unbroken bracketPairs parameter.attributeText := by
    have hsquare : ('[', ']') ∈ bracketPairs := by decide
    have hgroups := hwritten.attributes
    unfold attributeText
    generalize parameter.attributes = groups at hgroups
    induction groups with
    | nil => exact .nil
    | cons group groups ih =>
        obtain ⟨hgroup, hgroups⟩ := List.forall_mem_cons.mp hgroups
        have hfirst : Unbroken bracketPairs ('[' :: (group.1 ++ ']' :: group.2)) :=
          .group hsquare hgroup.1 (.of_blanks hgroup.2)
        exact hfirst.append (ih hgroups)
  exact hattributes.append ((hwritten.type.append (.of_blanks hwritten.gap)).append
    (hword.append hvalue))

end Parameter

namespace Entry

variable {entry : Entry}

theorem WellWritten.declares (hwritten : entry.WellWritten) :
    Declares entry.parameter.word entry.text :=
  (hwritten.parameter.declares hwritten.behind).blanks_append hwritten.before

theorem WellWritten.unbroken (hwritten : entry.WellWritten) : Unbroken bracketPairs entry.text :=
  (Unbroken.of_blanks hwritten.before).append
    (hwritten.parameter.unbroken.append (.of_blanks hwritten.behind))

theorem WellWritten.parameterName? (hwritten : entry.WellWritten) :
    parameterName? (trim entry.text) = some (String.ofList entry.parameter.name) := by
  have hword := hwritten.parameter.readable_word
  have htrimmed : Declares entry.parameter.word (trim entry.text) :=
    (hwritten.declares.trimStart hword).trimEnd hword
  exact parameterName?_of_declares hword htrimmed hwritten.parameter.name.ne_nil
    hwritten.parameter.dropWhile_word

theorem WellWritten.trim_ne_nil (hwritten : entry.WellWritten) : trim entry.text ≠ [] :=
  have hword := hwritten.parameter.readable_word
  ((hwritten.declares.trimStart hword).trimEnd hword).ne_nil hword

end Entry

/-- The names in a written list of parameters are read back, in their order. -/
theorem parameterNames_join {lead : List Char} {entries : List Entry}
    (hlead : ∀ c ∈ lead, isBlank c = true) (hentries : ∀ entry ∈ entries, entry.WellWritten) :
    parameterNames (lead ++ join [','] (entries.map Entry.text)) =
      entries.map fun entry => String.ofList entry.parameter.name := by
  rw [parameterNames, pieces_blanks_append hlead]
  by_cases hnone : entries = []
  · rw [hnone]
    decide
  · have hunbroken : ∀ text ∈ entries.map Entry.text, Unbroken bracketPairs text := by
      intro text htext
      obtain ⟨entry, hentry, rfl⟩ := List.mem_map.mp htext
      exact (hentries entry hentry).unbroken
    rw [pieces_eq, piecesFrom_join (by simpa using hnone) hunbroken]
    clear hnone hunbroken
    -- Each piece is an entry, and none of them is dropped as empty.
    induction entries with
    | nil => rfl
    | cons entry entries ih =>
        obtain ⟨hentry, hentries⟩ := List.forall_mem_cons.mp hentries
        have hkept : (!(trim entry.text).isEmpty) = true := by
          simpa using hentry.trim_ne_nil
        rw [List.map_cons, List.map_cons, List.filter_cons, if_pos hkept,
          List.filterMap_cons_some hentry.parameterName?, ih hentries, List.map_cons]

/-- An escaped name with an attribute, a generic type and a default value. -/
def handlerEntry : Entry where
  before := []
  parameter := {
    attributes := [("A".toList ++ '(' :: ("x = 1, y".toList ++ [')']), [' '])]
    type := "Map".toList ++ '<' :: (("K, V".toList ++ '[' :: ([] ++ [']'])) ++ ['>'])
    gap := [' ']
    escaped := true
    name := "event".toList
    value? := some ([' '], " f".toList ++ '(' :: ("a, b".toList ++ [')'])) }
  behind := []

/-- A name behind a modifier and the type of an array. -/
def restEntry : Entry where
  before := [' ']
  parameter := {
    attributes := []
    type := "params int".toList ++ '[' :: ([] ++ [']'])
    gap := [' ']
    escaped := false
    name := "rest".toList
    value? := none }
  behind := ['\n']

theorem parameterNames_join_handler :
    (∀ entry ∈ [handlerEntry, restEntry], entry.WellWritten) ∧
      parameterNames " [A(x = 1, y)] Map<K, V[]> @event = f(a, b), params int[] rest\n".toList =
        ["event", "rest"] := by
  have hround : ('(', ')') ∈ bracketPairs := by decide
  have hsquare : ('[', ']') ∈ bracketPairs := by decide
  have hangle : ('<', '>') ∈ bracketPairs := by decide
  have hspace : ∀ c ∈ [' '], isBlank c = true := List.all_eq_true.mp (by decide)
  have hinside : Nested bracketPairs ("A".toList ++ '(' :: ("x = 1, y".toList ++ [')'])) :=
    .append (.of_forall (by simp [bracketPairs, groupPairs]))
      (.group hround (.of_forall (by simp [bracketPairs, groupPairs])) .nil)
  have hkeys : Nested bracketPairs ("K, V".toList ++ '[' :: ([] ++ [']'])) :=
    .append (.of_forall (by simp [bracketPairs, groupPairs])) (.group hsquare .nil .nil)
  have hcall : Unbroken bracketPairs (" f".toList ++ '(' :: ("a, b".toList ++ [')'])) :=
    .append (.of_forall (by simp [bracketPairs, groupPairs]))
      (.group hround (.of_forall (by simp [bracketPairs, groupPairs])) .nil)
  have hhandler : handlerEntry.WellWritten := {
    before := List.all_eq_true.mp (by decide)
    parameter := {
      attributes := List.forall_mem_singleton.mpr ⟨hinside, hspace⟩
      type := .append (.of_forall (by simp [bracketPairs, groupPairs])) (.group hangle hkeys .nil)
      unassigned := by decide
      gap := hspace
      separate := by decide
      name := .of_isWord (by decide) (List.all_eq_true.mp (by decide))
      value := fun _ hvalue => Option.some.inj hvalue ▸ ⟨hspace, hcall⟩ }
    behind := List.all_eq_true.mp (by decide) }
  have hrest : restEntry.WellWritten := {
    before := hspace
    parameter := {
      attributes := by simp [restEntry]
      type := .append (.of_forall (by simp [bracketPairs, groupPairs]))
        (.group hsquare .nil .nil)
      unassigned := by decide
      gap := hspace
      separate := by decide
      name := .of_isWord (by decide) (List.all_eq_true.mp (by decide))
      value := by simp [restEntry] }
    behind := List.all_eq_true.mp (by decide) }
  have hentries : ∀ entry ∈ [handlerEntry, restEntry], entry.WellWritten := by
    simpa using ⟨hhandler, hrest⟩
  have htext : [' '] ++ join [','] ([handlerEntry, restEntry].map Entry.text) =
      " [A(x = 1, y)] Map<K, V[]> @event = f(a, b), params int[] rest\n".toList := by
    decide +kernel
  have hnames := parameterNames_join hspace hentries
  rw [htext] at hnames
  exact ⟨hentries, hnames⟩

end SourceAtlas.CSharp
