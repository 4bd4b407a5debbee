import SourceAtlas.Json.Printer
import SourceAtlas.Json.Reader
import Mathlib.Data.List.Basic
import Mathlib.Data.List.TakeWhile

/-!
# Texts of JSON values

A value can be spelled with any white space between its parts.  Both ways of printing
spell the value that they print, and reading a spelling gives the value back, whatever
follows it: a string ends at its first quote that is not escaped, and a number ends where
no digit, point or exponent follows.  Numbers with a fraction or an exponent are left
out; nothing here writes them.
-/

namespace SourceAtlas.Json

/-- White space between the parts of a value. -/
def IsGap (gap : List Char) : Prop :=
  ∀ c ∈ gap, isLayout c = true

mutual

/-- A text stands for a value. -/
inductive Spells : Json → List Char → Prop
  | null : Spells .null "null".toList
  | bool (value : Bool) : Spells (.bool value) (if value then "true" else "false").toList
  | int (value : Int) : Spells (.int value) (toString value).toList
  | text (value : String) : Spells (.text value) (quoted value)
  | emptyArray : Spells (.array []) ['[', ']']
  | array {first : Json} {rest : List Json} {before word words after : List Char}
      (hbefore : IsGap before) (hfirst : Spells first word) (hrest : SpellsItems rest words)
      (hafter : IsGap after) :
      Spells (.array (first :: rest)) ('[' :: (before ++ word ++ words ++ after ++ [']']))
  | emptyObject : Spells (.object []) ['{', '}']
  | object (name : String) {value : Json} {rest : List (String × Json)}
      {before between word words after : List Char} (hbefore : IsGap before)
      (hbetween : IsGap between) (hvalue : Spells value word) (hrest : SpellsFields rest words)
      (hafter : IsGap after) :
      Spells (.object ((name, value) :: rest))
        ('{' :: (before ++ quoted name ++ ':' :: (between ++ word) ++ words ++ after ++ ['}']))

/-- A text stands for the items behind the first one of an array. -/
inductive SpellsItems : List Json → List Char → Prop
  | nil : SpellsItems [] []
  | cons {item : Json} {rest : List Json} {before word words : List Char}
      (hbefore : IsGap before) (hitem : Spells item word) (hrest : SpellsItems rest words) :
      SpellsItems (item :: rest) (',' :: (before ++ word ++ words))

/-- A text stands for the fields behind the first one of an object. -/
inductive SpellsFields : List (String × Json) → List Char → Prop
  | nil : SpellsFields [] []
  | cons (name : String) {value : Json} {rest : List (String × Json)}
      {before between word words : List Char} (hbefore : IsGap before)
      (hbetween : IsGap between) (hvalue : Spells value word) (hrest : SpellsFields rest words) :
      SpellsFields ((name, value) :: rest)
        (',' :: (before ++ quoted name ++ ':' :: (between ++ word) ++ words))

end

mutual

/-- No number in a value has a fraction or an exponent. -/
def IsWhole : Json → Prop
  | .decimal _ => False
  | .array items => AreWhole items
  | .object fields => FieldsAreWhole fields
  | _ => True

def AreWhole : List Json → Prop
  | [] => True
  | item :: rest => item.IsWhole ∧ AreWhole rest

def FieldsAreWhole : List (String × Json) → Prop
  | [] => True
  | (_, value) :: rest => value.IsWhole ∧ FieldsAreWhole rest

end

theorem isGap_nil : IsGap [] := by
  intro c hc
  simp at hc

theorem isGap_lineBreak (level : Nat) : IsGap (lineBreak level) := by
  intro c hc
  rcases List.mem_cons.mp hc with rfl | hspace
  · rfl
  · rw [List.eq_of_mem_replicate hspace]
    rfl

theorem isGap_space : IsGap [' '] := by
  intro c hc
  rw [List.mem_singleton.mp hc]
  rfl

mutual

theorem spells_flat {json : Json} (hwhole : json.IsWhole) : Spells json (flat json) := by
  match json with
  | .null => exact .null
  | .bool value => exact .bool value
  | .int value => exact .int value
  | .decimal digits => exact hwhole.elim
  | .text value => exact .text value
  | .array [] => exact .emptyArray
  | .array (first :: rest) =>
      have hspells := Spells.array isGap_nil (spells_flat hwhole.1) (spellsItems_flat hwhole.2)
        isGap_nil
      simpa [flat] using hspells
  | .object [] => exact .emptyObject
  | .object ((name, value) :: rest) =>
      have hspells := Spells.object name isGap_nil isGap_nil (spells_flat hwhole.1)
        (spellsFields_flat hwhole.2) isGap_nil
      simpa [flat] using hspells

theorem spellsItems_flat {items : List Json} (hwhole : AreWhole items) :
    SpellsItems items (flatItems items) := by
  match items with
  | [] => exact .nil
  | item :: rest =>
      simpa [flatItems] using
        SpellsItems.cons isGap_nil (spells_flat hwhole.1) (spellsItems_flat hwhole.2)

theorem spellsFields_flat {fields : List (String × Json)} (hwhole : FieldsAreWhole fields) :
    SpellsFields fields (flatFields fields) := by
  match fields with
  | [] => exact .nil
  | (name, value) :: rest =>
      simpa [flatFields] using SpellsFields.cons name isGap_nil isGap_nil
        (spells_flat hwhole.1) (spellsFields_flat hwhole.2)

end

mutual

theorem spells_print {json : Json} (level : Nat) (hwhole : json.IsWhole) :
    Spells json (print level json) := by
  match json with
  | .null => exact .null
  | .bool value => exact .bool value
  | .int value => exact .int value
  | .decimal digits => exact hwhole.elim
  | .text value => exact .text value
  | .array [] => exact .emptyArray
  | .array (first :: rest) =>
      have hspells := Spells.array (isGap_lineBreak (level + 1))
        (spells_print (level + 1) hwhole.1) (spellsItems_print (level + 1) hwhole.2)
        (isGap_lineBreak level)
      simpa [print] using hspells
  | .object [] => exact .emptyObject
  | .object ((name, value) :: rest) =>
      have hspells := Spells.object name (isGap_lineBreak (level + 1)) isGap_space
        (spells_print (level + 1) hwhole.1) (spellsFields_print (level + 1) hwhole.2)
        (isGap_lineBreak level)
      simpa [print] using hspells

theorem spellsItems_print {items : List Json} (level : Nat) (hwhole : AreWhole items) :
    SpellsItems items (printItems level items) := by
  match items with
  | [] => exact .nil
  | item :: rest =>
      simpa [printItems] using SpellsItems.cons (isGap_lineBreak level)
        (spells_print level hwhole.1) (spellsItems_print level hwhole.2)

theorem spellsFields_print {fields : List (String × Json)} (level : Nat)
    (hwhole : FieldsAreWhole fields) : SpellsFields fields (printFields level fields) := by
  match fields with
  | [] => exact .nil
  | (name, value) :: rest =>
      simpa [printFields] using SpellsFields.cons name (isGap_lineBreak level)
        isGap_space (spells_print level hwhole.1) (spellsFields_print level hwhole.2)

end

/-! ## Reading strings -/

theorem hexValue?_hexDigit {value : Nat} (hvalue : value < 16) :
    hexValue? (hexDigit value) = some value := by
  revert value
  decide

theorem scalar?_toNat (c : Char) : scalar? c.toNat = some c := by
  have hvalid : c.toNat.isValidChar := c.valid
  unfold scalar?
  rw [dif_pos hvalid]
  rfl

theorem unit?_hexDigit {code : Nat} (hcode : code < 256) (rest : List Char) :
    unit? ('0' :: '0' :: hexDigit (code / 16) :: hexDigit (code % 16) :: rest) =
      some (code, rest) := by
  have hzero : hexValue? '0' = some 0 := by decide
  have hhigh : hexValue? (hexDigit (code / 16)) = some (code / 16) :=
    hexValue?_hexDigit (by omega)
  have hlow : hexValue? (hexDigit (code % 16)) = some (code % 16) :=
    hexValue?_hexDigit (by omega)
  simp only [unit?, hzero, hhigh, hlow, Option.some.injEq, Prod.mk.injEq, and_true]
  omega

theorem escapedUnit?_control {c : Char} (hcontrol : c.toNat < 32) (rest : List Char) :
    escapedUnit? ('0' :: '0' :: hexDigit (c.toNat / 16) :: hexDigit (c.toNat % 16) :: rest) =
      some (c, rest) := by
  have hunit : ¬ 55296 ≤ c.toNat := by omega
  unfold escapedUnit?
  rw [unit?_hexDigit (by omega)]
  simp [hunit, scalar?_toNat]

/-- Escaping leaves a character as it is, or writes behind a backslash what is read as the
character again. -/
theorem escape_cases (c : Char) :
    (escape c = [c] ∧ c ≠ '"' ∧ c ≠ '\\' ∧ ¬ c.toNat < 32) ∨
    ∃ written, escape c = '\\' :: written ∧
      ∀ rest, escaped? (written ++ rest) = some (c, rest) := by
  by_cases hnamed : c ∈ ['"', '\\', '\n', '\r', '\t', '\x08', '\x0c']
  · right
    simp only [List.mem_cons, List.not_mem_nil, or_false] at hnamed
    rcases hnamed with rfl | rfl | rfl | rfl | rfl | rfl | rfl <;>
      exact ⟨_, rfl, fun rest => rfl⟩
  · simp only [List.mem_cons, List.not_mem_nil, or_false, not_or] at hnamed
    obtain ⟨hquote, hbackslash, hbreak, hreturn, htab, hback, hfeed⟩ := hnamed
    unfold escape
    simp only [hquote, hbackslash, hbreak, hreturn, htab, hback, hfeed, if_false]
    by_cases hcontrol : c.toNat < 32
    · right
      rw [if_pos hcontrol]
      exact ⟨_, rfl, escapedUnit?_control hcontrol⟩
    · left
      rw [if_neg hcontrol]
      exact ⟨rfl, hquote, hbackslash, hcontrol⟩

theorem escape_ne_nil (c : Char) : escape c ≠ [] := by
  rcases escape_cases c with ⟨hplain, -⟩ | ⟨written, hwritten, -⟩
  · simp [hplain]
  · simp [hwritten]

theorem length_le_length_flatMap_escape (chars : List Char) :
    chars.length ≤ (chars.flatMap escape).length := by
  induction chars with
  | nil => simp
  | cons c chars ih =>
      have hpos := List.length_pos_iff.mpr (escape_ne_nil c)
      rw [List.flatMap_cons, List.length_append, List.length_cons]
      omega

theorem stringLoop?_quoted (chars taken rest : List Char) (fuel : Nat)
    (hfuel : chars.length < fuel) :
    stringLoop? taken fuel (chars.flatMap escape ++ '"' :: rest) =
      some (String.ofList (taken.reverse ++ chars), rest) := by
  induction chars generalizing taken fuel with
  | nil =>
      obtain ⟨fuel, rfl⟩ := Nat.exists_eq_add_one_of_ne_zero (Nat.ne_of_gt hfuel)
      simp [stringLoop?]
  | cons c chars ih =>
      obtain ⟨fuel, rfl⟩ := Nat.exists_eq_add_one_of_ne_zero (Nat.ne_of_gt (Nat.zero_lt_of_lt hfuel))
      have hloop := ih (c :: taken) fuel (by simpa using hfuel)
      rw [List.reverse_cons, List.append_assoc, List.singleton_append] at hloop
      rw [List.flatMap_cons, List.append_assoc]
      rcases escape_cases c with ⟨hplain, hquote, hbackslash, hcontrol⟩ | ⟨written, hwritten, hread⟩
      · rw [hplain, List.singleton_append, stringLoop?]
        · simp only [hcontrol, if_false]
          exact hloop
        · exact hquote
        · exact hbackslash
      · rw [hwritten, List.cons_append, stringLoop?, hread]
        exact hloop

theorem string?_quoted (value : String) (rest : List Char) :
    string? (value.toList.flatMap escape ++ '"' :: rest) = some (value, rest) := by
  unfold string?
  rw [stringLoop?_quoted]
  · simp
  · have hlength := length_le_length_flatMap_escape value.toList
    rw [List.length_append]
    omega

/-- No character that would go on with a number comes next. -/
def EndsNumber (rest : List Char) : Prop :=
  ∀ c, rest.head? = some c → isDigit c = false ∧ c ≠ '.' ∧ c ≠ 'e' ∧ c ≠ 'E'

theorem isDigit_of_mem_toDigits {n : Nat} {c : Char} (hc : c ∈ Nat.toDigits 10 n) :
    isDigit c = true := by
  have hdigit := Nat.isDigit_of_mem_toDigits (by decide) (by decide) hc
  simpa [Char.isDigit, isDigit, Char.le_def] using hdigit

theorem ofDigits_toDigits (n : Nat) : ofDigits (Nat.toDigits 10 n) = n :=
  Nat.ofDigitChars_ten_toDigits

/-- Only the number zero begins with the digit zero. -/
theorem head?_toDigits {n : Nat} (hn : n ≠ 0) : (Nat.toDigits 10 n).head? ≠ some '0' := by
  induction n using Nat.strongRecOn with
  | ind n ih =>
      by_cases hsmall : n < 10
      · have hall : ∀ digit < 10, digit ≠ 0 → Nat.digitChar digit ≠ '0' := by decide
        rw [Nat.toDigits_of_lt_base hsmall]
        simpa using hall n hsmall hn
      · rw [Nat.toDigits_of_base_le (by decide) (by omega),
          List.head?_append_of_ne_nil _ Nat.toDigits_ne_nil]
        exact ih (n / 10) (by omega) (by omega)

theorem digits_append {found rest : List Char} (hfound : ∀ c ∈ found, isDigit c = true)
    (hrest : EndsNumber rest) : digits (found ++ rest) = (found, rest) := by
  unfold digits
  rw [List.takeWhile_append_of_pos hfound, List.dropWhile_append_of_pos hfound]
  cases rest with
  | nil => simp
  | cons c rest =>
      obtain ⟨hdigit, -⟩ := hrest c rfl
      simp [hdigit]

theorem fraction?_of_endsNumber {rest : List Char} (hrest : EndsNumber rest) :
    fraction? rest = some ([], rest) := by
  unfold fraction?
  split
  · obtain ⟨-, hpoint, -⟩ := hrest '.' rfl
    exact (hpoint rfl).elim
  · rfl

theorem exponent?_of_endsNumber {rest : List Char} (hrest : EndsNumber rest) :
    exponent? rest = some ([], rest) := by
  cases rest with
  | nil => rfl
  | cons c rest =>
      obtain ⟨-, -, hsmall, hcapital⟩ := hrest c rfl
      simp [exponent?, hsmall, hcapital]

theorem unsigned?_toDigits (negative : Bool) {n : Nat} (hn : negative = true → n ≠ 0)
    {rest : List Char} (hrest : EndsNumber rest) :
    unsigned? negative (Nat.toDigits 10 n ++ rest) =
      some (.int (if negative then -n else n), rest) := by
  have hdigits := digits_append (fun c => isDigit_of_mem_toDigits (n := n) (c := c)) hrest
  have hleading : ¬ ((Nat.toDigits 10 n).length > 1 ∧
      (Nat.toDigits 10 n).head? = some '0') := by
    rintro ⟨hlength, hhead⟩
    by_cases hzero : n = 0
    · simp [hzero] at hlength
    · exact head?_toDigits hzero hhead
  have hnegative : (negative && decide (n = 0)) = false := by
    cases negative with
    | false => rfl
    | true => simpa using hn rfl
  unfold unsigned?
  rw [hdigits]
  split
  · next hnil => exact (Nat.toDigits_ne_nil (congrArg Prod.fst hnil)).elim
  · next whole after _ heq =>
    obtain ⟨rfl, rfl⟩ := Prod.mk.inj heq
    simp only [Bool.and_eq_true, decide_eq_true_eq, if_neg hleading,
      fraction?_of_endsNumber hrest, exponent?_of_endsNumber hrest, ofDigits_toDigits]
    simp [hnegative]

theorem exists_digit_toDigits (n : Nat) :
    ∃ c digits, Nat.toDigits 10 n = c :: digits ∧ isDigit c = true := by
  have hne : Nat.toDigits 10 n ≠ [] := Nat.toDigits_ne_nil
  obtain ⟨c, digits, hdigits⟩ := List.exists_cons_of_ne_nil hne
  exact ⟨c, digits, hdigits, isDigit_of_mem_toDigits (n := n) (by simp [hdigits])⟩

theorem toList_toString_ofNat (n : Nat) :
    (toString (Int.ofNat n)).toList = Nat.toDigits 10 n :=
  String.toList_ofList

theorem toList_toString_negSucc (n : Nat) :
    (toString (Int.negSucc n)).toList = '-' :: Nat.toDigits 10 (n + 1) := by
  have htext : toString (Int.negSucc n) = "-" ++ String.ofList (Nat.toDigits 10 (n + 1)) := rfl
  rw [htext, String.toList_append]
  exact congrArg ('-' :: ·) String.toList_ofList

theorem number?_toString (value : Int) {rest : List Char} (hrest : EndsNumber rest) :
    number? ((toString value).toList ++ rest) = some (.int value, rest) := by
  cases value with
  | ofNat n =>
      have hread := unsigned?_toDigits false (n := n) (by simp) hrest
      obtain ⟨c, digits, hdigits, hc⟩ := exists_digit_toDigits n
      rw [toList_toString_ofNat]
      unfold number?
      split
      · next heq =>
        rw [hdigits, List.cons_append, List.cons.injEq] at heq
        rw [heq.1] at hc
        exact absurd hc (by decide)
      · exact hread
  | negSucc n =>
      have hread := unsigned?_toDigits true (n := n + 1) (by simp) hrest
      rw [toList_toString_negSucc, List.cons_append, number?, hread]
      rfl

/-! ## Reading values -/

theorem skipLayout_append {gap : List Char} (hgap : IsGap gap) (rest : List Char) :
    skipLayout (gap ++ rest) = skipLayout rest :=
  List.dropWhile_append_of_pos hgap

theorem skipLayout_cons {c : Char} (hc : isLayout c = false) (rest : List Char) :
    skipLayout (c :: rest) = c :: rest := by
  simp [skipLayout, hc]

theorem skipLayout_gap_append {gap : List Char} (hgap : IsGap gap) {c : Char}
    (hc : isLayout c = false) (rest : List Char) : skipLayout (gap ++ c :: rest) = c :: rest := by
  rw [skipLayout_append hgap, skipLayout_cons hc]

theorem isLayout_eq_false_of_isDigit {c : Char} (hc : isDigit c = true) : isLayout c = false := by
  by_contra hlayout
  simp only [isLayout, Bool.not_eq_false, Bool.or_eq_true, decide_eq_true_eq] at hlayout
  rcases hlayout with ((rfl | rfl) | rfl) | rfl <;> exact absurd hc (by decide)

/-- A value begins with a character that is neither white space nor the end of a list. -/
theorem Spells.exists_start {json : Json} {word : List Char} (hspells : Spells json word) :
    ∃ c tail, word = c :: tail ∧ isLayout c = false ∧ c ≠ ']' ∧ c ≠ '}' := by
  cases hspells with
  | null => exact ⟨_, _, rfl, by decide, by decide, by decide⟩
  | bool value => cases value <;> exact ⟨_, _, rfl, by decide, by decide, by decide⟩
  | int value =>
      cases value with
      | ofNat n =>
          obtain ⟨c, digits, hdigits, hc⟩ := exists_digit_toDigits n
          rw [toList_toString_ofNat]
          refine ⟨c, digits, hdigits, ?_, ?_, ?_⟩
          · exact isLayout_eq_false_of_isDigit hc
          · rintro rfl
            exact absurd hc (by decide)
          · rintro rfl
            exact absurd hc (by decide)
      | negSucc n =>
          exact ⟨'-', _, toList_toString_negSucc n, by decide, by decide, by decide⟩
  | text value => exact ⟨_, _, rfl, by decide, by decide, by decide⟩
  | emptyArray => exact ⟨_, _, rfl, by decide, by decide, by decide⟩
  | array => exact ⟨_, _, rfl, by decide, by decide, by decide⟩
  | emptyObject => exact ⟨_, _, rfl, by decide, by decide, by decide⟩
  | object => exact ⟨_, _, rfl, by decide, by decide, by decide⟩

/-- With this much fuel, what spells a value, or the items or fields of one, is read as it. -/
structure ReadsBack (fuel : Nat) : Prop where
  value : ∀ {json : Json} {before word rest : List Char}, Spells json word → IsGap before →
    EndsNumber rest → 2 * word.length ≤ fuel →
    value? fuel (before ++ (word ++ rest)) = some (json, rest)
  items : ∀ (found : List Json) (rest : List Char) {first : Json} {others : List Json}
    {before word words after : List Char},
    Spells first word → SpellsItems others words → IsGap before → IsGap after →
    2 * (word.length + words.length) + 1 ≤ fuel →
    items? found fuel (before ++ (word ++ (words ++ (after ++ ']' :: rest)))) =
      some (.array (found.reverse ++ first :: others), rest)
  fields : ∀ (found : List (String × Json)) (rest : List Char) (name : String) {value : Json}
    {others : List (String × Json)} {before between word words after : List Char},
    Spells value word → SpellsFields others words → IsGap before → IsGap between →
    IsGap after →
    2 * (word.length + words.length) + 1 ≤ fuel →
    fields? found fuel
        (before ++ (quoted name ++ ':' :: (between ++ (word ++ (words ++ (after ++ '}' :: rest)))))) =
      some (.object (found.reverse ++ (name, value) :: others), rest)

theorem readsBack_zero : ReadsBack 0 := by
  constructor
  · intro json before word rest hspells _ _ hfuel
    obtain ⟨c, tail, rfl, -⟩ := hspells.exists_start
    simp at hfuel
  · intro _ _ _ _ _ _ _ _ _ _ _ _ hfuel
    omega
  · intro _ _ _ _ _ _ _ _ _ _ _ _ _ _ _ hfuel
    omega

theorem endsNumber_cons {c : Char} (hc : isDigit c = false) (hpoint : c ≠ '.') (hsmall : c ≠ 'e')
    (hcapital : c ≠ 'E') (rest : List Char) : EndsNumber (c :: rest) := by
  intro d hd
  obtain rfl : c = d := by simpa using hd
  exact ⟨hc, hpoint, hsmall, hcapital⟩

theorem endsNumber_gap_append {gap rest : List Char} (hgap : IsGap gap) (hrest : EndsNumber rest) :
    EndsNumber (gap ++ rest) := by
  cases gap with
  | nil => exact hrest
  | cons c gap =>
      have hlayout := hgap c List.mem_cons_self
      apply endsNumber_cons
      · by_contra hdigit
        rw [Bool.not_eq_false] at hdigit
        rw [isLayout_eq_false_of_isDigit hdigit] at hlayout
        contradiction
      · rintro rfl
        exact absurd hlayout (by decide)
      · rintro rfl
        exact absurd hlayout (by decide)
      · rintro rfl
        exact absurd hlayout (by decide)

theorem SpellsItems.endsNumber_append {items : List Json} {words : List Char}
    (hspells : SpellsItems items words) {rest : List Char} (hrest : EndsNumber rest) :
    EndsNumber (words ++ rest) := by
  cases hspells with
  | nil => exact hrest
  | cons => exact endsNumber_cons (by decide) (by decide) (by decide) (by decide) _

theorem SpellsFields.endsNumber_append {fields : List (String × Json)} {words : List Char}
    (hspells : SpellsFields fields words) {rest : List Char} (hrest : EndsNumber rest) :
    EndsNumber (words ++ rest) := by
  cases hspells with
  | nil => exact hrest
  | cons => exact endsNumber_cons (by decide) (by decide) (by decide) (by decide) _

theorem ReadsBack.items_succ {fuel : Nat} (hreads : ReadsBack fuel) (found : List Json)
    (rest : List Char) {first : Json} {others : List Json} {before word words after : List Char}
    (hfirst : Spells first word) (hothers : SpellsItems others words) (hbefore : IsGap before)
    (hafter : IsGap after) (hfuel : 2 * (word.length + words.length) + 1 ≤ fuel + 1) :
    items? found (fuel + 1) (before ++ (word ++ (words ++ (after ++ ']' :: rest)))) =
      some (.array (found.reverse ++ first :: others), rest) := by
  have hclose : EndsNumber (']' :: rest) :=
    endsNumber_cons (by decide) (by decide) (by decide) (by decide) rest
  have hvalue := hreads.value hfirst hbefore
    (hothers.endsNumber_append (endsNumber_gap_append hafter hclose)) (by omega)
  rw [items?, hvalue]
  cases hothers with
  | nil =>
      simp only [List.nil_append]
      rw [skipLayout_gap_append hafter (by decide)]
      simp
  | cons hbefore' hitem hrest =>
      have hitems := hreads.items (first :: found) rest hitem hrest hbefore' hafter
        (by simp at hfuel; omega)
      simp only [List.cons_append, List.append_assoc]
      rw [skipLayout_cons (by decide)]
      simpa using hitems

theorem quoted_append (name : String) (rest : List Char) :
    quoted name ++ rest = '"' :: (name.toList.flatMap escape ++ '"' :: rest) := by
  simp [quoted]

theorem ReadsBack.fields_succ {fuel : Nat} (hreads : ReadsBack fuel)
    (found : List (String × Json)) (rest : List Char) (name : String) {value : Json}
    {others : List (String × Json)} {before between word words after : List Char}
    (hvalue : Spells value word) (hothers : SpellsFields others words) (hbefore : IsGap before)
    (hbetween : IsGap between) (hafter : IsGap after)
    (hfuel : 2 * (word.length + words.length) + 1 ≤ fuel + 1) :
    fields? found (fuel + 1)
        (before ++ (quoted name ++ ':' :: (between ++ (word ++ (words ++ (after ++ '}' :: rest)))))) =
      some (.object (found.reverse ++ (name, value) :: others), rest) := by
  have hclose : EndsNumber ('}' :: rest) :=
    endsNumber_cons (by decide) (by decide) (by decide) (by decide) rest
  have hread := hreads.value hvalue hbetween
    (hothers.endsNumber_append (endsNumber_gap_append hafter hclose)) (by omega)
  rw [fields?, quoted_append, skipLayout_gap_append hbefore (by decide)]
  simp only [string?_quoted]
  rw [skipLayout_cons (by decide)]
  simp only [hread]
  cases hothers with
  | nil =>
      simp only [List.nil_append]
      rw [skipLayout_gap_append hafter (by decide)]
      simp
  | cons next hbefore' hbetween' hvalue' hrest =>
      have hfields := hreads.fields ((name, value) :: found) rest next hvalue' hrest hbefore' hbetween' hafter (by simp at hfuel; omega)
      simp only [List.cons_append, List.append_assoc]
      rw [skipLayout_cons (by decide)]
      simpa using hfields

theorem value?_of_number {c : Char} (hc : isDigit c = true ∨ c = '-') (fuel : Nat)
    {before rest : List Char} (hbefore : IsGap before) :
    value? (fuel + 1) (before ++ c :: rest) = number? (c :: rest) := by
  have hlayout : isLayout c = false := by
    rcases hc with hdigit | rfl
    · exact isLayout_eq_false_of_isDigit hdigit
    · decide
  have hother : ∀ d, isDigit d = false → d ≠ '-' → c ≠ d := by
    rintro d hdigit hne rfl
    rcases hc with hdigit' | rfl
    · rw [hdigit] at hdigit'
      contradiction
    · exact hne rfl
  have hquote : c ≠ '"' := hother '"' rfl (by decide)
  have hbracket : c ≠ '[' := hother '[' rfl (by decide)
  have hbrace : c ≠ '{' := hother '{' rfl (by decide)
  have hn : c ≠ 'n' := hother 'n' rfl (by decide)
  have ht : c ≠ 't' := hother 't' rfl (by decide)
  have hf : c ≠ 'f' := hother 'f' rfl (by decide)
  rw [value?, skipLayout_gap_append hbefore hlayout]
  split <;> simp_all

theorem ReadsBack.value_succ {fuel : Nat} (hreads : ReadsBack fuel) {json : Json}
    {before word rest : List Char} (hspells : Spells json word) (hbefore : IsGap before)
    (hrest : EndsNumber rest) (hfuel : 2 * word.length ≤ fuel + 1) :
    value? (fuel + 1) (before ++ (word ++ rest)) = some (json, rest) := by
  cases hspells with
  | null =>
      rw [value?, skipLayout_append hbefore]
      rfl
  | bool value =>
      rw [value?, skipLayout_append hbefore]
      cases value <;> rfl
  | int value =>
      have hread := number?_toString value hrest
      cases value with
      | ofNat n =>
          obtain ⟨c, digits, hdigits, hc⟩ := exists_digit_toDigits n
          rw [toList_toString_ofNat, hdigits] at hread ⊢
          exact (value?_of_number (Or.inl hc) fuel hbefore).trans hread
      | negSucc n =>
          rw [toList_toString_negSucc] at hread ⊢
          exact (value?_of_number (Or.inr rfl) fuel hbefore).trans hread
  | text value =>
      rw [value?, quoted_append, skipLayout_gap_append hbefore (by decide)]
      simp only [string?_quoted]
      rfl
  | emptyArray =>
      rw [value?, skipLayout_append hbefore]
      rfl
  | array hbefore' hfirst hothers hafter =>
      have hitems := hreads.items [] rest hfirst hothers isGap_nil hafter
        (by simp at hfuel; omega)
      obtain ⟨c, tail, rfl, hlayout, hclose, -⟩ := hfirst.exists_start
      rw [value?, List.cons_append, skipLayout_gap_append hbefore (by decide)]
      simp only [List.append_assoc, List.cons_append, List.nil_append] at hitems ⊢
      rw [skipLayout_gap_append hbefore' hlayout]
      split
      · next heq => exact (hclose (List.cons.inj heq).1).elim
      · exact hitems
  | emptyObject =>
      rw [value?, skipLayout_append hbefore]
      rfl
  | object name hbefore' hbetween hvalue hothers hafter =>
      have hfields := hreads.fields [] rest name hvalue hothers
        isGap_nil hbetween hafter (by simp at hfuel; omega)
      rw [value?, List.cons_append, skipLayout_gap_append hbefore (by decide)]
      simp only [List.append_assoc, List.cons_append, List.nil_append, quoted_append]
        at hfields ⊢
      rw [skipLayout_gap_append hbefore' (by decide)]
      exact hfields

theorem readsBack (fuel : Nat) : ReadsBack fuel := by
  induction fuel with
  | zero => exact readsBack_zero
  | succ fuel ih => exact ⟨ih.value_succ, ih.items_succ, ih.fields_succ⟩

/-- What spells a value is read as the value, with white space around it or without. -/
theorem parse?_of_spells {json : Json} {before word after : List Char}
    (hspells : Spells json word) (hbefore : IsGap before) (hafter : IsGap after) :
    parse? (String.ofList (before ++ word ++ after)) = some json := by
  have hend : EndsNumber after := by
    have hnothing : EndsNumber [] := by simp [EndsNumber]
    simpa using endsNumber_gap_append hafter hnothing
  have hread := (readsBack (2 * (before ++ (word ++ after)).length + 2)).value hspells hbefore hend
    (by simp only [List.length_append]; omega)
  have hblank : skipLayout after = [] := List.dropWhile_eq_nil_iff.mpr hafter
  unfold parse?
  rw [String.toList_ofList, List.append_assoc]
  simp only [hread, hblank]
  rfl

theorem parse?_compact {json : Json} (hwhole : json.IsWhole) :
    parse? json.compact = some json := by
  simpa [compact] using parse?_of_spells (spells_flat hwhole) isGap_nil isGap_nil

theorem parse?_pretty {json : Json} (hwhole : json.IsWhole) :
    parse? json.pretty = some json := by
  simpa [pretty] using parse?_of_spells (spells_print 0 hwhole) isGap_nil isGap_nil

end SourceAtlas.Json
