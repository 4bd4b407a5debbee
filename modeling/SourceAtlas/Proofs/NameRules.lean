import SourceAtlas.Proofs.ExactDiscovery
import SourceAtlas.Proofs.PathSignals
import Mathlib.Data.List.Induction

/-!
# Rules of names

The rules for suffixes are tried in a fixed order.  No suffix of the table ends one that
stands after it, and of two suffixes of one name the shorter ends the longer, so the first
rule that fits is the one with the longest suffix.  The rules for directories have different
names and are asked segment by segment from the file upwards.

Names are compared without separators and in small letters.  The rules are written in ASCII
without `k`, and no other letter of ASCII stands at the end of a small form of a character
outside of ASCII, so it makes no difference which small forms those characters have.
-/

namespace SourceAtlas

namespace Text

theorem asciiLower_of_le {c : Char} (hc : 128 ≤ c.toNat) : asciiLower c = c := by
  have hlarge : ¬ c ≤ 'Z' := by
    intro hle
    have hbound : c.toNat ≤ 90 := UInt32.le_iff_toNat_le.mp (Char.le_def.mp hle)
    omega
  simp [asciiLower, hlarge]

theorem toNat_asciiLower {c : Char} (hcapital : 'A' ≤ c ∧ c ≤ 'Z') :
    (asciiLower c).toNat = c.toNat + 32 := by
  have hle : c.toNat ≤ 90 := UInt32.le_iff_toNat_le.mp (Char.le_def.mp hcapital.2)
  have hvalid : (c.toNat + 32).isValidChar := Or.inl (by omega)
  rw [asciiLower, if_pos (by simpa using hcapital), Char.ofNat, dif_pos hvalid]
  rfl

/-- A character before the small letters that is no capital is the small form of itself
only. -/
theorem asciiLower_eq_iff {c d : Char} (hd : d.toNat < 97) (hsmall : ¬('A' ≤ d ∧ d ≤ 'Z')) :
    asciiLower c = d ↔ c = d := by
  by_cases hcapital : 'A' ≤ c ∧ c ≤ 'Z'
  · have hge : 65 ≤ c.toNat := UInt32.le_iff_toNat_le.mp (Char.le_def.mp hcapital.1)
    have hsum := toNat_asciiLower hcapital
    constructor
    · rintro rfl
      omega
    · rintro rfl
      contradiction
  · rw [asciiLower, if_neg (by simpa using hcapital)]

end Text

namespace Classification

open Text

/-- What is asked of the small forms of characters.  Those of Unicode have it: outside of
ASCII none ends in a character of ASCII but that of the Kelvin sign, which is `k`. -/
structure Lowers (small : Char → List Char) : Prop where
  ascii : ∀ c, c.toNat < 128 → small c = [asciiLower c]
  other : ∀ c, 128 ≤ c.toNat → ∃ front last, small c = front ++ [last] ∧
    (last = 'k' ∨ 128 ≤ last.toNat)

def isSeparator (c : Char) : Bool := c = '_' || c = '-'

def letters (name : List Char) : List Char :=
  name.filter (!isSeparator ·)

/-- A name without separators, each character in its small form. -/
def normalForm (small : Char → List Char) (name : List Char) : List Char :=
  (letters name).flatMap small

/-- A character that the names of rules can hold. -/
def InRules (c : Char) : Prop := c.toNat < 128 ∧ c ≠ 'k'

instance (c : Char) : Decidable (InRules c) :=
  inferInstanceAs (Decidable (_ ∧ _))

/-- Whether all names of rules hold such characters only. -/
def areInRules (rules : List Rule) : Bool :=
  rules.all fun rule => rule.1.toList.all (InRules ·)

variable {small : Char → List Char} {name word : List Char}

theorem inRules_of_areInRules {rules : List Rule} (hrules : areInRules rules = true) {rule : Rule}
    (hrule : rule ∈ rules) : ∀ c ∈ rule.1.toList, InRules c := by
  intro c hc
  have hname := List.all_eq_true.mp hrules rule hrule
  simpa using List.all_eq_true.mp hname c hc

theorem normalize_eq (name : List Char) : normalize name = (letters name).map asciiLower := rfl

theorem Lowers.last_notMem (hsmall : Lowers small) {c : Char} (hc : 128 ≤ c.toNat)
    (hword : ∀ d ∈ word, InRules d) :
    ∃ front last, small c = front ++ [last] ∧ last ∉ word := by
  obtain ⟨front, last, hform, hlast⟩ := hsmall.other c hc
  refine ⟨front, last, hform, fun hmem => ?_⟩
  obtain ⟨hascii, hne⟩ := hword last hmem
  rcases hlast with heq | hlarge
  · exact hne heq
  · omega

theorem notMem_of_le {c : Char} (hc : 128 ≤ c.toNat) (hword : ∀ d ∈ word, InRules d) :
    c ∉ word := by
  intro hmem
  have hascii := (hword c hmem).1
  omega

theorem suffix_append_iff_of_notMem {front : List Char} {last : Char} (hlast : last ∉ word) :
    word <:+ front ++ [last] ↔ word = [] := by
  rw [List.suffix_concat_iff]
  refine or_iff_left ?_
  rintro ⟨init, rfl, -⟩
  exact hlast (by simp)

/-- A name ends in a word of the rules whatever the small forms of other characters are. -/
theorem suffix_normalForm_iff (hsmall : Lowers small) (hword : ∀ c ∈ word, InRules c) :
    word <:+ normalForm small name ↔ word <:+ normalize name := by
  rw [normalize_eq, normalForm]
  -- Names are compared from their ends: behind a last character of ASCII the word gets shorter,
  -- and the small forms of any other character end in none that a word holds.
  induction letters name using List.reverseRecOn generalizing word with
  | nil => rfl
  | append_singleton init c ih =>
      rw [List.flatMap_append, List.flatMap_singleton, List.map_append, List.map_singleton]
      by_cases hc : c.toNat < 128
      · rw [hsmall.ascii c hc, List.suffix_concat_iff, List.suffix_concat_iff]
        refine or_congr_right (exists_congr fun front => and_congr_right ?_)
        rintro rfl
        exact ih fun d hd => hword d (List.mem_append_left _ hd)
      · have hlarge : 128 ≤ c.toNat := Nat.le_of_not_lt hc
        obtain ⟨front, last, hform, hlast⟩ := hsmall.last_notMem hlarge hword
        rw [hform, asciiLower_of_le hlarge, ← List.append_assoc,
          suffix_append_iff_of_notMem hlast,
          suffix_append_iff_of_notMem (notMem_of_le hlarge hword)]

theorem normalForm_eq_normalize (hsmall : Lowers small)
    (hascii : ∀ c ∈ letters name, c.toNat < 128) : normalForm small name = normalize name := by
  rw [normalize_eq, normalForm, List.map_eq_flatMap]
  exact List.flatMap_congr fun c hc => hsmall.ascii c (hascii c hc)

theorem eq_normalForm_iff (hsmall : Lowers small) (hword : ∀ c ∈ word, InRules c) :
    word = normalForm small name ↔ word = normalize name := by
  by_cases hascii : ∀ c ∈ letters name, c.toNat < 128
  · rw [normalForm_eq_normalize hsmall hascii]
  · push Not at hascii
    obtain ⟨c, hmem, hc⟩ := hascii
    obtain ⟨front, last, hform, hlast⟩ := hsmall.last_notMem hc hword
    constructor
    · rintro rfl
      exact absurd (List.mem_flatMap.mpr ⟨c, hmem, by simp [hform]⟩) hlast
    · rintro rfl
      have hother : c ∈ normalize name := by
        rw [normalize_eq, ← asciiLower_of_le hc]
        exact List.mem_map_of_mem hmem
      exact absurd hother (notMem_of_le hc hword)

/-- Two names differ in separators and in the case of letters of ASCII only. -/
inductive SameLetters : List Char → List Char → Prop
  | nil : SameLetters [] []
  | letter {c d : Char} {first second : List Char} (hcase : asciiLower c = asciiLower d)
      (hrest : SameLetters first second) : SameLetters (c :: first) (d :: second)
  | separatorLeft {c : Char} {first second : List Char} (hc : isSeparator c = true)
      (hrest : SameLetters first second) : SameLetters (c :: first) second
  | separatorRight {c : Char} {first second : List Char} (hc : isSeparator c = true)
      (hrest : SameLetters first second) : SameLetters first (c :: second)

theorem isSeparator_asciiLower (c : Char) : isSeparator (asciiLower c) = isSeparator c := by
  have hline : asciiLower c = '_' ↔ c = '_' := asciiLower_eq_iff (by decide) (by decide)
  have hdash : asciiLower c = '-' ↔ c = '-' := asciiLower_eq_iff (by decide) (by decide)
  simp only [isSeparator, hline, hdash]

theorem letters_cons (c : Char) (name : List Char) :
    letters (c :: name) = if isSeparator c then letters name else c :: letters name := by
  cases hc : isSeparator c with
  | true => exact List.filter_cons_of_neg (by simp [hc])
  | false => exact List.filter_cons_of_pos (by simp [hc])

theorem normalize_cons (c : Char) (name : List Char) :
    normalize (c :: name) =
      if isSeparator c then normalize name else asciiLower c :: normalize name := by
  rw [normalize_eq, letters_cons]
  split <;> rfl

theorem SameLetters.normalize_eq {first second : List Char} (hsame : SameLetters first second) :
    normalize first = normalize second := by
  induction hsame with
  | nil => rfl
  | @letter c d first second hcase hrest ih =>
      have hboth : isSeparator c = isSeparator d := by
        rw [← isSeparator_asciiLower, hcase, isSeparator_asciiLower]
      rw [normalize_cons, normalize_cons, hboth, hcase, ih]
  | separatorLeft hc hrest ih => rw [normalize_cons, if_pos hc, ih]
  | separatorRight hc hrest ih => rw [normalize_cons, if_pos hc, ih]

theorem sameLetters_of_normalize_eq {first second : List Char}
    (hsame : normalize first = normalize second) : SameLetters first second := by
  induction first generalizing second with
  | nil =>
      induction second with
      | nil => exact .nil
      | cons d second ih =>
          rw [normalize_cons] at hsame
          split at hsame
          · next hd => exact .separatorRight hd (ih hsame)
          · contradiction
  | cons c first ih =>
      rw [normalize_cons] at hsame
      split at hsame
      · next hc => exact .separatorLeft hc (ih hsame)
      · induction second with
        | nil => contradiction
        | cons d second ihsecond =>
            rw [normalize_cons] at hsame
            split at hsame
            · next hd => exact .separatorRight hd (ihsecond hsame)
            · obtain ⟨hcase, hrest⟩ := List.cons.inj hsame
              exact .letter hcase (ih hrest)

theorem sameLetters_iff {first second : List Char} :
    SameLetters first second ↔ normalize first = normalize second :=
  ⟨SameLetters.normalize_eq, sameLetters_of_normalize_eq⟩

/-- No suffix ends one that stands after it. -/
theorem suffixRules_ordered :
    suffixRules.Pairwise fun earlier later => ¬ earlier.1.toList <:+ later.1.toList := by
  decide +kernel

theorem inRules_of_mem_suffixRules {rule : Rule} (hrule : rule ∈ suffixRules) :
    ∀ c ∈ rule.1.toList, InRules c :=
  inRules_of_areInRules (by decide +kernel) hrule

/-- The longest suffix of the rules that a name ends with. -/
structure IsLongestSuffix (name : List Char) (rule : Rule) : Prop where
  mem : rule ∈ suffixRules
  ends : rule.1.toList <:+ name
  longest : ∀ other ∈ suffixRules, other.1.toList <:+ name → other ≠ rule →
    other.1.toList.length < rule.1.toList.length

theorem isLongestSuffix_of_find? {rule : Rule}
    (hfound : suffixRules.find? (fun rule => endsWith name rule.1.toList) = some rule) :
    IsLongestSuffix name rule := by
  obtain ⟨hends, before, after, hrules, hbefore⟩ := List.find?_eq_some_iff_append.mp hfound
  rw [endsWith_iff] at hends
  refine ⟨by simp [hrules], hends, ?_⟩
  intro other hother hotherEnds hne
  by_contra hlength
  -- Of two suffixes of one name the shorter ends the longer, so the other rule stands before
  -- the one that was found, and would have been found itself.
  have hinside : rule.1.toList <:+ other.1.toList :=
    List.suffix_of_suffix_length_le hends hotherEnds (Nat.le_of_not_lt hlength)
  have hordered := suffixRules_ordered
  rw [hrules] at hother hordered
  rcases List.mem_append.mp hother with hmem | hmem
  · have hnot := hbefore other hmem
    rw [endsWith_iff.mpr hotherEnds] at hnot
    contradiction
  · have hlater := (List.mem_cons.mp hmem).resolve_left hne
    exact (List.pairwise_cons.mp (List.pairwise_append.mp hordered).2.1).1 other hlater hinside

theorem exists_ofSuffix?_of_suffix
    (hends : ∃ rule ∈ suffixRules, rule.1.toList <:+ normalize name) :
    ∃ rule, IsLongestSuffix (normalize name) rule ∧
      ofSuffix? name = some { role := rule.2, signal := .suffix rule.1 } := by
  obtain ⟨rule, hrule, hends⟩ := hends
  obtain ⟨found, hfound⟩ := Option.isSome_iff_exists.mp
    (List.find?_isSome (p := fun rule => endsWith (normalize name) rule.1.toList).mpr
      ⟨rule, hrule, endsWith_iff.mpr hends⟩)
  exact ⟨found, isLongestSuffix_of_find? hfound, by rw [ofSuffix?, hfound]; rfl⟩

theorem ofName?_of_ofSuffix? {path : Path} {stem : String} {found : Classification}
    (hstem : path.stem? = some stem) (hfound : ofSuffix? stem.toList = some found) :
    ofName? path = some found := by
  unfold ofName?
  rw [hstem]
  simp only [hfound]
  rfl

/-! ## Directories -/

end Classification

/-- The segments of a path above its last one.  A dot names no directory of its own. -/
def Path.ancestors (path : Path) : List (List Char) :=
  (path.segments.filter (· ≠ ['.'])).dropLast

namespace Classification

open Text
open SourceAtlas.Path (componentOf)

theorem componentOf_eq_none_iff {segment : List Char} :
    componentOf segment = none ↔ segment = ['.'] := by
  unfold componentOf
  split
  · simp_all
  · split <;> simp_all

/-- Only the first component may be none of the segments. -/
theorem exists_components_eq (path : Path) :
    ∃ front, path.components = front ++ path.segments.filterMap componentOf ∧
      ∀ component ∈ front, nameOf? component = none := by
  unfold Path.components
  split
  · exact ⟨[.root], rfl, by simp [nameOf?]⟩
  · split
    · next rest hsegments =>
        refine ⟨[.current], ?_, by simp [nameOf?]⟩
        rw [hsegments, List.filterMap_cons_none (componentOf_eq_none_iff.mpr rfl)]
        rfl
    · exact ⟨[], rfl, by simp⟩

theorem not_root_of_componentOf {segment : List Char} {component : Component}
    (hcomponent : componentOf segment = some component) : component ≠ .root := by
  unfold componentOf at hcomponent
  split at hcomponent
  · contradiction
  · split at hcomponent
    · rw [← Option.some.inj hcomponent]
      exact Component.noConfusion
    · rw [← Option.some.inj hcomponent]
      exact Component.noConfusion

theorem eq_dropLast_of_parentComponents? {path : Path} {parents : List Component}
    (hparents : path.parentComponents? = some parents) : parents = path.components.dropLast := by
  unfold Path.parentComponents? at hparents
  split at hparents
  · contradiction
  · contradiction
  · exact (Option.some.inj hparents).symm

/-- The names of the directories above a file are its ancestors but for steps upwards. -/
theorem names_parentComponents? (path : Path) :
    (path.parentComponents?.getD []).filterMap nameOf? =
      path.ancestors.filterMap fun segment => (componentOf segment).bind nameOf? := by
  obtain ⟨front, hcomponents, hfront⟩ := exists_components_eq path
  have hkept : path.segments.filterMap componentOf =
      (path.segments.filter (· ≠ ['.'])).filterMap componentOf := by
    rw [List.filterMap_filter]
    refine List.filterMap_congr fun segment _ => ?_
    by_cases hdot : segment = ['.']
    · simp [hdot, componentOf]
    · simp [hdot]
  have hdots : ∀ segment ∈ path.segments.filter (· ≠ ['.']), segment ≠ ['.'] := by simp
  rw [hkept] at hcomponents
  unfold Path.ancestors
  generalize path.segments.filter (· ≠ ['.']) = segments at hcomponents hdots ⊢
  rcases List.eq_nil_or_concat segments with rfl | ⟨init, last, rfl⟩
  · rw [List.filterMap_nil, List.append_nil] at hcomponents
    rw [List.dropLast_nil, List.filterMap_nil, List.filterMap_eq_nil_iff]
    intro component hmem
    cases hparents : path.parentComponents? with
    | none => simp [hparents] at hmem
    | some parents =>
        rw [hparents, Option.getD_some, eq_dropLast_of_parentComponents? hparents,
          hcomponents] at hmem
        exact hfront component (List.dropLast_subset _ hmem)
  · rw [List.concat_eq_append] at hcomponents hdots ⊢
    obtain ⟨component, hlast⟩ : ∃ component, componentOf last = some component := by
      rw [← Option.isSome_iff_exists, Option.isSome_iff_ne_none, Ne, componentOf_eq_none_iff]
      exact hdots last (by simp)
    have hsplit : path.components = front ++ init.filterMap componentOf ++ [component] := by
      rw [hcomponents, List.filterMap_append, List.append_assoc]
      simp [hlast]
    have hparents : path.parentComponents? = some (front ++ init.filterMap componentOf) := by
      unfold Path.parentComponents?
      rw [hsplit, List.getLast?_concat, List.dropLast_concat]
      split
      · contradiction
      · next hroot => exact absurd (Option.some.inj hroot) (not_root_of_componentOf hlast)
      · rfl
    rw [hparents, List.dropLast_concat, Option.getD_some, List.filterMap_append,
      List.filterMap_filterMap, List.filterMap_eq_nil_iff.mpr hfront, List.nil_append]

theorem bind_nameOf?_eq {segment : List Char} (hdot : segment ≠ ['.']) :
    ((componentOf segment).bind nameOf?).bind ofSegment? =
      ofSegment? (String.ofList segment) := by
  by_cases hup : segment = ['.', '.']
  · rw [hup]
    decide +kernel
  · simp [componentOf, hdot, hup, nameOf?]

/-- The ancestors of a file are asked from the deepest one upwards. -/
theorem ofDirectories?_eq (path : Path) :
    ofDirectories? path =
      path.ancestors.reverse.findSome? fun segment => ofSegment? (String.ofList segment) := by
  have hnames : ofDirectories? path =
      ((path.parentComponents?.getD []).filterMap nameOf?).reverse.findSome? ofSegment? := by
    unfold ofDirectories?
    cases path.parentComponents? with
    | none => rfl
    | some components => simp only [Option.getD_some, List.filterMap_reverse]
  rw [hnames, names_parentComponents?, ← List.filterMap_reverse, ← List.head?_filterMap,
    List.filterMap_filterMap, ← List.head?_filterMap]
  refine congrArg List.head? (List.filterMap_congr fun segment hsegment => bind_nameOf?_eq ?_)
  have hmem := List.dropLast_subset _ (List.mem_reverse.mp hsegment)
  simpa using (List.mem_filter.mp hmem).2

theorem nodup_directoryRules : (directoryRules.map (·.1)).Nodup := by
  decide +kernel

theorem inRules_of_mem_directoryRules {rule : Rule} (hrule : rule ∈ directoryRules) :
    ∀ c ∈ rule.1.toList, InRules c :=
  inRules_of_areInRules (by decide +kernel) hrule

theorem ofSegment?_eq_some_iff {segment : List Char} {found : Classification} :
    ofSegment? (String.ofList segment) = some found ↔
      ∃ rule ∈ directoryRules, rule.1.toList = normalize segment ∧
        found = { role := rule.2, signal := .directory (String.ofList segment) } := by
  unfold ofSegment?
  rw [Option.map_eq_some_iff, String.toList_ofList]
  constructor
  · rintro ⟨rule, hfound, rfl⟩
    exact ⟨rule, List.mem_of_find?_eq_some hfound, by simpa using List.find?_some hfound, rfl⟩
  · rintro ⟨rule, hrule, hname, rfl⟩
    obtain ⟨other, hother⟩ := Option.isSome_iff_exists.mp
      (List.find?_isSome (p := fun rule => rule.1.toList = normalize segment).mpr
        ⟨rule, hrule, decide_eq_true hname⟩)
    have hotherName : other.1.toList = normalize segment := by
      simpa using List.find?_some hother
    have hsame : other = rule := List.inj_on_of_nodup_map nodup_directoryRules
      (List.mem_of_find?_eq_some hother) hrule (String.toList_inj.mp (hotherName.trans hname.symm))
    exact ⟨rule, hsame ▸ hother, rfl⟩

theorem ofSegment?_eq_none_iff {segment : List Char} :
    ofSegment? (String.ofList segment) = none ↔
      ∀ rule ∈ directoryRules, rule.1.toList ≠ normalize segment := by
  unfold ofSegment?
  rw [Option.map_eq_none_iff, String.toList_ofList, List.find?_eq_none]
  simp

/-- The deepest ancestor of a file that a rule for directories names, with that rule. -/
structure IsDeepestDirectory (small : Char → List Char) (path : Path) (segment : List Char)
    (rule : Rule) : Prop where
  mem : rule ∈ directoryRules
  names : rule.1.toList = normalForm small segment
  deepest : ∃ above below, path.ancestors = above ++ segment :: below ∧
    ∀ deeper ∈ below, ∀ other ∈ directoryRules, other.1.toList ≠ normalForm small deeper

theorem ofSegment?_eq_none_iff_normalForm (hsmall : Lowers small) {segment : List Char} :
    ofSegment? (String.ofList segment) = none ↔
      ∀ rule ∈ directoryRules, rule.1.toList ≠ normalForm small segment := by
  rw [ofSegment?_eq_none_iff]
  refine forall₂_congr fun rule hrule => not_congr ?_
  exact (eq_normalForm_iff hsmall (inRules_of_mem_directoryRules hrule)).symm

theorem ofDirectories?_eq_some_iff (hsmall : Lowers small) {path : Path}
    {found : Classification} :
    ofDirectories? path = some found ↔
      ∃ segment rule, IsDeepestDirectory small path segment rule ∧
        found = { role := rule.2, signal := .directory (String.ofList segment) } := by
  rw [ofDirectories?_eq, List.findSome?_eq_some_iff]
  constructor
  · rintro ⟨below, segment, above, hancestors, hsegment, hbelow⟩
    obtain ⟨rule, hrule, hname, hfound⟩ := ofSegment?_eq_some_iff.mp hsegment
    refine ⟨segment, rule, ⟨hrule, ?_, above.reverse, below.reverse, ?_, ?_⟩, hfound⟩
    · exact (eq_normalForm_iff hsmall (inRules_of_mem_directoryRules hrule)).mpr hname
    · rw [← List.reverse_reverse path.ancestors, hancestors]
      simp
    · intro deeper hdeeper
      exact (ofSegment?_eq_none_iff_normalForm hsmall).mp
        (hbelow deeper (List.mem_reverse.mp hdeeper))
  · rintro ⟨segment, rule, ⟨hrule, hname, above, below, hancestors, hbelow⟩, hfound⟩
    refine ⟨below.reverse, segment, above.reverse, ?_, ?_, ?_⟩
    · rw [hancestors]
      simp
    · refine ofSegment?_eq_some_iff.mpr ⟨rule, hrule, ?_, hfound⟩
      exact (eq_normalForm_iff hsmall (inRules_of_mem_directoryRules hrule)).mp hname
    · intro deeper hdeeper
      exact (ofSegment?_eq_none_iff_normalForm hsmall).mpr
        (hbelow deeper (List.mem_reverse.mp hdeeper))

theorem ofDirectories?_eq_none_iff (hsmall : Lowers small) {path : Path} :
    ofDirectories? path = none ↔
      ∀ segment ∈ path.ancestors, ∀ rule ∈ directoryRules,
        rule.1.toList ≠ normalForm small segment := by
  rw [ofDirectories?_eq, List.findSome?_eq_none_iff]
  simp only [List.mem_reverse, ofSegment?_eq_none_iff_normalForm hsmall]

/-- A name that ends in suffixes of the rules tells the role of the longest one, with any
separators and in any case.  The directories tell the role of the deepest one that a rule
names, and none if and only if the rules name none of them. -/
theorem ofName?_longest_and_ofDirectories?_deepest (small : Char → List Char)
    (hsmall : Lowers small) (path : Path) :
    (∀ stem, path.stem? = some stem →
      (∃ rule ∈ suffixRules, rule.1.toList <:+ normalForm small stem.toList) →
      ∃ rule, IsLongestSuffix (normalForm small stem.toList) rule ∧
        ofName? path = some { role := rule.2, signal := .suffix rule.1 } ∧
        ∀ other otherStem, other.stem? = some otherStem →
          SameLetters stem.toList otherStem.toList → ofName? other = ofName? path) ∧
    (∀ found, ofDirectories? path = some found ↔
      ∃ segment rule, IsDeepestDirectory small path segment rule ∧
        found = { role := rule.2, signal := .directory (String.ofList segment) }) ∧
    (ofDirectories? path = none ↔
      ∀ segment ∈ path.ancestors, ∀ rule ∈ directoryRules,
        rule.1.toList ≠ normalForm small segment) := by
  refine ⟨?_, fun found => ofDirectories?_eq_some_iff hsmall, ofDirectories?_eq_none_iff hsmall⟩
  rintro stem hstem ⟨rule, hrule, hends⟩
  have hwords {rule : Rule} (hrule : rule ∈ suffixRules) :
      rule.1.toList <:+ normalForm small stem.toList ↔
        rule.1.toList <:+ normalize stem.toList :=
    suffix_normalForm_iff hsmall (inRules_of_mem_suffixRules hrule)
  obtain ⟨found, ⟨hmem, hfoundEnds, hlongest⟩, hfound⟩ :=
    exists_ofSuffix?_of_suffix ⟨rule, hrule, (hwords hrule).mp hends⟩
  have hname := ofName?_of_ofSuffix? hstem hfound
  refine ⟨found, ⟨hmem, (hwords hmem).mpr hfoundEnds, ?_⟩, hname, ?_⟩
  · intro other hother hotherEnds
    exact hlongest other hother ((hwords hother).mp hotherEnds)
  · intro other otherStem hotherStem hsame
    have hother : ofSuffix? otherStem.toList = ofSuffix? stem.toList := by
      simp only [ofSuffix?, sameLetters_iff.mp hsame]
    rw [hname, ofName?_of_ofSuffix? hotherStem (hother.trans hfound)]

/-- The small forms of letters of ASCII, of the Kelvin sign and of the dotted capital I. -/
def smallForm (c : Char) : List Char :=
  if c = '\u212a' then ['k'] else if c = '\u0130' then ['i', '\u0307'] else [asciiLower c]

theorem lowers_smallForm : Lowers smallForm := by
  constructor
  · intro c hc
    have hkelvin : c ≠ '\u212a' := by
      rintro rfl
      exact absurd hc (by decide)
    have hdotted : c ≠ '\u0130' := by
      rintro rfl
      exact absurd hc (by decide)
    rw [smallForm, if_neg hkelvin, if_neg hdotted]
  · intro c hc
    unfold smallForm
    split
    · exact ⟨[], 'k', rfl, Or.inl rfl⟩
    · split
      · exact ⟨['i'], '\u0307', rfl, Or.inr (by decide)⟩
      · exact ⟨[], c, by rw [asciiLower_of_le hc]; rfl, Or.inr hc⟩

/-- A name with two suffixes of the rules, in a directory that tells another role. -/
def shippingFile : Path := ⟨"Models/Api/\u0130-Ship_CommandHandler.cs"⟩

/-- The same name written in another way. -/
def shippingScript : Path := ⟨"\u0130SHIP-command_handler.py"⟩

theorem ofName?_longest_and_ofDirectories?_deepest_shipping :
    Lowers smallForm ∧ shippingFile.stem? = some "\u0130-Ship_CommandHandler" ∧
      shippingScript.stem? = some "\u0130SHIP-command_handler" ∧
      (∃ rule,
        IsLongestSuffix (normalForm smallForm "\u0130-Ship_CommandHandler".toList) rule ∧
          ofName? shippingFile = some { role := rule.2, signal := .suffix rule.1 } ∧
          ofName? shippingScript = ofName? shippingFile) ∧
      ∃ segment rule, IsDeepestDirectory smallForm shippingFile segment rule ∧
        String.ofList segment = "Models" := by
  have hstem : shippingFile.stem? = some "\u0130-Ship_CommandHandler" := by decide +kernel
  have hscript : shippingScript.stem? = some "\u0130SHIP-command_handler" := by decide +kernel
  have hends : ∃ rule ∈ suffixRules,
      rule.1.toList <:+ normalForm smallForm "\u0130-Ship_CommandHandler".toList :=
    ⟨("handler", .handler), by decide +kernel, by decide +kernel⟩
  have hsame : SameLetters "\u0130-Ship_CommandHandler".toList
      "\u0130SHIP-command_handler".toList :=
    sameLetters_iff.mpr (by decide +kernel)
  have hfound : ofDirectories? shippingFile =
      some { role := .entity, signal := .directory "Models" } := by decide +kernel
  obtain ⟨hsuffix, hdirectory, -⟩ :=
    ofName?_longest_and_ofDirectories?_deepest smallForm lowers_smallForm shippingFile
  obtain ⟨rule, hlongest, hname, hothers⟩ := hsuffix _ hstem hends
  obtain ⟨segment, directory, hdeepest, hsignal⟩ := (hdirectory _).mp hfound
  have hsegment : String.ofList segment = "Models" := by
    injection hsignal with hrole hsignal
    injection hsignal with htext
    exact htext.symm
  exact ⟨lowers_smallForm, hstem, hscript, ⟨rule, hlongest, hname, hothers _ _ hscript hsame⟩,
    segment, directory, hdeepest, hsegment⟩

end Classification

end SourceAtlas
