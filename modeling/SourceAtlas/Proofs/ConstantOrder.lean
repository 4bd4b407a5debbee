import SourceAtlas.Proofs.PartialTier
import SourceAtlas.Proofs.WellFormedModels
import Mathlib.Data.List.Induction

/-!
# The order of constants

The full tier goes through the types one by one and collects the constants with a fixed
value of each before its static read-only ones.  So a name that is sighted first need not
be listed first.  For every text it is said which names change places: when no header
closes a brace, the types stand one behind the other, and only within one type can a
constant be listed before a read-only field that stands above it.
-/

namespace SourceAtlas.CSharp

open Text Text.Pattern

theorem addOnce_of_notMem {names : List String} {name : String} (hnew : name ∉ names) :
    addOnce names name = names ++ [name] := by
  simp [addOnce, hnew]

theorem addOnce_of_mem {names : List String} {name : String} (hold : name ∈ names) :
    addOnce names name = names := by
  simp [addOnce, hold]

theorem mem_foldl_addOnce_nil {names : List String} {name : String} :
    name ∈ names.foldl addOnce [] ↔ name ∈ names := by
  simp [mem_foldl_addOnce]

/-- Recorded names are related in order if each is related, where it is new, to all
that are new behind it. -/
theorem pairwise_foldl_addOnce_iff {R : String → String → Prop} {names : List String} :
    (names.foldl addOnce []).Pairwise R ↔
      ∀ front first back, names = front ++ first :: back → first ∉ front →
        ∀ second ∈ back, second ∉ front → second ≠ first → R first second := by
  constructor
  · rintro hordered front first back rfl hnew second hsecond hlate hne
    have hfirst := addOnce_of_notMem (mem_foldl_addOnce_nil.not.mpr hnew)
    obtain ⟨more, hmore⟩ := prefix_foldl_addOnce back (front.foldl addOnce [] ++ [first])
    have hall : (front ++ first :: back).foldl addOnce [] =
        front.foldl addOnce [] ++ first :: more := by
      rw [List.foldl_append, List.foldl_cons, hfirst, ← hmore, List.append_assoc]
      rfl
    have hmem : second ∈ (front ++ first :: back).foldl addOnce [] := by
      rw [mem_foldl_addOnce_nil]
      simp [hsecond]
    rw [hall] at hordered hmem
    have hbehind : second ∈ more := by
      simpa [mem_foldl_addOnce_nil, hlate, hne] using hmem
    exact (List.pairwise_cons.mp (List.pairwise_append.mp hordered).2.1).1 second hbehind
  · intro hrelated
    induction names using List.reverseRecOn with
    | nil => exact List.Pairwise.nil
    | append_singleton init last ih =>
        have hinit : (init.foldl addOnce []).Pairwise R := by
          apply ih
          rintro front first back rfl hnew second hsecond
          exact hrelated front first (back ++ [last]) (by simp) hnew second (by simp [hsecond])
        rw [List.foldl_concat]
        by_cases hold : last ∈ init
        · rw [addOnce_of_mem (mem_foldl_addOnce_nil.mpr hold)]
          exact hinit
        · rw [addOnce_of_notMem (mem_foldl_addOnce_nil.not.mpr hold), List.pairwise_append]
          refine ⟨hinit, List.pairwise_singleton R last, ?_⟩
          intro first hfirst second hsecond
          rw [List.mem_singleton.mp hsecond]
          obtain ⟨front, back, rfl, hnew⟩ :=
            List.eq_append_cons_of_mem (mem_foldl_addOnce_nil.mp hfirst)
          simp only [List.mem_append, List.mem_cons, not_or] at hold
          exact hrelated front first (back ++ [last]) (by simp) hnew last (by simp)
            hold.1 hold.2.1

/-- A name with the offset where the match that marks it begins. -/
structure Sighting where
  offset : Nat
  name : String
  deriving DecidableEq

def sighting? (wanted : Nat → Bool) (found : Match Mark) : Option Sighting :=
  if wanted found.whole.start.offset then
    (found.part? .name).map fun name => ⟨found.whole.start.offset, name.string⟩
  else none

/-- The sightings of a shape that stand directly in the body of a type. -/
def directSightings (shape : Shape) (type : TypeDeclaration) : List Sighting :=
  match type.body with
  | some (_, body) => (shape.findAll body).filterMap (sighting? (isDirectlyIn body))
  | none => []

/-- The sightings of a type in the order in which they are collected. -/
def constantSightings (type : TypeDeclaration) : List Sighting :=
  directSightings constShape type ++ directSightings staticReadonlyShape type

/-- The sightings of all reported types in the order in which they are collected. -/
def sightingsIn (masked : List Char) : List Sighting :=
  (TypeDeclaration.topLevel masked).flatMap constantSightings

theorem of_sighting? {wanted : Nat → Bool} {found : Match Mark} {sighting : Sighting}
    (hsighting : sighting? wanted found = some sighting) :
    sighting.offset = found.whole.start.offset ∧ wanted sighting.offset = true := by
  unfold sighting? at hsighting
  split at hsighting
  · next hwanted =>
      obtain ⟨name, -, rfl⟩ := Option.map_eq_some_iff.mp hsighting
      exact ⟨rfl, hwanted⟩
  · contradiction

theorem namesOf_eq_map (shape : Shape) (wanted : Nat → Bool) (place : Cursor) :
    namesOf shape wanted place =
      ((shape.findAll place).filterMap (sighting? wanted)).map (·.name) := by
  unfold namesOf
  rw [List.map_filterMap]
  congr 1
  funext found
  unfold sighting?
  split
  · rw [Option.map_map]
    rfl
  · rfl

theorem constantsOf_eq_map (type : TypeDeclaration) :
    constantsOf type = (constantSightings type).map (·.name) := by
  unfold constantsOf constantSightings directSightings
  cases type.body with
  | none => rfl
  | some both => rw [List.map_append, ← namesOf_eq_map, ← namesOf_eq_map]

/-- The sightings of one shape come in the order of the text. -/
theorem pairwise_directSightings (shape : Shape) (hconsumes : shape.consumes = true)
    (type : TypeDeclaration) :
    (directSightings shape type).Pairwise fun earlier later => earlier.offset < later.offset := by
  unfold directSightings
  split
  · next block body hbody =>
      rw [List.pairwise_filterMap]
      apply (pairwise_start_findAll hconsumes body).imp
      intro found later hlt sighting hsighting sighting' hsighting'
      rw [(of_sighting? hsighting).1, (of_sighting? hsighting').1]
      exact hlt
  · exact List.Pairwise.nil

/-- A match that passes something starts before the end of the window. -/
theorem start_lt_stop_of_mem_findAll {shape : Shape} (hconsumes : shape.consumes = true)
    {place : Cursor} {found : Match Mark} (hfound : found ∈ shape.findAll place) :
    found.whole.start.offset < place.stop := by
  obtain ⟨reached, hreached, -, -⟩ := produces_of_mem_findAll hfound
  obtain ⟨passed, hpasses⟩ := exists_passes hreached
  have hinside := hpasses.moves.inside (hpasses.consumes hconsumes)
  rw [(leadsTo_of_mem_findAll hfound).stop_eq] at hinside
  exact hinside

/-- A sighting stands in the body of its type, one brace deep. -/
theorem place_of_mem_directSightings {masked : List Char} {shape : Shape}
    (hconsumes : shape.consumes = true) {type : TypeDeclaration}
    (htype : type ∈ TypeDeclaration.topLevel masked) {sighting : Sighting}
    (hmem : sighting ∈ directSightings shape type) :
    ∃ block ∈ type.block?, block.contains sighting.offset = true ∧
      balance masked block.opener sighting.offset = 1 := by
  have hstands := TypeDeclaration.standsIn_of_mem_topLevel htype
  unfold directSightings at hmem
  split at hmem
  · next block body hbody =>
      obtain ⟨found, hfound, hsighting⟩ := List.mem_filterMap.mp hmem
      obtain ⟨hoffset, hdirect⟩ := of_sighting? hsighting
      obtain ⟨hplace, hinner, hstop⟩ := hstands.inside block body hbody
      have hblock := TypeDeclaration.mem_block? hbody
      have hleads := leadsTo_of_mem_findAll hfound
      have hfrom := hleads.offset_le
      have hto := start_lt_stop_of_mem_findAll hconsumes hfound
      rw [← hoffset] at hfrom hto
      have hlevel := (isDirectlyIn_iff hplace hfrom).mp hdirect
      have hrise := (hstands.block block hblock).start
      refine ⟨block, hblock, ?_, ?_⟩
      · simp only [Block.contains, Bool.and_eq_true, decide_eq_true_eq]
        omega
      · rw [hinner] at hlevel
        rw [balance_eq_sub masked (by omega)]
        omega
  · contradiction

theorem place_of_mem_constantSightings {masked : List Char} {type : TypeDeclaration}
    (htype : type ∈ TypeDeclaration.topLevel masked) {sighting : Sighting}
    (hmem : sighting ∈ constantSightings type) :
    ∃ block ∈ type.block?, block.contains sighting.offset = true ∧
      balance masked block.opener sighting.offset = 1 := by
  rcases List.mem_append.mp hmem with hfixed | hreadonly
  · exact place_of_mem_directSightings (by decide) htype hfixed
  · exact place_of_mem_directSightings (by decide) htype hreadonly

/-- When no header closes a brace, the sightings of a type stand before those of all
later types. -/
theorem offset_lt_of_headersOpen {masked : List Char}
    (hheaders : TypeDeclaration.HeadersOpen masked) {earlier later : List TypeDeclaration}
    (htypes : TypeDeclaration.topLevel masked = earlier ++ later) :
    ∀ sighting ∈ earlier.flatMap constantSightings,
      ∀ sighting' ∈ later.flatMap constantSightings, sighting.offset < sighting'.offset := by
  intro sighting hsighting sighting' hsighting'
  obtain ⟨type, htype, hmem⟩ := List.mem_flatMap.mp hsighting
  obtain ⟨type', htype', hmem'⟩ := List.mem_flatMap.mp hsighting'
  have hin : type ∈ TypeDeclaration.topLevel masked := by simp [htypes, htype]
  have hin' : type' ∈ TypeDeclaration.topLevel masked := by simp [htypes, htype']
  have hordered := TypeDeclaration.pairwise_start_topLevel masked
  rw [htypes, List.pairwise_append] at hordered
  have hpast := TypeDeclaration.past_le_start hheaders hin' hin
    (hordered.2.2 type htype type' htype')
  obtain ⟨block, hblock, hcontains, -⟩ := place_of_mem_constantSightings hin hmem
  obtain ⟨block', hblock', hcontains', -⟩ := place_of_mem_constantSightings hin' hmem'
  have hcloser := TypeDeclaration.StandsIn.closer_le_past hblock
  have hopener := (TypeDeclaration.standsIn_of_mem_topLevel hin').start_lt_opener hblock'
  simp only [Block.contains, Bool.and_eq_true, decide_eq_true_eq] at hcontains hcontains'
  omega

/-! ## Reading order -/

/-- Each name of a list is sighted before the names that are listed behind it. -/
def InReadingOrder (sightings : List Sighting) (names : List String) : Prop :=
  names.Pairwise fun first second =>
    ∀ later ∈ sightings, later.name = second →
      ∃ earlier ∈ sightings, earlier.name = first ∧ earlier.offset < later.offset

instance (sightings : List Sighting) (names : List String) :
    Decidable (InReadingOrder sightings names) :=
  inferInstanceAs (Decidable (names.Pairwise fun first second =>
    ∀ later ∈ sightings, later.name = second →
      ∃ earlier ∈ sightings, earlier.name = first ∧ earlier.offset < later.offset))

/-- None of some sightings has the name. -/
def IsNew (name : String) (sightings : List Sighting) : Prop :=
  ∀ sighting ∈ sightings, sighting.name ≠ name

theorem notMem_names_iff {name : String} {sightings : List Sighting} :
    name ∉ sightings.map (·.name) ↔ IsNew name sightings := by
  simp [IsNew]

/-- Where a name is collected for the first time, other names that are not yet
collected are sighted only behind it. -/
def CollectedInTurn (sightings : List Sighting) : Prop :=
  ∀ front found back, sightings = front ++ found :: back → IsNew found.name front →
    ∀ later ∈ back, IsNew later.name front → later.name ≠ found.name →
      ∃ earlier ∈ sightings, earlier.name = found.name ∧ earlier.offset < later.offset

theorem inReadingOrder_iff (sightings : List Sighting) :
    InReadingOrder sightings ((sightings.map (·.name)).foldl addOnce []) ↔
      CollectedInTurn sightings := by
  unfold InReadingOrder
  rw [pairwise_foldl_addOnce_iff]
  constructor
  · rintro hrelated front found back rfl hnew later hlater hlate hne
    have hnames : (front ++ found :: back).map (·.name) =
        front.map (·.name) ++ found.name :: back.map (·.name) := by
      simp
    exact hrelated _ _ _ hnames (notMem_names_iff.mpr hnew) later.name
      (List.mem_map_of_mem hlater) (notMem_names_iff.mpr hlate) hne later (by simp [hlater]) rfl
  · rintro hturn front first back hnames hnew second hsecond hlate hne later hlater rfl
    obtain ⟨frontSightings, rest, rfl, rfl, hrest⟩ := List.map_eq_append_iff.mp hnames
    obtain ⟨found, backSightings, rfl, rfl, rfl⟩ := List.map_eq_cons_iff.mp hrest
    rw [notMem_names_iff] at hnew hlate
    have hbehind : later ∈ backSightings := by
      simp only [List.mem_append, List.mem_cons] at hlater
      rcases hlater with hfront | rfl | hback
      · exact absurd rfl (hlate later hfront)
      · exact absurd rfl hne
      · exact hback
    exact hturn _ _ _ rfl hnew later hbehind hlate hne

/-- In a type, behind some earlier ones, a static read-only field is sighted before a
constant but collected behind it: neither name is collected earlier, no sighting of the
constant stands above the field, and the field's name is a constant at most farther
down. -/
def Overtaken (earlier : List TypeDeclaration) (type : TypeDeclaration) : Prop :=
  ∃ field ∈ directSightings staticReadonlyShape type,
    ∃ fixed ∈ directSightings constShape type,
      IsNew field.name (earlier.flatMap constantSightings) ∧
      IsNew fixed.name (earlier.flatMap constantSightings) ∧
      (∀ sighting ∈ constantSightings type, sighting.name = fixed.name →
        field.offset ≤ sighting.offset) ∧
      ∀ sighting ∈ directSightings constShape type, sighting.name = field.name →
        fixed.offset < sighting.offset

variable {masked : List Char}

theorem exists_first {sightings : List Sighting} {sighting : Sighting}
    (hmem : sighting ∈ sightings) :
    ∃ front found back, sightings = front ++ found :: back ∧ found.name = sighting.name ∧
      IsNew sighting.name front := by
  obtain ⟨front, back, hnames, hnew⟩ :=
    List.eq_append_cons_of_mem (List.mem_map_of_mem (f := (·.name)) hmem)
  obtain ⟨front, rest, rfl, rfl, hrest⟩ := List.map_eq_append_iff.mp hnames
  obtain ⟨found, back, rfl, hname, -⟩ := List.map_eq_cons_iff.mp hrest
  exact ⟨front, found, back, rfl, hname, notMem_names_iff.mp hnew⟩

theorem not_overtaken_of_collectedInTurn (hheaders : TypeDeclaration.HeadersOpen masked)
    (hturn : CollectedInTurn (sightingsIn masked))
    {earlier later : List TypeDeclaration} {type : TypeDeclaration}
    (htypes : TypeDeclaration.topLevel masked = earlier ++ type :: later) :
    ¬Overtaken earlier type := by
  rintro ⟨field, hfield, fixed, hfixed, hfieldNew, hfixedNew, hbehind, hdown⟩
  obtain ⟨front, found, back, hfront, hname, hnew⟩ := exists_first hfixed
  have hordered := pairwise_directSightings constShape (by decide) type
  rw [hfront, List.pairwise_append, List.pairwise_cons] at hordered
  obtain ⟨-, ⟨hback, -⟩, hbefore⟩ := hordered
  have hfoundLe : found.offset ≤ fixed.offset := by
    rw [hfront, List.mem_append, List.mem_cons] at hfixed
    rcases hfixed with hearly | rfl | hlate
    · exact absurd rfl (hnew fixed hearly)
    · exact Nat.le_refl _
    · exact Nat.le_of_lt (hback fixed hlate)
  have hall : sightingsIn masked =
      (earlier.flatMap constantSightings ++ front) ++ found ::
        (back ++ (directSightings staticReadonlyShape type ++
          later.flatMap constantSightings)) := by
    simp [sightingsIn, htypes, constantSightings, hfront]
  have hfieldFront : IsNew field.name front := by
    intro sighting hsighting heq
    have hlt := hdown sighting (by simp [hfront, hsighting]) heq
    have hlt' := hbefore sighting hsighting found List.mem_cons_self
    omega
  have hne : field.name ≠ found.name := by
    intro heq
    have hself := hdown fixed hfixed (hname.symm.trans heq.symm)
    omega
  obtain ⟨above, habove, haboveName, hlt⟩ := hturn _ found _ hall
    (by
      rw [hname]
      exact List.forall_mem_append.mpr ⟨hfixedNew, hnew⟩)
    field (by simp [hfield])
    (List.forall_mem_append.mpr ⟨hfieldNew, hfieldFront⟩) hne
  rw [hname] at haboveName
  rw [sightingsIn, htypes, List.flatMap_append, List.flatMap_cons, List.mem_append,
    List.mem_append] at habove
  rcases habove with hearlier | hown | hlater
  · exact hfixedNew above hearlier haboveName
  · have hle := hbehind above hown haboveName
    omega
  · have hsplit : TypeDeclaration.topLevel masked = (earlier ++ [type]) ++ later := by
      simp [htypes]
    have hlt' := offset_lt_of_headersOpen hheaders hsplit field
      (by simp [constantSightings, hfield]) above hlater
    omega

theorem exists_split_flatMap {α β : Type} {f : α → List β} {list : List α}
    {front back : List β} {found : β} (hsplit : list.flatMap f = front ++ found :: back) :
    ∃ earlier type later before behind, list = earlier ++ type :: later ∧
      f type = before ++ found :: behind ∧ front = earlier.flatMap f ++ before ∧
      back = behind ++ later.flatMap f := by
  induction list generalizing front with
  | nil => simp at hsplit
  | cons first list ih =>
      rw [List.flatMap_cons, List.append_eq_append_iff] at hsplit
      rcases hsplit with ⟨more, rfl, hmore⟩ | ⟨more, hfirst, hmore⟩
      · obtain ⟨earlier, type, later, before, behind, rfl, htype, rfl, rfl⟩ := ih hmore
        exact ⟨first :: earlier, type, later, before, behind, rfl, htype, by simp, rfl⟩
      · cases more with
        | nil =>
            have hbegins : list.flatMap f = [] ++ found :: back := by simpa using hmore.symm
            obtain ⟨earlier, type, later, before, behind, rfl, htype, hnil, rfl⟩ := ih hbegins
            obtain ⟨hearlier, rfl⟩ := List.append_eq_nil_iff.mp hnil.symm
            exact ⟨first :: earlier, type, later, [], behind, rfl, htype, by
              simp [hearlier, hfirst], rfl⟩
        | cons head more =>
            obtain ⟨rfl, rfl⟩ := List.cons.inj hmore
            exact ⟨[], first, list, front, more, rfl, hfirst, rfl, rfl⟩

theorem collectedInTurn_of_not_overtaken (hheaders : TypeDeclaration.HeadersOpen masked)
    (hfree : ∀ earlier type later,
      TypeDeclaration.topLevel masked = earlier ++ type :: later → ¬Overtaken earlier type) :
    CollectedInTurn (sightingsIn masked) := by
  intro front found back hsplit hnew later hlater hlate hne
  by_contra hnone
  push Not at hnone
  obtain ⟨earlier, type, laterTypes, before, behind, htypes, htype, rfl, rfl⟩ :=
    exists_split_flatMap hsplit
  have hmem : ∀ sighting ∈ constantSightings type, sighting ∈ sightingsIn masked := by
    intro sighting hsighting
    simp [sightingsIn, htypes, hsighting]
  have hle : later.offset ≤ found.offset := hnone found (hmem found (by simp [htype])) rfl
  have hreadonly := pairwise_directSightings staticReadonlyShape (by decide) type
  have hfixed := pairwise_directSightings constShape (by decide) type
  rcases List.mem_append.mp hlater with hbehind | hlaterType
  · unfold constantSightings at htype
    rcases List.append_eq_append_iff.mp htype with ⟨more, -, hfields⟩ | ⟨more, hconst, hmore⟩
    · rw [hfields, List.pairwise_append, List.pairwise_cons] at hreadonly
      have hlt := hreadonly.2.1.1 later hbehind
      omega
    · cases more with
      | nil =>
          rw [List.nil_append] at hmore
          rw [← hmore, List.pairwise_cons] at hreadonly
          have hlt := hreadonly.1 later hbehind
          omega
      | cons head more =>
          obtain ⟨rfl, rfl⟩ := List.cons.inj hmore
          rw [hconst, List.pairwise_append, List.pairwise_cons] at hfixed
          rcases List.mem_append.mp hbehind with hdown | hfield
          · have hlt := hfixed.2.1.1 later hdown
            omega
          · -- The one case that is left: a constant, and a field that stands above it.
            apply hfree earlier type laterTypes htypes
            refine ⟨later, hfield, found, by simp [hconst],
              (List.forall_mem_append.mp hlate).1, (List.forall_mem_append.mp hnew).1,
              fun sighting hsighting hname => hnone sighting (hmem sighting hsighting) hname, ?_⟩
            intro sighting hsighting hname
            rw [hconst, List.mem_append, List.mem_cons] at hsighting
            rcases hsighting with habove | rfl | hdown
            · exact absurd hname ((List.forall_mem_append.mp hlate).2 sighting habove)
            · exact absurd hname.symm hne
            · exact hfixed.2.1.1 sighting hdown
  · have hsplitTypes : TypeDeclaration.topLevel masked = (earlier ++ [type]) ++ laterTypes := by
      simp [htypes]
    have hlt := offset_lt_of_headersOpen hheaders hsplitTypes found
      (by simp [htype]) later hlaterType
    omega

theorem constants_modelAt_full {limits : Limits} (hbudget : limits.isSpent = false)
    (file : SourceFile) :
    (modelAt .full limits file).constants =
      ((sightingsIn (mask file.content.toList)).map (·.name)).foldl addOnce [] := by
  have hnames : (TypeDeclaration.topLevel (mask file.content.toList)).flatMap constantsOf =
      (sightingsIn (mask file.content.toList)).map (·.name) := by
    rw [sightingsIn, List.map_flatMap]
    congr 1
    funext type
    exact constantsOf_eq_map type
  unfold modelAt
  rw [← hnames]
  simp only [textAt, findings_of_isSpent_eq_false _ hbudget]
  rfl

/-- At the full tier, in time, the constants of a C# file are the names sighted in its
types, each listed once.  They come in reading order exactly if they are collected in
turn; when no header closes a brace, exactly if no type has a constant that overtakes a
read-only field. -/
theorem readModel_constants_inReadingOrder_iff (limits : Limits) (tier : Option Tier)
    (file : SourceFile) (hlanguage : file.language? = some .csharp)
    (htier : tier.getD (limits.tierOfSize file.content.utf8ByteSize) = .full)
    (hbudget : limits.isSpent = false) :
    ∃ model, readModel limits tier file = .ok model ∧ model.constants.Nodup ∧
      (∀ name, name ∈ model.constants ↔
        ∃ sighting ∈ sightingsIn (mask file.content.toList), sighting.name = name) ∧
      (InReadingOrder (sightingsIn (mask file.content.toList)) model.constants ↔
        CollectedInTurn (sightingsIn (mask file.content.toList))) ∧
      (TypeDeclaration.HeadersOpen (mask file.content.toList) →
        (InReadingOrder (sightingsIn (mask file.content.toList)) model.constants ↔
          ∀ earlier type later,
            TypeDeclaration.topLevel (mask file.content.toList) = earlier ++ type :: later →
              ¬Overtaken earlier type)) := by
  have hread : readModel limits tier file = .ok (modelAt .full limits file) := by
    rw [readModel_eq_extract hlanguage, extract, htier]
  have hconstants := constants_modelAt_full hbudget file
  have horder : InReadingOrder (sightingsIn (mask file.content.toList))
      (modelAt .full limits file).constants ↔
        CollectedInTurn (sightingsIn (mask file.content.toList)) := by
    rw [hconstants]
    exact inReadingOrder_iff _
  refine ⟨_, hread, ?_, ?_, horder, ?_⟩
  · rw [hconstants]
    exact nodup_foldl_addOnce _
  · intro name
    rw [hconstants, mem_foldl_addOnce_nil, List.mem_map]
  · intro hheaders
    rw [horder]
    constructor
    · intro hturn earlier type later htypes
      exact not_overtaken_of_collectedInTurn hheaders hturn htypes
    · exact collectedInTurn_of_not_overtaken hheaders

/-- Constants and read-only fields of two types, a name repeated. -/
def mixedFile : SourceFile :=
  { path := ⟨"Sizes.cs"⟩
    content := "class A { const int X = 1; } class B { static readonly int X = 2; const int Y = 3; }"
    lastModified := .epoch }

theorem readModel_constants_inReadingOrder_iff_mixedFile :
    mixedFile.language? = some .csharp ∧ Limits.standard.isSpent = false ∧
      TypeDeclaration.HeadersOpen (mask mixedFile.content.toList) ∧
      ∃ model, readModel .standard (some .full) mixedFile = .ok model ∧
        model.constants = ["X", "Y"] ∧
        (InReadingOrder (sightingsIn (mask mixedFile.content.toList)) model.constants ↔
          ∀ earlier type later,
            TypeDeclaration.topLevel (mask mixedFile.content.toList) =
              earlier ++ type :: later → ¬Overtaken earlier type) := by
  have hlanguage : mixedFile.language? = some .csharp := by decide
  have hheaders : TypeDeclaration.HeadersOpen (mask mixedFile.content.toList) := by
    decide +kernel
  obtain ⟨model, hread, -, -, -, horder⟩ :=
    readModel_constants_inReadingOrder_iff .standard (some .full) mixedFile hlanguage rfl rfl
  have hnames : ∀ model, readModel .standard (some .full) mixedFile = .ok model →
      model.constants = ["X", "Y"] := by
    intro model hmodel
    rw [readModel_of_csharp hlanguage] at hmodel
    obtain rfl := Except.ok.inj hmodel
    decide +kernel
  exact ⟨hlanguage, rfl, hheaders, model, hread, hnames model hread, horder hheaders⟩

/-- A read-only field with a constant below it. -/
def fieldFirstFile : SourceFile :=
  { path := ⟨"A.cs"⟩
    content := "class A { static readonly int X = 1; const int Y = 2; }"
    lastModified := .epoch }

/-- The constant is listed before the field that stands above it. -/
theorem not_inReadingOrder_fieldFirstFile :
    fieldFirstFile.language? = some .csharp ∧ Limits.standard.isSpent = false ∧
      ¬∀ model, readModel .standard (some .full) fieldFirstFile = .ok model →
        InReadingOrder (sightingsIn (mask fieldFirstFile.content.toList)) model.constants := by
  have hlanguage : fieldFirstFile.language? = some .csharp := by decide
  have hdisorder : ¬InReadingOrder (sightingsIn (mask fieldFirstFile.content.toList))
      (modelAt .full .standard fieldFirstFile).constants := by
    decide +kernel
  exact ⟨hlanguage, rfl, fun horder =>
    hdisorder (horder _ (readModel_of_csharp hlanguage .standard .full))⟩

end SourceAtlas.CSharp
