import SourceAtlas.Proofs.BodyScans
import SourceAtlas.Proofs.MaskedStructure
import SourceAtlas.Proofs.Scoping

/-!
# The partial tier

The partial tier scans the whole text once and gives each method to the nearest type
before it.  The full tier scans every body by itself and keeps what stands directly in
it.  What the full tier reports with a result type is found by the scan of the whole
text as well, and the type whose body holds it is the nearest one before it, so the
partial tier lists more than the full one but never less.
-/

namespace SourceAtlas.CSharp

open Text Text.Pattern

namespace Method

theorem mayFollow_append {before outer : List Char} (houter : outer.head? = some '{') :
    mayFollow (((before ++ outer).dropWhile isBlank).head?) =
      mayFollow ((before.dropWhile isBlank).head?) := by
  induction before with
  | nil =>
      obtain ⟨rest, rfl⟩ : ∃ rest, outer = '{' :: rest := by
        cases outer with
        | nil => contradiction
        | cons c rest => exact ⟨rest, by rw [Option.some.inj houter]⟩
      rfl
  | cons c before ih =>
      by_cases hc : isBlank c = true
      · simpa [hc] using ih
      · simp [hc]

/-- A match that marks the same in the whole text stands for the same method. -/
theorem ofMatch?_eq_of_sameMarks {split : BodySplit} {inner outer : Match Mark}
    (hsame : split.around.SameMarks inner outer) : ofMatch? inner = ofMatch? outer := by
  have htail : split.around.tail = [] := rfl
  have hstop : outer.whole.stop.offset = inner.whole.stop.offset ∧
      outer.whole.stop.after = inner.whole.stop.after := by
    rw [hsame.stop]
    simp [Widening.cursor, htail]
  have hlist : ∀ offset, outer.whole.stop.upTo offset = inner.whole.stop.upTo offset := by
    intro offset
    rw [Cursor.upTo, Cursor.upTo, hstop.1, hstop.2]
  unfold ofMatch?
  rw [hsame.part?, hsame.part?, hsame.part?]
  cases inner.part? .modifiers with
  | none => rfl
  | some modifiers =>
      cases inner.part? .name with
      | none => rfl
      | some name =>
          have hprevious : mayFollow (split.around.span modifiers).start.previousSolid? =
              mayFollow modifiers.start.previousSolid? := mayFollow_append rfl
          have htype : ((inner.part? .type).map split.around.span).map
              (fun type => String.ofList (trim type.text)) =
                (inner.part? .type).map fun type => String.ofList (trim type.text) := by
            rw [Option.map_map]
            congr 1
            funext type
            simp only [Function.comp_apply, Widening.text_span htail]
          simp only [Option.map_some, Span.string, Widening.text_span htail, hprevious, htype,
            hstop.1, hstop.2, hlist]
          rfl

/-- The methods of a body are a stretch of the methods of the whole text. -/
theorem infix_allIn (split : BodySplit) :
    allIn split.body <:+: allIn (Cursor.ofText split.masked) := by
  obtain ⟨earlier, found, later, hwhole, hsame⟩ :=
    beginsAtEdge_methodShape.foundAround split
  have hbody : allIn split.body = found.filterMap ofMatch? :=
    filterMap_eq_of_forall₂ (fun _ _ hmarks => ofMatch?_eq_of_sameMarks hmarks) hsame
  refine ⟨earlier.filterMap ofMatch?, later.filterMap ofMatch?, ?_⟩
  rw [hbody, allIn, hwhole, List.filterMap_append, List.filterMap_append]

end Method

/-- A constant of a body is one of the whole text. -/
theorem mem_namesOf_of_mem_body {split : BodySplit} {wanted : Nat → Bool} {name : String}
    (hmem : name ∈ namesOf constShape wanted split.body) :
    name ∈ namesOf constShape (fun _ => true) (Cursor.ofText split.masked) := by
  obtain ⟨earlier, found, later, hwhole, hsame⟩ := ignoresBraces_constShape.foundAround split
  obtain ⟨inner, hinner, hname⟩ := List.mem_filterMap.mp hmem
  have hmarked : (inner.part? .name).map (·.string) = some name := by
    split at hname
    · exact hname
    · contradiction
  have hread : ∀ inner outer : Match Mark, split.around.SameMarks inner outer →
      (inner.part? .name).map (·.string) = (outer.part? .name).map (·.string) := by
    intro inner outer hsame
    rw [hsame.part?, Option.map_map]
    congr 1
    funext stretch
    have htext : (split.around.span stretch).text = stretch.text := Widening.text_span rfl stretch
    simp only [Function.comp_apply, Span.string, htext]
  have hnames := filterMap_eq_of_forall₂ hread hsame
  have hfound : name ∈ found.filterMap fun outer => (outer.part? .name).map (·.string) := by
    rw [← hnames]
    exact List.mem_filterMap.mpr ⟨inner, hinner, hmarked⟩
  simp only [namesOf, if_true, hwhole, List.filterMap_append, List.mem_append]
  exact Or.inl (Or.inr hfound)

namespace TypeDeclaration

variable {masked : List Char}

/-- The types that start before a place in the body of a type are those up to it. -/
theorem countP_start_lt (hheaders : HeadersOpen masked) {earlier later : List TypeDeclaration}
    {type : TypeDeclaration} (htypes : topLevel masked = earlier ++ type :: later)
    {block : Block} (hblock : block ∈ type.block?) {offset : Nat}
    (hcontains : block.contains offset = true) :
    (topLevel masked).countP (·.start < offset) = earlier.length + 1 := by
  have hordered := pairwise_start_topLevel masked
  rw [htypes, List.pairwise_append, List.pairwise_cons] at hordered
  obtain ⟨-, ⟨hlater, -⟩, hearlier⟩ := hordered
  have hmem : ∀ other ∈ earlier ++ type :: later, other ∈ topLevel masked := by
    simp [htypes]
  have htype : type ∈ topLevel masked := hmem type (by simp)
  simp only [Block.contains, Bool.and_eq_true, decide_eq_true_eq] at hcontains
  have hopener := (standsIn_of_mem_topLevel htype).start_lt_opener hblock
  have hbefore : earlier.countP (·.start < offset) = earlier.length := by
    rw [List.countP_eq_length]
    intro other hother
    have hlt := hearlier other hother type List.mem_cons_self
    rw [decide_eq_true_eq]
    omega
  have hafter : later.countP (·.start < offset) = 0 := by
    rw [List.countP_eq_zero]
    intro other hother
    have hother' := hmem other (by simp [hother])
    have hpast := past_le_start hheaders hother' htype (hlater other hother)
    have hcloser := StandsIn.closer_le_past hblock
    rw [decide_eq_true_eq]
    omega
  have hself : type.start < offset := by omega
  rw [htypes, List.countP_append, List.countP_cons, hbefore, hafter]
  simp [hself]

end TypeDeclaration

/-- The names that a type declares as constants with a fixed value. -/
def fixedNames (type : TypeDeclaration) : List String :=
  match type.body with
  | some (_, body) => namesOf constShape (isDirectlyIn body) body
  | none => []

/-- The names that a type declares as static read-only fields. -/
def readonlyNames (type : TypeDeclaration) : List String :=
  match type.body with
  | some (_, body) => namesOf staticReadonlyShape (isDirectlyIn body) body
  | none => []

theorem constantsOf_eq (type : TypeDeclaration) :
    constantsOf type = fixedNames type ++ readonlyNames type := by
  unfold constantsOf fixedNames readonlyNames
  cases type.body <;> rfl

theorem mem_foldl_addOnce {names start : List String} {name : String} :
    name ∈ names.foldl addOnce start ↔ name ∈ start ∨ name ∈ names := by
  induction names generalizing start with
  | nil => simp
  | cons first names ih =>
      have hadd : name ∈ addOnce start first ↔ name ∈ start ∨ name = first := by
        unfold addOnce
        split
        · next hmem =>
            have hfirst : first ∈ start := by simpa using hmem
            constructor
            · exact Or.inl
            · rintro (h | rfl)
              · exact h
              · exact hfirst
        · simp
      rw [List.foldl_cons, ih, hadd, List.mem_cons, or_assoc]

theorem length_foldl_addOnce_le (names start : List String) :
    (names.foldl addOnce start).length ≤ start.length + names.length := by
  induction names generalizing start with
  | nil => simp
  | cons first names ih =>
      have hadd : (addOnce start first).length ≤ start.length + 1 := by
        unfold addOnce
        split <;> simp
      have hrest := ih (addOnce start first)
      rw [List.foldl_cons, List.length_cons]
      omega

/-- What the full tier reports of a listing is reported by the partial tier. -/
structure Covered (listing : Listing) (full partly : SourceModel) : Prop where
  methods : List.Forall₂
    (fun narrow wide : ClassSignature =>
      ((narrow.methods.filter (·.returnType.isSome)).map (·.withoutAnnotations)).Sublist
        (wide.methods.map (·.withoutAnnotations)))
    full.classes partly.classes
  functions : ∀ function ∈ full.functions, function ∈ partly.functions ∨
    ∃ signature ∈ partly.classes, function ∈ signature.methods
  /-- Constants of the full tier are fixed values or read-only fields. -/
  kinds : ∀ name ∈ full.constants,
    (∃ type ∈ listing.types, name ∈ fixedNames type) ∨
      ∃ type ∈ listing.types, name ∈ readonlyNames type
  constants : ∀ type ∈ listing.types, ∀ name ∈ fixedNames type,
    name ∈ full.constants ∧ name ∈ partly.constants

variable {listing : Listing} {limits : Limits}

/-- The direct methods of a type come in order among all methods of the text. -/
theorem directMethods_sublist_allIn {masked : List Char} {type : TypeDeclaration}
    (htype : type ∈ TypeDeclaration.topLevel masked) :
    (directMethods type).Sublist (Method.allIn (Cursor.ofText masked)) := by
  cases hbody : type.body with
  | none => simp [directMethods, hbody]
  | some both =>
      obtain ⟨block, body⟩ := both
      obtain ⟨split, hmasked, rfl⟩ := TypeDeclaration.exists_split
        (TypeDeclaration.mem_candidates_of_mem_topLevel htype) hbody
      have hdirect : (directMethods type).Sublist (Method.allIn split.body) := by
        simp only [directMethods, hbody]
        exact List.filter_sublist
      rw [← hmasked]
      exact hdirect.trans (Method.infix_allIn split).sublist

/-- The direct methods of a type that have a result type come in order among the methods
that the partial tier gives to it. -/
theorem directMethods_sublist (hheaders : TypeDeclaration.HeadersOpen listing.masked)
    {earlier later : List TypeDeclaration} {type : TypeDeclaration}
    (htypes : listing.types = earlier ++ type :: later) :
    ((directMethods type).filter (·.returnType.isSome)).Sublist
      ((unscopedMethods listing).filter
        (typesBefore listing.types · = earlier.length + 1)) := by
  have htype : type ∈ listing.types := by simp [htypes]
  have howned : ∀ method ∈ directMethods type,
      typesBefore listing.types method = earlier.length + 1 := by
    intro method hmethod
    obtain ⟨block, body, hbody, -, hcontains, -⟩ := place_of_mem_directMethods htype hmethod
    exact TypeDeclaration.countP_start_lt hheaders htypes
      (TypeDeclaration.mem_block? hbody) hcontains
  have hkept : (directMethods type).filter (·.returnType.isSome) =
      ((directMethods type).filter (·.returnType.isSome)).filter
        (typesBefore listing.types · = earlier.length + 1) := by
    symm
    rw [List.filter_eq_self]
    intro method hmethod
    rw [decide_eq_true_eq]
    exact howned method (List.mem_of_mem_filter hmethod)
  rw [hkept]
  exact ((directMethods_sublist_allIn htype).filter _).filter _

/-- A method as both tiers report it, without what is written above it. -/
def Method.bareSignature (listing : Listing) (method : Method) : FunctionSignature :=
  method.signature listing [] none

theorem methods_fullSignature (listing : Listing) (type : TypeDeclaration) :
    ((fullSignature listing type).methods.filter (·.returnType.isSome)).map
        (·.withoutAnnotations) =
      ((directMethods type).filter (·.returnType.isSome)).map (·.bareSignature listing) := by
  simp only [fullSignature, List.filter_map, List.map_map]
  rfl

theorem methods_methodsBehind (listing : Listing) (types : List TypeDeclaration)
    (methods : List Method) (count : Nat) :
    (methodsBehind listing types methods count).map (·.withoutAnnotations) =
      (methods.filter (typesBefore types · = count)).map (·.bareSignature listing) := by
  simp only [methodsBehind, List.map_map]
  rfl

theorem covered_methods (hheaders : TypeDeclaration.HeadersOpen listing.masked)
    (hmethods : (unscopedMethods listing).length ≤ limits.partialMethodLimit) :
    List.Forall₂
      (fun narrow wide : ClassSignature =>
        ((narrow.methods.filter (·.returnType.isSome)).map (·.withoutAnnotations)).Sublist
          (wide.methods.map (·.withoutAnnotations)))
      (fullFindings listing listing.types).classes
      (partialFindings limits listing listing.types).classes := by
  rw [List.forall₂_iff_get]
  refine ⟨by simp [fullFindings, partialFindings], ?_⟩
  intro index hfull hpartly
  have hindex : index < listing.types.length := by simpa [fullFindings] using hfull
  have htypes : listing.types = listing.types.take index ++
      listing.types[index] :: listing.types.drop (index + 1) := by simp
  have hlength : (listing.types.take index).length = index := by
    rw [List.length_take]
    omega
  have hsublist := directMethods_sublist hheaders htypes
  rw [hlength] at hsublist
  have hnarrow : (fullFindings listing listing.types).classes.get ⟨index, hfull⟩ =
      fullSignature listing listing.types[index] := List.getElem_map _
  have hwide : ((partialFindings limits listing listing.types).classes.get
      ⟨index, hpartly⟩).methods =
        methodsBehind listing listing.types (unscopedMethods listing) (index + 1) := by
    simp only [partialFindings, List.get_eq_getElem, List.getElem_mapIdx,
      List.take_of_length_le hmethods]
  rw [hnarrow, hwide, methods_fullSignature, methods_methodsBehind]
  exact hsublist.map _

/-- Every method that the partial tier collects is recorded: with the functions if no type
starts before it, and otherwise with the last type that does. -/
theorem recorded_of_mem_take {method : Method}
    (hmethod : method ∈ (unscopedMethods listing).take limits.partialMethodLimit) :
    typesBefore listing.types method = 0 ∧
        method.signature listing [] none ∈
          (partialFindings limits listing listing.types).functions ∨
      ∃ index signature, typesBefore listing.types method = index + 1 ∧
        (partialFindings limits listing listing.types).classes[index]? = some signature ∧
        method.signature listing [] none ∈ signature.methods := by
  have hbehind : ∀ count, typesBefore listing.types method = count →
      method.signature listing [] none ∈
        methodsBehind listing listing.types
          ((unscopedMethods listing).take limits.partialMethodLimit) count := by
    intro count hcount
    exact List.mem_map_of_mem (List.mem_filter.mpr ⟨hmethod, by simpa using hcount⟩)
  cases hcount : typesBefore listing.types method with
  | zero => exact Or.inl ⟨rfl, hbehind 0 hcount⟩
  | succ index =>
      have hle : typesBefore listing.types method ≤ listing.types.length := List.countP_le_length
      have hindex : index < listing.types.length := by omega
      have hclass : (partialFindings limits listing listing.types).classes[index]? =
          some { listing.types[index].signature listing with
            methods := methodsBehind listing listing.types
              ((unscopedMethods listing).take limits.partialMethodLimit) (index + 1) } := by
        simp only [partialFindings, List.getElem?_mapIdx, List.getElem?_eq_getElem hindex,
          Option.map_some]
      exact Or.inr ⟨index, _, rfl, hclass, hbehind (index + 1) hcount⟩

theorem covered_functions (hmethods : (unscopedMethods listing).length ≤ limits.partialMethodLimit)
    {function : FunctionSignature}
    (hfunction : function ∈ (fullFindings listing listing.types).functions) :
    function ∈ (partialFindings limits listing listing.types).functions ∨
      ∃ signature ∈ (partialFindings limits listing listing.types).classes,
        function ∈ signature.methods := by
  simp only [fullFindings, List.mem_map] at hfunction
  obtain ⟨method, hmethod, rfl⟩ := hfunction
  have hunscoped : method ∈ unscopedMethods listing :=
    List.mem_filter.mpr ⟨(freeMethods_sublist _ _).subset hmethod,
      returnType_of_mem_freeMethods hmethod⟩
  have htaken : method ∈ (unscopedMethods listing).take limits.partialMethodLimit := by
    rwa [List.take_of_length_le hmethods]
  rcases recorded_of_mem_take htaken with ⟨-, hfunction⟩ | ⟨index, signature, -, hclass, hmember⟩
  · exact Or.inl hfunction
  · exact Or.inr ⟨signature, List.mem_of_getElem? hclass, hmember⟩

theorem covered_constants
    (hconstants : (namesOf constShape (fun _ => true) (Cursor.ofText listing.masked)).length ≤
      limits.partialConstantLimit)
    {type : TypeDeclaration} (htype : type ∈ listing.types) {name : String}
    (hname : name ∈ fixedNames type) :
    name ∈ (fullFindings listing listing.types).constants ∧
      name ∈ (partialFindings limits listing listing.types).constants := by
  constructor
  · simp only [fullFindings, mem_foldl_addOnce, List.mem_flatMap, constantsOf_eq,
      List.mem_append]
    exact Or.inr ⟨type, htype, Or.inl hname⟩
  · have hlength := length_foldl_addOnce_le
      (namesOf constShape (fun _ => true) (Cursor.ofText listing.masked)) []
    rw [List.length_nil, Nat.zero_add] at hlength
    simp only [partialFindings]
    rw [List.take_of_length_le (by omega), mem_foldl_addOnce]
    right
    unfold fixedNames at hname
    cases hbody : type.body with
    | none => simp [hbody] at hname
    | some both =>
        obtain ⟨block, body⟩ := both
        obtain ⟨split, hmasked, rfl⟩ := TypeDeclaration.exists_split
          (TypeDeclaration.mem_candidates_of_mem_topLevel htype) hbody
        rw [hbody] at hname
        rw [← hmasked]
        exact mem_namesOf_of_mem_body hname

theorem findings_of_isSpent_eq_false (tier : Tier) {limits : Limits}
    (hbudget : limits.isSpent = false) (listing : Listing) (types : List TypeDeclaration) :
    findings tier limits listing types =
      (match tier with
        | .minimal => minimalFindings listing types
        | .partly => partialFindings limits listing types
        | .full => fullFindings listing types, true) := by
  rw [findings_eq, hbudget]
  cases tier <;> rfl

theorem covered_modelAt (limits : Limits) (file : SourceFile) (hbudget : limits.isSpent = false)
    (hheaders : TypeDeclaration.HeadersOpen (mask file.content.toList))
    (hmethods : (unscopedMethods (Listing.ofText file.content.toList)).length ≤
      limits.partialMethodLimit)
    (hconstants : (namesOf constShape (fun _ => true)
      (Cursor.ofText (mask file.content.toList))).length ≤ limits.partialConstantLimit) :
    Covered (Listing.ofText file.content.toList) (modelAt .full limits file)
      (modelAt .partly limits file) := by
  have hlisting : TypeDeclaration.HeadersOpen (Listing.ofText file.content.toList).masked :=
    hheaders
  have hroom : (namesOf constShape (fun _ => true)
      (Cursor.ofText (Listing.ofText file.content.toList).masked)).length ≤
        limits.partialConstantLimit := hconstants
  unfold modelAt
  simp only [textAt, findings_of_isSpent_eq_false _ hbudget]
  constructor
  · exact covered_methods hlisting hmethods
  · intro function hfunction
    exact covered_functions hmethods hfunction
  · intro name hname
    simp only [fullFindings, mem_foldl_addOnce, List.mem_flatMap, constantsOf_eq,
      List.mem_append] at hname
    rcases hname with hname | ⟨type, htype, hname⟩
    · simp at hname
    · exact hname.imp (fun h => ⟨type, htype, h⟩) fun h => ⟨type, htype, h⟩
  · intro type htype name hname
    exact covered_constants hroom htype hname

theorem readModel_of_csharp {file : SourceFile} (hlanguage : file.language? = some .csharp)
    (limits : Limits) (tier : Tier) :
    readModel limits (some tier) file = .ok (modelAt tier limits file) :=
  readModel_eq_extract hlanguage limits (some tier)

/-- For a C# file whose reported types close no brace in a header, the partial tier
reports what the full tier does, if its limits leave room for all that it finds. -/
theorem readModel_covered_of_headersOpen (limits : Limits) (file : SourceFile)
    (hlanguage : file.language? = some .csharp) (hbudget : limits.isSpent = false)
    (hheaders : TypeDeclaration.HeadersOpen (mask file.content.toList))
    (hmethods : (unscopedMethods (Listing.ofText file.content.toList)).length ≤
      limits.partialMethodLimit)
    (hconstants : (namesOf constShape (fun _ => true)
      (Cursor.ofText (mask file.content.toList))).length ≤ limits.partialConstantLimit) :
    ∃ full partly, readModel limits (some .full) file = .ok full ∧
      readModel limits (some .partly) file = .ok partly ∧
      Covered (Listing.ofText file.content.toList) full partly := by
  have hread := readModel_of_csharp hlanguage limits
  exact ⟨_, _, hread .full, hread .partly,
    covered_modelAt limits file hbudget hheaders hmethods hconstants⟩

/-- A function and a type with a constant and a method. -/
def layeredFile : SourceFile where
  path := ⟨"App.cs"⟩
  content := "int Top() { } class A { const int Size = 1; void F() { } }"
  lastModified := .epoch

theorem readModel_covered_layeredFile :
    layeredFile.language? = some .csharp ∧ Limits.standard.isSpent = false ∧
      TypeDeclaration.HeadersOpen (mask layeredFile.content.toList) ∧
      (unscopedMethods (Listing.ofText layeredFile.content.toList)).length ≤
        Limits.standard.partialMethodLimit ∧
      (namesOf constShape (fun _ => true) (Cursor.ofText (mask layeredFile.content.toList))).length ≤
        Limits.standard.partialConstantLimit ∧
      ∃ full partly, readModel .standard (some .full) layeredFile = .ok full ∧
        readModel .standard (some .partly) layeredFile = .ok partly ∧
        Covered (Listing.ofText layeredFile.content.toList) full partly := by
  have hlanguage : layeredFile.language? = some .csharp := by decide
  have hheaders : TypeDeclaration.HeadersOpen (mask layeredFile.content.toList) := by
    decide +kernel
  have hmethods : (unscopedMethods (Listing.ofText layeredFile.content.toList)).length ≤
      Limits.standard.partialMethodLimit := by
    decide +kernel
  have hconstants : (namesOf constShape (fun _ => true)
      (Cursor.ofText (mask layeredFile.content.toList))).length ≤
        Limits.standard.partialConstantLimit := by
    decide +kernel
  exact ⟨hlanguage, rfl, hheaders, hmethods, hconstants,
    readModel_covered_of_headersOpen .standard layeredFile hlanguage rfl hheaders hmethods
      hconstants⟩

end SourceAtlas.CSharp
