import SourceAtlas.Proofs.Budgets
import SourceAtlas.Proofs.MethodPlaces
import SourceAtlas.Proofs.OutermostTypes
import SourceAtlas.Reading
import Mathlib.Data.List.Nodup

/-!
# Scopes of the full tier

When no header closes a brace, the balance that decides on nesting is positive
throughout a body.  Then every reported type starts past the ones before it, by
strong induction on where it starts, and what is not inside the nearest type is
inside none.  So members, free functions and imports are read from separate parts
of the text, and none is recorded twice.
-/

namespace SourceAtlas.CSharp

open Text

namespace TypeDeclaration

/-- No header of a reported type closes a brace. -/
def HeadersOpen (masked : List Char) : Prop :=
  ∀ type ∈ topLevel masked, '}' ∉ type.header

instance (masked : List Char) : Decidable (HeadersOpen masked) :=
  inferInstanceAs (Decidable (∀ type ∈ topLevel masked, '}' ∉ type.header))

variable {masked : List Char}

/-- A reported type starts past every reported type that starts before it. -/
theorem past_le_start (hheaders : HeadersOpen masked) {later : TypeDeclaration}
    (hlater : later ∈ topLevel masked) {earlier : TypeDeclaration}
    (hearlier : earlier ∈ topLevel masked) (hlt : earlier.start < later.start) :
    earlier.past ≤ later.start := by
  induction hstart : later.start using Nat.strong_induction_on generalizing later with
  | _ start ih =>
      subst hstart
      obtain ⟨nearest, hnearest, hnearestLt, hhead, hcases⟩ :=
        exists_nearest (pairwise_start_topLevel masked) hearlier hlt
      have hnests : nearest.nests masked later.start = false :=
        (mem_topLevel_iff (mem_candidates_of_mem_topLevel hlater)).mp hlater nearest hhead
      simp only [nests, Bool.or_eq_false_iff] at hnests
      have hstands := standsIn_of_mem_topLevel hnearest
      have hpast : nearest.past ≤ later.start := by
        have horder := headerStart_le_of_start_lt (mem_candidates_of_mem_topLevel hnearest)
          (mem_candidates_of_mem_topLevel hlater) hnearestLt
        apply hstands.past_le (standsIn_of_mem_topLevel hlater) horder hnests.1
        intro block hblock
        by_contra hcontains
        rw [Bool.not_eq_false] at hcontains
        have henclosing :=
          hstands.enclosing_of_contains (hheaders nearest hnearest) hblock hcontains
        rw [hnests.2] at henclosing
        contradiction
      rcases hcases with rfl | hearlierLt
      · exact hpast
      · have hearlierPast := ih nearest.start hnearestLt hnearest hearlierLt rfl
        have hle := hstands.start_le_past
        omega

/-- What lies in the body of a reported type lies inside the nearest type before it. -/
theorem insideAny_of_contains (hheaders : HeadersOpen masked) {type : TypeDeclaration}
    (htype : type ∈ topLevel masked) {block : Block} (hblock : block ∈ type.block?)
    {offset : Nat} (hcontains : block.contains offset = true) :
    insideAny (topLevel masked) masked offset = true := by
  have hstands := standsIn_of_mem_topLevel htype
  have hbounds := hcontains
  simp only [Block.contains, Bool.and_eq_true, decide_eq_true_eq] at hbounds
  have hopener := hstands.start_lt_opener hblock
  have hstart : type.start < offset := by omega
  obtain ⟨nearest, hnearest, hnearestLt, hhead, hcases⟩ :=
    exists_nearest (pairwise_start_topLevel masked) htype hstart
  have heq : type = nearest := by
    rcases hcases with heq | hlt
    · exact heq
    · have hpast := past_le_start hheaders hnearest htype hlt
      have hcloser := StandsIn.closer_le_past hblock
      omega
  rw [insideAny_eq, hhead, Option.any_some, ← heq]
  exact hstands.enclosing_of_contains (hheaders type htype) hblock hcontains

/-- The bodies of two reported types share no offset. -/
theorem not_contains_both (hheaders : HeadersOpen masked) {earlier later : TypeDeclaration}
    (hearlier : earlier ∈ topLevel masked) (hlater : later ∈ topLevel masked)
    (hlt : earlier.start < later.start) {block block' : Block}
    (hblock : block ∈ earlier.block?) (hblock' : block' ∈ later.block?) {offset : Nat} :
    ¬(block.contains offset = true ∧ block'.contains offset = true) := by
  simp only [Block.contains, Bool.and_eq_true, decide_eq_true_eq]
  have hpast := past_le_start hheaders hlater hearlier hlt
  have hcloser := StandsIn.closer_le_past hblock
  have hopener := (standsIn_of_mem_topLevel hlater).start_lt_opener hblock'
  omega

/-- No reported type starts in the body of one. -/
theorem contains_start_eq_false (hheaders : HeadersOpen masked) {type other : TypeDeclaration}
    (htype : type ∈ topLevel masked) (hother : other ∈ topLevel masked) {block : Block}
    (hblock : block ∈ other.block?) : block.contains type.start = false := by
  simp only [Block.contains, Bool.and_eq_false_iff, decide_eq_false_iff_not]
  by_cases hlt : other.start < type.start
  · have hpast := past_le_start hheaders htype hother hlt
    have hcloser := StandsIn.closer_le_past hblock
    omega
  · have hopener := (standsIn_of_mem_topLevel hother).start_lt_opener hblock
    omega

end TypeDeclaration

variable {masked : List Char}

/-- A direct method of a reported type starts in its body, one brace deep. -/
theorem place_of_mem_directMethods {type : TypeDeclaration}
    (htype : type ∈ TypeDeclaration.topLevel masked) {method : Method}
    (hmethod : method ∈ directMethods type) :
    ∃ block body, type.body = some (block, body) ∧ method ∈ Method.allIn body ∧
      block.contains method.start = true ∧ balance masked block.opener method.start = 1 := by
  have hstands := TypeDeclaration.standsIn_of_mem_topLevel htype
  unfold directMethods at hmethod
  split at hmethod
  · next block body hbody =>
      obtain ⟨hmem, hdirect⟩ := List.mem_filter.mp hmethod
      rw [Bool.and_eq_true] at hdirect
      obtain ⟨hplace, hoffset, hstop⟩ := hstands.inside block body hbody
      have hblock := TypeDeclaration.mem_block? hbody
      obtain ⟨hfrom, hname, hto⟩ := Method.places_of_mem_allIn hmem
      have hlevel := (isDirectlyIn_iff hplace hfrom).mp hdirect.1
      have hrise := (hstands.block block hblock).start
      refine ⟨block, body, hbody, hmem, ?_, ?_⟩
      · simp only [Block.contains, Bool.and_eq_true, decide_eq_true_eq]
        omega
      · rw [hoffset] at hlevel
        rw [balance_eq_sub masked (by omega)]
        omega
  · contradiction

theorem freeMethodsLoop_sublist (listing : Listing) (types : List TypeDeclaration)
    (bodies : List Block) (kept methods : List Method) :
    ∃ free, freeMethodsLoop listing types bodies kept methods = kept.reverse ++ free ∧
      free.Sublist methods ∧
      ∀ method ∈ free, method.returnType.isSome = true ∧
        TypeDeclaration.insideAny types listing.masked method.start = false := by
  induction methods generalizing bodies kept with
  | nil => exact ⟨[], by simp [freeMethodsLoop], List.Sublist.refl _, by simp⟩
  | cons method methods ih =>
      unfold freeMethodsLoop
      split
      · obtain ⟨free, hloop, hsublist, hfree⟩ := ih bodies kept
        exact ⟨free, hloop, hsublist.cons _, hfree⟩
      · next hkeep =>
          simp only [Bool.or_eq_true, not_or, Bool.not_eq_true, Option.isNone_eq_false_iff] at hkeep
          obtain ⟨free, hloop, hsublist, hfree⟩ :=
            ih (method.body.toList ++ bodies) (method :: kept)
          refine ⟨method :: free, ?_, hsublist.cons_cons _, ?_⟩
          · rw [hloop]
            simp
          · exact List.forall_mem_cons.mpr ⟨hkeep.1, hfree⟩

theorem freeMethods_sublist (listing : Listing) (types : List TypeDeclaration) :
    (freeMethods listing types).Sublist (Method.allIn (Cursor.ofText listing.masked)) := by
  obtain ⟨free, hloop, hsublist, -⟩ := freeMethodsLoop_sublist listing types [] [] _
  unfold freeMethods
  rw [hloop]
  exact hsublist

theorem insideAny_of_mem_freeMethods {listing : Listing} {types : List TypeDeclaration}
    {method : Method} (hmem : method ∈ freeMethods listing types) :
    TypeDeclaration.insideAny types listing.masked method.start = false := by
  obtain ⟨free, hloop, -, hfree⟩ := freeMethodsLoop_sublist listing types [] [] _
  unfold freeMethods at hmem
  rw [hloop] at hmem
  exact (hfree method hmem).2

theorem returnType_of_mem_freeMethods {listing : Listing} {types : List TypeDeclaration}
    {method : Method} (hmem : method ∈ freeMethods listing types) :
    method.returnType.isSome = true := by
  obtain ⟨free, hloop, -, hfree⟩ := freeMethodsLoop_sublist listing types [] [] _
  unfold freeMethods at hmem
  rw [hloop] at hmem
  exact (hfree method hmem).1

/-- What comes in the order of its positions has no position twice. -/
theorem nodup_map_of_pairwise_lt {α : Type} {items : List α} {position : α → Nat}
    (hordered : items.Pairwise (fun earlier later => position earlier < position later)) :
    (items.map position).Nodup :=
  List.pairwise_map.mpr (hordered.imp fun hlt => Nat.ne_of_lt hlt)

theorem nodup_start_directMethods (type : TypeDeclaration) :
    ((directMethods type).map (·.start)).Nodup := by
  unfold directMethods
  split
  · exact nodup_map_of_pairwise_lt ((Method.pairwise_start_allIn _).filter _)
  · exact List.nodup_nil

theorem nodup_start_members (hheaders : TypeDeclaration.HeadersOpen masked) :
    (((TypeDeclaration.topLevel masked).flatMap directMethods).map (·.start)).Nodup := by
  rw [List.map_flatMap, List.nodup_flatMap]
  constructor
  · intro type _
    exact nodup_start_directMethods type
  · apply (TypeDeclaration.pairwise_start_topLevel masked).imp_of_mem
    intro earlier later hearlier hlater hlt
    simp only [Function.onFun, List.disjoint_left, List.mem_map, not_exists, not_and]
    rintro start ⟨method, hmethod, rfl⟩ method' hmethod' heq
    obtain ⟨block, body, hbody, -, hcontains, -⟩ := place_of_mem_directMethods hearlier hmethod
    obtain ⟨block', body', hbody', -, hcontains', -⟩ :=
      place_of_mem_directMethods hlater hmethod'
    rw [heq] at hcontains'
    exact TypeDeclaration.not_contains_both hheaders hearlier hlater hlt
      (TypeDeclaration.mem_block? hbody) (TypeDeclaration.mem_block? hbody')
      ⟨hcontains, hcontains'⟩

namespace Listing

/-- The types that the listing reports. -/
def types (listing : Listing) : List TypeDeclaration :=
  TypeDeclaration.topLevel listing.masked

/-- The methods that the listing reports as functions. -/
def functions (listing : Listing) : List Method :=
  freeMethods listing listing.types

/-- The directives that the listing reports as imports. -/
def directives (listing : Listing) : List (Match Mark) :=
  importMatches listing listing.types

end Listing

/-- A model that records the types of a listing with their direct methods, and its
functions and directives. -/
structure RecordedFrom (listing : Listing) (model : SourceModel) : Prop where
  classes : model.classes = listing.types.map (fullSignature listing)
  methods : model.classes.map (·.methods) =
    listing.types.map fun type => (directMethods type).map (memberSignature listing)
  functions : model.functions = listing.functions.map (·.signature listing [] none)
  imports : model.imports = listing.directives.map fun found =>
    directiveText (slice listing.text found.whole.start.offset found.whole.stop.offset)

/-- A listing whose types, methods, functions and directives keep to their own parts
of the text. -/
structure Scoped (listing : Listing) : Prop where
  bodies : listing.types.Pairwise fun earlier later =>
    ∀ block ∈ earlier.block?, ∀ block' ∈ later.block?, ∀ offset,
      ¬(block.contains offset = true ∧ block'.contains offset = true)
  starts : ∀ type ∈ listing.types, ∀ other ∈ listing.types, ∀ block ∈ other.block?,
    block.contains type.start = false
  methods : ∀ type ∈ listing.types, ∀ method ∈ directMethods type,
    ∃ block body, type.body = some (block, body) ∧ method ∈ Method.allIn body ∧
      block.contains method.start = true ∧
      balance listing.masked block.opener method.start = 1
  functions : ∀ method ∈ listing.functions,
    method ∈ Method.allIn (Cursor.ofText listing.masked) ∧
      ∀ type ∈ listing.types, ∀ block ∈ type.block?, block.contains method.start = false
  directives : ∀ found ∈ listing.directives,
    found ∈ usingShape.findAll (Cursor.ofText listing.masked) ∧
      ∀ type ∈ listing.types, ∀ block ∈ type.block?,
        block.contains found.whole.start.offset = false
  typesOnce : (listing.types.map (·.start)).Nodup
  methodsOnce :
    ((listing.types.flatMap directMethods ++ listing.functions).map (·.start)).Nodup
  directivesOnce : (listing.directives.map (·.whole.start.offset)).Nodup

theorem scoped_of_headersOpen {listing : Listing}
    (hheaders : TypeDeclaration.HeadersOpen listing.masked) : Scoped listing := by
  have hordered := TypeDeclaration.pairwise_start_topLevel listing.masked
  have houtside : ∀ offset,
      TypeDeclaration.insideAny listing.types listing.masked offset = false →
      ∀ type ∈ listing.types, ∀ block ∈ type.block?, block.contains offset = false := by
    intro offset hinside type htype block hblock
    by_contra hcontains
    rw [Bool.not_eq_false] at hcontains
    have htrue := TypeDeclaration.insideAny_of_contains hheaders htype hblock hcontains
    exact Bool.false_ne_true (hinside.symm.trans htrue)
  have hfree : ∀ method ∈ listing.functions, ∀ type ∈ listing.types, ∀ block ∈ type.block?,
      block.contains method.start = false := fun method hmethod =>
    houtside method.start (insideAny_of_mem_freeMethods hmethod)
  constructor
  · apply hordered.imp_of_mem
    intro earlier later hearlier hlater hlt block hblock block' hblock' offset
    exact TypeDeclaration.not_contains_both hheaders hearlier hlater hlt hblock hblock'
  · intro type htype other hother block hblock
    exact TypeDeclaration.contains_start_eq_false hheaders htype hother hblock
  · intro type htype method hmethod
    exact place_of_mem_directMethods htype hmethod
  · intro method hmethod
    exact ⟨(freeMethods_sublist _ _).subset hmethod, hfree method hmethod⟩
  · intro found hfound
    obtain ⟨hmem, hinside⟩ := List.mem_filter.mp hfound
    exact ⟨hmem, houtside _ (by simpa using hinside)⟩
  · exact nodup_map_of_pairwise_lt hordered
  · rw [List.map_append, List.nodup_append']
    refine ⟨nodup_start_members hheaders, ?_, ?_⟩
    · exact nodup_map_of_pairwise_lt
        ((Method.pairwise_start_allIn _).sublist (freeMethods_sublist _ _))
    · simp only [List.disjoint_left, List.mem_map, List.mem_flatMap, not_exists, not_and]
      rintro start ⟨member, ⟨type, htype, hmember⟩, rfl⟩ method hmethod heq
      obtain ⟨block, body, hbody, -, hcontains, -⟩ := place_of_mem_directMethods htype hmember
      have hfalse := hfree method hmethod type htype block (TypeDeclaration.mem_block? hbody)
      rw [heq, hcontains] at hfalse
      contradiction
  · exact nodup_map_of_pairwise_lt
      ((Pattern.pairwise_start_findAll (by decide) _).filter _)

/-- At the full tier, a C# file whose reported types close no brace in a header has a
model in which everything is recorded in its own scope and once. -/
theorem readModel_scoped_of_headersOpen (limits : Limits) (tier : Option Tier)
    (file : SourceFile) (hlanguage : file.language? = some .csharp)
    (htier : tier.getD (limits.tierOfSize file.content.utf8ByteSize) = .full)
    (hbudget : limits.isSpent = false)
    (hheaders : TypeDeclaration.HeadersOpen (mask file.content.toList)) :
    ∃ model, readModel limits tier file = .ok model ∧
      RecordedFrom (Listing.ofText file.content.toList) model ∧
      Scoped (Listing.ofText file.content.toList) := by
  have hread : readModel limits tier file = .ok (modelAt .full limits file) := by
    rw [readModel_eq_extract hlanguage, extract, htier]
  have hfound : ∀ listing types,
      findings .full limits listing types = (fullFindings listing types, true) := by
    intro listing types
    simp only [findings_eq, hbudget, Bool.false_and, Bool.false_eq_true, if_false]
  refine ⟨_, hread, ?_, scoped_of_headersOpen hheaders⟩
  unfold modelAt
  simp only [textAt, hfound]
  constructor
  · rfl
  · simp only [fullFindings, List.map_map]
    rfl
  · rfl
  · rfl

/-- Two types side by side, behind a directive. -/
def siblingFile : SourceFile :=
  { path := ⟨"App.cs"⟩
    content := "using Core; class A { void F() { } } class B { void G() { } }"
    lastModified := .epoch }

theorem readModel_scoped_siblingFile :
    siblingFile.language? = some .csharp ∧ Limits.standard.isSpent = false ∧
      TypeDeclaration.HeadersOpen (mask siblingFile.content.toList) ∧
      ∃ model, readModel .standard (some .full) siblingFile = .ok model ∧
        RecordedFrom (Listing.ofText siblingFile.content.toList) model ∧
        Scoped (Listing.ofText siblingFile.content.toList) := by
  have hlanguage : siblingFile.language? = some .csharp := by decide
  have hheaders : TypeDeclaration.HeadersOpen (mask siblingFile.content.toList) := by
    decide +kernel
  exact ⟨hlanguage, rfl, hheaders,
    readModel_scoped_of_headersOpen .standard (some .full) siblingFile hlanguage rfl rfl hheaders⟩

end SourceAtlas.CSharp
