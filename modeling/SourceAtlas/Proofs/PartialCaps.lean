import SourceAtlas.Proofs.ConstantOrder
import SourceAtlas.Proofs.SpentBudgets
import Mathlib.Data.List.Dedup

/-!
# Caps of the partial tier

The partial tier stops at so many methods, whichever type they go to, and at so many
constants.  Each method that it takes up is recorded once, in one class or as a function, so
the recorded methods are counted by the cap, and a larger cap only adds behind what a smaller
one leaves of each list.
-/

namespace SourceAtlas.CSharp

open Text

/-- The limits with other caps on the partial tier. -/
def withCaps (limits : Limits) (methods constants : Nat) : Limits :=
  { limits with partialMethodLimit := methods, partialConstantLimit := constants }

/-- The names of all constants with a fixed value, wherever they stand. -/
def unscopedConstants (listing : Listing) : List String :=
  namesOf constShape (fun _ => true) (Cursor.ofText listing.masked)

def withoutMethods (signature : ClassSignature) : ClassSignature :=
  { signature with methods := [] }

/-- What is left of a listing under two caps, beside what is left under wider ones. -/
structure CutByCaps (listing : Listing) (methods constants : Nat) (narrow wide : SourceModel) :
    Prop where
  methodCount :
    narrow.methodCount + narrow.functions.length = min methods (unscopedMethods listing).length
  constantCount :
    narrow.constants.length = min constants (unscopedConstants listing).dedup.length
  functions : narrow.functions <+: wide.functions
  constants : narrow.constants <+: wide.constants
  methods :
    List.Forall₂ (fun narrow wide : ClassSignature => narrow.methods <+: wide.methods)
      narrow.classes wide.classes
  classes : narrow.classes.map withoutMethods = wide.classes.map withoutMethods

/-- How many methods have been recorded, in classes or as functions. -/
def Findings.methodTotal (found : Findings) : Nat :=
  (found.classes.map (·.methods.length)).sum + found.functions.length

theorem sum_map_modify {α : Type} {size : α → Nat} {change : α → α}
    (hchange : ∀ a, size (change a) = size a + 1) {list : List α} {index : Nat}
    (hindex : index < list.length) :
    ((list.modify index change).map size).sum = (list.map size).sum + 1 := by
  induction list generalizing index with
  | nil => simp at hindex
  | cons first list ih =>
      cases index with
      | zero =>
          rw [List.modify_zero_cons, List.map_cons, List.map_cons, List.sum_cons, List.sum_cons,
            hchange]
          omega
      | succ index =>
          have hrest : index < list.length := by simpa using hindex
          rw [List.modify_succ_cons, List.map_cons, List.map_cons, List.sum_cons, List.sum_cons,
            ih hrest]
          omega

theorem Findings.methodTotal_addMethod {found : Findings} {before : Nat}
    (hbefore : before ≤ found.classes.length) (method : FunctionSignature) :
    (found.addMethod before method).methodTotal = found.methodTotal + 1 := by
  cases before with
  | zero =>
      simp only [methodTotal, addMethod, List.length_append, List.length_singleton]
      omega
  | succ index =>
      have hsum : ((found.classes.modify index fun type =>
          { type with methods := type.methods ++ [method] }).map (·.methods.length)).sum =
            (found.classes.map (·.methods.length)).sum + 1 :=
        sum_map_modify (fun type => List.length_append) hbefore
      simp only [methodTotal, addMethod, hsum]
      omega

@[simp]
theorem Findings.length_classes_addMethod (found : Findings) (before : Nat)
    (method : FunctionSignature) :
    (found.addMethod before method).classes.length = found.classes.length := by
  cases before <;> simp [addMethod]

variable (listing : Listing) (types : List TypeDeclaration)

/-- Every method is recorded once, whichever type it goes to. -/
theorem Findings.methodTotal_addMethods {found : Findings} (methods : List Method)
    (hclasses : found.classes.length = types.length) :
    (found.addMethods listing types methods).methodTotal =
      found.methodTotal + methods.length := by
  induction methods generalizing found with
  | nil => rw [addMethods_nil, List.length_nil, Nat.add_zero]
  | cons method methods ih =>
      have hbefore : typesBefore types method ≤ found.classes.length :=
        hclasses ▸ List.countP_le_length
      rw [addMethods_cons, ih (by rw [length_classes_addMethod, hclasses]),
        methodTotal_addMethod hbefore, List.length_cons]
      omega

theorem methodTotal_partialFindings (limits : Limits) :
    (partialFindings limits listing types).methodTotal =
      min limits.partialMethodLimit (unscopedMethods listing).length := by
  have hclasses := minimalFindings_addMethods listing types
    ((unscopedMethods listing).take limits.partialMethodLimit)
  have hadded : (partialFindings limits listing types).methodTotal =
      ((minimalFindings listing types).addMethods listing types
        ((unscopedMethods listing).take limits.partialMethodLimit)).methodTotal := by
    simp only [Findings.methodTotal, partialFindings, hclasses]
    rfl
  have hnone : (minimalFindings listing types).methodTotal = 0 := by
    simp [Findings.methodTotal, minimalFindings, Findings.none, TypeDeclaration.signature,
      ClassSignature.named, Function.comp_def]
  rw [hadded, Findings.methodTotal_addMethods _ _ _ (by simp [minimalFindings]), hnone,
    List.length_take, Nat.zero_add]

theorem methodCount_eq_sum (model : SourceModel) :
    model.methodCount = (model.classes.map (·.methods.length)).sum := by
  rw [SourceModel.methodCount, List.sum_eq_foldl, List.foldl_map]

/-- Names that are recorded once are as many as there are distinct ones. -/
theorem length_foldl_addOnce (names : List String) :
    (names.foldl addOnce []).length = names.dedup.length := by
  have hsame : (names.foldl addOnce []).Perm names.dedup := by
    rw [List.perm_ext_iff_of_nodup (nodup_foldl_addOnce names) names.nodup_dedup]
    intro name
    rw [mem_foldl_addOnce_nil, List.mem_dedup]
  exact hsame.length_eq

theorem length_constants_partialFindings (limits : Limits) :
    (partialFindings limits listing types).constants.length =
      min limits.partialConstantLimit (unscopedConstants listing).dedup.length := by
  simp only [partialFindings, List.length_take, length_foldl_addOnce]
  rfl

variable {methods methods' constants constants' : Nat}

theorem methodsBehind_take_prefix (hmethods : methods ≤ methods') (all : List Method)
    (count : Nat) :
    methodsBehind listing types (all.take methods) count <+:
      methodsBehind listing types (all.take methods') count := by
  have htake : all.take methods <+: all.take methods' := List.take_prefix_take_left hmethods
  exact (htake.filter _).map _

/-- The classes of the partial tier, each with the methods that a cap leaves of it. -/
theorem getElem_classes_partialFindings (limits : Limits) {index : Nat}
    (hindex : index < types.length)
    (hclass : index < (partialFindings limits listing types).classes.length) :
    (partialFindings limits listing types).classes[index] =
      { types[index].signature listing with
        methods := methodsBehind listing types
          ((unscopedMethods listing).take limits.partialMethodLimit) (index + 1) } :=
  List.getElem_mapIdx

theorem forall₂_classes_partialFindings (limits : Limits) (hmethods : methods ≤ methods') :
    List.Forall₂ (fun narrow wide : ClassSignature => narrow.methods <+: wide.methods)
      (partialFindings (withCaps limits methods constants) listing types).classes
      (partialFindings (withCaps limits methods' constants') listing types).classes := by
  rw [List.forall₂_iff_get]
  refine ⟨by simp [partialFindings], ?_⟩
  intro index hnarrow hwide
  have hindex : index < types.length := by simpa [partialFindings] using hnarrow
  rw [List.get_eq_getElem, List.get_eq_getElem,
    getElem_classes_partialFindings _ _ _ hindex, getElem_classes_partialFindings _ _ _ hindex]
  exact methodsBehind_take_prefix listing types hmethods _ _

/-- Apart from their methods, the classes of the partial tier are those of the minimal one. -/
theorem map_withoutMethods_partialFindings (limits : Limits) :
    (partialFindings limits listing types).classes.map withoutMethods =
      types.map (·.signature listing) := by
  apply List.ext_getElem
  · simp [partialFindings]
  · intro index hnarrow htypes
    have hindex : index < types.length := by simpa using htypes
    rw [List.getElem_map, List.getElem_map, getElem_classes_partialFindings _ _ _ hindex]
    rfl

/-- A partial tier that was not stopped has found what it finds with all the time. -/
theorem modelAt_partly_of_inTime {limits : Limits} {file : SourceFile}
    (htime : (modelAt .partly limits file).completeness ≠ .timedOut) :
    let listing := Listing.ofText file.content.toList
    let found := partialFindings limits listing listing.types
    (modelAt .partly limits file).classes = found.classes ∧
      (modelAt .partly limits file).functions = found.functions ∧
      (modelAt .partly limits file).constants = found.constants := by
  intro listing found
  have hinTime : (findings .partly limits listing listing.types).2 = true := by
    cases hstopped : (findings .partly limits listing listing.types).2 with
    | true => rfl
    | false =>
        exact absurd ((completenessOf_eq_timedOut_iff false _).mpr hstopped) htime
  have hfound : findings .partly limits listing listing.types = (found, true) := by
    have hall := findingsWithin_of_inTime listing listing.types hinTime
    rw [findingsWithin_unlimited] at hall
    exact hall
  have hmodel : (findings .partly limits listing (TypeDeclaration.topLevel listing.masked)).1 =
      found := congrArg Prod.fst hfound
  exact ⟨congrArg Findings.classes hmodel, congrArg Findings.functions hmodel,
    congrArg Findings.constants hmodel⟩

variable {file : SourceFile}

theorem modelAt_cutByCaps (limits : Limits) (hmethods : methods ≤ methods')
    (hconstants : constants ≤ constants')
    (hnarrow :
      (modelAt .partly (withCaps limits methods constants) file).completeness ≠ .timedOut)
    (hwide :
      (modelAt .partly (withCaps limits methods' constants') file).completeness ≠ .timedOut) :
    CutByCaps (Listing.ofText file.content.toList) methods constants
      (modelAt .partly (withCaps limits methods constants) file)
      (modelAt .partly (withCaps limits methods' constants') file) := by
  obtain ⟨hclasses, hfunctions, hnames⟩ := modelAt_partly_of_inTime hnarrow
  obtain ⟨hclasses', hfunctions', hnames'⟩ := modelAt_partly_of_inTime hwide
  constructor
  · rw [methodCount_eq_sum, hclasses, hfunctions]
    exact methodTotal_partialFindings _ _ (withCaps limits methods constants)
  · rw [hnames]
    exact length_constants_partialFindings _ _ (withCaps limits methods constants)
  · rw [hfunctions, hfunctions']
    exact methodsBehind_take_prefix _ _ hmethods _ 0
  · rw [hnames, hnames']
    exact List.take_prefix_take_left hconstants
  · rw [hclasses, hclasses']
    exact forall₂_classes_partialFindings _ _ limits hmethods
  · rw [hclasses, hclasses', map_withoutMethods_partialFindings,
      map_withoutMethods_partialFindings]

/-- A C# file that is read in the partial tier under two pairs of caps, and in time, has as many
methods and constants as the smaller caps leave of those that there are, and nothing but the
ends of lists is cut off beside the wider ones. -/
theorem readModel_cutByCaps (limits : Limits) (tier : Option Tier) (file : SourceFile)
    (hlanguage : file.language? = some .csharp)
    (htier : tier.getD (limits.tierOfSize file.content.utf8ByteSize) = .partly)
    (hmethods : methods ≤ methods') (hconstants : constants ≤ constants') :
    ∃ narrow wide, readModel (withCaps limits methods constants) tier file = .ok narrow ∧
      readModel (withCaps limits methods' constants') tier file = .ok wide ∧
      (narrow.completeness ≠ .timedOut → wide.completeness ≠ .timedOut →
        CutByCaps (Listing.ofText file.content.toList) methods constants narrow wide) := by
  have hread : ∀ methods constants, readModel (withCaps limits methods constants) tier file =
      .ok (modelAt .partly (withCaps limits methods constants) file) := by
    intro methods constants
    rw [readModel_eq_extract hlanguage, ← htier]
    rfl
  exact ⟨_, _, hread methods constants, hread methods' constants',
    modelAt_cutByCaps limits hmethods hconstants⟩

/-- With time left the partial tier is not stopped. -/
theorem completeness_modelAt_partly {limits : Limits} (hbudget : limits.isSpent = false)
    (file : SourceFile) : (modelAt .partly limits file).completeness = .complete := by
  unfold modelAt
  simp only [textAt, findings_of_isSpent_eq_false _ hbudget]
  rfl

/-- Functions before, in and behind types, and a constant that is declared twice. -/
def cappedFile : SourceFile where
  path := ⟨"App.cs"⟩
  content :=
    "int Top() { } class A { A() { } const int Size = 1; void F() { } int G() { } }\n" ++
      "class B { const int Size = 2; const int Width = 3; void H() { } }"
  lastModified := .epoch

theorem readModel_cutByCaps_cappedFile :
    cappedFile.language? = some .csharp ∧
      (some Tier.partly).getD (Limits.standard.tierOfSize cappedFile.content.utf8ByteSize) =
        .partly ∧ 2 ≤ 3 ∧ 1 ≤ 20 ∧
      ∃ narrow wide, readModel (withCaps .standard 2 1) (some .partly) cappedFile = .ok narrow ∧
        readModel (withCaps .standard 3 20) (some .partly) cappedFile = .ok wide ∧
        narrow.completeness = .complete ∧ wide.completeness = .complete ∧
        CutByCaps (Listing.ofText cappedFile.content.toList) 2 1 narrow wide ∧
        (unscopedMethods (Listing.ofText cappedFile.content.toList)).length = 4 ∧
        (unscopedConstants (Listing.ofText cappedFile.content.toList)).dedup.length = 2 := by
  have hlanguage : cappedFile.language? = some .csharp := by decide
  obtain ⟨narrow, wide, hnarrow, hwide, hcut⟩ :=
    readModel_cutByCaps .standard (some .partly) cappedFile hlanguage rfl
      (by decide : 2 ≤ 3) (by decide : 1 ≤ 20)
  have hread := readModel_of_csharp hlanguage
  have hcomplete : narrow.completeness = .complete := by
    rw [hread] at hnarrow
    rw [← Except.ok.inj hnarrow]
    exact completeness_modelAt_partly rfl cappedFile
  have hcomplete' : wide.completeness = .complete := by
    rw [hread] at hwide
    rw [← Except.ok.inj hwide]
    exact completeness_modelAt_partly rfl cappedFile
  have hcaps := hcut (by rw [hcomplete]; decide) (by rw [hcomplete']; decide)
  exact ⟨hlanguage, rfl, by decide, by decide, narrow, wide, hnarrow, hwide, hcomplete,
    hcomplete', hcaps, by decide +kernel, by decide +kernel⟩

end SourceAtlas.CSharp
