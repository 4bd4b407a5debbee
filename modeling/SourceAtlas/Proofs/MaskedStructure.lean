import SourceAtlas.Proofs.Budgets
import SourceAtlas.Proofs.Masking
import SourceAtlas.Reading

/-!
# Structure and masked text

A listing holds a text beside its masked form, and both are read.  Two texts
with the same masked form are followed through the three tiers: every finding is
a function of the masked form and of line numbers, which the masked form also
fixes, apart from the documentation and the attributes above declarations and
the wording of imports.  So comments and the contents of literals change neither
the structure of a model nor the role of its file.
-/

namespace SourceAtlas

open Text

/-- The signature without what is written above the function. -/
def FunctionSignature.withoutAnnotations (function : FunctionSignature) : FunctionSignature :=
  { function with docComment := none, decorators := [] }

/-- The signature without what is written above the declaration and its methods. -/
def ClassSignature.withoutAnnotations (signature : ClassSignature) : ClassSignature :=
  { signature with
    docComment := none
    decorators := []
    methods := signature.methods.map (·.withoutAnnotations) }

/-- Models that differ at most in documentation, in attributes, in the wording of
imports, in which lines hold code, and in time and role. -/
structure SourceModel.SameStructure (first second : SourceModel) : Prop where
  path : first.path = second.path
  tier : first.tier = second.tier
  completeness : first.completeness = second.completeness
  namespaceName : first.namespaceName = second.namespaceName
  constants : first.constants = second.constants
  totalLines : first.metrics.totalLines = second.metrics.totalLines
  complexity : first.metrics.complexity = second.metrics.complexity
  importCount : first.imports.length = second.imports.length
  functions : first.functions = second.functions
  classes : first.classes.map (·.withoutAnnotations) = second.classes.map (·.withoutAnnotations)

namespace Metrics

theorem countLines_totalLines (style : CommentStyle) (metrics : Metrics) (inBlock : Bool)
    (lines : List (List Char)) :
    (countLines style metrics inBlock lines).totalLines = metrics.totalLines + lines.length := by
  induction lines generalizing metrics inBlock with
  | nil => rfl
  | cons line lines ih =>
      have hline : ∀ kind, (metrics.addLine kind).totalLines = metrics.totalLines + 1 := by
        intro kind
        cases kind <;> rfl
      simp only [countLines, ih, hline, List.length_cons]
      omega

theorem countLines_complexity (style : CommentStyle) (metrics : Metrics) (inBlock : Bool)
    (lines : List (List Char)) :
    (countLines style metrics inBlock lines).complexity = metrics.complexity := by
  induction lines generalizing metrics inBlock with
  | nil => rfl
  | cons line lines ih =>
      have hline : ∀ kind, (metrics.addLine kind).complexity = metrics.complexity := by
        intro kind
        cases kind <;> rfl
      simp only [countLines, ih, hline]

theorem ofText_totalLines (style : CommentStyle) (text : List Char) :
    (ofText style text).totalLines = (lines text).length := by
  unfold ofText
  rw [countLines_totalLines]
  exact Nat.zero_add _

theorem ofText_complexity (style : CommentStyle) (text : List Char) :
    (ofText style text).complexity = 1 :=
  countLines_complexity _ _ _ _

end Metrics

namespace CSharp

/-- Listings that show the same code on the same lines. -/
structure Listing.Alike (first second : Listing) : Prop where
  masked : first.masked = second.masked
  number : first.lines.number = second.lines.number

theorem Listing.alike_of_mask_eq {first second : List Char} (hmask : mask first = mask second) :
    (Listing.ofText first).Alike (Listing.ofText second) where
  masked := hmask
  number := LineTable.number_eq_of_mask_eq hmask

variable {first second : Listing}

theorem Listing.Alike.typeSignature (halike : first.Alike second) (type : TypeDeclaration) :
    type.signature first = type.signature second := by
  simp only [TypeDeclaration.signature, halike.number]

theorem Listing.Alike.methodSignature (halike : first.Alike second) (method : Method)
    (decorators : List String) (docComment : Option String) :
    method.signature first decorators docComment =
      method.signature second decorators docComment := by
  simp only [Method.signature, halike.number]

/-- Findings that differ at most in annotations and in the wording of imports. -/
structure Findings.Alike (first second : Findings) : Prop where
  classes : first.classes.map (·.withoutAnnotations) = second.classes.map (·.withoutAnnotations)
  functions : first.functions = second.functions
  constants : first.constants = second.constants
  importCount : first.imports.length = second.imports.length
  namespaceName : first.namespaceName = second.namespaceName

theorem Findings.Alike.refl (found : Findings) : found.Alike found :=
  ⟨rfl, rfl, rfl, rfl, rfl⟩

theorem Listing.Alike.minimalFindings (halike : first.Alike second)
    (types : List TypeDeclaration) :
    CSharp.minimalFindings first types = CSharp.minimalFindings second types := by
  simp only [CSharp.minimalFindings, halike.typeSignature]

theorem Listing.Alike.partialFindings (halike : first.Alike second) (limits : Limits)
    (types : List TypeDeclaration) :
    CSharp.partialFindings limits first types = CSharp.partialFindings limits second types := by
  simp only [CSharp.partialFindings, unscopedMethods, methodsBehind, halike.masked,
    halike.typeSignature, halike.methodSignature]

theorem memberSignature_withoutAnnotations (halike : first.Alike second) (method : Method) :
    (memberSignature first method).withoutAnnotations =
      (memberSignature second method).withoutAnnotations := by
  simp only [memberSignature, FunctionSignature.withoutAnnotations, Method.signature,
    halike.number]

theorem fullSignature_withoutAnnotations (halike : first.Alike second)
    (type : TypeDeclaration) :
    (fullSignature first type).withoutAnnotations =
      (fullSignature second type).withoutAnnotations := by
  have hmethods :
      ((directMethods type).map (memberSignature first)).map (·.withoutAnnotations) =
        ((directMethods type).map (memberSignature second)).map (·.withoutAnnotations) := by
    rw [List.map_map, List.map_map]
    apply List.map_congr_left
    intro method _
    exact memberSignature_withoutAnnotations halike method
  simp only [fullSignature, ClassSignature.withoutAnnotations, halike.typeSignature, hmethods]

theorem freeMethodsLoop_congr (halike : first.Alike second) (types : List TypeDeclaration)
    (bodies : List Block) (kept methods : List Method) :
    freeMethodsLoop first types bodies kept methods =
      freeMethodsLoop second types bodies kept methods := by
  induction methods generalizing bodies kept with
  | nil => rfl
  | cons method methods ih => simp only [freeMethodsLoop, halike.masked, ih]

theorem Listing.Alike.freeMethods (halike : first.Alike second)
    (types : List TypeDeclaration) :
    CSharp.freeMethods first types = CSharp.freeMethods second types := by
  simp only [CSharp.freeMethods, halike.masked, freeMethodsLoop_congr halike]

theorem Listing.Alike.fullFindings (halike : first.Alike second)
    (types : List TypeDeclaration) :
    (CSharp.fullFindings first types).Alike (CSharp.fullFindings second types) where
  classes := by
    simp only [CSharp.fullFindings, List.map_map]
    apply List.map_congr_left
    intro type _
    exact fullSignature_withoutAnnotations halike type
  functions := by
    simp only [CSharp.fullFindings, halike.freeMethods, halike.methodSignature]
  constants := rfl
  importCount := by
    simp only [CSharp.fullFindings, surroundings, importsOf, importMatches, halike.masked,
      List.length_map]
  namespaceName := by
    simp only [CSharp.fullFindings, surroundings, namespaceOf, halike.masked]

theorem Listing.Alike.findings (halike : first.Alike second) (tier : Tier) {limits : Limits}
    (hbudget : limits.isSpent = false) (types : List TypeDeclaration) :
    (CSharp.findings tier limits first types).1.Alike
        (CSharp.findings tier limits second types).1 ∧
      (CSharp.findings tier limits first types).2 =
        (CSharp.findings tier limits second types).2 := by
  simp only [findings_eq, hbudget, Bool.false_and, Bool.false_eq_true, if_false]
  refine ⟨?_, trivial⟩
  cases tier with
  | minimal =>
      rw [halike.minimalFindings]
      exact .refl _
  | partly =>
      rw [halike.partialFindings]
      exact .refl _
  | full => exact halike.fullFindings types

theorem textAt_of_mask_eq {first second : List Char} (hmask : mask first = mask second)
    (tier : Tier) (limits : Limits) :
    mask (textAt tier limits first).1 = mask (textAt tier limits second).1 ∧
      (textAt tier limits first).2 = (textAt tier limits second).2 := by
  cases tier with
  | minimal => exact Listing.firstLines_eq_of_mask_eq hmask _
  | partly => exact ⟨hmask, rfl⟩
  | full => exact ⟨hmask, rfl⟩

theorem modelAt_sameStructure {first second : SourceFile} (hpath : first.path = second.path)
    (hmask : mask first.content.toList = mask second.content.toList) (tier : Tier)
    {limits : Limits} (hbudget : limits.isSpent = false) :
    (modelAt tier limits first).SameStructure (modelAt tier limits second) := by
  obtain ⟨htext, hcut⟩ := textAt_of_mask_eq hmask tier limits
  have halike := Listing.alike_of_mask_eq htext
  have hmasked := halike.masked
  obtain ⟨hfound, htime⟩ :=
    halike.findings tier hbudget (TypeDeclaration.topLevel (Listing.ofText
      (textAt tier limits first.content.toList).1).masked)
  unfold modelAt
  constructor
  · exact hpath
  · rfl
  · simp only [hcut, ← hmasked, htime]
  · simpa only [← hmasked] using hfound.namespaceName
  · simpa only [← hmasked] using hfound.constants
  · simp only [Metrics.addDecisions, Metrics.ofText_totalLines]
    exact length_lines_eq_of_mask_eq hmask
  · simp only [Metrics.addDecisions, Metrics.ofText_complexity, hmasked]
  · simpa only [← hmasked] using hfound.importCount
  · simpa only [← hmasked] using hfound.functions
  · simpa only [← hmasked] using hfound.classes

theorem utf8ByteSize_eq_of_mask_eq {first second : SourceFile}
    (hmask : mask first.content.toList = mask second.content.toList) :
    first.content.utf8ByteSize = second.content.utf8ByteSize := by
  have hwidth : ∀ text : List Char, byteWidth (mask text) = byteWidth text := fun text =>
    (covers_maskFrom _ _).byteWidth_eq
  rw [utf8ByteSize_eq, utf8ByteSize_eq, ← hwidth, hmask, hwidth]

/-- The tier that the size of a file asks for is that of its masked form. -/
theorem extract_sameStructure {first second : SourceFile} (hpath : first.path = second.path)
    (hmask : mask first.content.toList = mask second.content.toList) (tier : Option Tier)
    {limits : Limits} (hbudget : limits.isSpent = false) :
    (extract limits tier first).SameStructure (extract limits tier second) := by
  unfold extract
  rw [utf8ByteSize_eq_of_mask_eq hmask]
  exact modelAt_sameStructure hpath hmask _ hbudget

end CSharp

namespace Classification

theorem roleOfStructure_eq {first second : SourceModel} (hsame : first.SameStructure second) :
    roleOfStructure (some first) = roleOfStructure (some second) := by
  have hany : ∀ model : SourceModel, model.classes.any (·.isException) =
      (model.classes.map (·.withoutAnnotations)).any (·.isException) := by
    intro model
    rw [List.any_map]
    rfl
  have hempty : ∀ model : SourceModel, model.classes.isEmpty =
      (model.classes.map (·.withoutAnnotations)).isEmpty := by
    intro model
    rw [List.isEmpty_map]
  simp only [roleOfStructure, hany, hempty, hsame.classes, hsame.functions]

theorem classify_eq {path : Path} {first second : String}
    (hmask : mask first.toList = mask second.toList) {model model' : SourceModel}
    (hsame : model.SameStructure model') :
    classify path first (some model) = classify path second (some model') := by
  have hcontent : ofContent? path first = ofContent? path second := by
    simp only [ofContent?, hmask]
  unfold classify explain
  rw [hcontent, roleOfStructure_eq hsame]

end Classification

/-- Files of one path with the same masked text have models of the same structure
and, read with the tier of the settings, the same role. -/
theorem readModel_sameStructure_of_mask_eq (limits : Limits) (tier : Option Tier)
    (first second : SourceFile) (hpath : first.path = second.path)
    (hlanguage : first.language? = some .csharp) (hbudget : limits.isSpent = false)
    (hmask : mask first.content.toList = mask second.content.toList) :
    (∃ model model', readModel limits tier first = .ok model ∧
        readModel limits tier second = .ok model' ∧ model.SameStructure model') ∧
      ∃ model model', readClassified limits first = .ok model ∧
        readClassified limits second = .ok model' ∧ model.role = model'.role := by
  have hlanguage' : second.language? = some .csharp := by
    unfold SourceFile.language? at *
    rw [← hpath, hlanguage]
  have hread := readModel_eq_extract hlanguage limits
  have hread' := readModel_eq_extract hlanguage' limits
  constructor
  · exact ⟨_, _, hread tier, hread' tier, CSharp.extract_sameStructure hpath hmask tier hbudget⟩
  · have hsame := CSharp.extract_sameStructure hpath hmask limits.tier.forced? hbudget
    unfold readClassified
    rw [hread, hread']
    refine ⟨_, _, rfl, rfl, ?_⟩
    simp only [hpath]
    exact congrArg some (Classification.classify_eq hmask hsame)

/-- A class with a remark behind it. -/
def plainFile : SourceFile :=
  { path := ⟨"App.cs"⟩, content := "class A : B; // end of A", lastModified := .epoch }

/-- The class with a declaration in the remark. -/
def commentedFile : SourceFile :=
  { plainFile with content := "class A : B; // class C;" }

theorem readModel_sameStructure_commentedFile :
    plainFile.path = commentedFile.path ∧ plainFile.language? = some .csharp ∧
      Limits.standard.isSpent = false ∧
      mask plainFile.content.toList = mask commentedFile.content.toList ∧
      (∃ model model', readModel .standard (some .minimal) plainFile = .ok model ∧
        readModel .standard (some .minimal) commentedFile = .ok model' ∧
          model.SameStructure model') ∧
      ∃ model model', readClassified .standard plainFile = .ok model ∧
        readClassified .standard commentedFile = .ok model' ∧ model.role = model'.role := by
  have hlanguage : plainFile.language? = some .csharp := by decide
  have hmask : mask plainFile.content.toList = mask commentedFile.content.toList := by decide
  exact ⟨rfl, hlanguage, rfl, hmask,
    readModel_sameStructure_of_mask_eq .standard (some .minimal) plainFile commentedFile rfl
      hlanguage rfl hmask⟩

end SourceAtlas
