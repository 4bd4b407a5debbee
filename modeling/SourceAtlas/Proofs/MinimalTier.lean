import SourceAtlas.Proofs.CutDeclarations
import SourceAtlas.Proofs.PartialTier

/-!
# The minimal tier

The minimal tier reads no more than the first lines of a file.  It reports the types that
begin there as the other tiers do, and what follows the cut only adds to them.  Reading
more lines therefore lets the list of types grow at its end, up to the list of the whole
file.
-/

namespace SourceAtlas

open Text

/-- What every tier reports of a type: its name, its kind and its line. -/
def ClassSignature.outline (signature : ClassSignature) : String × TypeKind × Nat :=
  (signature.name, signature.kind, signature.line)

/-- A signature of which nothing else is known. -/
def ClassSignature.ofOutline (outline : String × TypeKind × Nat) : ClassSignature :=
  { ClassSignature.named outline.1 outline.2.2 with kind := outline.2.1 }

namespace CSharp

variable {text rest : List Char}

def TypeDeclaration.outline (masked : List Char) (type : TypeDeclaration) :
    String × TypeKind × Nat :=
  (type.name, type.kind, (LineTable.ofText masked).number type.start)

/-- The outlines of the reported types of a masked text. -/
def outlines (masked : List Char) : List (String × TypeKind × Nat) :=
  (TypeDeclaration.topLevel masked).map (·.outline masked)

theorem TypeDeclaration.signature_eq (text : List Char) (type : TypeDeclaration) :
    type.signature (Listing.ofText text) = ClassSignature.ofOutline (type.outline (mask text)) := by
  rw [outline, LineTable.number_ofText_mask]
  rfl

theorem classes_minimalFindings (text : List Char) :
    (minimalFindings (Listing.ofText text)
        (TypeDeclaration.topLevel (Listing.ofText text).masked)).classes =
      (outlines (mask text)).map ClassSignature.ofOutline := by
  simp only [minimalFindings, outlines, List.map_map, TypeDeclaration.signature_eq]
  rfl

theorem outline_partialFindings (limits : Limits) (text : List Char) :
    (partialFindings limits (Listing.ofText text)
        (TypeDeclaration.topLevel (Listing.ofText text).masked)).classes.map
          ClassSignature.outline = outlines (mask text) := by
  apply List.ext_getElem
  · simp [partialFindings, outlines, Listing.ofText]
  · intro index _ _
    simp only [partialFindings, outlines, List.getElem_map, List.getElem_mapIdx,
      TypeDeclaration.signature_eq]
    rfl

theorem outline_fullFindings (text : List Char) :
    (fullFindings (Listing.ofText text)
        (TypeDeclaration.topLevel (Listing.ofText text).masked)).classes.map
          ClassSignature.outline = outlines (mask text) := by
  have hfull : ∀ type, (fullSignature (Listing.ofText text) type).outline =
      type.outline (mask text) := by
    intro type
    have hsame : (fullSignature (Listing.ofText text) type).outline =
        (type.signature (Listing.ofText text)).outline := rfl
    rw [hsame, TypeDeclaration.signature_eq]
    rfl
  simp only [fullFindings, outlines, List.map_map, Function.comp_def, hfull]
  rfl

theorem TypeDeclaration.SameUpTo.outline {inner outer : TypeDeclaration}
    (hsame : SameUpTo (byteWidth text) inner outer) (rest : List Char) :
    outer.outline (text ++ rest) = inner.outline text := by
  unfold TypeDeclaration.outline
  rw [hsame.name, hsame.kind, hsame.start, LineTable.number_append text rest hsame.start_lt]

theorem map_outline_of_forall₂ (rest : List Char) {inner outer : List TypeDeclaration}
    (hsame : List.Forall₂ (TypeDeclaration.SameUpTo (byteWidth text)) inner outer) :
    outer.map (·.outline (text ++ rest)) = inner.map (·.outline text) := by
  induction hsame with
  | nil => rfl
  | cons hfirst _ ih => rw [List.map_cons, List.map_cons, hfirst.outline rest, ih]

theorem outlines_prefix_append (hbreak : EndsInBreak text) (rest : List Char) :
    outlines text <+: outlines (text ++ rest) := by
  obtain ⟨front, back, hfront, hsame⟩ := TypeDeclaration.exists_topLevel_append hbreak rest
  rw [outlines, outlines, hfront, List.map_append, map_outline_of_forall₂ rest hsame]
  exact List.prefix_append _ _

theorem mask_firstLines (limit : Nat) (text : List Char) :
    mask (Listing.firstLines limit text).1 = (Listing.firstLines limit (mask text)).1 := by
  rw [Listing.firstLines_mask]

/-- The types in fewer lines are the first ones in more lines. -/
theorem outlines_firstLines_mono {less more : Nat} (hle : less ≤ more) (text : List Char) :
    outlines (mask (Listing.firstLines less text).1) <+:
      outlines (mask (Listing.firstLines more text).1) := by
  rw [mask_firstLines, mask_firstLines]
  rcases Listing.firstLinesLoop_mono (Nat.sub_le_sub_right hle 1) (mask text) with
    hsame | ⟨hbreak, rest, hrest⟩
  · simp only [Listing.firstLines, hsame, List.prefix_rfl]
  · rw [Listing.firstLines, Listing.firstLines, hrest]
    exact outlines_prefix_append hbreak rest

/-- Either the first lines are the whole text, or they end with a line break of it. -/
theorem mask_firstLines_cases (limit : Nat) (text : List Char) :
    mask (Listing.firstLines limit text).1 = mask text ∨
      EndsInBreak (mask (Listing.firstLines limit text).1) ∧
        ∃ rest, mask text = mask (Listing.firstLines limit text).1 ++ rest := by
  rw [mask_firstLines, Listing.firstLines]
  rcases Listing.firstLinesLoop_cases (limit - 1) (mask text) with hall | ⟨front, rest, htext, hcut⟩
  · exact Or.inl (by rw [hall])
  · refine Or.inr ⟨⟨front, by rw [hcut]⟩, rest, ?_⟩
    rw [hcut, htext]
    simp

theorem outlines_firstLines_prefix (limit : Nat) (text : List Char) :
    outlines (mask (Listing.firstLines limit text).1) <+: outlines (mask text) := by
  rcases mask_firstLines_cases limit text with hsame | ⟨hbreak, rest, hrest⟩
  · simp only [hsame, List.prefix_rfl]
  · rw [hrest]
    exact outlines_prefix_append hbreak rest

theorem decisionCount_firstLines_le (limit : Nat) (text : List Char) :
    decisionCount (mask (Listing.firstLines limit text).1) ≤ decisionCount (mask text) := by
  rcases mask_firstLines_cases limit text with hsame | ⟨hbreak, rest, hrest⟩
  · rw [hsame]
  · rw [hrest]
    exact decisionCount_le hbreak

/-- How the models of the three tiers agree on the types of a file, of which the minimal
tier reads a number of lines. -/
structure TypesAgree (limit : Nat) (minimal partly full : SourceModel) : Prop where
  classes_partly :
    partly.classes.map ClassSignature.outline = full.classes.map ClassSignature.outline
  classes_minimal :
    minimal.classes.map ClassSignature.outline <+: full.classes.map ClassSignature.outline
  methods : ∀ signature ∈ minimal.classes, signature.methods = []
  constants : minimal.constants = []
  complexity : minimal.metrics.complexity ≤ full.metrics.complexity
  truncated : minimal.completeness = .truncated ↔ limit < minimal.metrics.totalLines
  whole : minimal.completeness ≠ .truncated →
    minimal.classes.map ClassSignature.outline = full.classes.map ClassSignature.outline

section Models

variable {limits : Limits} (hbudget : limits.isSpent = false) (file : SourceFile)

include hbudget

theorem classes_modelAt_minimal :
    (modelAt .minimal limits file).classes =
      (outlines (mask (Listing.firstLines limits.minimalLineLimit file.content.toList).1)).map
        ClassSignature.ofOutline := by
  simp only [modelAt, textAt, findings_of_isSpent_eq_false _ hbudget]
  exact classes_minimalFindings _

theorem outline_modelAt_partly :
    (modelAt .partly limits file).classes.map ClassSignature.outline =
      outlines (mask file.content.toList) := by
  simp only [modelAt, textAt, findings_of_isSpent_eq_false _ hbudget]
  exact outline_partialFindings limits _

theorem outline_modelAt_full :
    (modelAt .full limits file).classes.map ClassSignature.outline =
      outlines (mask file.content.toList) := by
  simp only [modelAt, textAt, findings_of_isSpent_eq_false _ hbudget]
  exact outline_fullFindings _

theorem completeness_modelAt_minimal :
    (modelAt .minimal limits file).completeness = .truncated ↔
      (Listing.firstLines limits.minimalLineLimit file.content.toList).2 = true := by
  have hcut : ∀ isCut, completenessOf isCut true = .truncated ↔ isCut = true := by decide
  simp only [modelAt, textAt, findings_of_isSpent_eq_false _ hbudget]
  exact hcut _

theorem typesAgree_modelAt (hlimit : 1 ≤ limits.minimalLineLimit) :
    TypesAgree limits.minimalLineLimit (modelAt .minimal limits file)
      (modelAt .partly limits file) (modelAt .full limits file) := by
  have houtline : ∀ outline, (ClassSignature.ofOutline outline).outline = outline := fun _ => rfl
  have hminimal : (modelAt .minimal limits file).classes.map ClassSignature.outline =
      outlines (mask (Listing.firstLines limits.minimalLineLimit file.content.toList).1) := by
    rw [classes_modelAt_minimal hbudget, List.map_map]
    simp only [Function.comp_def, houtline, List.map_id']
  constructor
  · rw [outline_modelAt_partly hbudget, outline_modelAt_full hbudget]
  · rw [hminimal, outline_modelAt_full hbudget]
    exact outlines_firstLines_prefix _ _
  · intro signature hsignature
    rw [classes_modelAt_minimal hbudget] at hsignature
    obtain ⟨outline, -, rfl⟩ := List.mem_map.mp hsignature
    rfl
  · simp only [modelAt, findings_of_isSpent_eq_false _ hbudget]
    rfl
  · exact Nat.add_le_add_left (decisionCount_firstLines_le _ _) _
  · rw [completeness_modelAt_minimal hbudget]
    have htotal : (modelAt .minimal limits file).metrics.totalLines =
        lineCount file.content.toList := by
      simp only [modelAt, Metrics.addDecisions, Metrics.ofText_totalLines, length_lines]
    rw [htotal, Listing.firstLines, Listing.firstLinesLoop_isCut_iff]
    omega
  · intro hwhole
    rw [Ne, completeness_modelAt_minimal hbudget] at hwhole
    rw [hminimal, outline_modelAt_full hbudget]
    rcases Listing.firstLinesLoop_cases (limits.minimalLineLimit - 1) file.content.toList with
      hall | ⟨front, rest, -, hcut⟩
    · rw [Listing.firstLines, hall]
    · exact absurd (by rw [Listing.firstLines, hcut]) hwhole

end Models

/-- The models of the three tiers agree on the types of a C# file, and the minimal tier
lists more types only behind those that it lists with fewer lines. -/
theorem readModel_typesAgree (limits : Limits) (file : SourceFile)
    (hlanguage : file.language? = some .csharp) (hbudget : limits.isSpent = false)
    (hlimit : 1 ≤ limits.minimalLineLimit) :
    ∃ minimal partly full, readModel limits (some .minimal) file = .ok minimal ∧
      readModel limits (some .partly) file = .ok partly ∧
      readModel limits (some .full) file = .ok full ∧
      TypesAgree limits.minimalLineLimit minimal partly full ∧
      ∀ wider : Limits, wider.isSpent = false →
        limits.minimalLineLimit ≤ wider.minimalLineLimit →
          ∃ more, readModel wider (some .minimal) file = .ok more ∧
            minimal.classes <+: more.classes := by
  have hread := readModel_of_csharp hlanguage
  refine ⟨_, _, _, hread limits .minimal, hread limits .partly, hread limits .full,
    typesAgree_modelAt hbudget file hlimit, ?_⟩
  intro wider hwider hle
  refine ⟨_, hread wider .minimal, ?_⟩
  rw [classes_modelAt_minimal hbudget, classes_modelAt_minimal hwider]
  exact (outlines_firstLines_mono hle file.content.toList).map ClassSignature.ofOutline

/-- A declaration that the second line break cuts before its name. -/
def brokenOffFile : SourceFile where
  path := ⟨"App.cs"⟩
  content := "class A { void F() { } }\npublic record\nclass B;\n"
  lastModified := .epoch

def narrowLimits : Limits :=
  { Limits.standard with minimalLineLimit := 2 }

theorem readModel_typesAgree_brokenOffFile :
    brokenOffFile.language? = some .csharp ∧ narrowLimits.isSpent = false ∧
      1 ≤ narrowLimits.minimalLineLimit ∧ Limits.standard.isSpent = false ∧
      narrowLimits.minimalLineLimit ≤ Limits.standard.minimalLineLimit ∧
      ∃ minimal partly full, readModel narrowLimits (some .minimal) brokenOffFile = .ok minimal ∧
        readModel narrowLimits (some .partly) brokenOffFile = .ok partly ∧
        readModel narrowLimits (some .full) brokenOffFile = .ok full ∧
        TypesAgree narrowLimits.minimalLineLimit minimal partly full ∧
        ∃ more, readModel .standard (some .minimal) brokenOffFile = .ok more ∧
          minimal.classes <+: more.classes := by
  have hlanguage : brokenOffFile.language? = some .csharp := by decide
  have hlimit : 1 ≤ narrowLimits.minimalLineLimit := by decide
  have hwider : narrowLimits.minimalLineLimit ≤ Limits.standard.minimalLineLimit := by decide
  obtain ⟨minimal, partly, full, hminimal, hpartly, hfull, hagree, hmono⟩ :=
    readModel_typesAgree narrowLimits brokenOffFile hlanguage rfl hlimit
  exact ⟨hlanguage, rfl, hlimit, rfl, hwider, minimal, partly, full, hminimal, hpartly, hfull,
    hagree, hmono .standard rfl hwider⟩

end CSharp

end SourceAtlas
