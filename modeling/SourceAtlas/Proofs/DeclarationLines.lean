import SourceAtlas.Proofs.DefinitionLines
import SourceAtlas.Proofs.MinimalTier

/-!
# Lines of C# declarations

Types and methods are found in the masked form of a text, in order, and each is recorded on
the line of a character that stands there.  Whatever a tier selects keeps that order.  The
minimal tier reads only the first lines, and these are lines of the file as well.  Together
with what is known of Python files, this makes every model well formed.
-/

namespace SourceAtlas.CSharp

open Text

theorem linesWithin_outlines (text : List Char) :
    LinesWithin (lineCount text) ((outlines (mask text)).map (·.2.2)) := by
  have hcount : lineCount (mask text) = lineCount text := (covers_maskFrom _ text).lineCount_eq
  have hordered : ((TypeDeclaration.topLevel (mask text)).map (·.start)).Pairwise (· ≤ ·) :=
    List.pairwise_map.mpr
      ((TypeDeclaration.pairwise_start_topLevel (mask text)).imp fun hlt => Nat.le_of_lt hlt)
  have hinside : ∀ start ∈ (TypeDeclaration.topLevel (mask text)).map (·.start),
      start < byteWidth (mask text) := by
    intro start hstart
    obtain ⟨type, htype, rfl⟩ := List.mem_map.mp hstart
    have hstands := TypeDeclaration.standsIn_of_mem_topLevel htype
    have hlt := hstands.start_lt
    have hheader := TypeDeclaration.StandsIn.headerStart_le type
    have hle := hstands.headerStop_le
    omega
  have hlines := LineTable.linesWithin_map_number hordered hinside
  rw [hcount, List.map_map] at hlines
  rw [outlines, List.map_map]
  exact hlines

/-- Signatures with the outlines of the types of a text have lines of the text. -/
theorem linesWithin_of_outlines {text : List Char} {classes : List ClassSignature}
    (houtlines : classes.map ClassSignature.outline = outlines (mask text)) :
    LinesWithin (lineCount text) (classes.map (·.line)) := by
  have hlines : classes.map (·.line) = (outlines (mask text)).map (·.2.2) := by
    rw [← houtlines, List.map_map]
    rfl
  rw [hlines]
  exact linesWithin_outlines text

/-- Methods that are selected in order have lines of the text. -/
theorem linesWithin_methods {text : List Char} {methods : List Method}
    (hsublist : methods.Sublist (Method.allIn (Cursor.ofText (mask text))))
    {signatureOf : Method → FunctionSignature}
    (hline : ∀ method,
      (signatureOf method).line = (Listing.ofText text).lines.number method.nameStart) :
    LinesWithin (lineCount text) ((methods.map signatureOf).map (·.line)) := by
  have hwidth : byteWidth (mask text) = byteWidth text := (covers_maskFrom _ text).byteWidth_eq
  have hordered : (methods.map (·.nameStart)).Pairwise (· ≤ ·) :=
    List.pairwise_map.mpr
      (((Method.pairwise_nameStart_allIn _).sublist hsublist).imp fun hlt => Nat.le_of_lt hlt)
  have hinside : ∀ start ∈ methods.map (·.nameStart), start < byteWidth text := by
    intro start hstart
    obtain ⟨method, hmethod, rfl⟩ := List.mem_map.mp hstart
    have hlt := (Method.places_of_mem_allIn (hsublist.subset hmethod)).2.2
    rw [Cursor.ofText, hwidth] at hlt
    exact hlt
  have hlines := LineTable.linesWithin_map_number hordered hinside
  rw [List.map_map] at hlines ⊢
  have hsame : (fun function : FunctionSignature => function.line) ∘ signatureOf =
      (LineTable.ofText text).number ∘ (·.nameStart) := funext hline
  rw [hsame]
  exact hlines

/-- Well-formed findings in a text with so many lines. -/
structure Findings.WellFormed (total : Nat) (found : Findings) : Prop where
  constants : found.constants.Nodup
  classLines : LinesWithin total (found.classes.map (·.line))
  functionLines : LinesWithin total (found.functions.map (·.line))
  classes : ∀ signature ∈ found.classes, signature.WellFormed total
  functions : ∀ function ∈ found.functions, function.WellFormed

theorem Method.wellFormed_signature (method : Method) (listing : Listing)
    (decorators : List String) (docComment : Option String) :
    (method.signature listing decorators docComment).WellFormed :=
  FunctionSignature.wellFormed_of_bare rfl rfl

theorem wellFormed_of_mem_methodsBehind {listing : Listing} {types : List TypeDeclaration}
    {methods : List Method} {count : Nat} {function : FunctionSignature}
    (hfunction : function ∈ methodsBehind listing types methods count) : function.WellFormed := by
  obtain ⟨method, -, rfl⟩ := List.mem_map.mp hfunction
  exact method.wellFormed_signature listing [] none

/-- What surrounds the declarations holds nothing that could be out of order. -/
theorem Findings.wellFormed_of_empty {found : Findings} (total : Nat)
    (hclasses : found.classes = [])
    (hfunctions : found.functions = []) (hconstants : found.constants = []) :
    found.WellFormed total := by
  constructor
  · rw [hconstants]
    exact List.nodup_nil
  · rw [hclasses]
    exact LinesWithin.nil total
  · rw [hfunctions]
    exact LinesWithin.nil total
  · simp [hclasses]
  · simp [hfunctions]

variable (limits : Limits) (text : List Char)

theorem wellFormed_minimalFindings :
    (minimalFindings (Listing.ofText text) (Listing.ofText text).types).WellFormed
      (lineCount text) where
  constants := List.nodup_nil
  classLines := by
    have hclasses := classes_minimalFindings text
    apply linesWithin_of_outlines
    calc
      (minimalFindings (Listing.ofText text) (Listing.ofText text).types).classes.map
          ClassSignature.outline =
        ((outlines (mask text)).map ClassSignature.ofOutline).map ClassSignature.outline :=
          congrArg (List.map ClassSignature.outline) hclasses
      _ = outlines (mask text) := by
          rw [List.map_map]
          exact List.map_id _
  functionLines := LinesWithin.nil _
  classes := by
    intro signature hsignature
    obtain ⟨type, -, rfl⟩ := List.mem_map.mp hsignature
    exact ⟨List.nodup_nil, LinesWithin.nil _, by
      simp [TypeDeclaration.signature, ClassSignature.named]⟩
  functions := by simp [minimalFindings, Findings.none]

theorem linesWithin_methodsBehind (types : List TypeDeclaration) (count : Nat) :
    LinesWithin (lineCount text)
      ((methodsBehind (Listing.ofText text) types
        ((unscopedMethods (Listing.ofText text)).take limits.partialMethodLimit) count).map
          (·.line)) := by
  have hsublist : (((unscopedMethods (Listing.ofText text)).take limits.partialMethodLimit).filter
      (typesBefore types · = count)).Sublist (Method.allIn (Cursor.ofText (mask text))) :=
    (List.filter_sublist.trans (List.take_sublist _ _)).trans List.filter_sublist
  exact linesWithin_methods hsublist fun _ => rfl

theorem wellFormed_partialFindings :
    (partialFindings limits (Listing.ofText text) (Listing.ofText text).types).WellFormed
      (lineCount text) where
  constants := (nodup_foldl_addOnce _).sublist (List.take_sublist _ _)
  classLines := linesWithin_of_outlines (outline_partialFindings limits text)
  functionLines := linesWithin_methodsBehind limits text _ 0
  classes := by
    intro signature hsignature
    obtain ⟨index, hindex, rfl⟩ := List.mem_mapIdx.mp hsignature
    exact ⟨List.nodup_nil, linesWithin_methodsBehind limits text _ _,
      fun method hmethod => wellFormed_of_mem_methodsBehind hmethod⟩
  functions function hfunction := wellFormed_of_mem_methodsBehind hfunction

theorem nodup_fieldsOf (type : TypeDeclaration) : (fieldsOf type).Nodup := by
  unfold fieldsOf
  split
  · exact nodup_foldl_addOnce _
  · exact List.nodup_nil

theorem wellFormed_fullFindings :
    (fullFindings (Listing.ofText text) (Listing.ofText text).types).WellFormed
      (lineCount text) where
  constants := nodup_foldl_addOnce _
  classLines := linesWithin_of_outlines (outline_fullFindings text)
  functionLines :=
    linesWithin_methods (freeMethods_sublist (Listing.ofText text) _) fun _ => rfl
  classes := by
    intro signature hsignature
    obtain ⟨type, htype, rfl⟩ := List.mem_map.mp hsignature
    constructor
    · exact nodup_fieldsOf type
    · exact linesWithin_methods (directMethods_sublist_allIn htype) fun _ => rfl
    · intro function hfunction
      obtain ⟨method, -, rfl⟩ := List.mem_map.mp hfunction
      exact method.wellFormed_signature _ _ _
  functions := by
    intro function hfunction
    obtain ⟨method, -, rfl⟩ := List.mem_map.mp hfunction
    exact method.wellFormed_signature _ [] none

/-- Whatever the tier and however much time there is, the findings are well formed. -/
theorem wellFormed_findings (tier : Tier) :
    (findings tier limits (Listing.ofText text) (Listing.ofText text).types).1.WellFormed
      (lineCount text) := by
  rw [findings_eq]
  split
  · cases tier with
    | minimal | partly | full => exact Findings.wellFormed_of_empty _ rfl rfl rfl
  · cases tier with
    | minimal => exact wellFormed_minimalFindings text
    | partly => exact wellFormed_partialFindings limits text
    | full => exact wellFormed_fullFindings text

theorem Findings.WellFormed.mono {total more : Nat} {found : Findings}
    (hfound : found.WellFormed total) (hle : total ≤ more) : found.WellFormed more where
  constants := hfound.constants
  classLines := hfound.classLines.mono hle
  functionLines := hfound.functionLines.mono hle
  classes signature hsignature :=
    { hfound.classes signature hsignature with
      methodLines := (hfound.classes signature hsignature).methodLines.mono hle }
  functions := hfound.functions

/-- The lines that a tier reads are lines of the file. -/
theorem lineCount_textAt_le (tier : Tier) (content : List Char) :
    lineCount (textAt tier limits content).1 ≤ lineCount content := by
  cases tier with
  | partly | full => exact Nat.le_refl _
  | minimal =>
      change lineCount (Listing.firstLinesLoop [] (limits.minimalLineLimit - 1) content).1 ≤ _
      rcases Listing.firstLinesLoop_cases (limits.minimalLineLimit - 1) content with
        hall | ⟨front, rest, hcontent, hcut⟩
      · rw [hall]
      · have hsplit : content = front ++ ['\n'] ++ rest := by rw [hcontent]; simp
        rw [hcut, hsplit]
        exact lineCount_le_append (front ++ ['\n']) rest

theorem isCut_of_completenessOf_eq_truncated :
    ∀ {isCut inTime : Bool}, completenessOf isCut inTime = .truncated → isCut = true := by
  decide

theorem tier_eq_minimal_of_isCut {tier : Tier} {content : List Char}
    (hcut : (textAt tier limits content).2 = true) : tier = .minimal := by
  cases tier with
  | minimal => rfl
  | partly | full => contradiction

theorem wellFormed_modelAt (tier : Tier) (file : SourceFile) :
    (modelAt tier limits file).WellFormed := by
  have hfound := (wellFormed_findings limits (textAt tier limits file.content.toList).1 tier).mono
    (lineCount_textAt_le limits tier file.content.toList)
  have htotal : (modelAt tier limits file).metrics.totalLines = lineCount file.content.toList :=
    Metrics.totalLines_ofText_eq_lineCount .slashes _
  constructor
  · exact Metrics.isAccounted_ofText .slashes _
  · exact hfound.constants
  · rw [htotal]
    exact hfound.classLines
  · rw [htotal]
    exact hfound.functionLines
  · rw [htotal]
    exact hfound.classes
  · exact hfound.functions
  · simp [modelAt, SourceModel.blank]
  · intro htruncated
    have hcut : (textAt tier limits file.content.toList).2 = true :=
      isCut_of_completenessOf_eq_truncated htruncated
    exact congrArg some (tier_eq_minimal_of_isCut limits hcut)
  · intro hpython
    contradiction

end SourceAtlas.CSharp

namespace SourceAtlas

/-- Every model that a file has is well formed, and has the language of the file.  Of the
parser of Python files only what it says of places, definitions and parameters matters. -/
theorem wellFormed_of_readModelWith {parser : Python.Parser} {limits : Limits}
    {tier : Option Tier} {file : SourceFile} {model : SourceModel}
    (hparser : file.language? = some .python →
      ∀ root, parser file.content = some root → root.IsFaultless →
        root.IsModule ∧ root.IsLaidOut file.content ∧ root.HasSignatures file.content)
    (hmodel : readModelWith parser limits tier file = .ok model) :
    file.language? = some model.language ∧ model.WellFormed := by
  unfold readModelWith at hmodel
  cases hlanguage : file.language? with
  | none =>
      rw [hlanguage] at hmodel
      contradiction
  | some language =>
      rw [hlanguage] at hmodel
      cases language with
      | python =>
          obtain ⟨root, hroot, hfaultless, rfl⟩ := Python.exists_root_of_extract hmodel
          obtain ⟨hmodule, hlaid, hsignatures⟩ := hparser hlanguage root hroot hfaultless
          exact ⟨rfl, Python.wellFormed_modelOf hmodule hlaid hsignatures⟩
      | csharp =>
          cases hmodel
          exact ⟨rfl, CSharp.wellFormed_modelAt limits _ file⟩

def annotatedFile : SourceFile where
  path := ⟨"task.py"⟩
  content := "\ndef run(*names: str, limit: int = 3): pass\n"
  lastModified := .epoch

/-- A file of which only the first lines are read, and one with hints and defaults. -/
theorem wellFormed_of_readModelWith_brokenOffFile_annotatedFile :
    (∃ model, readModelWith Python.parse CSharp.narrowLimits (some .minimal) CSharp.brokenOffFile =
        .ok model ∧
      model.language = .csharp ∧ model.WellFormed ∧ model.completeness = .truncated ∧
      model.classes.map (·.line) = [1] ∧ model.metrics.totalLines = 3) ∧
    ∃ model, readModelWith Python.parse .standard none annotatedFile = .ok model ∧
      model.language = .python ∧ model.WellFormed ∧
      model.functions.map (·.line) = [2] ∧ model.metrics.totalLines = 2 ∧
      model.functions.flatMap (·.parameters) = ["*names", "limit"] ∧
      model.functions.flatMap (·.typeHints.entries) = [("limit", "int"), ("names", "str")] := by
  constructor
  · have hlanguage : CSharp.brokenOffFile.language? = some .csharp := by decide +kernel
    have hread : readModelWith Python.parse CSharp.narrowLimits (some .minimal)
        CSharp.brokenOffFile =
          .ok (CSharp.modelAt .minimal CSharp.narrowLimits CSharp.brokenOffFile) := by
      rw [readModelWith, hlanguage]
      rfl
    have hwell := (wellFormed_of_readModelWith (by simp [hlanguage]) hread).2
    exact ⟨_, hread, rfl, hwell, by decide +kernel, by decide +kernel, by decide +kernel⟩
  · have hlanguage : annotatedFile.language? = some .python := by decide +kernel
    have hfound : (Python.parse annotatedFile.content).any (fun root =>
        root.IsFaultless ∧
        (root.IsModule ∧ root.IsLaidOut annotatedFile.content ∧
          root.HasSignatures annotatedFile.content) ∧
        (Python.modelOf annotatedFile root).functions.map (·.line) = [2] ∧
        (Python.modelOf annotatedFile root).metrics.totalLines = 2 ∧
        (Python.modelOf annotatedFile root).functions.flatMap (·.parameters) =
          ["*names", "limit"] ∧
        (Python.modelOf annotatedFile root).functions.flatMap (·.typeHints.entries) =
          [("limit", "int"), ("names", "str")]) = true := by
      decide +kernel
    obtain ⟨root, hroot, hfaultless, hsyntax, hshown⟩ := Python.exists_root_of_any hfound
    have hread : readModelWith Python.parse .standard none annotatedFile =
        .ok (Python.modelOf annotatedFile root) := by
      rw [readModelWith, hlanguage]
      exact Python.extract_of_isFaultless hroot hfaultless
    have hparser : ∀ found, Python.parse annotatedFile.content = some found →
        found.IsFaultless → found.IsModule ∧ found.IsLaidOut annotatedFile.content ∧
          found.HasSignatures annotatedFile.content := by
      intro found hfound _
      obtain rfl := Option.some.inj (hroot.symm.trans hfound)
      exact hsyntax
    exact ⟨_, hread, rfl, (wellFormed_of_readModelWith (fun _ => hparser) hread).2, hshown⟩

end SourceAtlas
