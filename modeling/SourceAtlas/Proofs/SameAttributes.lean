import SourceAtlas.Proofs.AttributeReaders
import SourceAtlas.Proofs.MaskedStructure
import SourceAtlas.Proofs.PartialTier

/-!
# Attributes of files with the same code

Files with one masked form have the same declarations, but what is written above them is
read from the texts themselves.  The attributes of a declaration are as many in one file as
in the other if the texts before it, read side by side, differ at most in contents that keep
the brackets, or are both given up.
-/

namespace SourceAtlas

/-- How many attributes a class has, and how many each of its methods. -/
def ClassSignature.attributeCounts (signature : ClassSignature) : Nat × List Nat :=
  (signature.decorators.length, signature.methods.map (·.decorators.length))

/-- How many attributes each class and each of its methods has, and how many each
function. -/
def SourceModel.attributeCounts (model : SourceModel) : List (Nat × List Nat) × List Nat :=
  (model.classes.map (·.attributeCounts), model.functions.map (·.decorators.length))

namespace CSharp

open Text

namespace AttributeReader

/-- Texts that, read from one state on, differ at most in contents of attributes that keep
the brackets, or that are both given up. -/
inductive Alike : AttributeReader → List Char → List Char → Prop
  | nil (reader : AttributeReader) : Alike reader [] []
  | cons {reader : AttributeReader} (c : Char) {first second : List Char}
      (hrest : Alike (reader.step c) first second) : Alike reader (c :: first) (c :: second)
  | content {squares depth : Int} {count : Nat} {content content' first second : List Char}
      (hkeeps : Keeps squares depth content) (hkeeps' : Keeps squares depth content')
      (hrest : Alike (within squares depth true count) first second) :
      Alike (within squares depth true count) (content ++ first) (content' ++ second)
  | givenUp {reader : AttributeReader} {first second : List Char}
      (hfirst : reader.run first = failed) (hsecond : reader.run second = failed) :
      Alike reader first second

namespace Alike

variable {reader : AttributeReader} {first second : List Char}

theorem run_eq (halike : Alike reader first second) : reader.run first = reader.run second := by
  induction halike with
  | nil => rfl
  | cons c _ ih => exact ih
  | content hkeeps hkeeps' _ ih =>
      rw [run_append, run_append, hkeeps.run_eq, hkeeps'.run_eq, ih]
  | givenUp hfirst hsecond => rw [hfirst, hsecond]

theorem append (front : List Char) (halike : Alike (reader.run front) first second) :
    Alike reader (front ++ first) (front ++ second) := by
  induction front generalizing reader with
  | nil => exact halike
  | cons c front ih => exact .cons c (ih halike)

theorem refl (reader : AttributeReader) (text : List Char) : Alike reader text text := by
  have halike : Alike reader (text ++ []) (text ++ []) := append text (.nil _)
  rwa [List.append_nil] at halike

/-- Arguments of an attribute may be exchanged if both keep the brackets. -/
theorem argument {squares depth : Int} {count : Nat} (front : List Char)
    {content content' : List Char} (hfront : reader.run front = within squares depth true count)
    (hkeeps : Keeps squares depth content) (hkeeps' : Keeps squares depth content')
    (behind : List Char) :
    Alike reader (front ++ (content ++ behind)) (front ++ (content' ++ behind)) := by
  apply append
  rw [hfront]
  exact .content hkeeps hkeeps' (.refl _ behind)

end Alike

end AttributeReader

namespace Annotations

/-- How many attributes the reader counts on the lines above a declaration, the nearest one
first.  Documentation between them is passed, anything else ends them. -/
def countAbove : List (List Char) → Nat
  | [] => 0
  | line :: lines =>
      if startsWith (trim line) ['/', '/', '/'] then countAbove lines
      else if (trim line).head? = some '[' then
        match ((AttributeReader.between 0).run line).result with
        | some count => count + countAbove lines
        | none => 0
      else 0

/-- A line that is neither documentation nor attributes. -/
structure EndsAt (line : List Char) : Prop where
  documentation : startsWith (trim line) ['/', '/', '/'] = false
  attributes : (trim line).head? = some '[' →
    ((AttributeReader.between 0).run line).result = none

/-- Lines, the nearest one to a declaration first, that are alike as far as they are read. -/
inductive LinesAlike : List (List Char) → List (List Char) → Prop
  | nil : LinesAlike [] []
  | documentation {line line' : List Char} {lines lines' : List (List Char)}
      (hfirst : startsWith (trim line) ['/', '/', '/'] = true)
      (hsecond : startsWith (trim line') ['/', '/', '/'] = true)
      (hrest : LinesAlike lines lines') : LinesAlike (line :: lines) (line' :: lines')
  | attributes {line line' : List Char} {lines lines' : List (List Char)}
      (hfirst : (trim line).head? = some '[') (hsecond : (trim line').head? = some '[')
      (halike : AttributeReader.Alike (.between 0) line line')
      (hrest : LinesAlike lines lines') : LinesAlike (line :: lines) (line' :: lines')
  | ended {line line' : List Char} (lines lines' : List (List Char)) (hfirst : EndsAt line)
      (hsecond : EndsAt line') : LinesAlike (line :: lines) (line' :: lines')

variable {line : List Char} {lines lines' : List (List Char)}

/-- A line in brackets is not documentation. -/
theorem startsWith_slashes_of_head? (hopen : (trim line).head? = some '[') :
    startsWith (trim line) ['/', '/', '/'] = false := by
  cases hline : trim line with
  | nil => rfl
  | cons c rest =>
      rw [hline] at hopen
      obtain rfl := Option.some.inj hopen
      rfl

theorem EndsAt.countAbove_eq (hends : EndsAt line) (lines : List (List Char)) :
    countAbove (line :: lines) = 0 := by
  by_cases hopen : (trim line).head? = some '['
  · simp only [countAbove, hends.documentation, hopen, hends.attributes hopen, if_true,
      Bool.false_eq_true, if_false]
  · simp only [countAbove, hends.documentation, hopen, Bool.false_eq_true, if_false]

theorem length_readUpwards (annotations : Annotations) (lines : List (List Char)) :
    (annotations.readUpwards lines).attributes.length =
      annotations.attributes.length + countAbove lines := by
  induction lines generalizing annotations with
  | nil => rfl
  | cons line lines ih =>
      have hcount := AttributeReader.length_attributes? (trim line)
      rw [AttributeReader.run_trim] at hcount
      cases hslashes : dropWord? ['/', '/', '/'] (trim line) with
      | some content =>
          have hdocumentation : startsWith (trim line) ['/', '/', '/'] = true := by
            rw [startsWith, hslashes, Option.isSome_some]
          simp only [readUpwards, hslashes, ih, countAbove, hdocumentation, if_true]
      | none =>
          have hdocumentation : startsWith (trim line) ['/', '/', '/'] = false := by
            rw [startsWith, hslashes, Option.isSome_none]
          by_cases hopen : (trim line).head? = some '['
          · cases hfound : attributes? (trim line) with
            | none =>
                rw [hfound, Option.map_none] at hcount
                simp only [readUpwards, hslashes, hopen, hfound, countAbove, hdocumentation,
                  ← hcount, if_true, Bool.false_eq_true, if_false, Nat.add_zero]
            | some found =>
                rw [hfound, Option.map_some] at hcount
                simp only [readUpwards, hslashes, hopen, hfound, ih, countAbove, hdocumentation,
                  ← hcount, if_true, Bool.false_eq_true, if_false, List.length_append]
                omega
          · simp only [readUpwards, hslashes, hopen, countAbove, hdocumentation,
              Bool.false_eq_true, if_false, Nat.add_zero]

theorem LinesAlike.countAbove_eq (halike : LinesAlike lines lines') :
    countAbove lines = countAbove lines' := by
  induction halike with
  | nil => rfl
  | documentation hfirst hsecond _ ih => simp only [countAbove, hfirst, hsecond, if_true, ih]
  | attributes hfirst hsecond halike _ ih =>
      simp only [countAbove, startsWith_slashes_of_head? hfirst,
        startsWith_slashes_of_head? hsecond, hfirst, hsecond, halike.run_eq, ih]
  | ended _ _ hfirst hsecond => rw [hfirst.countAbove_eq, hsecond.countAbove_eq]

end Annotations

namespace Listing

variable {first second : Listing} {start : Nat}

/-- What stands before an offset on its line. -/
def textBefore (listing : Listing) (start : Nat) : List Char :=
  takeBytes (start - listing.lines.start (listing.lines.indexOf start))
    (listing.lines.line (listing.lines.indexOf start))

/-- How many attributes the reader counts before a declaration. -/
def attributeCount (listing : Listing) (start : Nat) : Nat :=
  match ((AttributeReader.between 0).run (listing.textBefore start)).result with
  | some count => count + Annotations.countAbove (listing.linesAbove (listing.lines.indexOf start))
  | none => 0

theorem length_annotations (listing : Listing) (start : Nat) :
    (listing.annotations start).attributes.length = listing.attributeCount start := by
  have hcount := AttributeReader.length_attributes? (listing.textBefore start)
  unfold attributeCount
  cases hfound : attributes? (listing.textBefore start) with
  | none =>
      rw [hfound, Option.map_none] at hcount
      unfold textBefore at hfound
      simp only [← hcount, annotations, hfound, List.length_nil]
  | some found =>
      rw [hfound, Option.map_some] at hcount
      unfold textBefore at hfound
      simp only [← hcount, annotations, hfound, Annotations.length_readUpwards]

/-- What is read before a declaration is alike in two listings. -/
structure AnnotatedAlike (first second : Listing) (start : Nat) : Prop where
  before : AttributeReader.Alike (.between 0) (first.textBefore start) (second.textBefore start)
  above : ((AttributeReader.between 0).run (first.textBefore start)).result ≠ none →
    Annotations.LinesAlike (first.linesAbove (first.lines.indexOf start))
      (second.linesAbove (second.lines.indexOf start))

theorem annotatedAlike_of_linesAbove (hbefore : first.textBefore start = second.textBefore start)
    {lines lines' : List (List Char)}
    (hfirst : first.linesAbove (first.lines.indexOf start) = lines)
    (hsecond : second.linesAbove (second.lines.indexOf start) = lines')
    (halike : Annotations.LinesAlike lines lines') : AnnotatedAlike first second start where
  before := by
    rw [hbefore]
    exact .refl _ _
  above _ := by
    rw [hfirst, hsecond]
    exact halike

theorem AnnotatedAlike.attributeCount_eq (halike : AnnotatedAlike first second start) :
    first.attributeCount start = second.attributeCount start := by
  unfold attributeCount
  rw [← halike.before.run_eq]
  cases hresult : ((AttributeReader.between 0).run (first.textBefore start)).result with
  | none => rfl
  | some count =>
      have habove := halike.above (by simp [hresult])
      simp only [habove.countAbove_eq]

end Listing

/-- Where the declarations start that attributes are read for. -/
def annotatedStarts (types : List TypeDeclaration) : List Nat :=
  types.flatMap fun type => type.start :: (directMethods type).map (·.start)

def Findings.attributeCounts (found : Findings) : List (Nat × List Nat) × List Nat :=
  (found.classes.map (·.attributeCounts), found.functions.map (·.decorators.length))

variable {first second : Listing}

/-- How many attributes the reader counts on each type and each of its methods. -/
def countsOf (listing : Listing) (types : List TypeDeclaration) : List (Nat × List Nat) :=
  types.map fun type =>
    (listing.attributeCount type.start,
      (directMethods type).map fun method => listing.attributeCount method.start)

theorem attributeCounts_fullFindings (listing : Listing) (types : List TypeDeclaration) :
    (fullFindings listing types).attributeCounts =
      (countsOf listing types, (freeMethods listing types).map fun _ => 0) := by
  have hclass : ∀ type : TypeDeclaration, (fullSignature listing type).attributeCounts =
      (listing.attributeCount type.start,
        (directMethods type).map fun method => listing.attributeCount method.start) := by
    intro type
    simp only [fullSignature, ClassSignature.attributeCounts, List.map_map, Function.comp_def,
      memberSignature, Method.signature, Listing.length_annotations]
  have hfunction : ∀ method : Method,
      (method.signature listing [] none).decorators.length = 0 := fun _ => rfl
  simp only [Findings.attributeCounts, fullFindings, List.map_map, Function.comp_def, hclass,
    hfunction, countsOf]

theorem countsOf_eq {types : List TypeDeclaration}
    (hannotated : ∀ start ∈ annotatedStarts types, Listing.AnnotatedAlike first second start) :
    countsOf first types = countsOf second types := by
  apply List.map_congr_left
  intro type htype
  have hstarts : ∀ start ∈ type.start :: (directMethods type).map (·.start),
      first.attributeCount start = second.attributeCount start := fun start hstart =>
    (hannotated start (List.mem_flatMap.mpr ⟨type, htype, hstart⟩)).attributeCount_eq
  obtain ⟨hstart, hmethods⟩ := List.forall_mem_cons.mp hstarts
  have hcounts := List.map_congr_left fun method hmethod =>
    hmethods (Method.start method) (List.mem_map_of_mem hmethod)
  rw [hstart, hcounts]

/-- Only the full tier reads attributes. -/
theorem attributeCounts_findings (halike : first.Alike second) (tier : Tier) (limits : Limits)
    (types : List TypeDeclaration)
    (hannotated : tier = .full →
      ∀ start ∈ annotatedStarts types, Listing.AnnotatedAlike first second start) :
    (findings tier limits first types).1.attributeCounts =
      (findings tier limits second types).1.attributeCounts := by
  have htimed : hasTimedWork tier limits first types = hasTimedWork tier limits second types := by
    simp only [hasTimedWork, halike.masked]
  rw [findings_eq, findings_eq, htimed]
  split
  · have hnone : ∀ listing, (surroundings listing types).attributeCounts = ([], []) :=
      fun _ => rfl
    cases tier with
    | minimal => rfl
    | partly => rfl
    | full => rw [hnone, hnone]
  · cases tier with
    | minimal => rw [halike.minimalFindings]
    | partly => rw [halike.partialFindings]
    | full =>
        rw [attributeCounts_fullFindings, attributeCounts_fullFindings,
          countsOf_eq (hannotated rfl), halike.freeMethods]

theorem attributeCounts_modelAt {first second : SourceFile}
    (hmask : mask first.content.toList = mask second.content.toList) (tier : Tier)
    (limits : Limits)
    (hannotated : ∀ start ∈ annotatedStarts
        (TypeDeclaration.topLevel (mask first.content.toList)),
      Listing.AnnotatedAlike (Listing.ofText first.content.toList)
        (Listing.ofText second.content.toList) start) :
    (modelAt tier limits first).attributeCounts = (modelAt tier limits second).attributeCounts := by
  have halike := Listing.alike_of_mask_eq (textAt_of_mask_eq hmask tier limits).1
  have hcounts := attributeCounts_findings halike tier limits
    (TypeDeclaration.topLevel (Listing.ofText (textAt tier limits first.content.toList).1).masked)
    (by
      rintro rfl
      exact hannotated)
  conv at hcounts => rhs; rw [halike.masked]
  exact hcounts

theorem classes_modelAt_full {limits : Limits} (hbudget : limits.isSpent = false)
    (file : SourceFile) :
    (modelAt .full limits file).classes.map (·.attributeCounts) =
      countsOf (Listing.ofText file.content.toList)
        (TypeDeclaration.topLevel (mask file.content.toList)) := by
  unfold modelAt
  simp only [textAt, findings_of_isSpent_eq_false _ hbudget]
  exact congrArg Prod.fst (attributeCounts_fullFindings _ _)

/-- At the full tier, in time, a class or a method has as many attributes as the reader counts
in the text before it.  Files of one path and one masked form have equally many on each, at every
tier, if what is read before each declaration is alike.  What a quotation mark ends in an attribute
is counted like the blanks it is masked with, whatever follows on the line, exactly if it keeps
the brackets. -/
theorem readModel_attributeCounts (limits : Limits) :
    (∀ file : SourceFile, file.language? = some .csharp → limits.isSpent = false →
      ∃ model, readModel limits (some .full) file = .ok model ∧
        model.classes.map (·.attributeCounts) = countsOf (Listing.ofText file.content.toList)
          (TypeDeclaration.topLevel (mask file.content.toList))) ∧
    (∀ (tier : Option Tier) (first second : SourceFile), first.path = second.path →
      first.language? = some .csharp → mask first.content.toList = mask second.content.toList →
      (∀ start ∈ annotatedStarts (TypeDeclaration.topLevel (mask first.content.toList)),
        Listing.AnnotatedAlike (Listing.ofText first.content.toList)
          (Listing.ofText second.content.toList) start) →
      ∃ model model', readModel limits tier first = .ok model ∧
        readModel limits tier second = .ok model' ∧
          model.attributeCounts = model'.attributeCounts) ∧
    ∀ (squares depth : Int) (count : Nat) (front content : List Char), ∀ quote ∈ ['"', '\''],
      (AttributeReader.between 0).run front = .within squares depth true count →
      ((∀ behind, (attributes? (front ++ (content ++ quote :: behind))).map List.length =
          (attributes? (front ++
            (List.replicate (byteWidth content) ' ' ++ quote :: behind))).map List.length) ↔
        AttributeReader.Keeps squares depth content) := by
  refine ⟨?_, ?_, ?_⟩
  · intro file hlanguage hbudget
    exact ⟨_, readModel_of_csharp hlanguage limits .full, classes_modelAt_full hbudget file⟩
  · intro tier first second hpath hlanguage hmask hannotated
    have hlanguage' : second.language? = some .csharp := by
      unfold SourceFile.language? at *
      rw [← hpath, hlanguage]
    refine ⟨_, _, readModel_eq_extract hlanguage limits tier,
      readModel_eq_extract hlanguage' limits tier, ?_⟩
    unfold extract
    rw [utf8ByteSize_eq_of_mask_eq hmask]
    exact attributeCounts_modelAt hmask _ limits hannotated
  · intro squares depth count front content quote hmark hfront
    exact AttributeReader.length_attributes?_blank_iff hmark hfront

/-- A class and a method with brackets and commas in the arguments of their attributes. -/
def routedFile : SourceFile :=
  { path := ⟨"C.cs"⟩
    content := "[Route(\"api/[name]\")]\nclass C \x7b\n  [Tag(\"f(x, y)\"), Slow]\n  void F();\n\x7d\n"
    lastModified := .epoch }

/-- The class and the method with other arguments. -/
def reroutedFile : SourceFile :=
  { routedFile with
    content := "[Route(\"all (x, y)\")]\nclass C \x7b\n  [Tag(\"see [1]\"), Slow]\n  void F();\n\x7d\n" }

theorem annotatedAlike_routedFile :
    ∀ start ∈ annotatedStarts (TypeDeclaration.topLevel (mask routedFile.content.toList)),
      Listing.AnnotatedAlike (Listing.ofText routedFile.content.toList)
        (Listing.ofText reroutedFile.content.toList) start := by
  have hkeeps : ∀ content, (AttributeReader.within 1 1 true 0).run content = .within 1 1 true 0 →
      AttributeReader.Keeps 1 1 content := fun content =>
    (AttributeReader.run_eq_self_iff (by decide) 1 0).mp
  have hroute : AttributeReader.Alike (.between 0) "[Route(\"api/[name]\")]\n".toList
      "[Route(\"all (x, y)\")]\n".toList :=
    .argument "[Route(\"".toList rfl (hkeeps "api/[name]".toList (by decide +kernel))
      (hkeeps "all (x, y)".toList (by decide +kernel)) "\")]\n".toList
  have htag : AttributeReader.Alike (.between 0) "  [Tag(\"f(x, y)\"), Slow]\n".toList
      "  [Tag(\"see [1]\"), Slow]\n".toList :=
    .argument "  [Tag(\"".toList rfl (hkeeps "f(x, y)".toList (by decide +kernel))
      (hkeeps "see [1]".toList (by decide +kernel)) "\"), Slow]\n".toList
  have hclass : Annotations.EndsAt "class C \x7b\n".toList :=
    ⟨by decide +kernel, by decide +kernel⟩
  have hstarts : annotatedStarts (TypeDeclaration.topLevel (mask routedFile.content.toList)) =
      [22, 59] := by decide +kernel
  rw [hstarts, List.forall_mem_cons, List.forall_mem_singleton]
  constructor
  · apply Listing.annotatedAlike_of_linesAbove (by decide +kernel)
      (show _ = ["[Route(\"api/[name]\")]\n".toList] by decide +kernel)
      (show _ = ["[Route(\"all (x, y)\")]\n".toList] by decide +kernel)
    exact .attributes (by decide +kernel) (by decide +kernel) hroute .nil
  · apply Listing.annotatedAlike_of_linesAbove (by decide +kernel)
      (show _ = ["  [Tag(\"f(x, y)\"), Slow]\n".toList, "class C \x7b\n".toList,
        "[Route(\"api/[name]\")]\n".toList] by decide +kernel)
      (show _ = ["  [Tag(\"see [1]\"), Slow]\n".toList, "class C \x7b\n".toList,
        "[Route(\"all (x, y)\")]\n".toList] by decide +kernel)
    exact .attributes (by decide +kernel) (by decide +kernel) htag (.ended _ _ hclass hclass)

/-- The brackets of the second tag are closed in it, so no rest of the line tells it from
blanks. -/
theorem readModel_attributeCounts_routedFile :
    routedFile.path = reroutedFile.path ∧ routedFile.language? = some .csharp ∧
      Limits.standard.isSpent = false ∧
      mask routedFile.content.toList = mask reroutedFile.content.toList ∧
      (∃ model, readModel .standard (some .full) routedFile = .ok model ∧
        model.classes.map (·.attributeCounts) = [(1, [2])]) ∧
      (∃ model model', readModel .standard (some .full) routedFile = .ok model ∧
        readModel .standard (some .full) reroutedFile = .ok model' ∧
          model.attributeCounts = model'.attributeCounts) ∧
      (AttributeReader.between 0).run "[Tag(\"".toList = .within 1 1 true 0 ∧
      ∀ behind,
        (attributes? ("[Tag(\"".toList ++ ("see [1]".toList ++ '"' :: behind))).map List.length =
          (attributes? ("[Tag(\"".toList ++
            (List.replicate 7 ' ' ++ '"' :: behind))).map List.length := by
  have hlanguage : routedFile.language? = some .csharp := by decide
  have hmask : mask routedFile.content.toList = mask reroutedFile.content.toList := by
    decide +kernel
  have hfront : (AttributeReader.between 0).run "[Tag(\"".toList = .within 1 1 true 0 := by
    decide +kernel
  have hkeeps : AttributeReader.Keeps 1 1 "see [1]".toList :=
    (AttributeReader.run_eq_self_iff (by decide) 1 0).mp (by decide +kernel)
  have hcountsOf : countsOf (Listing.ofText routedFile.content.toList)
      (TypeDeclaration.topLevel (mask routedFile.content.toList)) = [(1, [2])] := by
    decide +kernel
  obtain ⟨hclasses, hcounts, hcontents⟩ := readModel_attributeCounts .standard
  have hread := hclasses routedFile hlanguage rfl
  rw [hcountsOf] at hread
  exact ⟨rfl, hlanguage, rfl, hmask, hread, hcounts (some .full) routedFile reroutedFile rfl
    hlanguage hmask annotatedAlike_routedFile, hfront,
    (hcontents 1 1 0 "[Tag(\"".toList "see [1]".toList '"' List.mem_cons_self hfront).mpr hkeeps⟩

/-- A class whose route leaves a square bracket open. -/
def openRouteFile : SourceFile :=
  { routedFile with content := "[Route(\"a[b\")]\nclass C { }\n" }

/-- The class with a blank route. -/
def blankRouteFile : SourceFile :=
  { routedFile with content := "[Route(\"   \")]\nclass C { }\n" }

/-- The open bracket takes the class its attribute. -/
theorem not_attributeCounts_eq_openRouteFile :
    openRouteFile.path = blankRouteFile.path ∧ openRouteFile.language? = some .csharp ∧
      mask openRouteFile.content.toList = mask blankRouteFile.content.toList ∧
      ¬∀ model model', readModel .standard (some .full) openRouteFile = .ok model →
        readModel .standard (some .full) blankRouteFile = .ok model' →
          model.attributeCounts = model'.attributeCounts := by
  have hlanguage : openRouteFile.language? = some .csharp := by decide
  have hlanguage' : blankRouteFile.language? = some .csharp := by decide
  have hmask : mask openRouteFile.content.toList = mask blankRouteFile.content.toList := by
    decide +kernel
  have hdifferent : (modelAt .full .standard openRouteFile).attributeCounts ≠
      (modelAt .full .standard blankRouteFile).attributeCounts := by
    decide +kernel
  exact ⟨rfl, hlanguage, hmask, fun hsame =>
    hdifferent (hsame _ _ (readModel_of_csharp hlanguage .standard .full)
      (readModel_of_csharp hlanguage' .standard .full))⟩

end CSharp

end SourceAtlas
