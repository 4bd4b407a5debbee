import SourceAtlas.Proofs.MaskedStructure
import SourceAtlas.Proofs.PlacedLines

/-!
# Lines that count as comments

The metrics tell the comments of a file by how its trimmed lines begin, and a block by the
lines up to the first one that holds its end.  The scanner that masks a text follows every
character.  Both agree on a line unless code stands behind the end of a comment on it, or a
block comment reaches over it that the metrics have not seen begin.
-/

namespace SourceAtlas

open Text
open CSharp.AttributeReader (isSolid isSolid_eq)

/-- What the lines of a text count as, where the first one may lie in a block comment. -/
def CommentStyle.classesFrom (style : CommentStyle) : Bool → List (List Char) → List LineClass
  | _, [] => []
  | inBlock, line :: rest =>
      (style.classify inBlock line).1 :: style.classesFrom (style.classify inBlock line).2 rest

def CommentStyle.classes (style : CommentStyle) (text : List Char) : List LineClass :=
  style.classesFrom false (lines text)

/-- What a line is beside its masked form. -/
def LineClass.ofMasked (line masked : List Char) : LineClass :=
  if (trim line).isEmpty then .blank else if (trim masked).isEmpty then .comment else .code

/-- What a line is, if it is known whether it and its masked form show anything. -/
def LineClass.ofSolid (line masked : Bool) : LineClass :=
  if !line then .blank else if !masked then .comment else .code

/-- The lines of a text by what is left of them in the masked text. -/
def maskedClasses (text : List Char) : List LineClass :=
  List.zipWith LineClass.ofMasked (lines text) (lines (mask text))

/-- Metrics with as many lines of each class. -/
structure Metrics.CountsAs (metrics : Metrics) (classes : List LineClass) : Prop where
  total : metrics.totalLines = classes.length
  code : metrics.codeLines = classes.count .code
  comment : metrics.commentLines = classes.count .comment
  blank : metrics.blankLines = classes.count .blank

namespace Metrics

theorem CountsAs.addLine {metrics : Metrics} {classes : List LineClass}
    (hcounts : metrics.CountsAs classes) (kind : LineClass) :
    (metrics.addLine kind).CountsAs (classes ++ [kind]) := by
  obtain ⟨htotal, hcode, hcomment, hblank⟩ := hcounts
  cases kind with
  | blank | comment | code =>
      constructor <;> simp [Metrics.addLine, *]

theorem CountsAs.countLines {metrics : Metrics} {classes : List LineClass}
    (hcounts : metrics.CountsAs classes) (style : CommentStyle) (inBlock : Bool)
    (lines : List (List Char)) :
    (countLines style metrics inBlock lines).CountsAs
      (classes ++ style.classesFrom inBlock lines) := by
  induction lines generalizing metrics classes inBlock with
  | nil =>
      rw [CommentStyle.classesFrom, List.append_nil]
      exact hcounts
  | cons line lines ih =>
      have hnext := ih (hcounts.addLine (style.classify inBlock line).1)
        (style.classify inBlock line).2
      rw [List.append_assoc] at hnext
      exact hnext

theorem countsAs_ofText (style : CommentStyle) (text : List Char) :
    (ofText style text).CountsAs (style.classes text) := by
  have hzero : { zero with complexity := 1 }.CountsAs [] := ⟨rfl, rfl, rfl, rfl⟩
  exact hzero.countLines style false (lines text)

end Metrics

def opensBlock (line : List Char) : Bool :=
  startsWith (trim line) ['/', '*']

def closesBlock (line : List Char) : Bool :=
  occursIn ['*', '/'] (trim line)

/-- Going up, one comes to a line that begins a block before any that closes one. -/
def belowOpener (above : List (List Char)) : Bool :=
  (above.takeWhile (!closesBlock ·)).any opensBlock

theorem belowOpener_cons (line : List Char) (above : List (List Char)) :
    belowOpener (line :: above) =
      (!closesBlock line && (opensBlock line || belowOpener above)) := by
  unfold belowOpener
  cases hcloses : closesBlock line with
  | true => simp [hcloses]
  | false => simp [hcloses]

theorem startsWith_slashAsterisk_of_twoSlashes {text : List Char}
    (hslashes : startsWith text ['/', '/'] = true) : startsWith text ['/', '*'] = false := by
  obtain ⟨rest, rfl⟩ := startsWith_iff.mp hslashes
  rfl

/-- The state of the metrics is told by the lines above. -/
theorem classify_slashes_belowOpener (above : List (List Char)) (line : List Char) :
    (CommentStyle.slashes.classify (belowOpener above) line).2 = belowOpener (line :: above) := by
  rw [belowOpener_cons]
  unfold CommentStyle.classify opensBlock closesBlock
  generalize belowOpener above = inBlock
  cases htrimmed : trim line with
  | nil => rfl
  | cons c rest =>
      simp only [List.isEmpty_cons, Bool.false_eq_true, if_false]
      cases inBlock with
      | true => simp
      | false =>
          by_cases hslashes : startsWith (c :: rest) ['/', '/'] = true
          · simp [hslashes, startsWith_slashAsterisk_of_twoSlashes hslashes]
          · by_cases hopens : startsWith (c :: rest) ['/', '*'] = true
            · simp [hslashes, hopens]
            · simp [hslashes, hopens]

namespace Text.PlacedLine

variable (place : PlacedLine)

def countsAsComment : Bool :=
  belowOpener place.above || startsWith (trim place.line) ['/', '/'] || opensBlock place.line

/-- What the line counts as in the metrics. -/
def counted : LineClass :=
  if !isSolid place.line then .blank else if place.countsAsComment then .comment else .code

/-- What is left of the line in the masked text. -/
def shown : LineClass :=
  LineClass.ofSolid (isSolid place.line) (isSolid place.masked)

/-- Code is shown on a line that counts as a comment. -/
def hidesCode : Bool :=
  isSolid place.line && place.countsAsComment && closesBlock place.line && isSolid place.masked

/-- A line of a block comment counts as code. -/
def isOverlooked : Bool :=
  isSolid place.line && place.region = .blockComment && !isSolid place.masked &&
    !place.countsAsComment

theorem classify_slashes :
    (CommentStyle.slashes.classify (belowOpener place.above) place.line).1 = place.counted := by
  unfold CommentStyle.classify counted countsAsComment opensBlock
  rw [isSolid_eq, Bool.not_not]
  generalize belowOpener place.above = inBlock
  cases htrimmed : trim place.line with
  | nil => rfl
  | cons c rest =>
      simp only [List.isEmpty_cons, Bool.false_eq_true, if_false]
      cases inBlock with
      | true => rfl
      | false =>
          by_cases hslashes : startsWith (c :: rest) ['/', '/'] = true
          · simp [hslashes]
          · by_cases hopens : startsWith (c :: rest) ['/', '*'] = true
            · simp [hslashes, hopens]
            · simp [hslashes, hopens]

end Text.PlacedLine

theorem map_counted_placeLines (region : Region) (above lines : List (List Char)) :
    (placeLines region above lines).map (·.counted) =
      CommentStyle.slashes.classesFrom (belowOpener above) lines := by
  induction lines generalizing region above with
  | nil => rfl
  | cons line lines ih =>
      rw [placeLines, List.map_cons, CommentStyle.classesFrom, classify_slashes_belowOpener, ih,
        ← PlacedLine.classify_slashes]

theorem classes_slashes (text : List Char) :
    CommentStyle.slashes.classes text = (placedLines text).map (·.counted) :=
  (map_counted_placeLines _ [] _).symm

theorem LineClass.ofMasked_eq (line masked : List Char) :
    LineClass.ofMasked line masked = LineClass.ofSolid (isSolid line) (isSolid masked) := by
  rw [LineClass.ofMasked, LineClass.ofSolid, isSolid_eq, isSolid_eq, Bool.not_not, Bool.not_not]

theorem maskedClasses_eq {text : List Char} (htext : IsPlain text) :
    maskedClasses text = (placedLines text).map (·.shown) := by
  have hlines : lines text = (placedLines text).map (·.line) :=
    (map_line_placeLines .plainCode [] (lines text)).symm
  have hmasked : (lines (mask text)).map isSolid = (placedLines text).map (isSolid ·.masked) :=
    map_isSolid_lines_maskFrom (Or.inl rfl) htext []
  have hclass : LineClass.ofMasked =
      fun line masked => LineClass.ofSolid (isSolid line) (isSolid masked) := by
    funext line masked
    exact LineClass.ofMasked_eq line masked
  rw [maskedClasses, hclass, ← List.zipWith_map, hmasked, hlines, List.map_map,
    List.zipWith_map, List.zipWith_self]
  rfl

theorem prefix_of_opensBlock {line : List Char} (hopens : opensBlock line = true) :
    ['/', '*'] <+: trimStart line :=
  (prefix_trim_iff (solid_of_any (by decide))).mp (startsWith_iff.mp hopens)

theorem not_infix_of_closesBlock {line : List Char} (hcloses : closesBlock line = false) :
    ¬['*', '/'] <:+: line := by
  rw [closesBlock, ← Bool.not_eq_true, occursIn_iff,
    infix_trim_iff (by decide) (solid_of_any (by decide))] at hcloses
  exact hcloses

/-- A block that the metrics have seen begin is one for the scanner as well. -/
theorem behind_of_belowOpener {region : Region} (hregion : region.AtLineStart)
    {above : List (List Char)} (habove : belowOpener above = true → region = .blockComment)
    {line : List Char} (hline : IsPlain line) (hrow : '\n' ∉ line)
    (hbelow : belowOpener (line :: above) = true) :
    region.behind (line ++ ['\n']) = .blockComment := by
  rw [belowOpener_cons, Bool.and_eq_true, Bool.not_eq_true', Bool.or_eq_true] at hbelow
  obtain ⟨hcloses, hopens⟩ := hbelow
  have hopen := not_infix_of_closesBlock hcloses
  have hbehind : region.behind line = .blockComment := by
    rcases hregion with rfl | rfl
    · rcases hopens with hopens | habove'
      · exact (Region.startsComment_slashAsterisk hrow hopen (prefix_of_opensBlock hopens)).behind
      · exact absurd (habove habove') (by decide)
    · exact (Region.swallows_blockComment hrow hopen).behind
  rw [hregion.unquoted.behind_line hline, hbehind]
  rfl

/-- What is known of a line of a text without hash signs and quotes.  What the metrics take for
a block is one. -/
structure Text.PlacedLine.InPlace (place : PlacedLine) : Prop where
  plain : place.IsPlain
  below : belowOpener place.above = true → place.region = .blockComment

theorem inPlace_of_mem_placeLines {region : Region} (hregion : region.AtLineStart)
    {above : List (List Char)} (habove : belowOpener above = true → region = .blockComment)
    {lines : List (List Char)} (hlines : ∀ line ∈ lines, IsPlain line ∧ '\n' ∉ line)
    {place : PlacedLine} (hplace : place ∈ placeLines region above lines) : place.InPlace := by
  refine ⟨isPlain_of_mem_placeLines hregion hlines hplace, fun hbelow => ?_⟩
  induction lines generalizing region above with
  | nil => contradiction
  | cons line lines ih =>
      obtain ⟨⟨hline, hrow⟩, hlines⟩ := List.forall_mem_cons.mp hlines
      rcases List.mem_cons.mp hplace with rfl | hplace
      · exact habove hbelow
      · exact ih (hregion.behind hline) (behind_of_belowOpener hregion habove hline hrow) hlines
          hplace

theorem inPlace_of_mem_placedLines {text : List Char} (htext : IsPlain text)
    {place : PlacedLine} (hplace : place ∈ placedLines text) : place.InPlace :=
  inPlace_of_mem_placeLines (Or.inl rfl) (fun hbelow => absurd hbelow (by decide))
    (fun _ => isPlain_and_notMem_of_mem_lines htext) hplace

namespace Text.PlacedLine

variable {place : PlacedLine}

/-- A line that counts as a comment shows nothing, unless the end of a block stands on it. -/
theorem masked_of_countsAsComment (hplace : place.InPlace)
    (hcounts : place.countsAsComment = true) (hcloses : closesBlock place.line = false) :
    isSolid place.masked = false := by
  obtain ⟨hplain, hbelow⟩ := hplace
  have hopen := not_infix_of_closesBlock hcloses
  rcases hplain.region with hregion | hregion
  · rw [masked, hregion]
    rw [countsAsComment, Bool.or_eq_true, Bool.or_eq_true] at hcounts
    rcases hcounts with (habove | hslashes) | hopens
    · rw [hbelow habove] at hregion
      contradiction
    · rw [startsWith_iff, prefix_trim_iff (solid_of_any (by decide))] at hslashes
      exact (Region.startsComment_twoSlashes hplain.row hslashes).masked
    · exact (Region.startsComment_slashAsterisk hplain.row hopen
        (prefix_of_opensBlock hopens)).masked
  · rw [masked, hregion]
    exact (Region.swallows_blockComment hplain.row hopen).masked

/-- In code, only what begins with the sign of a comment shows nothing. -/
theorem beginsComment_of_masked {c : Char} {rest : List Char} (hc : isBlank c = false)
    (hplain : Text.IsPlain (c :: rest))
    (hmasked : isSolid (maskFrom .plainCode (c :: rest)) = false) :
    c = '/' ∧ (rest.head? = some '/' ∨ rest.head? = some '*') := by
  obtain ⟨⟨hhash, hdouble, hsingle⟩, -⟩ := isPlain_cons_iff.mp hplain
  rw [maskFrom_cons, isSolid_append, Bool.or_eq_false_iff] at hmasked
  by_contra hnot
  have hslash : (decide (c = '/') && decide (rest.head? = some '/')) = false := by
    simp only [Bool.and_eq_false_imp, decide_eq_true_eq, decide_eq_false_iff_not]
    exact fun hc hhead => hnot ⟨hc, .inl hhead⟩
  have hasterisk : (decide (c = '/') && decide (rest.head? = some '*')) = false := by
    simp only [Bool.and_eq_false_imp, decide_eq_true_eq, decide_eq_false_iff_not]
    exact fun hc hhead => hnot ⟨hc, .inr hhead⟩
  obtain ⟨next, hstep⟩ := Region.exists_step_plain ⟨hhash, hdouble, hsingle⟩ hslash hasterisk
    .absent
  rw [hstep] at hmasked
  simp [isSolid, hc] at hmasked

/-- A line that begins in code and shows nothing begins with a comment. -/
theorem countsAsComment_of_masked (hplain : place.IsPlain) (hregion : place.region = .plainCode)
    (hsolid : isSolid place.line = true) (hmasked : isSolid place.masked = false) :
    place.countsAsComment = true := by
  obtain ⟨blanks, hblanks, hline⟩ := exists_blanks_trimStart place.line
  cases hstart : trimStart place.line with
  | nil =>
      rw [isSolid_eq, trim, hstart] at hsolid
      contradiction
  | cons c rest =>
      have hc : isBlank c = false := isBlank_of_mem_head?_trimStart (by rw [hstart]; rfl)
      rw [hstart] at hline
      have hrest : Text.IsPlain (c :: rest) := by
        have hwhole := hplain.line
        rw [hline] at hwhole
        exact (isPlain_append_iff.mp hwhole).2
      obtain ⟨-, -, hsame⟩ := Region.plainCode_blanks_append hblanks (c :: rest)
      rw [masked, hregion, hline, hsame] at hmasked
      obtain ⟨rfl, hnext⟩ := beginsComment_of_masked hc hrest hmasked
      have hbegins : ∀ d, isBlank d = false → rest.head? = some d →
          startsWith (trim place.line) ['/', d] = true := by
        intro d hd hhead
        obtain ⟨behind, rfl⟩ := List.head?_eq_some_iff.mp hhead
        rw [startsWith_iff, prefix_trim_iff (by simp [hc, hd]), hstart]
        exact ⟨behind, rfl⟩
      rw [countsAsComment, Bool.or_eq_true, Bool.or_eq_true]
      rcases hnext with hslash | hasterisk
      · exact .inl (.inr (hbegins '/' (by decide) hslash))
      · exact .inr (hbegins '*' (by decide) hasterisk)

/-- The metrics and the mask tell the same of a line, or code shows on a line that counts as a
comment, or a line of a block counts as code. -/
theorem counted_cases (hplace : place.InPlace) :
    place.counted = place.shown ∧ place.hidesCode = false ∧ place.isOverlooked = false ∨
      place.counted = .comment ∧ place.shown = .code ∧
        place.hidesCode = true ∧ place.isOverlooked = false ∨
      place.counted = .code ∧ place.shown = .comment ∧
        place.hidesCode = false ∧ place.isOverlooked = true := by
  have hcomment := masked_of_countsAsComment hplace
  have hcode := countsAsComment_of_masked hplace.plain
  unfold counted shown LineClass.ofSolid hidesCode isOverlooked
  cases hsolid : isSolid place.line with
  | false => simp
  | true =>
      cases hcounts : place.countsAsComment with
      | true =>
          cases hmasked : isSolid place.masked with
          | false => simp
          | true =>
              have hcloses : closesBlock place.line = true := by
                by_contra hopen
                rw [hcomment hcounts (by simpa using hopen)] at hmasked
                contradiction
              simp [hcloses]
      | false =>
          cases hmasked : isSolid place.masked with
          | true => simp
          | false =>
              have hregion : place.region = .blockComment := by
                refine hplace.plain.region.resolve_left fun hregion => ?_
                rw [hcode hregion hsolid hmasked] at hcounts
                contradiction
              simp [hregion]

theorem counted_eq_shown_iff (hplace : place.InPlace) :
    place.counted = place.shown ↔ place.hidesCode = false ∧ place.isOverlooked = false := by
  rcases counted_cases hplace with ⟨hsame, hhides, hoverlooked⟩ |
    ⟨hcounted, hshown, hhides, -⟩ | ⟨hcounted, hshown, -, hoverlooked⟩
  · exact iff_of_true hsame ⟨hhides, hoverlooked⟩
  · simp [hcounted, hshown, hhides]
  · simp [hcounted, hshown, hoverlooked]

end Text.PlacedLine

/-- The counts differ by the lines on which code hides and the ones that are overlooked. -/
theorem count_counted {places : List PlacedLine} (hplaces : ∀ place ∈ places, place.InPlace) :
    (places.map (·.counted)).count .comment + places.countP (·.isOverlooked) =
        (places.map (·.shown)).count .comment + places.countP (·.hidesCode) ∧
      (places.map (·.counted)).count .code + places.countP (·.hidesCode) =
        (places.map (·.shown)).count .code + places.countP (·.isOverlooked) ∧
      (places.map (·.counted)).count .blank = (places.map (·.shown)).count .blank := by
  induction places with
  | nil => exact ⟨rfl, rfl, rfl⟩
  | cons place places ih =>
      obtain ⟨hplace, hplaces⟩ := List.forall_mem_cons.mp hplaces
      obtain ⟨hcomment, hcode, hblank⟩ := ih hplaces
      simp only [List.map_cons, List.count_cons, List.countP_cons]
      rcases PlacedLine.counted_cases hplace with ⟨hsame, hhides, hoverlooked⟩ |
        ⟨hcounted, hshown, hhides, hoverlooked⟩ | ⟨hcounted, hshown, hhides, hoverlooked⟩
      · simp only [hsame, hhides, hoverlooked, Bool.false_eq_true, if_false]
        omega
      · simp [hcounted, hshown, hhides, hoverlooked]
        omega
      · simp [hcounted, hshown, hhides, hoverlooked]
        omega

/-- In a text without hash signs and quotes a line counts as what is left of it in the masked
text, unless it counts as a comment and shows code behind the end of a block, or lies in a block
that the metrics have not seen begin.  The counts are right if there are as many lines of the one
kind as of the other. -/
theorem ofText_slashes_of_isPlain {text : List Char} (htext : IsPlain text) :
    (Metrics.ofText .slashes text).CountsAs (CommentStyle.slashes.classes text) ∧
      (CommentStyle.slashes.classes text = maskedClasses text ↔
        ∀ place ∈ placedLines text, place.hidesCode = false ∧ place.isOverlooked = false) ∧
      ((Metrics.ofText .slashes text).CountsAs (maskedClasses text) ↔
        (placedLines text).countP (·.hidesCode) = (placedLines text).countP (·.isOverlooked)) := by
  have hplaces : ∀ place ∈ placedLines text, place.InPlace :=
    fun place => inPlace_of_mem_placedLines htext
  have hcounts := Metrics.countsAs_ofText .slashes text
  obtain ⟨hcomment, hcode, hblank⟩ := count_counted hplaces
  refine ⟨hcounts, ?_, ?_⟩
  · rw [classes_slashes, maskedClasses_eq htext, List.map_inj_left]
    exact forall₂_congr fun place hplace => PlacedLine.counted_eq_shown_iff (hplaces place hplace)
  · rw [classes_slashes] at hcounts
    rw [maskedClasses_eq htext]
    constructor
    · rintro ⟨-, -, hsame, -⟩
      rw [hcounts.comment] at hsame
      omega
    · intro hequal
      constructor
      · rw [hcounts.total, List.length_map, List.length_map]
      · rw [hcounts.code]
        omega
      · rw [hcounts.comment]
        omega
      · rw [hcounts.blank, hblank]

/-- A header, a block that ends before its line does, and a comment behind code. -/
def commentedLines : List Char :=
  "/*\n * Header\n */\nusing System; // all\n\n// note\n  /* one */ // two\nclass A {}\n".toList

theorem ofText_slashes_of_isPlain_commentedLines :
    IsPlain commentedLines ∧
      CommentStyle.slashes.classes commentedLines = maskedClasses commentedLines ∧
      (Metrics.ofText .slashes commentedLines).CountsAs (maskedClasses commentedLines) ∧
      (Metrics.ofText .slashes commentedLines).commentLines = 5 := by
  have hplain : IsPlain commentedLines := by decide +kernel
  obtain ⟨hcounts, hclasses, -⟩ := ofText_slashes_of_isPlain hplain
  have hsame := hclasses.mpr (by decide +kernel)
  exact ⟨hplain, hsame, hsame ▸ hcounts, by decide +kernel⟩

/-- A block that begins behind code. -/
def blockBehindCode : List Char :=
  "int a; /* first\n   second */\nint b;\n".toList

theorem not_countsAs_blockBehindCode :
    (¬∀ text, IsPlain text → (Metrics.ofText .slashes text).CountsAs (maskedClasses text)) ∧
      CommentStyle.slashes.classes blockBehindCode = [.code, .code, .code] ∧
      maskedClasses blockBehindCode = [.code, .comment, .code] := by
  have hmasked : maskedClasses blockBehindCode = [.code, .comment, .code] := by decide +kernel
  refine ⟨fun hcounts => ?_, by decide +kernel, hmasked⟩
  have hcomment := (hcounts blockBehindCode (by decide +kernel)).comment
  have hnone : (Metrics.ofText .slashes blockBehindCode).commentLines = 0 := by decide +kernel
  rw [hmasked, hnone] at hcomment
  exact absurd hcomment (by decide)

end SourceAtlas
