import SourceAtlas.Proofs.DeclarationCuts
import SourceAtlas.Proofs.MaskedPieces
import SourceAtlas.Proofs.ParameterLists
import SourceAtlas.Proofs.TypeReadings
import Mathlib.Data.List.TakeWhile

/-!
# Directives

A directive is found in the masked text, where a comment is a stretch of spaces, but it is
cut out of the text itself.  So the import that it gives is the code of the directive if
no comment stands in what is cut out, and that is the case exactly if none is closed
there: a comment that is opened in a directive or before it on the line has to be closed
before the semicolon.
-/

namespace SourceAtlas

open Text

namespace Text

theorem mem_joinWords_iff {pieces : List (List Char)} {c : Char} (hc : c ≠ ' ') :
    c ∈ joinWords pieces ↔ ∃ piece ∈ pieces, c ∈ piece := by
  induction pieces with
  | nil => simp [joinWords, join]
  | cons piece pieces ih =>
      by_cases hlast : pieces = []
      · simp [joinWords, hlast]
      · rw [joinWords, join_cons hlast, ← joinWords]
        simp [ih, hc]

/-- Making white space single spaces keeps all other characters. -/
theorem mem_collapseBlanks_iff {text : List Char} {c : Char} (hc : isBlank c = false) :
    c ∈ collapseBlanks text ↔ c ∈ text := by
  have hspace : c ≠ ' ' := by
    rintro rfl
    contradiction
  rw [collapseBlanks, mem_joinWords_iff hspace]
  constructor
  · rintro ⟨word, hword, hmem⟩
    exact mem_of_mem_words hword hmem
  · intro hmem
    rcases isBlank_or_mem_words hmem with hblank | hword
    · rw [hc] at hblank
      contradiction
    · exact hword

theorem mem_dropEndWhile {test : Char → Bool} {text : List Char} {c : Char} (hmem : c ∈ text)
    (hc : test c = false) : c ∈ dropEndWhile test text := by
  have hsplit := List.takeWhile_append_dropWhile (p := test) (l := text.reverse)
  have hreverse : c ∈ text.reverse := List.mem_reverse.mpr hmem
  rw [← hsplit, List.mem_append] at hreverse
  rcases hreverse with htaken | hkept
  · have htest := List.all_eq_true.mp List.all_takeWhile c htaken
    rw [hc] at htest
    contradiction
  · exact List.mem_reverse.mpr hkept

theorem mem_trim {text : List Char} {c : Char} (hmem : c ∈ text) (hc : isBlank c = false) :
    c ∈ trim text := by
  have hstart : c ∈ trimStart text := by
    have hsplit := List.takeWhile_append_dropWhile (p := isBlank) (l := text)
    rw [← hsplit, List.mem_append] at hmem
    rcases hmem with htaken | hkept
    · have htest := List.all_eq_true.mp List.all_takeWhile c htaken
      rw [hc] at htest
      contradiction
    · exact hkept
  exact mem_dropEndWhile hstart hc

theorem dropEndWhile_eq_self {test : Char → Bool} {text : List Char}
    (htext : ∀ c ∈ text, test c = false) : dropEndWhile test text = text := by
  have hnone : text.reverse.dropWhile test = text.reverse := by
    rw [List.dropWhile_eq_self_iff]
    intro hlength
    rw [Bool.not_eq_true]
    exact htext _ (List.mem_reverse.mp (List.getElem_mem hlength))
  rw [dropEndWhile, hnone, List.reverse_reverse]

theorem dropEndWhile_append_singleton {test : Char → Bool} {c : Char} (hc : test c = true)
    (text : List Char) : dropEndWhile test (text ++ [c]) = dropEndWhile test text := by
  simp [dropEndWhile, hc]

end Text

namespace CSharp

open Text.Pattern

/-- A directive that holds one semicolon, at its end, is reported without it. -/
theorem directiveText_append_semicolon {body : List Char} (hbody : ';' ∉ body) :
    directiveText (body ++ [';']) = String.ofList (collapseBlanks body) := by
  have hsign : isBlank ';' = false := by decide
  have htrim : trim (body ++ [';']) = trimStart body ++ [';'] := by
    have hstart : trimStart (body ++ [';']) = trimStart body ++ [';'] := by
      rw [trimStart, trimStart, List.dropWhile_append]
      split
      · next hempty =>
          rw [List.isEmpty_iff.mp hempty]
          simp [hsign]
      · rfl
    rw [trim, hstart]
    simp [trimEnd, dropEndWhile, hsign]
  have hnone : ∀ c ∈ trimStart body, decide (c = ';') = false := by
    intro c hc
    rw [decide_eq_false_iff_not]
    rintro rfl
    exact hbody ((List.dropWhile_sublist isBlank).subset hc)
  have hdrop : dropEndWhile (· = ';') (trimStart body ++ [';']) = trimStart body := by
    rw [dropEndWhile_append_singleton (by simp), dropEndWhile_eq_self hnone]
  rw [directiveText, htrim, hdrop, collapseBlanks, words_trimStart, ← collapseBlanks]

/-- The words with which a directive can begin. -/
def directiveOpenings : List (List (List Char)) :=
  [["using".toList], ["global".toList, "using".toList]]

/-- What the pattern of directives passes before the semicolon. -/
structure IsDirective (body : List Char) : Prop where
  signs : ∀ sign ∈ ['\n', '"', '\'', '*', ';'], sign ∉ body
  words : ∃ opening ∈ directiveOpenings, ∃ names, words body = opening ++ names ∧ names ≠ []

theorem IsDirective.isClean {body : List Char} (hbody : IsDirective body) :
    Region.IsClean (body ++ [';']) := by
  intro c hc
  rcases List.mem_append.mp hc with hmem | hmem
  · have hne : ∀ sign ∈ ['\n', '"', '\'', '*', ';'], c ≠ sign := by
      rintro sign hsign rfl
      exact hbody.signs c hsign hmem
    exact ⟨hne '\n' (by simp), not_or.mpr ⟨hne '"' (by simp), hne '\'' (by simp)⟩⟩
  · rw [List.mem_singleton.mp hmem]
    exact ⟨by decide, by rintro (h | h) <;> contradiction⟩

theorem isBlank_of_isInlineBlank {c : Char} (hc : isInlineBlank c = true) : isBlank c = true := by
  simp only [isInlineBlank, Bool.or_eq_true, decide_eq_true_eq] at hc
  rcases hc with rfl | rfl <;> decide

/-- A word with inline blanks behind it. -/
theorem exists_spells_of_mem_outcomes {text : String} (hplain : isPlainWord text.toList = true)
    {start reached : Progress Mark}
    (hreached : reached ∈ (literal text ++ runOf isInlineBlank : Shape).outcomes start) :
    ∃ passed, start.place.Moves passed reached.place ∧ Spells passed [text.toList] := by
  obtain ⟨middle, hword, hgap⟩ := mem_outcomes_seq.mp hreached
  obtain ⟨c, blanks, hblanksMoves, hc, hblanks⟩ := exists_moves_of_mem_outcomes_runOf hgap
  obtain ⟨hne, hword'⟩ := isPlainWord_iff.mp hplain
  exact ⟨_, (moves_of_mem_outcomes_literal hword).trans hblanksMoves,
    .word hne hword' (isBlank_of_isInlineBlank hc) fun d hd =>
      isBlank_of_isInlineBlank (hblanks d hd)⟩

/-- What a pattern of inline blanks passes is white space. -/
theorem exists_blanks_of_mem_outcomes_run {start reached : Progress Mark}
    (hreached : reached ∈ (run isInlineBlank : Shape).outcomes start) :
    ∃ blanks, start.place.Moves blanks reached.place ∧ ∀ c ∈ blanks, isBlank c = true := by
  simp only [outcomes, List.mem_singleton] at hreached
  obtain ⟨blanks, hmoves, hblanks⟩ := Cursor.exists_moves_skipWhile isInlineBlank start.place
  exact ⟨blanks, hreached ▸ hmoves, fun c hc => isBlank_of_isInlineBlank (hblanks c hc)⟩

/-- The parts of a directive before the name of what is imported. -/
theorem exists_opening_of_mem_outcomes {start reached : Progress Mark}
    (hreached : reached ∈ (lineStart ++ run isInlineBlank
      ++ maybe (literal "global" ++ runOf isInlineBlank)
      ++ literal "using" ++ runOf isInlineBlank : Shape).outcomes start) :
    ∃ passed, start.place.Moves passed reached.place ∧
      ∃ opening ∈ directiveOpenings, ∀ rest, words (passed ++ rest) = opening ++ words rest := by
  obtain ⟨behindUsing, husing, hgap⟩ := mem_outcomes_seq.mp hreached
  obtain ⟨behindGlobal, hglobal, hword⟩ := mem_outcomes_seq.mp husing
  obtain ⟨behindLead, hlead, hmaybe⟩ := mem_outcomes_seq.mp hglobal
  obtain ⟨atLine, hline, hrun⟩ := mem_outcomes_seq.mp hlead
  have hstart : atLine = start := by
    simp only [outcomes] at hline
    split at hline
    · exact List.mem_singleton.mp hline
    · contradiction
  rw [hstart] at hrun
  obtain ⟨lead, hleadMoves, hleadBlanks⟩ := exists_blanks_of_mem_outcomes_run hrun
  obtain ⟨using', husingMoves, husingSpells⟩ :=
    exists_spells_of_mem_outcomes (by decide) (mem_outcomes_seq.mpr ⟨behindUsing, hword, hgap⟩)
  rcases List.mem_append.mp hmaybe with hglobal | hglobal
  · obtain ⟨global, hglobalMoves, hglobalSpells⟩ :=
      exists_spells_of_mem_outcomes (by decide) hglobal
    refine ⟨lead ++ (global ++ using'),
      hleadMoves.trans (hglobalMoves.trans husingMoves), _, .tail _ (.head _), ?_⟩
    intro rest
    rw [List.append_assoc, words_blanks_append hleadBlanks,
      (hglobalSpells.append husingSpells).words]
    rfl
  · rw [List.mem_singleton.mp hglobal] at husingMoves
    refine ⟨lead ++ using', hleadMoves.trans husingMoves, _, .head _, ?_⟩
    intro rest
    rw [List.append_assoc, words_blanks_append hleadBlanks, husingSpells.words]

/-- A name begins with a letter or an underscore. -/
theorem exists_solid_of_mem_outcomes_dottedName {start reached : Progress Mark}
    (hreached : reached ∈ dottedName.outcomes start) :
    ∃ passed, start.place.Moves passed reached.place ∧ ∃ c ∈ passed, isBlank c = false := by
  obtain ⟨middle, hfirst, hrest⟩ := mem_outcomes_seq.mp hreached
  obtain ⟨c, next, hnext, hc, rfl⟩ := mem_outcomes_one.mp hfirst
  obtain ⟨more, hmore⟩ := exists_passes hrest
  exact ⟨[c] ++ more, (Cursor.moves_of_next? hnext).trans hmore.moves, c, by simp,
    isBlank_eq_false_of_isWord (isWord_of_opensName hc)⟩

theorem isDirective_of_produces {found : Match Mark} (hproduces : usingShape.Produces found) :
    ∃ body, found.whole.start.Moves (body ++ [';']) found.whole.stop ∧ IsDirective body := by
  obtain ⟨reached, hreached, hstop, -⟩ := hproduces
  obtain ⟨last, hlast, hsemicolon⟩ := mem_outcomes_seq.mp hreached
  obtain ⟨behindAlias, halias, hblanks⟩ := mem_outcomes_seq.mp hlast
  obtain ⟨behindName, hname, hmaybeAlias⟩ := mem_outcomes_seq.mp halias
  obtain ⟨behindStatic, hstatic, hdotted⟩ := mem_outcomes_seq.mp hname
  obtain ⟨behindOpening, hopening, hmaybeStatic⟩ := mem_outcomes_seq.mp hstatic
  obtain ⟨opened, hopenedMoves, opening, hopeningMem, hopened⟩ :=
    exists_opening_of_mem_outcomes hopening
  obtain ⟨static, hstaticPasses⟩ := exists_passes hmaybeStatic
  obtain ⟨name, hnameMoves, c, hc, hsolid⟩ := exists_solid_of_mem_outcomes_dottedName hdotted
  obtain ⟨target, haliasPasses⟩ := exists_passes hmaybeAlias
  obtain ⟨blanks, hblanksPasses⟩ := exists_passes hblanks
  obtain ⟨body, hbody⟩ := exists_passes hlast
  obtain ⟨d, next, hnext, hd, rfl⟩ := mem_outcomes_one.mp hsemicolon
  obtain rfl : d = ';' := by simpa using hd
  have hparts : body = opened ++ (static ++ (name ++ (target ++ blanks))) := by
    rw [← hbody.moves.upTo_eq]
    exact (hopenedMoves.trans (hstaticPasses.moves.trans (hnameMoves.trans
      (haliasPasses.moves.trans hblanksPasses.moves)))).upTo_eq
  refine ⟨body, hstop ▸ hbody.moves.trans (Cursor.moves_of_next? hnext), ?_, ?_⟩
  · intro sign hsign
    apply hbody.avoids
    simp only [List.mem_cons, List.not_mem_nil, or_false] at hsign
    rcases hsign with rfl | rfl | rfl | rfl | rfl <;> decide +kernel
  · refine ⟨opening, hopeningMem, words (static ++ (name ++ (target ++ blanks))), ?_,
      words_ne_nil (c := c) (by simp [hc]) hsolid⟩
    rw [hparts, hopened]

/-- An import that is read off masked text begins with its keyword. -/
theorem IsDirective.prefix_collapseBlanks {body : List Char} (hbody : IsDirective body) :
    "using ".toList <+: collapseBlanks body ∨ "global using ".toList <+: collapseBlanks body := by
  obtain ⟨opening, hopening, names, hwords, hnames⟩ := hbody.words
  rw [collapseBlanks, hwords, joinWords]
  simp only [directiveOpenings, List.mem_cons, List.not_mem_nil, or_false] at hopening
  rcases hopening with rfl | rfl
  · left
    rw [List.singleton_append, join_cons hnames]
    exact List.prefix_append _ _
  · right
    have hmore : "using".toList :: names ≠ [] := by simp
    rw [List.cons_append, List.singleton_append, join_cons hmore, join_cons hnames]
    exact ⟨join [' '] names, by simp⟩

/-- What a match covers of a text or of its masked form. -/
def cutOf (text : List Char) (found : Match Mark) : List Char :=
  slice text found.whole.start.offset found.whole.stop.offset

theorem mem_directiveText {text : List Char} {c : Char} (hmem : c ∈ text)
    (hblank : isBlank c = false) (hsemicolon : c ≠ ';') : c ∈ (directiveText text).toList := by
  rw [directiveText, String.toList_ofList, mem_collapseBlanks_iff hblank]
  exact mem_dropEndWhile (mem_trim hmem hblank) (by simpa using hsemicolon)

/-- What is cut out for a directive is its masked form exactly if no comment is closed in
it. -/
theorem exists_directive_of_mem_findAll {text : List Char} {found : Match Mark}
    (hfound : found ∈ usingShape.findAll (Cursor.ofText (mask text))) :
    ∃ body, IsDirective body ∧ cutOf (mask text) found = body ++ [';'] ∧
      (cutOf text found = body ++ [';'] ↔ ¬['*', '/'] <:+: cutOf text found) := by
  have hproduces := produces_of_mem_findAll hfound
  obtain ⟨body, hmoves, hbody⟩ := isDirective_of_produces hproduces
  obtain ⟨before, hbefore⟩ := leadsTo_of_mem_findAll hfound
  have hstart : found.whole.start.offset = byteWidth before := by
    simpa [Cursor.ofText] using hbefore.offset
  have hmasked : mask text = before ++ ((body ++ [';']) ++ found.whole.stop.after) := by
    rw [← hmoves.after]
    exact hbefore.after
  have hline : ∀ c ∈ before.getLast?, c = '\n' := by
    intro c hc
    have hprevious : found.whole.start.previous? = some c := by
      rw [Cursor.previous?, hbefore.before]
      simpa [Cursor.ofText] using hc
    simpa [atLineStart, hprevious] using atLineStart_of_produces_usingShape hproduces
  obtain ⟨front, piece, rest, htext, hfront, hstop⟩ :=
    (isCut_of_mem_findAll_usingShape (covers_maskFrom .plainCode text) hfound).exists_parts
  have hpiece : byteWidth piece = byteWidth (body ++ [';']) := by
    have hoffset := hmoves.offset
    omega
  have hcutMasked : cutOf (mask text) found = body ++ [';'] := by
    rw [cutOf, hmasked, hmoves.offset, hstart, slice_append]
  have hcut : cutOf text found = piece := by
    rw [cutOf, hfront, hstop, htext, slice_append]
  rw [htext] at hmasked
  obtain ⟨region, hregion, hfits, hpart⟩ :=
    exists_region_of_cut hmasked (hfront.symm.trans hstart) hpiece hline
  have hstar : '*' ∉ body ++ [';'] := by simp [hbody.signs]
  have hkept := Region.maskPart_eq_self_iff hregion hfits
    (by rw [hpart]; exact hbody.isClean) (by rw [hpart]; exact hstar)
    (by rw [hpart]; simp)
  rw [hpart] at hkept
  refine ⟨body, hbody, hcutMasked, ?_⟩
  rw [hcut, eq_comm]
  exact hkept

/-- The import that the masked form of a directive gives, without its semicolon. -/
def codeOf (listing : Listing) (found : Match Mark) : String :=
  String.ofList (collapseBlanks (cutOf listing.masked found).dropLast)

/-- An import is read from a directive: it is the code of the directive exactly if no
comment is closed in what is cut out for it. -/
structure Imported (listing : Listing) (found : Match Mark) (entry : String) : Prop where
  opening : "using ".toList <+: (codeOf listing found).toList ∨
    "global using ".toList <+: (codeOf listing found).toList
  eq_code_iff : entry = codeOf listing found ↔ ¬['*', '/'] <:+: cutOf listing.text found

theorem imported_of_mem_importMatches {text : List Char} {types : List TypeDeclaration}
    {found : Match Mark} (hfound : found ∈ importMatches (Listing.ofText text) types) :
    Imported (Listing.ofText text) found (directiveText (cutOf text found)) := by
  obtain ⟨body, hbody, hmasked, hkept⟩ :=
    exists_directive_of_mem_findAll (List.mem_filter.mp hfound).1
  have hcode : codeOf (Listing.ofText text) found = String.ofList (collapseBlanks body) := by
    have hcut : cutOf (Listing.ofText text).masked found = body ++ [';'] := hmasked
    rw [codeOf, hcut, List.dropLast_concat]
  constructor
  · have hchars : (codeOf (Listing.ofText text) found).toList = collapseBlanks body := by
      rw [hcode, String.toList_ofList]
    rw [hchars]
    exact hbody.prefix_collapseBlanks
  · rw [hcode]
    constructor
    · intro hentry hcloses
      have hstar : '*' ∈ (directiveText (cutOf text found)).toList :=
        mem_directiveText (hcloses.subset (by simp)) (by decide) (by decide)
      rw [hentry, String.toList_ofList, mem_collapseBlanks_iff (by decide)] at hstar
      exact hbody.signs '*' (by simp) hstar
    · intro hcomment
      rw [hkept.mpr hcomment, directiveText_append_semicolon (hbody.signs ';' (by simp))]

theorem imports_findings_full (limits : Limits) (listing : Listing)
    (types : List TypeDeclaration) :
    (findings .full limits listing types).1.imports = importsOf listing types := by
  rw [findings_eq]
  split <;> rfl

theorem imports_modelAt_full (limits : Limits) (file : SourceFile) :
    (modelAt .full limits file).imports =
      (Listing.ofText file.content.toList).directives.map fun found =>
        directiveText (cutOf file.content.toList found) :=
  imports_findings_full limits _ _

/-- At the full tier, whatever the budget, the imports of a C# file stand for its
directives one by one.  Each begins with the keyword and is the code of its directive
exactly if no comment is closed between the start of the line and the semicolon. -/
theorem readModel_imported (limits : Limits) (tier : Option Tier) (file : SourceFile)
    (hlanguage : file.language? = some .csharp)
    (htier : tier.getD (limits.tierOfSize file.content.utf8ByteSize) = .full) :
    ∃ model, readModel limits tier file = .ok model ∧
      List.Forall₂ (Imported (Listing.ofText file.content.toList))
        (Listing.ofText file.content.toList).directives model.imports ∧
      (model.imports = (Listing.ofText file.content.toList).directives.map
          (codeOf (Listing.ofText file.content.toList)) ↔
        ∀ found ∈ (Listing.ofText file.content.toList).directives,
          ¬['*', '/'] <:+: cutOf file.content.toList found) := by
  have hread : readModel limits tier file = .ok (modelAt .full limits file) := by
    rw [readModel_eq_extract hlanguage, extract, htier]
  have himported : ∀ found ∈ (Listing.ofText file.content.toList).directives,
      Imported (Listing.ofText file.content.toList) found
        (directiveText (cutOf file.content.toList found)) :=
    fun found hfound => imported_of_mem_importMatches hfound
  refine ⟨_, hread, ?_, ?_⟩
  · rw [imports_modelAt_full, List.forall₂_map_right_iff, List.forall₂_same]
    exact himported
  · rw [imports_modelAt_full, List.map_inj_left]
    exact forall₂_congr fun found hfound => (himported found hfound).eq_code_iff

/-- Directives with blanks and with comments behind them and between them. -/
def commentedDirectives : SourceFile :=
  { path := ⟨"Usings.cs"⟩
    content := "  using System; // base\n/* shared */\nglobal  using Core = App.Core ;\n"
    lastModified := .epoch }

theorem readModel_imported_commentedDirectives :
    commentedDirectives.language? = some .csharp ∧
      ∃ model, readModel .standard (some .full) commentedDirectives = .ok model ∧
        model.imports = ["using System", "global using Core = App.Core"] ∧
        List.Forall₂ (Imported (Listing.ofText commentedDirectives.content.toList))
          (Listing.ofText commentedDirectives.content.toList).directives model.imports := by
  have hlanguage : commentedDirectives.language? = some .csharp := by decide
  obtain ⟨model, hread, himported, -⟩ :=
    readModel_imported .standard (some .full) commentedDirectives hlanguage rfl
  have himports : (modelAt .full .standard commentedDirectives).imports =
      ["using System", "global using Core = App.Core"] := by
    decide +kernel
  have hmodel := hread
  rw [readModel_of_csharp hlanguage] at hmodel
  exact ⟨hlanguage, model, hread, Except.ok.inj hmodel ▸ himports, himported⟩

/-- A comment that ends before a directive, with an old directive on the same line. -/
def endedComment : SourceFile :=
  { path := ⟨"A.cs"⟩
    content := "/* Old:\n   using Gone; */ using System;\n"
    lastModified := .epoch }

/-- The import holds the end of the comment. -/
theorem not_imports_eq_code_endedComment :
    endedComment.language? = some .csharp ∧
      ¬∀ model, readModel .standard (some .full) endedComment = .ok model →
        model.imports = (Listing.ofText endedComment.content.toList).directives.map
          (codeOf (Listing.ofText endedComment.content.toList)) := by
  have hlanguage : endedComment.language? = some .csharp := by decide
  have hdifferent : (modelAt .full .standard endedComment).imports ≠
      (Listing.ofText endedComment.content.toList).directives.map
        (codeOf (Listing.ofText endedComment.content.toList)) := by
    decide +kernel
  exact ⟨hlanguage, fun hcode =>
    hdifferent (hcode _ (readModel_of_csharp hlanguage .standard .full))⟩

end CSharp

end SourceAtlas
