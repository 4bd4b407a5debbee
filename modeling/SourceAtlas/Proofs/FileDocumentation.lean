import SourceAtlas.Proofs.CommentLines
import SourceAtlas.Proofs.DocumentationTexts

/-!
# Documentation of a file

The documentation of a file is looked for line by line and without the scanner that masks the
text.  What is taken of a line are characters of comments, unless the sign that opens a block
swallows the one that closes it, or a line begins with three slashes inside of a block comment
that ends on it.
-/

namespace SourceAtlas.CSharp

open Text

/-- How a documentation comment is written. -/
inductive DocumentationStyle
  /-- Each line begins with three slashes. -/
  | slashes
  /-- A block begins with a slash and two asterisks. -/
  | block

/-- A line that documentation is read from. -/
structure DocumentationLine where
  style : DocumentationStyle
  place : PlacedLine

namespace DocumentationLine

variable (read : DocumentationLine)

/-- What is taken of the line. -/
def taken : List Char :=
  match read.style with
  | .slashes => (dropWord? ['/', '/', '/'] (trimStart read.place.line)).getD []
  | .block =>
      (upToWord ['*', '/'] (trimStartWord ['/', '*', '*'] (trim read.place.line))).dropWhile
        (· = '*')

/-- More than a comment may be taken of the line.  A block comment that it lies in ends on it, or
its first four characters are a whole comment. -/
def overruns : Bool :=
  match read.style with
  | .slashes => read.place.region = .blockComment && closesBlock read.place.line
  | .block => startsWith (trim read.place.line) ['/', '*', '*', '/']

end DocumentationLine

def beginsSlashes (place : PlacedLine) : Bool :=
  startsWith (trimStart place.line) ['/', '/', '/']

def beginsBlock (place : PlacedLine) : Bool :=
  startsWith (trimStart place.line) ['/', '*', '*']

/-- The lines up to the first one that closes a block. -/
def throughCloser : List PlacedLine → List PlacedLine
  | [] => []
  | place :: rest => if closesBlock place.line then [place] else place :: throughCloser rest

/-- The lines of the first documentation comment. -/
def documentationLines : List PlacedLine → List DocumentationLine
  | [] => []
  | place :: rest =>
      if beginsSlashes place then ((place :: rest).takeWhile beginsSlashes).map (⟨.slashes, ·⟩)
      else if beginsBlock place then (throughCloser (place :: rest)).map (⟨.block, ·⟩)
      else documentationLines rest

theorem documentationRun_eq (places : List PlacedLine) :
    documentationRun (places.map (·.line)) =
      ((places.takeWhile beginsSlashes).map (⟨.slashes, ·⟩)).map DocumentationLine.taken := by
  induction places with
  | nil => rfl
  | cons place places ih =>
      rw [List.map_cons, documentationRun]
      cases hdrop : dropWord? ['/', '/', '/'] (trimStart place.line) with
      | none =>
          have hbegins : beginsSlashes place = false := by
            rw [beginsSlashes, startsWith, hdrop]
            rfl
          rw [List.takeWhile_cons_of_neg (by simp [hbegins])]
          rfl
      | some content =>
          have hbegins : beginsSlashes place = true := by
            rw [beginsSlashes, startsWith, hdrop]
            rfl
          rw [List.takeWhile_cons_of_pos hbegins]
          simp [ih, DocumentationLine.taken, hdrop]

theorem blockLines_eq (places : List PlacedLine) :
    blockLines (places.map (·.line)) =
      ((throughCloser places).map (⟨.block, ·⟩)).map DocumentationLine.taken := by
  induction places with
  | nil => rfl
  | cons place places ih =>
      rw [List.map_cons, blockLines, throughCloser, closesBlock, ih]
      by_cases hcloses : occursIn ['*', '/'] (trim place.line) = true
      · rw [if_pos hcloses, if_pos hcloses]
        rfl
      · rw [if_neg hcloses, if_neg hcloses]
        rfl

theorem firstDocumentation?_eq {places : List PlacedLine} {found : List (List Char)}
    (hfound : firstDocumentation? (places.map (·.line)) = some found) :
    found = (documentationLines places).map DocumentationLine.taken := by
  induction places with
  | nil => contradiction
  | cons place places ih =>
      rw [List.map_cons, firstDocumentation?] at hfound
      rw [documentationLines, beginsSlashes, beginsBlock]
      split at hfound
      · next hslashes =>
          rw [if_pos hslashes, ← documentationRun_eq]
          exact (Option.some.inj hfound).symm
      · next hslashes =>
          rw [if_neg hslashes]
          split at hfound
          · next hblock =>
              rw [if_pos hblock, ← blockLines_eq]
              exact (Option.some.inj hfound).symm
          · next hblock =>
              rw [if_neg hblock]
              exact ih hfound

theorem throughCloser_sublist (places : List PlacedLine) :
    (throughCloser places).Sublist places := by
  induction places with
  | nil => exact List.Sublist.refl []
  | cons place places ih =>
      unfold throughCloser
      split
      · exact (List.nil_sublist places).cons_cons place
      · exact ih.cons_cons place

theorem map_place_map (style : DocumentationStyle) (places : List PlacedLine) :
    (places.map (⟨style, ·⟩ : PlacedLine → DocumentationLine)).map (·.place) = places := by
  rw [List.map_map]
  exact List.map_id places

/-- The lines are read in order. -/
theorem documentationLines_sublist (places : List PlacedLine) :
    ((documentationLines places).map (·.place)).Sublist places := by
  induction places with
  | nil => exact List.Sublist.refl []
  | cons place places ih =>
      unfold documentationLines
      split
      · rw [map_place_map]
        exact (List.takeWhile_prefix beginsSlashes).sublist
      · split
        · rw [map_place_map]
          exact throughCloser_sublist (place :: places)
        · exact ih.cons place

/-- What is known of a line that is read.  A line of a block begins it or lies in it. -/
structure DocumentationLine.InPlace (read : DocumentationLine) : Prop where
  plain : read.place.IsPlain
  begins :
    match read.style with
    | .slashes => beginsSlashes read.place = true
    | .block => beginsBlock read.place = true ∨ read.place.region = .blockComment

theorem region_of_mem_throughCloser {above lines : List (List Char)}
    (hlines : ∀ line ∈ lines, IsPlain line ∧ '\n' ∉ line) {place : PlacedLine}
    (hplace : place ∈ throughCloser (placeLines .blockComment above lines)) :
    place.region = .blockComment := by
  induction lines generalizing above with
  | nil => contradiction
  | cons line lines ih =>
      obtain ⟨⟨hline, hrow⟩, hlines⟩ := List.forall_mem_cons.mp hlines
      rw [placeLines, throughCloser] at hplace
      split at hplace
      · rw [List.mem_singleton.mp hplace]
      · next hcloses =>
          rcases List.mem_cons.mp hplace with rfl | hplace
          · rfl
          · have hopen := not_infix_of_closesBlock (by simpa using hcloses)
            have hnext : Region.blockComment.behind (line ++ ['\n']) = .blockComment := by
              have hunquoted : Region.blockComment.Unquoted := trivial
              rw [hunquoted.behind_line hline, (Region.swallows_blockComment hrow hopen).behind]
              rfl
            rw [hnext] at hplace
            exact ih hlines hplace

/-- Behind the first line of a block, unless the block ends on it, the block goes on. -/
theorem behind_of_beginsBlock {region : Region} (hregion : region.AtLineStart)
    {above : List (List Char)} {line : List Char} (hline : IsPlain line) (hrow : '\n' ∉ line)
    (hbegins : beginsBlock { above, region, line } = true) (hcloses : closesBlock line = false) :
    region.behind (line ++ ['\n']) = .blockComment := by
  have hopens : opensBlock line = true := by
    rw [opensBlock, startsWith_iff, prefix_trim_iff (solid_of_any (by decide))]
    exact List.IsPrefix.trans ⟨['*'], rfl⟩ (startsWith_iff.mp hbegins)
  have hnone : belowOpener [] = true → region = .blockComment :=
    fun hbelow => absurd hbelow (by decide)
  apply behind_of_belowOpener hregion hnone hline hrow
  rw [belowOpener_cons, hcloses, hopens]
  rfl

theorem inPlace_of_mem_documentationLines {region : Region} (hregion : region.AtLineStart)
    {above lines : List (List Char)} (hlines : ∀ line ∈ lines, IsPlain line ∧ '\n' ∉ line)
    {read : DocumentationLine}
    (hread : read ∈ documentationLines (placeLines region above lines)) : read.InPlace := by
  have hplain : read.place.IsPlain := by
    have hmem := List.mem_map_of_mem (f := (·.place)) hread
    exact isPlain_of_mem_placeLines hregion hlines ((documentationLines_sublist _).subset hmem)
  refine ⟨hplain, ?_⟩
  clear hplain
  induction lines generalizing region above with
  | nil => contradiction
  | cons line lines ih =>
      obtain ⟨⟨hline, hrow⟩, hrest⟩ := List.forall_mem_cons.mp hlines
      rw [placeLines, documentationLines] at hread
      split at hread
      · obtain ⟨place, hplace, rfl⟩ := List.mem_map.mp hread
        exact List.all_eq_true.mp List.all_takeWhile place hplace
      · split at hread
        · next hbegins =>
            obtain ⟨place, hplace, rfl⟩ := List.mem_map.mp hread
            rw [throughCloser] at hplace
            split at hplace
            · rw [List.mem_singleton.mp hplace]
              exact .inl hbegins
            · next hcloses =>
                rcases List.mem_cons.mp hplace with rfl | hplace
                · exact .inl hbegins
                · have hnext := behind_of_beginsBlock hregion hline hrow hbegins
                    (by simpa using hcloses)
                  rw [hnext] at hplace
                  exact .inr (region_of_mem_throughCloser hrest hplace)
        · exact ih (hregion.behind hline) hrest hread

/-! ## What is taken of a line -/

/-- Up to the end of a block comment everything is blanked out. -/
theorem prefix_blanked_blockComment {passed row : List Char} (hpassed : passed <+: row)
    (hrow : '\n' ∉ passed) (hopen : ¬['*', '/'] <:+: passed) :
    passed <+: Region.blockComment.blanked row := by
  induction passed generalizing row with
  | nil => exact List.nil_prefix
  | cons c passed ih =>
      obtain ⟨rest, rfl⟩ := hpassed
      have hc : c ≠ '\n' := fun heq => hrow (heq ▸ List.mem_cons_self)
      rw [List.infix_cons_iff, not_or] at hopen
      rw [List.cons_append, Region.blanked]
      by_cases hends : c = '*' ∧ (passed ++ rest).head? = some '/'
      · have hnil : passed = [] := by
          cases passed with
          | nil => rfl
          | cons d passed =>
              have hd : d = '/' := Option.some.inj hends.2
              exact absurd ⟨passed, by rw [hends.1, hd]; rfl⟩ hopen.1
        have hstep : Region.blockComment.step c (passed ++ rest) = (.commentCloser, true) := by
          rw [Region.step, if_pos (by simpa using hends)]
        rw [hstep, hnil]
        simp [hc]
      · have hrest := ih (List.prefix_append passed rest)
          (fun hmem => hrow (List.mem_cons_of_mem c hmem)) hopen.2
        have hstep : Region.blockComment.step c (passed ++ rest) = (.blockComment, true) := by
          rw [Region.step, if_neg (by simpa using hends)]
        rw [hstep]
        simpa [hc] using hrest

/-- The rest of a documentation line lies in the comment that it begins, or in the one that the
line lies in. -/
theorem taken_sublist_of_slashes {place : PlacedLine} (hplain : place.IsPlain)
    (hbegins : beginsSlashes place = true)
    (hends : place.region = .blockComment → closesBlock place.line = false) :
    (DocumentationLine.mk .slashes place).taken.Sublist place.comments := by
  obtain ⟨rest, hrest⟩ := startsWith_iff.mp hbegins
  have htaken : (DocumentationLine.mk .slashes place).taken = rest := by
    rw [DocumentationLine.taken, ← hrest, dropWord?_append, Option.getD_some]
  have hstart : rest.Sublist (trimStart place.line) := by
    rw [← hrest]
    exact List.sublist_append_right _ _
  rw [htaken, PlacedLine.comments]
  rcases hplain.region with hregion | hregion
  · have hslashes : ['/', '/'] <+: trimStart place.line := ⟨'/' :: rest, hrest⟩
    rw [hregion, (Region.startsComment_twoSlashes hplain.row hslashes).blanked]
    exact hstart
  · have hopen := not_infix_of_closesBlock (hends hregion)
    rw [hregion, (Region.swallows_blockComment hplain.row hopen).blanked]
    exact hstart.trans (List.dropWhile_sublist isBlank)

/-- In a block comment, what stands on a line behind a part of it is blanked out up to the end of
the comment. -/
theorem sublist_comments_of_blockComment {place : PlacedLine}
    (hregion : place.region = .blockComment) (hrow : '\n' ∉ place.line) (part : List Char)
    {content : List Char} (hbegins : part ++ content <+: trimStart place.line)
    (hopen : ¬['*', '/'] <:+: part ++ content) : content.Sublist place.comments := by
  obtain ⟨front, hfront, hstart⟩ := exists_blanks_trimStart place.line
  have hpassed : front ++ (part ++ content) <+: place.line := by
    rw [hstart]
    exact (List.prefix_append_right_inj front).mpr hbegins
  have hblanked : front ++ (part ++ content) <+: Region.blockComment.blanked place.line := by
    apply prefix_blanked_blockComment hpassed (fun hmem => hrow (hpassed.subset hmem))
    rwa [infix_blanks_append_iff hfront (by decide) (solid_of_any (by decide))]
  rw [PlacedLine.comments, hregion]
  exact ((List.sublist_append_right part content).trans
    (List.sublist_append_right front _)).trans hblanked.sublist

/-- The sign that opens a block does not close it, unless a slash follows. -/
theorem not_infix_blockOpener_append {content : List Char} (hslash : content.head? ≠ some '/')
    (hopen : ¬['*', '/'] <:+: content) : ¬['*', '/'] <:+: '/' :: '*' :: '*' :: content := by
  have hlast : ¬['*', '/'] <+: '*' :: content := by
    rintro ⟨rest, hrest⟩
    obtain ⟨-, hcontent⟩ := List.cons.inj hrest
    rw [← hcontent] at hslash
    exact hslash rfl
  rw [List.infix_cons_iff, List.infix_cons_iff, List.infix_cons_iff, not_or, not_or, not_or]
  refine ⟨fun hbegins => ?_, fun hbegins => ?_, hlast, hopen⟩
  · exact absurd (List.cons_prefix_cons.mp hbegins).1 (by decide)
  · have hsecond := (List.cons_prefix_cons.mp hbegins).2
    exact absurd (List.cons_prefix_cons.mp hsecond).1 (by decide)

/-- Behind the sign that opens a block, what is taken of a line reaches to the first sign that
closes one, and the opening sign does not close the block itself. -/
theorem exists_content_of_blockOpener {text : List Char} (hopener : ['/', '*', '*'] <+: text)
    (hshort : startsWith text ['/', '*', '*', '/'] = false) :
    ∃ content, upToWord ['*', '/'] (trimStartWord ['/', '*', '*'] text) = content ∧
      '/' :: '*' :: '*' :: content <+: text ∧ ¬['*', '/'] <:+: '/' :: '*' :: '*' :: content := by
  obtain ⟨rest, rfl⟩ := hopener
  have hslash : rest.head? ≠ some '/' := by
    intro hhead
    obtain ⟨more, rfl⟩ := List.head?_eq_some_iff.mp hhead
    contradiction
  have hagain : ¬['/', '*', '*'] <+: rest := by
    rintro ⟨more, rfl⟩
    exact hslash rfl
  have hcontent : upToWord ['*', '/'] rest <+: rest := upToWord_isPrefix _ rest
  have hhead : (upToWord ['*', '/'] rest).head? ≠ some '/' := by
    intro hhead
    obtain ⟨more, hmore⟩ := hcontent
    apply hslash
    rw [← hmore, List.head?_append, hhead]
    rfl
  refine ⟨upToWord ['*', '/'] rest, ?_, ?_, ?_⟩
  · rw [trimStartWord_append (by decide) hagain]
  · exact (List.prefix_append_right_inj ['/', '*', '*']).mpr hcontent
  · exact not_infix_blockOpener_append hhead (not_infix_upToWord (by decide))

/-- In code, what stands behind the sign that opens a block is blanked out up to the end of the
block. -/
theorem sublist_comments_of_blockOpener {place : PlacedLine} (hregion : place.region = .plainCode)
    (hrow : '\n' ∉ place.line) {content : List Char}
    (hbegins : '/' :: '*' :: '*' :: content <+: trimStart place.line)
    (hopen : ¬['*', '/'] <:+: '/' :: '*' :: '*' :: content) :
    content.Sublist place.comments := by
  obtain ⟨front, hfront, hstart⟩ := exists_blanks_trimStart place.line
  obtain ⟨rest, hrest⟩ := hbegins
  obtain ⟨-, hblanked, -⟩ := Region.plainCode_blanks_append hfront (trimStart place.line)
  rw [← hstart, ← hrest] at hblanked
  have hpassed : '*' :: content <+: Region.blockComment.blanked ('*' :: content ++ rest) := by
    apply prefix_blanked_blockComment (List.prefix_append _ rest)
    · intro hmem
      apply hrow
      rw [hstart, ← hrest]
      simp only [List.mem_append, List.mem_cons]
      exact .inr (.inl (.inr (.inr (List.mem_cons.mp hmem))))
    · exact fun hends => hopen (hends.trans ⟨['/', '*'], [], by simp⟩)
  rw [PlacedLine.comments, hregion, hblanked]
  exact ((List.sublist_cons_self '*' content).trans hpassed.sublist).trans
    (List.sublist_append_right ['/', '*'] _)

/-- The content of a line of a block is blanked out, unless the line begins with a block that is
closed as soon as it is opened. -/
theorem taken_sublist_of_block {place : PlacedLine} (hplain : place.IsPlain)
    (hbegins : beginsBlock place = true ∨ place.region = .blockComment)
    (hshort : startsWith (trim place.line) ['/', '*', '*', '/'] = false) :
    (DocumentationLine.mk .block place).taken.Sublist place.comments := by
  have htrimmed : trim place.line <+: trimStart place.line := trimEnd_prefix _
  apply (List.dropWhile_sublist _).trans
  change (upToWord ['*', '/'] (trimStartWord ['/', '*', '*'] (trim place.line))).Sublist _
  by_cases hopener : ['/', '*', '*'] <+: trim place.line
  · obtain ⟨content, hcontent, hpart, hopen⟩ := exists_content_of_blockOpener hopener hshort
    rw [hcontent]
    rcases hplain.region with hregion | hregion
    · exact sublist_comments_of_blockOpener hregion hplain.row (hpart.trans htrimmed) hopen
    · exact sublist_comments_of_blockComment hregion hplain.row ['/', '*', '*']
        (hpart.trans htrimmed) hopen
  · have hregion : place.region = .blockComment := by
      refine hbegins.resolve_left fun hblock => hopener ?_
      rw [prefix_trim_iff (solid_of_any (by decide))]
      exact startsWith_iff.mp hblock
    rw [trimStartWord_eq_self hopener]
    have hcontent := (upToWord_isPrefix ['*', '/'] (trim place.line)).trans htrimmed
    exact sublist_comments_of_blockComment hregion hplain.row [] hcontent
      (not_infix_upToWord (by decide))

/-- A line from which no more than a comment can be taken. -/
theorem DocumentationLine.InPlace.taken_sublist {read : DocumentationLine}
    (hread : read.InPlace) (hshort : read.overruns = false) :
    read.taken.Sublist read.place.comments := by
  obtain ⟨style, place⟩ := read
  obtain ⟨hplain, hbegins⟩ := hread
  cases style with
  | slashes =>
      apply taken_sublist_of_slashes hplain hbegins
      simpa [DocumentationLine.overruns] using hshort
  | block => exact taken_sublist_of_block hplain hbegins hshort

/-- The content of a line of the comment at the top. -/
def leadingContent (line : List Char) : List Char :=
  trim (line.dropWhile (· = '/'))

theorem leadingContent_sublist {line : List Char} (hrow : '\n' ∉ line)
    (hbegins : startsWith (trim line) ['/', '/'] = true) :
    (leadingContent (trim line)).Sublist (Region.plainCode.blanked line) ∧
      Region.plainCode.behind line = .lineComment := by
  rw [startsWith_iff, prefix_trim_iff (solid_of_any (by decide))] at hbegins
  have hcomment := Region.startsComment_twoSlashes hrow hbegins
  have hcontent : (leadingContent (trim line)).Sublist (trim line) :=
    (trim_sublist _).trans (List.dropWhile_sublist _)
  have htrimmed : trim line <+: trimStart line := trimEnd_prefix _
  constructor
  · rw [hcomment.blanked]
    exact hcontent.trans htrimmed.sublist
  · exact hcomment.behind

theorem flatMap_leadingContent_sublist {lines : List (List Char)}
    (hlines : ∀ line ∈ lines, IsPlain line ∧ '\n' ∉ line) (above : List (List Char)) :
    (((lines.map trim).takeWhile (startsWith · ['/', '/'])).flatMap leadingContent).Sublist
      ((placeLines .plainCode above lines).flatMap (·.comments)) := by
  induction lines generalizing above with
  | nil => exact List.Sublist.refl []
  | cons line lines ih =>
      obtain ⟨⟨hline, hrow⟩, hlines⟩ := List.forall_mem_cons.mp hlines
      rw [List.map_cons, placeLines, List.flatMap_cons]
      by_cases hbegins : startsWith (trim line) ['/', '/'] = true
      · obtain ⟨hcontent, hbehind⟩ := leadingContent_sublist hrow hbegins
        have hunquoted : Region.plainCode.Unquoted := trivial
        have hnext : Region.plainCode.behind (line ++ ['\n']) = .plainCode := by
          rw [hunquoted.behind_line hline, hbehind]
          rfl
        rw [List.takeWhile_cons, if_pos hbegins, List.flatMap_cons, hnext]
        exact hcontent.append (ih hlines _)
      · rw [List.takeWhile_cons, if_neg hbegins]
        exact List.nil_sublist _

theorem flatten_leadingComment (lines : List (List Char)) :
    (leadingComment lines).flatten =
      (((lines.map trim).dropWhile (·.isEmpty)).takeWhile (startsWith · ['/', '/'])).flatMap
        leadingContent := by
  rw [leadingComment, List.flatten_filter_not_isEmpty, ← List.flatMap_def]
  rfl

theorem leadingComment_sublist {lines : List (List Char)}
    (hlines : ∀ line ∈ lines, IsPlain line ∧ '\n' ∉ line) (above : List (List Char)) :
    (leadingComment lines).flatten.Sublist
      ((placeLines .plainCode above lines).flatMap (·.comments)) := by
  rw [flatten_leadingComment]
  induction lines generalizing above with
  | nil => exact List.Sublist.refl []
  | cons line lines ih =>
      obtain ⟨hline, hrest⟩ := List.forall_mem_cons.mp hlines
      by_cases hempty : (trim line).isEmpty = true
      · have hblank : ∀ c ∈ line, isBlank c = true := by
          have hsolid := AttributeReader.isSolid_eq line
          rw [hempty] at hsolid
          simpa [AttributeReader.isSolid] using hsolid
        obtain ⟨hbehind, -, -⟩ := Region.plainCode_blanks_append hblank ['\n']
        have hnext : Region.plainCode.behind (line ++ ['\n']) = .plainCode := hbehind
        rw [List.map_cons, List.dropWhile_cons_of_pos hempty, placeLines, List.flatMap_cons,
          hnext]
        exact (ih hrest _).trans (List.sublist_append_right _ _)
      · rw [List.map_cons, List.dropWhile_cons_of_neg hempty, ← List.map_cons]
        exact flatMap_leadingContent_sublist hlines above

theorem withoutBreaks_sublist (text : List Char) : (withoutBreaks text).Sublist text :=
  List.filter_sublist

/-- The documentation of a text without hash signs and quotes is made of characters of its
comments, in order, if that holds for each line that more than a comment may be taken of. -/
theorem fileDocumentation_sublist {text : List Char} (htext : IsPlain text)
    (hread : ∀ read ∈ documentationLines (placedLines text),
      read.overruns = true → read.taken.Sublist read.place.comments)
    {doc : String} (hdoc : fileDocumentation text = some doc) :
    (withoutBreaks doc.toList).Sublist (Region.plainCode.blanked text) := by
  have hstart : Region.plainCode.AtLineStart := Or.inl rfl
  have hlines : ∀ line ∈ lines text, IsPlain line ∧ '\n' ∉ line :=
    fun _ => isPlain_and_notMem_of_mem_lines htext
  have hplaces : lines text = (placedLines text).map (·.line) :=
    (map_line_placeLines .plainCode [] (lines text)).symm
  have hcomments : ((placedLines text).flatMap (·.comments)).Sublist
      (Region.plainCode.blanked text) := flatMap_comments_sublist hstart htext []
  unfold fileDocumentation at hdoc
  cases hfound : firstDocumentation? (lines text) with
  | none =>
      simp only [hfound] at hdoc
      have hleading := leadingComment_sublist hlines []
      rw [toList_of_paragraph? hdoc, withoutBreaks_join]
      exact ((withoutBreaks_sublist _).trans hleading).trans hcomments
  | some found =>
      simp only [hfound] at hdoc
      rw [hplaces] at hfound
      have htaken : ∀ read ∈ documentationLines (placedLines text),
          read.taken.Sublist read.place.comments := by
        intro read hmem
        cases hoverruns : read.overruns with
        | true => exact hread read hmem hoverruns
        | false =>
            exact (inPlace_of_mem_documentationLines hstart hlines hmem).taken_sublist hoverruns
      have hall : found.flatten.Sublist ((placedLines text).flatMap (·.comments)) := by
        rw [firstDocumentation?_eq hfound, ← List.flatMap_def]
        have hread := List.Sublist.flatMap_right _ htaken
        have horder := (documentationLines_sublist (placedLines text)).flatMap (·.comments)
        rw [List.flatMap_map] at horder
        exact hread.trans horder
      exact (((cleanDocumentation_sublist hdoc).trans (withoutBreaks_sublist _)).trans hall).trans
        hcomments

/-- A block behind code, with tags, and a line that lies in another block. -/
def documentedText : List Char :=
  "using System; /* see\n  /// Reads <b>maps</b>.\n  /// Twice.\n */\nclass A { }\n".toList

theorem fileDocumentation_sublist_documentedText :
    IsPlain documentedText ∧
      (∀ read ∈ documentationLines (placedLines documentedText),
        read.overruns = true → read.taken.Sublist read.place.comments) ∧
      fileDocumentation documentedText = some "Reads maps.\nTwice." ∧
      (withoutBreaks "Reads maps.\nTwice.".toList).Sublist
        (Region.plainCode.blanked documentedText) := by
  have hplain : IsPlain documentedText := by decide +kernel
  have hread : ∀ read ∈ documentationLines (placedLines documentedText),
      read.overruns = true → read.taken.Sublist read.place.comments := by
    decide +kernel
  have hdoc : fileDocumentation documentedText = some "Reads maps.\nTwice." := by
    decide +kernel
  exact ⟨hplain, hread, hdoc, fileDocumentation_sublist hplain hread hdoc⟩

/-- A block that is closed as soon as it is opened. -/
def emptyBlock : List Char :=
  "/**/ class A { }\n".toList

/-- The class behind the block is taken for documentation. -/
theorem not_sublist_emptyBlock :
    (¬∀ text doc, IsPlain text → fileDocumentation text = some doc →
        (withoutBreaks doc.toList).Sublist (Region.plainCode.blanked text)) ∧
      fileDocumentation emptyBlock = some "/ class A { }" ∧
      Region.plainCode.blanked emptyBlock = "/**/".toList := by
  have hdoc : fileDocumentation emptyBlock = some "/ class A { }" := by decide +kernel
  have hblanked : Region.plainCode.blanked emptyBlock = "/**/".toList := by decide +kernel
  refine ⟨fun hall => ?_, hdoc, hblanked⟩
  have hsublist := hall emptyBlock _ (by decide +kernel) hdoc
  rw [hblanked] at hsublist
  exact absurd hsublist (by decide +kernel)

end SourceAtlas.CSharp
