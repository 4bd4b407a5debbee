import SourceAtlas.Proofs.BaseLists
import SourceAtlas.Proofs.DocumentationTexts

/-!
# Cleaned documentation

A tag runs from an opening angle bracket to the next closing one, with something in between.
When tags are removed one after the other, an opening bracket is left only if a closing one
stands right behind it or none stands behind it at all.  Trimming the lines takes away white
space and nothing else, so this remains true and no new tag comes about.  What has no tags, no
blank lines and no blanks around its lines is not changed by cleaning it again.
-/

namespace SourceAtlas

namespace Text

def IsTag (text : List Char) : Prop :=
  ∃ inside, inside ≠ [] ∧ '>' ∉ inside ∧ text = '<' :: (inside ++ ['>'])

def HasTag (text : List Char) : Prop :=
  ∃ tag, IsTag tag ∧ tag <:+: text

/-- Each opening bracket is closed at once, or no closing one follows any more. -/
inductive TagFree : List Char → Prop
  | unclosed {text : List Char} (htext : '>' ∉ text) : TagFree text
  | empty {text : List Char} (hrest : TagFree text) : TagFree ('<' :: '>' :: text)
  | char {c : Char} {text : List Char} (hc : c ≠ '<') (hrest : TagFree text) :
      TagFree (c :: text)

variable {text kept tag : List Char} {c : Char}

theorem IsTag.ne_nil (htag : IsTag tag) : tag ≠ [] := by
  obtain ⟨inside, -, -, rfl⟩ := htag
  exact List.cons_ne_nil _ _

theorem IsTag.mem (htag : IsTag tag) : '>' ∈ tag := by
  obtain ⟨inside, -, -, rfl⟩ := htag
  simp

theorem IsTag.eq_of_prefix (htag : IsTag tag) (hbegins : tag <+: c :: text) : c = '<' := by
  obtain ⟨inside, -, -, rfl⟩ := htag
  exact (List.cons_prefix_cons.mp hbegins).1.symm

/-- Brackets with nothing between them are no tag. -/
theorem IsTag.not_prefix_empty (htag : IsTag tag) : ¬tag <+: '<' :: '>' :: text := by
  obtain ⟨inside, hne, hinside, rfl⟩ := htag
  intro hbegins
  obtain ⟨d, inside, rfl⟩ := List.exists_cons_of_ne_nil hne
  obtain ⟨rfl, -⟩ := List.cons_prefix_cons.mp (List.cons_prefix_cons.mp hbegins).2
  exact hinside List.mem_cons_self

theorem HasTag.cons (hhas : HasTag text) : HasTag (c :: text) := by
  obtain ⟨tag, htag, hinfix⟩ := hhas
  exact ⟨tag, htag, hinfix.trans (List.suffix_cons c text).isInfix⟩

theorem TagFree.not_hasTag (hfree : TagFree text) : ¬HasTag text := by
  rintro ⟨tag, htag, hinfix⟩
  induction hfree with
  | unclosed htext => exact htext (List.IsInfix.subset hinfix htag.mem)
  | empty hrest ih =>
      rcases List.infix_cons_iff.mp hinfix with hbegins | hinfix
      · exact htag.not_prefix_empty hbegins
      · rcases List.infix_cons_iff.mp hinfix with hbegins | hinfix
        · exact absurd (htag.eq_of_prefix hbegins) (by decide)
        · exact ih hinfix
  | char hc hrest ih =>
      rcases List.infix_cons_iff.mp hinfix with hbegins | hinfix
      · exact hc (htag.eq_of_prefix hbegins)
      · exact ih hinfix

/-- What is left of a text when its tags are removed, from the left to the right. -/
inductive Strips : List Char → List Char → Prop
  | nil : Strips [] []
  | tag {tag text kept : List Char} (htag : IsTag tag) (hrest : Strips text kept) :
      Strips (tag ++ text) kept
  | char {c : Char} {text kept : List Char} (hnone : ∀ tag, IsTag tag → ¬tag <+: c :: text)
      (hrest : Strips text kept) : Strips (c :: text) (c :: kept)

namespace Strips

theorem sublist (hstrips : Strips text kept) : kept.Sublist text := by
  induction hstrips with
  | nil => exact List.Sublist.refl []
  | tag htag hrest ih => exact ih.trans (List.sublist_append_right _ _)
  | char hnone hrest ih => exact ih.cons_cons _

theorem exists_cons (hstrips : Strips (c :: text) kept) (hc : c ≠ '<') :
    ∃ rest, kept = c :: rest := by
  generalize hwhole : c :: text = whole at hstrips
  cases hstrips with
  | nil => contradiction
  | @tag tag text kept htag hrest =>
      exact absurd (htag.eq_of_prefix (hwhole ▸ List.prefix_append tag text)) hc
  | char hnone hrest => exact ⟨_, by rw [(List.cons.inj hwhole).1]⟩

theorem tagFree (hstrips : Strips text kept) : TagFree kept := by
  induction hstrips with
  | nil => exact .unclosed (by simp)
  | tag htag hrest ih => exact ih
  | @char c text kept hnone hrest ih =>
      by_cases hc : c = '<'
      · subst hc
        by_cases hclosed : '>' ∈ text
        · -- No tag begins here, so the closing bracket is the next character.
          obtain ⟨inside, behind, rfl, hinside⟩ := List.eq_append_cons_of_mem hclosed
          obtain rfl : inside = [] := by
            by_contra hne
            exact hnone _ ⟨inside, hne, hinside, rfl⟩ ⟨behind, by simp⟩
          obtain ⟨rest, rfl⟩ := hrest.exists_cons (by decide)
          cases ih with
          | unclosed htext => exact absurd List.mem_cons_self htext
          | char hc hfree => exact .empty hfree
        · refine .unclosed fun hmem => hclosed ?_
          exact hrest.sublist.subset (List.mem_of_ne_of_mem (by decide) hmem)
      · exact .char hc ih

theorem eq_self (hstrips : Strips text kept) (hnone : ¬HasTag text) : kept = text := by
  induction hstrips with
  | nil => rfl
  | tag htag hrest ih => exact absurd ⟨_, htag, (List.prefix_append _ _).isInfix⟩ hnone
  | char _ hrest ih => rw [ih fun hhas => hnone hhas.cons]

end Strips

/-- Brackets are not white space, so those that are next to each other stay so. -/
theorem DropsBlanks.tagFree (hdrops : DropsBlanks text kept) (hfree : TagFree text) :
    TagFree kept := by
  induction hfree generalizing kept with
  | unclosed htext => exact .unclosed fun hmem => htext (hdrops.sublist.subset hmem)
  | empty hrest ih =>
      cases hdrops with
      | drop hc hdrops => exact absurd hc (by decide)
      | keep c hdrops =>
          cases hdrops with
          | drop hc hdrops => exact absurd hc (by decide)
          | keep c hdrops => exact .empty (ih hdrops)
  | char hc hrest ih =>
      cases hdrops with
      | drop hblank hdrops => exact ih hdrops
      | keep c hdrops => exact .char hc (ih hdrops)

/-- A line that is not blank and has no white space at its ends. -/
structure IsNeat (line : List Char) : Prop where
  ne_nil : line ≠ []
  head : ∀ c ∈ line.head?, isBlank c = false
  last : ∀ c ∈ line.getLast?, isBlank c = false

namespace IsNeat

variable {line : List Char}

theorem trim_eq (hneat : IsNeat line) : trim line = line := by
  rw [trim, trimStart_of_solid hneat.head, trimEnd_of_solid hneat.last]

theorem dropCarriageReturn_eq (hneat : IsNeat line) : dropCarriageReturn line = line := by
  rcases dropCarriageReturn_cases line with heq | heq
  · exact heq.symm
  · have hreturn := hneat.last '\r'
    rw [heq, List.getLast?_concat] at hreturn
    exact absurd (hreturn rfl) (by decide)

end IsNeat

/-- Neat lines are got back from the text that they are put together to. -/
theorem lines_join {rows : List (List Char)} (hrows : ∀ row ∈ rows, IsNeat row ∧ '\n' ∉ row) :
    lines (join ['\n'] rows) = rows := by
  induction rows with
  | nil => rfl
  | cons row rows ih =>
      obtain ⟨⟨hneat, hrow⟩, hrest⟩ := List.forall_mem_cons.mp hrows
      by_cases hlast : rows = []
      · rw [hlast, join_singleton, lines_of_notMem hrow hneat.ne_nil]
      · rw [join_cons hlast, List.append_assoc, List.singleton_append, lines_append_break hrow,
          hneat.dropCarriageReturn_eq, ih hrest]

theorem Cursor.upTo_of_next? {place next : Cursor} {stop : Nat}
    (hnext : place.next? = some (c, next)) (hstop : place.offset < stop) :
    place.upTo stop = c :: next.upTo stop := by
  have hmoves := moves_of_next? hnext
  have hwidth : stop - place.offset - c.utf8Size = stop - next.offset := by
    have hoffset := hmoves.offset
    rw [byteWidth_cons, byteWidth_nil] at hoffset
    omega
  rw [upTo, hmoves.after, List.singleton_append, takeBytes_cons (by omega), hwidth, upTo]

namespace Pattern

variable {Part : Type} {pattern : Pattern Part} {place next : Cursor}

/-- What is kept from a place on when the matches of a pattern are removed. -/
def keptFrom (pattern : Pattern Part) (place : Cursor) : List Char :=
  withoutLoop place [] (pattern.findAll place)

theorem withoutLoop_eq (place : Cursor) (kept : List Char) (occurrences : List (Match Part)) :
    withoutLoop place kept occurrences = kept.reverse ++ withoutLoop place [] occurrences := by
  induction occurrences generalizing place kept with
  | nil => simp [withoutLoop]
  | cons found rest ih =>
      rw [withoutLoop, ih, withoutLoop, ih _ (_ ++ [])]
      simp

theorem keptFrom_of_matchAt? (hconsumes : pattern.consumes = true) {found : Match Part}
    (hfound : pattern.matchAt? place = some found) :
    pattern.keptFrom place = pattern.keptFrom found.whole.stop := by
  have hstart : place.upTo found.whole.start.offset = [] := by
    rw [(produces_of_matchAt? hfound).1, (Cursor.Moves.refl place).upTo_eq]
  rw [keptFrom, findAll_of_matchAt? hconsumes hfound, withoutLoop, hstart]
  rfl

theorem keptFrom_of_next? (hconsumes : pattern.consumes = true)
    (hnone : pattern.matchAt? place = none) (hnext : place.next? = some (c, next)) :
    pattern.keptFrom place = c :: pattern.keptFrom next := by
  have hmoves := Cursor.moves_of_next? hnext
  have hlt := hmoves.offset_lt (by simp)
  rw [keptFrom, findAll_of_next? hconsumes hnone hnext, keptFrom]
  cases hmatches : pattern.findAll next with
  | nil =>
      rw [withoutLoop, withoutLoop, hmoves.stop,
        Cursor.upTo_of_next? hnext (hmoves.inside (by simp))]
      rfl
  | cons found rest =>
      have hleads := leadsTo_of_mem_findAll (hmatches ▸ List.mem_cons_self)
      have hstop : place.offset < found.whole.start.offset :=
        Nat.lt_of_lt_of_le hlt hleads.offset_le
      rw [withoutLoop, withoutLoop_eq, withoutLoop, withoutLoop_eq _ (_ ++ []),
        Cursor.upTo_of_next? hnext hstop]
      simp

end Pattern

end Text

namespace CSharp

open Text Text.Pattern

variable {place : Cursor} {text kept : List Char}

theorem exists_tag_of_matchAt? {found : Match Mark}
    (hfound : tagShape.matchAt? place = some found) :
    ∃ tag, IsTag tag ∧ place.Moves tag found.whole.stop := by
  obtain ⟨rfl, reached, hreached, hstop, -⟩ := produces_of_matchAt? hfound
  obtain ⟨behind, hbehind, hcloser⟩ := mem_outcomes_seq.mp hreached
  obtain ⟨opened, hopener, hrun⟩ := mem_outcomes_seq.mp hbehind
  obtain ⟨c, next, hnext, hc, rfl⟩ := mem_outcomes_one.mp hopener
  obtain ⟨d, inside, hinsideMoves, hd, hinside⟩ := exists_moves_of_mem_outcomes_runOf hrun
  obtain ⟨e, last, hlast, he, rfl⟩ := mem_outcomes_one.mp hcloser
  obtain rfl : c = '<' := by simpa using hc
  obtain rfl : e = '>' := by simpa using he
  have hmoves := ((Cursor.moves_of_next? hnext).trans hinsideMoves).trans
    (Cursor.moves_of_next? hlast)
  refine ⟨_, ⟨d :: inside, by simp, ?_, rfl⟩, hstop ▸ hmoves⟩
  intro hmem
  rcases List.mem_cons.mp hmem with rfl | hmem
  · simp at hd
  · simpa using hinside _ hmem

theorem exists_matchAt?_of_prefix (hplace : place.IsWhole) {tag : List Char} (htag : IsTag tag)
    (hbegins : tag <+: place.after) : ∃ found, tagShape.matchAt? place = some found := by
  obtain ⟨inside, hne, hinside, rfl⟩ := htag
  obtain ⟨d, more, rfl⟩ := List.exists_cons_of_ne_nil hne
  obtain ⟨rest, hafter⟩ := hbegins
  have hd : d ≠ '>' := fun heq => hinside (heq ▸ List.mem_cons_self)
  obtain ⟨opened, hopened, hopenedWhole, hopenedAfter⟩ := hplace.exists_next? hafter.symm
  obtain ⟨first, hfirst, hfirstWhole, hfirstAfter⟩ := hopenedWhole.exists_next? hopenedAfter
  obtain ⟨passed, hmoves, hpassed⟩ := Cursor.exists_moves_skipWhile (· ≠ '>') first
  have hgoal := hmoves.isWhole hfirstWhole
  -- The run stops before the closing bracket, since it does not pass one.
  obtain ⟨e, behind, hend⟩ :
      ∃ e behind, (first.skipWhile (· ≠ '>')).after = e :: behind := by
    refine List.exists_cons_of_ne_nil fun hnil => ?_
    have hmem : '>' ∈ passed := by
      have hall := hfirstAfter.symm.trans hmoves.after
      rw [hnil, List.append_nil] at hall
      rw [← hall]
      simp
    simpa using hpassed _ hmem
  have he : e = '>' := by
    have hhead := Cursor.head?_skipWhile (· ≠ '>') first e
    rw [hgoal.head?_eq, hend] at hhead
    simpa using hhead rfl
  obtain ⟨last, hlast, -, -⟩ := hgoal.exists_next? hend
  have hopener : ({ place := opened, parts := [] } : Progress Mark) ∈
      (char '<').outcomes { place, parts := [] } :=
    mem_outcomes_one.mpr ⟨'<', opened, hopened, by simp, rfl⟩
  have hrun : ({ place := first.skipWhile (· ≠ '>'), parts := [] } : Progress Mark) ∈
      (runOf (· ≠ '>')).outcomes { place := opened, parts := [] } :=
    mem_outcomes_seq.mpr ⟨_, mem_outcomes_one.mpr ⟨d, first, hfirst, by simpa using hd, rfl⟩,
      List.mem_singleton_self _⟩
  have hcloser : ({ place := last, parts := [] } : Progress Mark) ∈
      (char '>').outcomes { place := first.skipWhile (· ≠ '>'), parts := [] } :=
    mem_outcomes_one.mpr ⟨e, last, hlast, by simpa using he, rfl⟩
  exact exists_matchAt?_of_mem_outcomes
    (mem_outcomes_seq.mpr ⟨_, mem_outcomes_seq.mpr ⟨_, hopener, hrun⟩, hcloser⟩)

theorem strips_keptFrom (hplace : place.IsWhole) :
    Strips place.after (tagShape.keptFrom place) := by
  have hconsumes : tagShape.consumes = true := by decide
  -- What is left of the text gets shorter by a tag, or else by one character.
  induction hlength : place.after.length using Nat.strong_induction_on generalizing place with
  | _ length ih =>
      cases hfound : tagShape.matchAt? place with
      | some found =>
          obtain ⟨tag, htag, hmoves⟩ := exists_tag_of_matchAt? hfound
          have hshorter : found.whole.stop.after.length < length := by
            have hpos := List.length_pos_of_ne_nil htag.ne_nil
            rw [← hlength, hmoves.after, List.length_append]
            omega
          rw [keptFrom_of_matchAt? hconsumes hfound, hmoves.after]
          exact .tag htag (ih _ hshorter (hmoves.isWhole hplace) rfl)
      | none =>
          cases hafter : place.after with
          | nil =>
              have hle : place.stop ≤ place.offset := by rw [hplace, hafter]; simp
              rw [keptFrom, findAll_eq_nil_of_le hconsumes hle, withoutLoop, Cursor.upTo, hafter]
              simpa [takeBytes, takeBytesLoop] using Strips.nil
          | cons c after =>
              obtain ⟨next, hnext, hwhole, hrest⟩ := hplace.exists_next? hafter
              have hshorter : next.after.length < length := by
                rw [← hlength, hafter, hrest, List.length_cons]
                omega
              rw [keptFrom_of_next? hconsumes hfound hnext]
              refine .char (fun tag htag hbegins => ?_) (hrest ▸ ih _ hshorter hwhole rfl)
              obtain ⟨found, hfound'⟩ := exists_matchAt?_of_prefix hplace htag (hafter ▸ hbegins)
              rw [hfound] at hfound'
              contradiction

theorem strips_removeAll (text : List Char) : Strips text (removeAll tagShape text) :=
  strips_keptFrom (Cursor.isWhole_ofText text)

theorem isNeat_of_mem_solidLines {line : List Char} (hline : line ∈ solidLines text) :
    IsNeat line ∧ '\n' ∉ line := by
  obtain ⟨htrimmed, hsolid⟩ := List.mem_filter.mp hline
  obtain ⟨row, hrow, rfl⟩ := List.mem_map.mp htrimmed
  refine ⟨⟨by simpa using hsolid, fun c => isBlank_of_mem_head?_trim,
    fun c => isBlank_of_mem_getLast?_trim⟩, fun hmem => ?_⟩
  exact notMem_of_mem_lines hrow ((trim_sublist row).subset hmem)

theorem solidLines_join {rows : List (List Char)} (hrows : ∀ row ∈ rows, IsNeat row ∧ '\n' ∉ row) :
    solidLines (join ['\n'] rows) = rows := by
  have htrim : rows.map trim = rows :=
    List.map_congr_left (fun row hrow => (hrows row hrow).1.trim_eq) |>.trans (List.map_id rows)
  rw [solidLines, lines_join hrows, htrim, List.filter_eq_self]
  intro row hrow
  simpa using (hrows row hrow).1.ne_nil

/-- A summary opens where its tag first occurs and ends where a summary is first closed. -/
theorem exists_summaryOf {before behind untilCloser after : List Char}
    (hopener : IsFirst "<summary>".toList before behind text)
    (hcloser : IsFirst "</summary>".toList untilCloser after text)
    (hlength : before.length < untilCloser.length) :
    ∃ inside, untilCloser = before ++ ("<summary>".toList ++ inside) ∧
      summaryOf text = inside ∧ summaryOf inside = inside := by
  obtain ⟨inside, hinside⟩ := exists_insideSummary
    (hopener.occurs.symm.trans hcloser.occurs) hlength
  have hbehind : IsFirst "</summary>".toList inside after behind := by
    constructor
    · have hboth := hopener.occurs.symm.trans hcloser.occurs
      rw [hinside, List.append_assoc, List.append_assoc] at hboth
      exact List.append_cancel_left (List.append_cancel_left hboth)
    · intro front rest hfront
      have hle := hcloser.least (before ++ ("<summary>".toList ++ front)) rest (by
        rw [hopener.occurs, hfront]
        simp only [List.append_assoc])
      rw [hinside] at hle
      simp only [List.length_append] at hle
      omega
  refine ⟨inside, hinside, ?_, ?_⟩
  · rw [summaryOf, cutAt?_eq_some_iff.mpr hopener, cutAt?_eq_some_iff.mpr hcloser]
    simp only [hlength, if_true]
    rw [upToWord, cutAt?_eq_some_iff.mpr hbehind]
  · unfold summaryOf
    split
    · next _ _ front rest _ hcut =>
        refine absurd ⟨front, rest, ?_⟩ (hbehind.not_earlier (by decide))
        rw [List.append_assoc, ← eq_append_of_cutAt? hcut]
    · rfl

theorem summaryOf_eq_self (hnone : ¬HasTag text) : summaryOf text = text := by
  unfold summaryOf
  split
  · next before inside _ _ hopener _ =>
      refine absurd ⟨"<summary>".toList, ?_, before, inside, ?_⟩ hnone
      · exact ⟨"summary".toList, by decide, by decide, by decide⟩
      · rw [List.append_assoc, ← eq_append_of_cutAt? hopener]
  · rfl

/-- Documentation that has been cleaned has no tags and neat lines only, is made of what stands
inside of its summary if the first one is opened before one is closed, and is not changed by
cleaning it again. -/
structure CleanedFrom (rows : List (List Char)) (doc : String) : Prop where
  noTag : ¬HasTag doc.toList
  neat : ∀ line ∈ lines doc.toList, IsNeat line
  summary : ∀ before behind untilCloser after,
    IsFirst "<summary>".toList before behind (join ['\n'] rows) →
      IsFirst "</summary>".toList untilCloser after (join ['\n'] rows) →
        before.length < untilCloser.length →
          ∃ inside, untilCloser = before ++ ("<summary>".toList ++ inside) ∧
            doc.toList.Sublist inside ∧ cleanDocumentation [inside] = some doc
  again : cleanDocumentation (lines doc.toList) = some doc

theorem cleanDocumentation_cleaned {rows : List (List Char)} {doc : String}
    (hdoc : cleanDocumentation rows = some doc) : CleanedFrom rows doc := by
  have hchars := toList_of_paragraph? hdoc
  have hstrips := strips_removeAll (summaryOf (join ['\n'] rows))
  have hdrops := dropsBlanks_solidLines (removeAll tagShape (summaryOf (join ['\n'] rows)))
  have hneat (line : List Char)
      (hline : line ∈ solidLines (removeAll tagShape (summaryOf (join ['\n'] rows)))) :
      IsNeat line ∧ '\n' ∉ line := isNeat_of_mem_solidLines hline
  have hlines := lines_join hneat
  have hnone := (hdrops.tagFree hstrips.tagFree).not_hasTag
  have hsublist := hdrops.sublist.trans hstrips.sublist
  rw [← hchars] at hlines hnone hsublist
  refine ⟨hnone, fun line hline => (hneat line (hlines ▸ hline)).1, ?_, ?_⟩
  · intro before behind untilCloser after hopener hcloser hlength
    obtain ⟨inside, hinside, hsummary, hsame⟩ := exists_summaryOf hopener hcloser hlength
    refine ⟨inside, hinside, hsummary ▸ hsublist, ?_⟩
    rw [cleanDocumentation, join_singleton, hsame, ← hsummary]
    exact hdoc
  · have hkept := (strips_removeAll doc.toList).eq_self hnone
    rw [cleanDocumentation, hlines, ← hchars, summaryOf_eq_self hnone, hkept, hchars,
      solidLines_join hneat]
    exact hdoc

/-- Documentation with a summary on several lines, tags in one another and empty ones. -/
def summarizedRows : List (List Char) :=
  ["About <b>".toList, " <summary> The <<a>see> ".toList, "".toList, "  <> widget<br".toList,
    "/>.</summary> more".toList]

theorem cleanDocumentation_cleaned_summarizedRows :
    cleanDocumentation summarizedRows = some "The see>\n<> widget." ∧
      CleanedFrom summarizedRows "The see>\n<> widget." ∧
      ∃ inside, "About <b>\n <summary> The <<a>see> \n\n  <> widget<br\n/>.".toList =
          "About <b>\n ".toList ++ ("<summary>".toList ++ inside) ∧
        cleanDocumentation [inside] = some "The see>\n<> widget." := by
  have hdoc : cleanDocumentation summarizedRows = some "The see>\n<> widget." := by
    decide +kernel
  have hcleaned := cleanDocumentation_cleaned hdoc
  have hopener : IsFirst "<summary>".toList "About <b>\n ".toList
      " The <<a>see> \n\n  <> widget<br\n/>.</summary> more".toList
      (join ['\n'] summarizedRows) := isFirst_of_cutAt? (by decide +kernel)
  have hcloser : IsFirst "</summary>".toList
      "About <b>\n <summary> The <<a>see> \n\n  <> widget<br\n/>.".toList " more".toList
      (join ['\n'] summarizedRows) := isFirst_of_cutAt? (by decide +kernel)
  obtain ⟨inside, hinside, -, hsame⟩ :=
    hcleaned.summary _ _ _ _ hopener hcloser (by decide +kernel)
  exact ⟨hdoc, hcleaned, inside, hinside, hsame⟩

end CSharp

end SourceAtlas
