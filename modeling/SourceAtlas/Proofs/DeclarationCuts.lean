import SourceAtlas.Proofs.PartialTier
import SourceAtlas.Proofs.TextCuts

/-!
# Where the reading of a listing cuts

Declarations are found in a masked text, and what belongs to them is cut off the text
beside it.  Every place that is used for that is next to a character that masking has kept:
a declaration starts with a word, a directive ends with its semicolon, and a line starts
behind a line break.
-/

namespace SourceAtlas

open Text Text.Pattern

variable {text masked : List Char}

namespace Text

namespace Cursor.StandsIn

variable {place goal : Cursor} {passed : List Char}

theorem isBoundary_offset (hplace : place.StandsIn masked) : IsBoundary masked place.offset := by
  obtain ⟨front, rfl, hoffset⟩ := hplace
  rw [hoffset]
  exact isBoundary_byteWidth front place.after

/-- Places that can be reached from each other in a text are places to cut it. -/
theorem isCut (hplace : place.StandsIn masked) (hleads : place.LeadsTo goal) :
    IsCut masked place.offset goal.offset where
  atStart := hplace.isBoundary_offset
  atStop := (hplace.of_leadsTo hleads).isBoundary_offset
  ordered := hleads.offset_le

/-- Before a character that is kept the text can be cut, and behind it too. -/
theorem isBoundary_of_cons (hplace : place.StandsIn masked) (hcovers : Covers masked text)
    {c : Char} {after : List Char} (hafter : place.after = c :: after) (hc : c ≠ ' ') :
    IsBoundary text place.offset ∧ IsBoundary text (place.offset + c.utf8Size) := by
  obtain ⟨front, hmasked, hoffset⟩ := hplace
  rw [hafter] at hmasked
  rw [hoffset]
  exact hcovers.isBoundary hmasked hc

/-- Where something begins that is not blanked, the text can be cut. -/
theorem isBoundary_of_moves (hplace : place.StandsIn masked) (hcovers : Covers masked text)
    (hmoves : place.Moves passed goal) (hne : passed ≠ []) (hspace : passed.head? ≠ some ' ') :
    IsBoundary text place.offset := by
  cases passed with
  | nil => exact absurd rfl hne
  | cons c passed =>
      have hc : c ≠ ' ' := by
        rintro rfl
        exact hspace rfl
      exact (hplace.isBoundary_of_cons hcovers hmoves.after hc).1

end Cursor.StandsIn

theorem Pattern.isBoundary_of_atLineStart (hcovers : Covers masked text) {place : Cursor}
    (hleads : (Cursor.ofText masked).LeadsTo place) (hline : atLineStart place = true) :
    IsBoundary text place.offset := by
  obtain ⟨passed, hmoves⟩ := hleads
  have hoffset : place.offset = byteWidth passed := by
    simpa [Cursor.ofText] using hmoves.offset
  have hafter : masked = passed ++ place.after := hmoves.after
  rcases List.eq_nil_or_concat passed with rfl | ⟨front, c, rfl⟩
  · rw [hoffset]
    exact isBoundary_byteWidth [] text
  · have hprevious : place.previous? = some c := by
      simp [Cursor.previous?, hmoves.before, Cursor.ofText]
    have hc : c = '\n' := by simpa [atLineStart, hprevious] using hline
    subst hc
    have hmasked : masked = front ++ '\n' :: place.after := by simpa using hafter
    have hwidth : byteWidth (front.concat '\n') = byteWidth front + ('\n' : Char).utf8Size := by
      simp
    rw [hoffset, hwidth]
    exact (hcovers.isBoundary hmasked (by decide)).2

theorem exists_closer_of_closerLoop {opener closer : Char} {depth offset found : Nat}
    {text : List Char} (hfound : closerLoop opener closer depth offset text = (found, true)) :
    ∃ inside rest, text = inside ++ closer :: rest ∧ found = offset + byteWidth inside := by
  obtain ⟨inside, rest, htext, hoffset, hhead, hterminated⟩ :=
    exists_inside_closerLoop opener closer depth offset text
  rw [hfound] at hoffset hterminated
  cases rest with
  | nil => contradiction
  | cons c rest =>
      obtain rfl := hhead c rfl
      exact ⟨inside, rest, htext, hoffset⟩

/-- What a delimiter closes can be cut off a text, and the text behind the delimiter too. -/
theorem Cursor.StandsIn.isCut_closer {place : Cursor} (hplace : place.StandsIn text)
    {opener closer : Char} {depth found : Nat}
    (hfound : closerLoop opener closer depth place.offset place.after = (found, true)) :
    IsCut text place.offset found ∧ IsBoundary text (found + closer.utf8Size) := by
  obtain ⟨inside, rest, hafter, rfl⟩ := exists_closer_of_closerLoop hfound
  obtain ⟨front, htext, hoffset⟩ := hplace
  rw [htext, hafter, hoffset]
  refine ⟨isCut_append front inside (closer :: rest), ?_⟩
  have hbehind := isBoundary_byteWidth (front ++ (inside ++ [closer])) rest
  simpa [Nat.add_assoc] using hbehind

theorem isCut_of_closerFrom? {opener closer : Char} {found : Nat}
    (hfound : closerFrom? opener closer 0 text = some found) :
    IsCut text opener.utf8Size found ∧ IsBoundary text (found + closer.utf8Size) := by
  cases text with
  | nil => contradiction
  | cons c inside =>
      have hplace : Cursor.StandsIn
          { before := [c], after := inside, offset := c.utf8Size, stop := 0 } (c :: inside) :=
        ⟨[c], rfl, by simp⟩
      rw [closerFrom?, Nat.zero_add] at hfound
      split at hfound
      · next hc =>
          split at hfound
          · next closing hclosing =>
              obtain rfl := Option.some.inj hfound
              rw [← hc] at hclosing ⊢
              exact hplace.isCut_closer hclosing
          · contradiction
      · contradiction

theorem eq_append_of_dropWord? {word rest : List Char} (hrest : dropWord? word text = some rest) :
    text = word ++ rest := by
  induction word generalizing text with
  | nil => exact Option.some.inj hrest
  | cons c word ih =>
      cases text with
      | nil => contradiction
      | cons d text =>
          unfold dropWord? at hrest
          split at hrest
          · next heq => rw [heq, ih hrest, List.cons_append]
          · contradiction

theorem eq_append_of_cutLoop {word before front rest : List Char}
    (hcut : cutLoop word before text = some (front, rest)) :
    before.reverse ++ text = front ++ (word ++ rest) := by
  induction text generalizing before with
  | nil =>
      unfold cutLoop at hcut
      split at hcut
      · next hrest =>
          obtain ⟨rfl, rfl⟩ := Prod.mk.inj (Option.some.inj hcut)
          rw [← eq_append_of_dropWord? hrest]
      · contradiction
  | cons c text ih =>
      unfold cutLoop at hcut
      split at hcut
      · next hrest =>
          obtain ⟨rfl, rfl⟩ := Prod.mk.inj (Option.some.inj hcut)
          rw [← eq_append_of_dropWord? hrest]
      · have htext := ih hcut
        rwa [List.reverse_cons, List.append_assoc, List.singleton_append] at htext

theorem eq_append_of_cutAt? {word front rest : List Char}
    (hcut : cutAt? word text = some (front, rest)) : text = front ++ (word ++ rest) :=
  eq_append_of_cutLoop hcut

/-- An opening tag that begins before a closing one also ends before it. -/
theorem exists_insideSummary {before inside untilCloser rest : List Char}
    (hboth : before ++ ("<summary>".toList ++ inside) =
      untilCloser ++ ("</summary>".toList ++ rest))
    (hlength : before.length < untilCloser.length) :
    ∃ tail, untilCloser = before ++ ("<summary>".toList ++ tail) := by
  rcases List.append_eq_append_iff.mp hboth with ⟨more, huntil, htags⟩ | ⟨more, hbefore, -⟩
  · rcases List.append_eq_append_iff.mp htags with ⟨tail, hmore, -⟩ | ⟨tag, hopens, hcloses⟩
    · exact ⟨tail, by rw [huntil, hmore]⟩
    · cases tag with
      | nil => exact ⟨[], by rw [huntil, hopens, List.append_nil, List.append_nil]⟩
      | cons c tag =>
          -- The closing tag would begin in the middle of the opening one.
          have hmore : more ≠ [] := by
            rintro rfl
            simp [huntil] at hlength
          have hc : '<' = c := (List.cons.inj hcloses).1
          have hmem : '<' ∈ "<summary>".toList.tail := by
            rw [hopens, List.tail_append_of_ne_nil hmore, ← hc]
            simp
          exact absurd hmem (by decide +kernel)
  · rw [hbefore, List.length_append] at hlength
    omega

theorem isCut_summary {before inside untilCloser rest : List Char}
    (hopener : cutAt? "<summary>".toList text = some (before, inside))
    (hcloser : cutAt? "</summary>".toList text = some (untilCloser, rest))
    (hlength : before.length < untilCloser.length) :
    IsCut text (byteWidth before + byteWidth "<summary>".toList) (byteWidth untilCloser) := by
  obtain ⟨tail, htail⟩ := exists_insideSummary
    ((eq_append_of_cutAt? hopener).symm.trans (eq_append_of_cutAt? hcloser)) hlength
  have hcut := isCut_append (before ++ "<summary>".toList) tail ("</summary>".toList ++ rest)
  have htext := eq_append_of_cutAt? hcloser
  rw [htext, htail]
  simpa [Nat.add_assoc] using hcut

end Text

namespace CSharp

namespace TypeDeclaration

variable {type : TypeDeclaration}

theorem isBoundary_start (hcovers : Covers masked text) (hmem : type ∈ candidates masked) :
    IsBoundary text type.start := by
  obtain ⟨modifiers, keyword, name, rfl, hplace, signature, hsignature, hne, hspace⟩ :=
    exists_spans hmem
  exact hplace.isBoundary_of_moves hcovers hsignature hne hspace

theorem isCut_header (hmem : type ∈ candidates masked) :
    IsCut masked type.headerStart type.headerStop := by
  obtain ⟨modifiers, keyword, name, rfl, hstands, signature, hsignature, -⟩ := exists_spans hmem
  obtain ⟨header, hheader, -⟩ :=
    Cursor.exists_moves_skipWhile (fun c => !(c = '{' || c = ';')) name.stop
  have hplace : name.stop.StandsIn masked := hstands.of_leadsTo ⟨signature, hsignature⟩
  have htext : (ofSpans modifiers keyword name).header = header := hheader.upTo_eq
  have hcut := hplace.isCut ⟨header, hheader⟩
  rw [hheader.offset] at hcut
  rw [headerStop, htext]
  exact hcut

theorem isCut_body (hmem : type ∈ candidates masked) {block : Block} {body : Cursor}
    (hbody : type.body = some (block, body)) : IsCut masked body.offset body.stop := by
  obtain ⟨split, rfl, rfl⟩ := exists_split hmem hbody
  have hopen : ('{' : Char).utf8Size = 1 := by decide
  have hcut := isCut_append (split.front ++ ['{']) split.inside split.rest
  simpa [BodySplit.masked, BodySplit.body, hopen] using hcut

end TypeDeclaration

namespace Method

variable {window : Cursor} {method : Method}

theorem isBoundary_start (hcovers : Covers masked text) (hwindow : window.StandsIn masked)
    (hmem : method ∈ allIn window) : IsBoundary text method.start := by
  obtain ⟨found, hfound, hmethod⟩ := exists_match_of_mem_allIn hmem
  obtain ⟨modifiers, name, hmodifiers, hname, hedge, -, -, signature, hsignature, hne, hspace⟩ :=
    parts_of_produces_methodShape (produces_of_mem_findAll hfound)
  have hplace : modifiers.start.StandsIn masked :=
    hwindow.of_leadsTo ((leadsTo_of_mem_findAll hfound).trans hedge)
  rw [(offsets_of_ofMatch? hmodifiers hname hmethod).1]
  exact hplace.isBoundary_of_moves hcovers hsignature hne hspace

end Method

theorem atLineStart_of_produces_usingShape {found : Match Mark}
    (hproduces : usingShape.Produces found) : atLineStart found.whole.start = true := by
  obtain ⟨reached, hreached, -⟩ := hproduces
  rw [outcomes_eq_flatMap_opening, List.mem_flatMap] at hreached
  obtain ⟨opened, hopened, -⟩ := hreached
  have hopening : usingShape.opening = lineStart := rfl
  by_contra hline
  simp [hopening, outcomes, hline] at hopened

/-- A directive stands between the start of a line and the end of its semicolon. -/
theorem isCut_of_mem_findAll_usingShape (hcovers : Covers masked text) {found : Match Mark}
    (hfound : found ∈ usingShape.findAll (Cursor.ofText masked)) :
    IsCut text found.whole.start.offset found.whole.stop.offset := by
  have hleads := leadsTo_of_mem_findAll hfound
  obtain ⟨reached, hreached, hstop, -⟩ := produces_of_mem_findAll hfound
  refine ⟨?_, ?_, (produces_of_mem_findAll hfound).leadsTo.offset_le⟩
  · exact isBoundary_of_atLineStart hcovers hleads
      (atLineStart_of_produces_usingShape (produces_of_mem_findAll hfound))
  · unfold usingShape at hreached
    obtain ⟨last, hlast, hreached⟩ := mem_outcomes_seq.mp hreached
    obtain ⟨c, next, hnext, hc, rfl⟩ := mem_outcomes_one.mp hreached
    obtain rfl : c = ';' := by simpa using hc
    obtain ⟨passed, hpasses⟩ := exists_passes hlast
    have hplace : last.place.StandsIn masked :=
      ((Cursor.standsIn_ofText masked).of_leadsTo hleads).of_leadsTo ⟨passed, hpasses.moves⟩
    have hmoves := Cursor.moves_of_next? hnext
    rw [hstop, hmoves.offset, byteWidth_cons, byteWidth_nil, Nat.add_zero]
    exact (hplace.isBoundary_of_cons hcovers hmoves.after (by decide)).2

namespace Listing

/-- What stands before an offset on its line can be cut off the text, and it is what the
annotations on that line are read from. -/
structure CutsBefore (listing : Listing) (offset : Nat) : Prop where
  isCut : IsCut listing.text (listing.lines.start (listing.lines.indexOf offset)) offset
  slice_eq : slice listing.text (listing.lines.start (listing.lines.indexOf offset)) offset =
    takeBytes (offset - listing.lines.start (listing.lines.indexOf offset))
      (listing.lines.line (listing.lines.indexOf offset))

/-- The places where the reading of a listing cuts the text or its masked form lie between
characters, and the indices of lines and classes that it uses are in range. -/
structure SafelyCut (limits : Limits) (listing : Listing) : Prop where
  lineOf : ∀ offset, listing.lines.indexOf offset < listing.lines.entries.size
  line : ∀ index < listing.lines.entries.size,
    IsCut listing.text (listing.lines.start index) (listing.lines.stopIn listing.text index) ∧
      slice listing.text (listing.lines.start index) (listing.lines.stopIn listing.text index) =
        listing.lines.line index
  directive : ∀ found ∈ usingShape.findAll (Cursor.ofText listing.masked),
    IsCut listing.text found.whole.start.offset found.whole.stop.offset
  type : ∀ type ∈ listing.types, listing.CutsBefore type.start
  header : ∀ type ∈ listing.types, IsCut listing.masked type.headerStart type.headerStop
  body : ∀ type ∈ listing.types, ∀ block body, type.body = some (block, body) →
    IsCut listing.masked body.offset body.stop
  member : ∀ type ∈ listing.types, ∀ method ∈ directMethods type, listing.CutsBefore method.start
  method : ∀ method ∈ Method.allIn (Cursor.ofText listing.masked), listing.CutsBefore method.start
  parameters : ∀ window : Cursor, window.StandsIn listing.masked →
    ∀ found ∈ methodShape.findAll window, ∀ closer,
      closerLoop '(' ')' 1 found.whole.stop.offset found.whole.stop.after = (closer, true) →
        IsCut listing.masked found.whole.stop.offset closer ∧
          IsBoundary listing.masked (closer + 1)
  brackets : ∀ opener closer piece found, closerFrom? opener closer 0 piece = some found →
    IsCut piece opener.utf8Size found ∧ IsBoundary piece (found + closer.utf8Size)
  summary : ∀ lines before inside untilCloser rest,
    cutAt? "<summary>".toList lines = some (before, inside) →
      cutAt? "</summary>".toList lines = some (untilCloser, rest) →
        before.length < untilCloser.length →
          IsCut lines (byteWidth before + byteWidth "<summary>".toList) (byteWidth untilCloser)
  owner : ∀ method ∈ (unscopedMethods listing).take limits.partialMethodLimit,
    typesBefore listing.types method = 0 ∧
        method.signature listing [] none ∈
          (partialFindings limits listing listing.types).functions ∨
      ∃ index signature, typesBefore listing.types method = index + 1 ∧
        (partialFindings limits listing listing.types).classes[index]? = some signature ∧
        method.signature listing [] none ∈ signature.methods

theorem byteWidth_masked (text : List Char) : byteWidth (ofText text).masked = byteWidth text :=
  (covers_maskFrom _ _).byteWidth_eq

theorem cutsBefore_of_isBoundary {offset : Nat} (hoffset : offset < byteWidth text)
    (hboundary : IsBoundary text offset) : (ofText text).CutsBefore offset := by
  obtain ⟨hcut, hslice⟩ := LineTable.isCut_before text hoffset hboundary
  exact ⟨hcut, hslice⟩

variable {type : TypeDeclaration} {window : Cursor} {method : Method}

theorem cutsBefore_type (htype : type ∈ (ofText text).types) :
    (ofText text).CutsBefore type.start := by
  have hstands := TypeDeclaration.standsIn_of_mem_topLevel htype
  have hstart := hstands.start_lt
  have hle := TypeDeclaration.StandsIn.headerStart_le type
  have hstop := hstands.headerStop_le
  rw [byteWidth_masked] at hstop
  exact cutsBefore_of_isBoundary (by omega)
    (TypeDeclaration.isBoundary_start (covers_maskFrom _ _)
      (TypeDeclaration.mem_candidates_of_mem_topLevel htype))

theorem cutsBefore_method (hwindow : window.StandsIn (mask text))
    (hstop : window.stop ≤ byteWidth text) (hmethod : method ∈ Method.allIn window) :
    (ofText text).CutsBefore method.start := by
  obtain ⟨-, hname, hlt⟩ := Method.places_of_mem_allIn hmethod
  exact cutsBefore_of_isBoundary (by omega)
    (Method.isBoundary_start (covers_maskFrom _ _) hwindow hmethod)

theorem cutsBefore_member (htype : type ∈ (ofText text).types)
    (hmethod : method ∈ directMethods type) : (ofText text).CutsBefore method.start := by
  obtain ⟨block, body, hbody, hmem, -⟩ := place_of_mem_directMethods htype hmethod
  have hstands := TypeDeclaration.standsIn_of_mem_topLevel htype
  obtain ⟨hwindow, -, hstop⟩ := hstands.inside block body hbody
  have hle := (hstands.block block (TypeDeclaration.mem_block? hbody)).closer_le
  rw [byteWidth_masked] at hle
  exact cutsBefore_method hwindow (by omega) hmem

theorem safelyCut_ofText (limits : Limits) (text : List Char) :
    (ofText text).SafelyCut limits where
  lineOf := LineTable.indexOf_lt_size text
  line index hindex := LineTable.isCut_line text hindex
  directive found hfound := isCut_of_mem_findAll_usingShape (covers_maskFrom _ _) hfound
  type type htype := cutsBefore_type htype
  header type htype :=
    TypeDeclaration.isCut_header (TypeDeclaration.mem_candidates_of_mem_topLevel htype)
  body type htype block body hbody :=
    TypeDeclaration.isCut_body (TypeDeclaration.mem_candidates_of_mem_topLevel htype) hbody
  member type htype method hmethod := cutsBefore_member htype hmethod
  method method hmethod := cutsBefore_method (Cursor.standsIn_ofText _)
    (covers_maskFrom _ _).byteWidth_eq.le hmethod
  parameters := by
    intro window hwindow found hfound closer hcloser
    have hparen : (')' : Char).utf8Size = 1 := by decide
    have hplace : found.whole.stop.StandsIn (ofText text).masked :=
      hwindow.of_leadsTo ((leadsTo_of_mem_findAll hfound).trans
        (produces_of_mem_findAll hfound).leadsTo)
    have hcut := hplace.isCut_closer hcloser
    rwa [hparen] at hcut
  brackets _ _ _ _ hfound := isCut_of_closerFrom? hfound
  summary _ _ _ _ _ hopener hcloser hlength := isCut_summary hopener hcloser hlength
  owner method hmethod := recorded_of_mem_take hmethod

end Listing

/-- A tier reads the first part of a text. -/
theorem exists_append_textAt (tier : Tier) (limits : Limits) (content : List Char) :
    ∃ rest, content = (textAt tier limits content).1 ++ rest := by
  cases tier with
  | minimal =>
      rcases Listing.firstLinesLoop_cases (limits.minimalLineLimit - 1) content with
        hall | ⟨front, rest, hcontent, hcut⟩
      · exact ⟨[], by simp [textAt, Listing.firstLines, hall]⟩
      · refine ⟨rest, ?_⟩
        rw [textAt, Listing.firstLines, hcut, hcontent]
        simp
  | partly => exact ⟨[], (List.append_nil content).symm⟩
  | full => exact ⟨[], (List.append_nil content).symm⟩

/-- At every tier and with every limit a text is cut between its characters only, and
lines and classes are looked up in range. -/
theorem safelyCut_textAt (tier : Tier) (limits : Limits) (content : List Char) :
    IsCut content 0 (byteWidth (textAt tier limits content).1) ∧
      slice content 0 (byteWidth (textAt tier limits content).1) =
        (textAt tier limits content).1 ∧
      (Listing.ofText (textAt tier limits content).1).SafelyCut limits := by
  obtain ⟨rest, hcontent⟩ := exists_append_textAt tier limits content
  have hcut := isCut_append [] (textAt tier limits content).1 rest
  have hslice := slice_append [] (textAt tier limits content).1 rest
  rw [List.nil_append, ← hcontent, byteWidth_nil, Nat.zero_add] at hcut hslice
  exact ⟨hcut, hslice, Listing.safelyCut_ofText limits _⟩

end CSharp

end SourceAtlas
