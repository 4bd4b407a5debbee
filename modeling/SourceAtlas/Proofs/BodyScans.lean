import SourceAtlas.Proofs.MethodPlaces
import SourceAtlas.Proofs.Scans
import SourceAtlas.Proofs.TypePlaces

/-!
# Scans of bodies

The body of a type is scanned as a window of its own, between its braces, while other
readers scan the whole text.  No match gets past a brace except one that begins with it,
so a scan of the whole text comes to the opening brace of every body.  From there on it
finds what the scan of the body finds, up to the closing brace.
-/

namespace SourceAtlas.Text

namespace Pattern

variable {Part : Type}

/-- The first part of a sequence of patterns. -/
def opening : Pattern Part → Pattern Part
  | seq first _ => first.opening
  | pattern => pattern

/-- What follows the first part of a sequence of patterns. -/
def behindOpening : Pattern Part → Pattern Part
  | seq first second => seq first.behindOpening second
  | _ => word []

theorem outcomes_eq_flatMap_opening (pattern : Pattern Part) (start : Progress Part) :
    pattern.outcomes start =
      (pattern.opening.outcomes start).flatMap pattern.behindOpening.outcomes := by
  have hword : (word [] : Pattern Part).outcomes = fun progress => [progress] := rfl
  induction pattern generalizing start with
  | seq first second ih =>
      simp only [outcomes, opening, behindOpening]
      rw [ih start, List.flatMap_assoc]
  | _ =>
      simp only [opening, behindOpening, hword]
      exact (List.flatMap_singleton' _).symm

theorem consumes_of_behindOpening {pattern : Pattern Part}
    (hbehind : pattern.behindOpening.consumes = true) : pattern.consumes = true := by
  induction pattern with
  | seq first second ih =>
      simp only [behindOpening, consumes, Bool.or_eq_true] at hbehind ⊢
      exact hbehind.imp ih id
  | _ => contradiction

end Pattern

/-- A match in the wider window marks and ends as one in the narrow window does. -/
structure Widening.SameMarks {Part : Type} (wide : Widening) (inner outer : Match Part) :
    Prop where
  parts : outer.parts = wide.parts inner.parts
  stop : outer.whole.stop = wide.cursor inner.whole.stop

namespace Widening.SameMarks

variable {Part : Type} {wide : Widening} {inner outer : Match Part}

theorem occurrence (wide : Widening) (found : Match Part) :
    wide.SameMarks found (wide.occurrence found) :=
  ⟨rfl, rfl⟩

theorem part? [DecidableEq Part] (hsame : wide.SameMarks inner outer) (name : Part) :
    outer.part? name = (inner.part? name).map wide.span := by
  unfold Match.part?
  rw [hsame.parts, Widening.parts, List.find?_map, Option.map_map, Option.map_map]
  rfl

end Widening.SameMarks

theorem Widening.text_span {wide : Widening} (htail : wide.tail = []) (stretch : Span) :
    (wide.span stretch).text = stretch.text := by
  unfold Span.text Cursor.upTo
  simp only [Widening.span, Widening.cursor, htail, List.append_nil]

theorem Widening.forall₂_occurrence {Part : Type} (wide : Widening) (found : List (Match Part)) :
    List.Forall₂ wide.SameMarks found (found.map wide.occurrence) := by
  induction found with
  | nil => exact .nil
  | cons first found ih => exact .cons (.occurrence wide first) ih

/-- What is read off matches alike is the same for both lists of them. -/
theorem filterMap_eq_of_forall₂ {α β γ : Type} {R : α → β → Prop} {f : α → Option γ}
    {g : β → Option γ} (hread : ∀ a b, R a b → f a = g b) {first : List α} {second : List β}
    (hboth : List.Forall₂ R first second) : first.filterMap f = second.filterMap g := by
  induction hboth with
  | nil => rfl
  | cons hhead _ ih => simp only [List.filterMap_cons, hread _ _ hhead, ih]

end SourceAtlas.Text

namespace SourceAtlas.CSharp

open Text Text.Pattern

/-- The text up to a body, the body itself, and what follows it. -/
structure BodySplit where
  front : List Char
  inside : List Char
  rest : List Char
  /-- The body ends before a closing brace or at the end of the text. -/
  closed : ∀ c ∈ rest.head?, c = '}'

namespace BodySplit

def masked (split : BodySplit) : List Char :=
  split.front ++ '{' :: (split.inside ++ split.rest)

/-- The window of the body. -/
def body (split : BodySplit) : Cursor where
  before := []
  after := split.inside ++ split.rest
  offset := byteWidth split.front + 1
  stop := byteWidth split.front + 1 + byteWidth split.inside

/-- The place of the opening brace in the whole text. -/
def opener (split : BodySplit) : Cursor where
  before := split.front.reverse
  after := '{' :: (split.inside ++ split.rest)
  offset := byteWidth split.front
  stop := byteWidth split.masked

/-- The whole text around the body. -/
def around (split : BodySplit) : Widening where
  outer := '{' :: split.front.reverse
  beyond := split.rest
  tail := []
  stop := byteWidth split.front + 1 + byteWidth split.inside
  wideStop := byteWidth split.masked
  stop_le := by
    have hopen : ('{' : Char).utf8Size = 1 := by decide
    simp only [masked, byteWidth_append, byteWidth_cons, hopen]
    omega

variable (split : BodySplit)

theorem holds_body : split.around.Holds split.body where
  stop := rfl
  after := ⟨split.inside, rfl, rfl⟩

theorem moves_opener : (Cursor.ofText split.masked).Moves split.front split.opener where
  before := by simp [opener, Cursor.ofText]
  after := rfl
  offset := by simp [opener, Cursor.ofText]
  stop := rfl
  last := by
    intro front c hfront
    have hc := c.utf8Size_pos
    simp only [Cursor.ofText, masked, hfront, byteWidth_append, byteWidth_cons]
    omega

theorem opener_offset_lt : split.opener.offset < split.opener.stop := by
  have hopen : ('{' : Char).utf8Size = 1 := by decide
  simp only [opener, masked, byteWidth_append, byteWidth_cons, hopen]
  omega

theorem next?_opener :
    split.opener.next? = some ('{', split.around.cursor split.body) := by
  have hopen : ('{' : Char).utf8Size = 1 := by decide
  rw [Widening.next?_of_after rfl split.opener_offset_lt]
  simp only [Cursor.past, Widening.cursor, opener, around, body, List.append_nil,
    List.nil_append, hopen]

theorem head?_behind : (split.around.beyond ++ split.around.tail).head? = split.rest.head? := by
  simp [around]

end BodySplit

/-- A body of a matched declaration is a window behind a brace of the text. -/
theorem TypeDeclaration.exists_split {masked : List Char} {declaration : TypeDeclaration}
    (hmem : declaration ∈ candidates masked) {block : Block} {body : Cursor}
    (hbody : declaration.body = some (block, body)) :
    ∃ split : BodySplit, split.masked = masked ∧ split.body = body := by
  obtain ⟨modifiers, keyword, name, rfl, hstands, signature, hsignature, -⟩ := exists_spans hmem
  obtain ⟨header, hheader, -⟩ :=
    Cursor.exists_moves_skipWhile (fun c => !(c = '{' || c = ';')) name.stop
  have hplace : (headerEnd name.stop).StandsIn masked :=
    hstands.of_leadsTo ⟨_, hsignature.trans hheader⟩
  obtain ⟨front, hmasked, hoffset⟩ := hplace
  simp only [ofSpans, bodyAt?] at hbody
  split at hbody
  · next after hafter =>
      have hopen : ('{' : Char).utf8Size = 1 := by decide
      obtain ⟨inside, rest, hinside, hcloser, hrest, -⟩ :=
        exists_inside_closerLoop '{' '}' 1 (byteWidth front + 1) after
      rw [hafter, blockFrom?, if_pos rfl, Option.map_some, Option.some.injEq, Prod.mk.injEq,
        hoffset] at hbody
      refine ⟨⟨front, inside, rest, hrest⟩, ?_, ?_⟩
      · rw [hmasked, hafter, hinside]
        rfl
      · rw [← hbody.2]
        simp only [BodySplit.body, Cursor.window, Cursor.past, ← hcloser, hinside, hoffset, hopen]
  · contradiction

/-- A pattern that neither passes braces nor sees them next to a window. -/
structure IgnoresBraces (pattern : Shape) : Prop where
  consumes : pattern.consumes = true
  opener : pattern.avoids '{' = true
  closer : pattern.avoids '}' = true
  unclosed : pattern.indifferent (some '{') none = true
  closed : pattern.indifferent (some '{') (some '}') = true

namespace IgnoresBraces

variable {pattern : Shape} (hignores : IgnoresBraces pattern) (split : BodySplit)
include hignores

theorem outcomes_progress {progress : Progress Mark}
    (hholds : split.around.Holds progress.place) :
    pattern.outcomes (split.around.progress progress) =
      (pattern.outcomes progress).map split.around.progress := by
  apply outcomes_progress_of_avoids_behind _ _ hholds
  · rw [split.head?_behind]
    cases hrest : split.rest.head? with
    | none => exact hignores.unclosed
    | some c =>
        rw [split.closed c hrest]
        exact hignores.closed
  · rw [split.head?_behind]
    intro c hc
    rw [split.closed c hc]
    exact hignores.closer

theorem outcomes_opener {parts : List (Mark × Span)} :
    pattern.outcomes { place := split.opener, parts } = [] := by
  rw [List.eq_nil_iff_forall_not_mem]
  intro reached hreached
  have hlt := offset_lt_of_mem_outcomes hignores.consumes hreached
  have hafter : split.opener.after = [] ++ '{' :: (split.inside ++ split.rest) := rfl
  have hle := offset_le_of_avoids hreached hafter hignores.opener
  rw [byteWidth_nil] at hle
  omega

end IgnoresBraces

/-- What a scan of a body finds, a scan of the whole text finds in a row. -/
def FoundAround (pattern : Shape) (split : BodySplit) : Prop :=
  ∃ earlier matches' later,
    pattern.findAll (Cursor.ofText split.masked) = earlier ++ matches' ++ later ∧
      List.Forall₂ split.around.SameMarks (pattern.findAll split.body) matches'

theorem IgnoresBraces.foundAround {pattern : Shape} (hignores : IgnoresBraces pattern)
    (split : BodySplit) : FoundAround pattern split := by
  obtain ⟨earlier, hearlier⟩ :=
    exists_findAll_eq_append hignores.consumes split.moves_opener (by
      intro other ahead found hmoves _ hfound
      obtain ⟨rfl, reached, hreached, hstop, -⟩ := produces_of_matchAt? hfound
      rw [hstop, hmoves.offset]
      exact offset_le_of_avoids hreached hmoves.after hignores.opener)
  have hnone := matchAt?_eq_none (hignores.outcomes_opener split)
  have hagree : ∀ place, split.body.LeadsTo place →
      pattern.matchAt? (split.around.cursor place) =
        (pattern.matchAt? place).map split.around.occurrence ∨ False := by
    rintro place ⟨passed, hmoves⟩
    exact Or.inl (matchAt?_cursor
      (hignores.outcomes_progress split (split.holds_body.of_moves hmoves)))
  obtain ⟨common, late, later, hnarrow, hwide, hlate⟩ :=
    findAll_cursor hignores.consumes split.holds_body hagree
  have hempty : late = [] := by simpa using hlate
  refine ⟨earlier, common.map split.around.occurrence, later, ?_, ?_⟩
  · rw [hearlier, findAll_of_next? hignores.consumes hnone split.next?_opener, hwide,
      List.append_assoc]
  · rw [hnarrow, hempty, List.append_nil]
    exact split.around.forall₂_occurrence common

/-- A pattern that begins at the edge of a declaration and ignores braces from there. -/
structure BeginsAtEdge (pattern : Shape) : Prop where
  opening : pattern.opening = declarationEdge
  behind : IgnoresBraces pattern.behindOpening

theorem ignoresBraces_constShape : IgnoresBraces constShape := by
  constructor <;> decide

theorem beginsAtEdge_methodShape : BeginsAtEdge methodShape where
  opening := rfl
  behind := by constructor <;> decide

namespace BeginsAtEdge

variable {pattern : Shape} (hedge : BeginsAtEdge pattern) (split : BodySplit)
include hedge

/-- Behind the start of a window, or where nothing matches right there, a character
stands at the edge. -/
theorem outcomes_eq {progress : Progress Mark}
    (hplace : progress.place.before ≠ [] ∨ pattern.behindOpening.outcomes progress = []) :
    pattern.outcomes progress =
      ((one isEdge).outcomes progress).flatMap pattern.behindOpening.outcomes := by
  rw [outcomes_eq_flatMap_opening, hedge.opening]
  have hboth : declarationEdge.outcomes progress =
      windowStart.outcomes progress ++ (one isEdge).outcomes progress := rfl
  rw [hboth, List.flatMap_append]
  have hstart : (windowStart.outcomes progress).flatMap pattern.behindOpening.outcomes = [] := by
    simp only [outcomes]
    split
    · next hempty =>
        rcases hplace with hbefore | hnone
        · exact absurd (List.isEmpty_iff.mp hempty) hbefore
        · simp [hnone]
    · rfl
  rw [hstart, List.nil_append]

theorem consumes : pattern.consumes = true :=
  consumes_of_behindOpening hedge.behind.consumes

/-- At the brace that opens a body the pattern matches what it can match at once in the
window of the body. -/
theorem outcomes_opener :
    pattern.outcomes { place := split.opener, parts := [] } =
      (pattern.behindOpening.outcomes { place := split.body, parts := [] }).map
        split.around.progress := by
  have hnext : (one isEdge : Shape).outcomes { place := split.opener, parts := [] } =
      [split.around.progress { place := split.body, parts := [] }] := by
    simp only [outcomes, split.next?_opener]
    rfl
  rw [hedge.outcomes_eq (Or.inr (hedge.behind.outcomes_opener split)), hnext,
    List.flatMap_singleton, hedge.behind.outcomes_progress split split.holds_body]

/-- A match begun before the opening brace of a body does not get past it. -/
theorem offset_le_opener {other : Cursor} {ahead : List Char}
    (hmoves : other.Moves ahead split.opener) (hne : ahead ≠ []) {found : Match Mark}
    (hfound : pattern.matchAt? other = some found) :
    found.whole.stop.offset ≤ split.opener.offset := by
  obtain ⟨rfl, reached, hreached, hstop, -⟩ := produces_of_matchAt? hfound
  rw [outcomes_eq_flatMap_opening, hedge.opening, List.mem_flatMap] at hreached
  obtain ⟨middle, hmiddle, hreached⟩ := hreached
  -- The edge takes at most one character, which stands before the brace.
  have hleads : ∃ rest, middle.place.Moves rest split.opener := by
    rcases mem_outcomes_declarationEdge.mp hmiddle with ⟨-, rfl⟩ | ⟨c, next, hnext, -, rfl⟩
    · exact ⟨ahead, hmoves⟩
    · have hstep := Cursor.moves_of_next? hnext
      have hafter := hstep.after.symm.trans hmoves.after
      have hle : next.offset ≤ split.opener.offset := by
        cases ahead with
        | nil => contradiction
        | cons d ahead =>
            have hc : c = d := (List.cons.inj hafter).1
            have hoffset := hmoves.offset
            rw [hstep.offset, hoffset, hc]
            simp only [byteWidth_cons, byteWidth_nil]
            omega
      obtain ⟨rest, -, hrest⟩ := hstep.between hmoves hle
      exact ⟨rest, hrest⟩
  obtain ⟨rest, hrest⟩ := hleads
  rw [hstop, hrest.offset]
  exact offset_le_of_avoids hreached hrest.after hedge.behind.opener

/-- Away from the start of the body, both windows have the same match, up to the end. -/
theorem agree {place : Cursor} (hholds : split.around.Holds place)
    (hplace : place.before ≠ [] ∨
      pattern.behindOpening.outcomes { place, parts := [] } = []) :
    pattern.matchAt? (split.around.cursor place) =
        (pattern.matchAt? place).map split.around.occurrence ∨
      place.offset = split.around.stop := by
  rcases Widening.next?_cases hholds with ⟨c, next, hnext, hwide, hin⟩ | ⟨-, hoffset⟩
  · left
    apply matchAt?_cursor
    have hnarrow : pattern.outcomes { place, parts := [] } =
        ((one isEdge).outcomes { place, parts := [] }).flatMap pattern.behindOpening.outcomes :=
      hedge.outcomes_eq hplace
    have hbefore : (split.around.cursor place).before ≠ [] := by
      simp [Widening.cursor, BodySplit.around]
    have hwider : pattern.outcomes (split.around.progress { place, parts := [] }) =
        ((one isEdge).outcomes (split.around.progress { place, parts := [] })).flatMap
          pattern.behindOpening.outcomes := hedge.outcomes_eq (Or.inl hbefore)
    rw [hnarrow, hwider]
    simp only [outcomes, hnext, Widening.progress, hwide]
    split
    · have hrest : pattern.behindOpening.outcomes
          (split.around.progress { place := next, parts := [] }) =
          (pattern.behindOpening.outcomes { place := next, parts := [] }).map
            split.around.progress := hedge.behind.outcomes_progress split hin
      rw [List.flatMap_singleton, List.flatMap_singleton]
      exact hrest
    · rfl
  · exact Or.inr hoffset

/-- From a place in the body on, the scans go in lockstep up to the end of the body. -/
theorem exists_findAll_around {start : Cursor} (hholds : split.around.Holds start)
    (hplaces : ∀ place, start.LeadsTo place → place.before ≠ [] ∨
      pattern.behindOpening.outcomes { place, parts := [] } = []) :
    ∃ later, pattern.findAll (split.around.cursor start) =
      (pattern.findAll start).map split.around.occurrence ++ later := by
  have hconsumes := hedge.consumes
  have hagree : ∀ place, start.LeadsTo place →
      pattern.matchAt? (split.around.cursor place) =
          (pattern.matchAt? place).map split.around.occurrence ∨
        place.offset = split.around.stop := by
    intro place hleads
    obtain ⟨passed, hmoves⟩ := id hleads
    exact hedge.agree split (hholds.of_moves hmoves) (hplaces place hleads)
  obtain ⟨common, late, later, hnarrow, hwide, hlate⟩ := findAll_cursor hconsumes hholds hagree
  have hempty : late = [] := by
    rcases hlate with hempty | ⟨place, ⟨passed, hmoves⟩, hoffset, heq⟩
    · exact hempty
    · have hin := hholds.of_moves hmoves
      rw [heq, findAll_eq_nil_of_le hconsumes (by rw [hin.stop, hoffset])]
  exact ⟨later, by rw [hwide, hnarrow, hempty, List.append_nil]⟩

theorem foundAround : FoundAround pattern split := by
  have hconsumes := hedge.consumes
  obtain ⟨earlier, hearlier⟩ := exists_findAll_eq_append hconsumes split.moves_opener
    fun _ _ _ hmoves hne hfound => hedge.offset_le_opener split hmoves hne hfound
  have hopener := hedge.outcomes_opener split
  cases htail : pattern.behindOpening.outcomes { place := split.body, parts := [] } with
  | nil =>
      rw [htail] at hopener
      obtain ⟨later, hlater⟩ := hedge.exists_findAll_around split split.holds_body (by
        rintro place ⟨passed, hmoves⟩
        cases passed with
        | nil => exact Or.inr (hmoves.eq_of_nil ▸ htail)
        | cons c passed => exact Or.inl (by simp [hmoves.before]))
      refine ⟨earlier, _, later, ?_, split.around.forall₂_occurrence _⟩
      rw [hearlier, findAll_of_next? hconsumes (matchAt?_eq_none hopener) split.next?_opener,
        hlater, List.append_assoc]
  | cons reached others =>
      have hmem : reached ∈ pattern.behindOpening.outcomes { place := split.body, parts := [] } := by
        simp [htail]
      obtain ⟨passed, hpasses⟩ := exists_passes hmem
      have hne := hpasses.consumes hedge.behind.consumes
      obtain ⟨later, hlater⟩ := hedge.exists_findAll_around split
        (split.holds_body.of_moves hpasses.moves) (by
        rintro place ⟨further, hmoves⟩
        left
        rw [hmoves.before, hpasses.moves.before]
        simp [hne])
      have hbody : pattern.matchAt? split.body =
          some { whole := ⟨split.body, reached.place⟩, parts := reached.parts } := by
        have hstart : pattern.outcomes { place := split.body, parts := [] } =
            reached :: (others ++ ((one isEdge).outcomes { place := split.body, parts := [] }).flatMap
              pattern.behindOpening.outcomes) := by
          rw [outcomes_eq_flatMap_opening, hedge.opening]
          exact congrArg (· ++ _) htail
        rw [matchAt?, hstart]
      have hfound : pattern.matchAt? split.opener =
          some { whole := ⟨split.opener, split.around.cursor reached.place⟩
                 parts := split.around.parts reached.parts } := by
        rw [matchAt?, hopener, htail]
        rfl
      refine ⟨earlier, ⟨⟨split.opener, split.around.cursor reached.place⟩,
        split.around.parts reached.parts⟩ ::
          (pattern.findAll reached.place).map split.around.occurrence, later, ?_, ?_⟩
      · rw [hearlier, findAll_of_matchAt? hconsumes hfound, hlater, List.append_assoc]
        rfl
      · rw [findAll_of_matchAt? hconsumes hbody]
        exact .cons ⟨rfl, rfl⟩ (split.around.forall₂_occurrence _)

end BeginsAtEdge

end SourceAtlas.CSharp
