import SourceAtlas.Proofs.Masking
import SourceAtlas.Proofs.Scans
import SourceAtlas.Proofs.TypeReadings

/-!
# Scans of a text cut after a line

The first lines of a text are scanned as a window that ends with a line break.  Both scans
go in lockstep until a match in the whole text gets past the cut.  For types this match is
a declaration whose name stands behind the cut, and for decisions it begins with the last
line break, so from there on the scan of the first lines finds nothing that counts.
-/

namespace SourceAtlas

open Text Text.Pattern

namespace Text

/-- The window of a text in that text with more behind it. -/
def Widening.cut (text rest : List Char) : Widening where
  outer := []
  beyond := []
  tail := rest
  stop := byteWidth text
  wideStop := byteWidth (text ++ rest)
  stop_le := by
    rw [byteWidth_append]
    omega

namespace Widening

theorem cut_cursor_ofText (text rest : List Char) :
    (cut text rest).cursor (Cursor.ofText text) = Cursor.ofText (text ++ rest) := rfl

theorem holds_cut_ofText (text rest : List Char) :
    (cut text rest).Holds (Cursor.ofText text) where
  stop := rfl
  after := ⟨text, (List.append_nil text).symm, by simp [Cursor.ofText, cut]⟩

/-- A window that ends with the text shows all that follows. -/
theorem head?_of_cut {text : List Char} {place : Cursor}
    (hleads : (Cursor.ofText text).LeadsTo place) : place.head? = place.after.head? := by
  obtain ⟨passed, hmoves⟩ := hleads
  have hholds := (holds_cut_ofText text []).of_moves hmoves
  unfold Cursor.head?
  rcases hholds.end_or_char with ⟨-, hafter⟩ | ⟨c, after, -, hinside, -⟩
  · rw [hafter]
    simp [cut]
  · rw [if_pos (hholds.stop ▸ hinside)]

end Widening

variable {text rest : List Char} {place : Cursor}

/-- A place in a text that a line break ends is its end, or stands before that break. -/
theorem EndsInBreak.after_cases (hbreak : EndsInBreak text)
    (hleads : (Cursor.ofText text).LeadsTo place) :
    place.offset = byteWidth text ∧ place.after = [] ∨
      ∃ line, place.after = line ++ ['\n'] ∧ place.offset + byteWidth line + 1 = byteWidth text := by
  have hsize : ('\n' : Char).utf8Size = 1 := by decide
  obtain ⟨front, hfront⟩ := hbreak
  obtain ⟨passed, htext, hoffset⟩ := (Cursor.standsIn_ofText text).of_leadsTo hleads
  rcases List.eq_nil_or_concat place.after with hnil | ⟨line, c, hline⟩
  · left
    rw [hnil, List.append_nil] at htext
    exact ⟨by rw [hoffset, htext], hnil⟩
  · right
    rw [List.concat_eq_append] at hline
    rw [hline, hfront, ← List.append_assoc] at htext
    obtain ⟨hsame, hc⟩ := List.append_inj' htext rfl
    rw [← hc] at hline
    refine ⟨line, hline, ?_⟩
    rw [hoffset, hfront, hsame]
    simp only [byteWidth_append, byteWidth_cons, byteWidth_nil, hsize]

end Text

namespace CSharp

variable {text rest : List Char} {place : Cursor}

/-- A declaration that ends within a text ends before its last line break. -/
theorem TypeReading.stop_lt (hbreak : EndsInBreak text)
    (hleads : (Cursor.ofText text).LeadsTo place) (reading : TypeReading place) :
    reading.stop.offset < byteWidth text := by
  have hnameLeads : (Cursor.ofText text).LeadsTo reading.nameStart :=
    hleads.trans ⟨_, reading.edge_moves.trans reading.front_moves⟩
  rcases hbreak.after_cases hnameLeads with ⟨hend, hafter⟩ | ⟨line, hafter, hoffset⟩
  · have hname := reading.name_moves.after
    rw [hafter] at hname
    exact absurd (List.append_eq_nil_iff.mp hname.symm).1 reading.name_ne
  · have hnot : '\n' ∉ reading.name := fun hmem =>
      absurd (reading.name_word '\n' hmem) (by decide)
    have hle := reading.name_moves.offset_le_of_not_mem hafter hnot
    omega

/-- The shape of types matches alike in both windows, or a match in the wider one gets
past the cut. -/
theorem typeShape_agree (hbreak : EndsInBreak text)
    (hleads : (Cursor.ofText text).LeadsTo place) :
    typeShape.matchAt? ((Widening.cut text rest).cursor place) =
        (typeShape.matchAt? place).map (Widening.cut text rest).occurrence ∨
      ∃ reached ∈ typeShape.outcomes
          ((Widening.cut text rest).progress { place, parts := [] }),
        byteWidth text ≤ reached.place.offset := by
  by_cases hcross : ∃ reached ∈ typeShape.outcomes
      ((Widening.cut text rest).progress { place, parts := [] }),
        byteWidth text ≤ reached.place.offset
  · exact Or.inr hcross
  · left
    apply matchAt?_cursor
    obtain ⟨passed, hmoves⟩ := id hleads
    have hholds := (Widening.holds_cut_ofText text rest).of_moves hmoves
    have hpos : 0 < byteWidth text := by
      obtain ⟨front, rfl⟩ := hbreak
      exact byteWidth_pos (by simp)
    have hlimit : byteWidth text - 1 < (Widening.cut text rest).stop :=
      Nat.sub_lt hpos Nat.one_pos
    have hbehind : (Widening.cut text rest).behind (byteWidth text - 1) = none := if_pos hlimit
    have houter : (Widening.cut text rest).outer.head? = none := rfl
    have hindifferent : typeShape.indifferent (Widening.cut text rest).outer.head?
        ((Widening.cut text rest).behind (byteWidth text - 1)) = true := by
      rw [houter, hbehind]
      decide
    have hsame : within (byteWidth text - 1) (typeShape.outcomes
        ((Widening.cut text rest).progress { place, parts := [] })) =
        (within (byteWidth text - 1) (typeShape.outcomes { place, parts := [] })).map
          (Widening.cut text rest).progress :=
      within_outcomes_progress (Nat.le_of_lt hlimit) hindifferent hholds
    have hnarrow : ∀ reached ∈ typeShape.outcomes { place, parts := [] },
        reached.place.offset ≤ byteWidth text - 1 := by
      intro reached hreached
      obtain ⟨reading, hstop, -⟩ := exists_typeReading hreached
      have hlt := reading.stop_lt hbreak hleads
      rw [hstop]
      omega
    have hwide : ∀ reached ∈ typeShape.outcomes
        ((Widening.cut text rest).progress { place, parts := [] }),
        reached.place.offset ≤ byteWidth text - 1 := by
      intro reached hreached
      by_contra hlt
      exact hcross ⟨reached, hreached, by omega⟩
    rwa [within_eq_self hwide, within_eq_self hnarrow] at hsame

theorem TypeDeclaration.ofMatch?_eq_none {found : Match Mark} {name : Span}
    (hname : found.part? .name = some name) (hkeyword : isKeyword name.string = true) :
    ofMatch? found = none := by
  unfold ofMatch?
  rw [hname]
  cases found.part? .modifiers <;> cases found.part? .keyword <;> simp [hkeyword]

/-- Where a declaration gets past the cut, no declaration is read from what is left of
it. -/
theorem ofMatch?_eq_none_of_cut (hbreak : EndsInBreak text)
    (hleads : (Cursor.ofText text).LeadsTo place) {reached : Progress Mark}
    (hreached : reached ∈ typeShape.outcomes
      ((Widening.cut text rest).progress { place, parts := [] }))
    (hcross : byteWidth text ≤ reached.place.offset) {found : Match Mark}
    (hfound : found ∈ typeShape.findAll place) : TypeDeclaration.ofMatch? found = none := by
  rcases hbreak.after_cases hleads with ⟨hend, -⟩ | ⟨line, hafter, hoffset⟩
  · have hstop : place.stop = byteWidth text := hleads.stop_eq
    rw [findAll_eq_nil_of_le (by decide) (by omega)] at hfound
    contradiction
  · obtain ⟨outer, houterStop, -⟩ := exists_typeReading hreached
    have hwideAfter : ((Widening.cut text rest).cursor place).after = line ++ '\n' :: rest := by
      simp [Widening.cursor, Widening.cut, hafter]
    have hpast : place.offset + byteWidth line < outer.stop.offset := by
      rw [← houterStop]
      omega
    obtain ⟨inner, -, hname⟩ := exists_typeReading_of_produces (produces_of_mem_findAll hfound)
    obtain ⟨passed, hpassed⟩ := leadsTo_of_mem_findAll hfound
    have hmoves := (inner.edge_moves.trans inner.front_moves).trans inner.name_moves
    have hbefore : found.whole.start.before =
        passed.reverse ++ ((Widening.cut text rest).cursor place).before := by
      rw [hpassed.before]
      simp [Widening.cursor, Widening.cut]
    have hinner : line ++ ['\n'] =
        passed ++ (inner.edge ++ (inner.front ++ (inner.name ++ inner.stop.after))) := by
      rw [← hafter, hpassed.after, hmoves.after]
      simp
    have hends : ∀ c ∈ inner.stop.after.head?, isWord c = false := by
      rw [← Widening.head?_of_cut (hleads.trans ⟨_, hpassed.trans hmoves⟩)]
      exact inner.name_ends
    apply TypeDeclaration.ofMatch?_eq_none hname
    have htext : (⟨inner.nameStart, inner.stop⟩ : Span).text = inner.name :=
      inner.name_moves.upTo_eq
    rw [Span.string, htext]
    exact outer.isKeyword_name inner hwideAfter hpast hbefore hinner hends

/-- The points of decision that are a word or an operator. -/
def lineDecisions : List Shape :=
  [wordEdge ++ anyWord "if" ["while", "for", "foreach", "case", "catch"] ++ wordEdge,
    literal "&&", literal "||", literal "??"]

/-- The point of decision that is a question mark between white space. -/
def conditional : Shape := one isBlank ++ char '?' ++ one isBlank

theorem outcomes_decisionShape (start : Progress Mark) :
    decisionShape.outcomes start =
      lineDecisions.flatMap (·.outcomes start) ++ conditional.outcomes start := by
  have halt : ∀ first second : Shape, (first <|> second).outcomes start =
      first.outcomes start ++ second.outcomes start := fun _ _ => rfl
  simp only [decisionShape, halt, lineDecisions, conditional, List.flatMap_cons,
    List.flatMap_nil, List.append_nil, List.append_assoc]

theorem stays_on_line_of_mem_lineDecisions : ∀ shape ∈ lineDecisions,
    shape.consumes = true ∧ shape.avoids '\n' = true ∧ shape.indifferent none none = true := by
  decide

/-- Of the three characters, the one in the middle is no line break, so one that begins
before the last character of a line ends in the window of that line. -/
theorem outcomes_conditional_progress {wide : Widening} (hholds : wide.Holds place) {c : Char}
    {line behind : List Char} (hafter : place.after = c :: (line ++ '\n' :: behind))
    (hinside : place.offset + byteWidth (c :: line) < wide.stop) :
    conditional.outcomes (wide.progress { place, parts := [] }) =
      (conditional.outcomes { place, parts := [] }).map wide.progress := by
  have hfirst : ∀ middle ∈ (one isBlank : Shape).outcomes { place, parts := [] },
      wide.Holds middle.place ∧ middle.place.after = line ++ '\n' :: behind ∧
        middle.place.offset + byteWidth line < wide.stop := by
    intro middle hmiddle
    obtain ⟨d, next, hnext, -, rfl⟩ := mem_outcomes_one.mp hmiddle
    have hstep := Cursor.moves_of_next? hnext
    have hboth := hstep.after
    rw [hafter] at hboth
    obtain ⟨rfl, hrest⟩ := List.cons.inj hboth
    refine ⟨hholds.of_moves hstep, hrest.symm, ?_⟩
    have hoffset := hstep.offset
    simp only [byteWidth_cons, byteWidth_nil] at hoffset hinside
    simp only
    omega
  apply outcomes_seq_progress
  · apply outcomes_seq_progress
    · exact outcomes_one_progress hholds (by simp only; omega)
    · intro middle hmiddle
      obtain ⟨hin, -, hlt⟩ := hfirst middle hmiddle
      exact outcomes_one_progress hin (by omega)
  · intro middle hmiddle
    obtain ⟨first, hfirstMem, hmark⟩ := mem_outcomes_seq.mp hmiddle
    obtain ⟨hin, hnext, hlt⟩ := hfirst first hfirstMem
    obtain ⟨taken, hpasses⟩ := exists_passes hmark
    have hle := offset_le_of_avoids hmark hnext (by decide)
    exact outcomes_one_progress (hin.of_moves hpasses.moves) (by omega)

theorem outcomes_conditional_eq_nil (hafter : place.after = ['\n']) :
    conditional.outcomes { place, parts := [] } = [] := by
  rw [List.eq_nil_iff_forall_not_mem]
  intro reached hreached
  obtain ⟨behind, hbehind, -⟩ := mem_outcomes_seq.mp hreached
  obtain ⟨first, hfirst, hmark⟩ := mem_outcomes_seq.mp hbehind
  obtain ⟨c, next, hnext, -, rfl⟩ := mem_outcomes_one.mp hfirst
  obtain ⟨d, last, hlast, -, rfl⟩ := mem_outcomes_one.mp hmark
  have hboth := (Cursor.moves_of_next? hnext).after
  rw [hafter, (Cursor.moves_of_next? hlast).after] at hboth
  simp at hboth

/-- Before its last line break, a text has the same points of decision as with more
behind it. -/
theorem decisionShape_agree (hbreak : EndsInBreak text)
    (hleads : (Cursor.ofText text).LeadsTo place) :
    decisionShape.matchAt? ((Widening.cut text rest).cursor place) =
        (decisionShape.matchAt? place).map (Widening.cut text rest).occurrence ∨
      byteWidth text ≤ place.offset + 1 := by
  rcases hbreak.after_cases hleads with ⟨hend, -⟩ | ⟨line, hafter, hoffset⟩
  · exact Or.inr (by omega)
  · cases line with
    | nil =>
        rw [byteWidth_nil] at hoffset
        exact Or.inr (by omega)
    | cons c line =>
        left
        apply matchAt?_cursor
        obtain ⟨passed, hmoves⟩ := hleads
        have hholds := (Widening.holds_cut_ofText text rest).of_moves hmoves
        have hinside : place.offset + byteWidth (c :: line) < (Widening.cut text rest).stop := by
          simp only [Widening.cut]
          omega
        rw [outcomes_decisionShape, outcomes_decisionShape, List.map_append, List.map_flatMap]
        congr 1
        · apply List.flatMap_congr
          intro shape hshape
          obtain ⟨-, havoids, hindifferent⟩ := stays_on_line_of_mem_lineDecisions shape hshape
          have houter : shape.indifferent (Widening.cut text rest).outer.head? none = true :=
            hindifferent
          exact outcomes_progress_of_avoids_ahead houter hholds hafter hinside havoids
        · exact outcomes_conditional_progress hholds hafter hinside

/-- No point of decision begins with the last line break. -/
theorem findAll_decisionShape_eq_nil (hbreak : EndsInBreak text)
    (hleads : (Cursor.ofText text).LeadsTo place) (hlate : byteWidth text ≤ place.offset + 1) :
    decisionShape.findAll place = [] := by
  have hconsumes : decisionShape.consumes = true := by decide
  have hstop : place.stop = byteWidth text := hleads.stop_eq
  rcases hbreak.after_cases hleads with ⟨hend, -⟩ | ⟨line, hafter, hoffset⟩
  · exact findAll_eq_nil_of_le hconsumes (by omega)
  · have hline : line = [] := by
      by_contra hne
      have hpos := byteWidth_pos hne
      omega
    rw [hline] at hafter
    have hnone : decisionShape.matchAt? place = none := by
      apply matchAt?_eq_none
      rw [outcomes_decisionShape, outcomes_conditional_eq_nil hafter, List.append_nil,
        List.flatMap_eq_nil_iff]
      intro shape hshape
      rw [List.eq_nil_iff_forall_not_mem]
      intro reached hreached
      obtain ⟨hpasses, havoids, -⟩ := stays_on_line_of_mem_lineDecisions shape hshape
      have hlt := offset_lt_of_mem_outcomes hpasses hreached
      have hle := offset_le_of_avoids hreached hafter havoids
      rw [byteWidth_nil] at hle
      omega
    have hsize : ('\n' : Char).utf8Size = 1 := by decide
    have hnext := Widening.next?_of_after hafter (by omega)
    rw [findAll_of_next? hconsumes hnone hnext]
    apply findAll_eq_nil_of_le hconsumes
    simp only [Cursor.past, hstop, hsize]
    exact hlate

/-- The first lines of a text have no more points of decision than the text. -/
theorem decisionCount_le (hbreak : EndsInBreak text) :
    decisionCount text ≤ decisionCount (text ++ rest) := by
  obtain ⟨common, late, later, hnear, hfar, hlate⟩ :=
    findAll_cursor (by decide) (Widening.holds_cut_ofText text rest)
      (fun place hleads => decisionShape_agree hbreak hleads)
  have hnil : late = [] := by
    rcases hlate with hnil | ⟨place, hleads, hparted, rfl⟩
    · exact hnil
    · exact findAll_decisionShape_eq_nil hbreak hleads hparted
  rw [Widening.cut_cursor_ofText] at hfar
  rw [decisionCount, decisionCount, hnear, hfar, hnil]
  simp

end CSharp

end SourceAtlas
