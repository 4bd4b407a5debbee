import SourceAtlas.Proofs.AttributeReaders
import SourceAtlas.Proofs.ContentPhrases
import SourceAtlas.Proofs.MaskedLines

/-!
# Lines in their places

In a text without hash signs and quotes nothing is blanked out but comments, and a line begins
either in code or in a block comment.  The scanner looks no farther than at one character behind
a comment sign, so a line that is scanned by itself from the region in which it begins is
blanked out as it is in the text.
-/

namespace SourceAtlas.Text

open CSharp.AttributeReader (isSolid)

variable {row rest text : List Char}

theorem lines_append_break (hrow : '\n' ∉ row) (rest : List Char) :
    lines (row ++ '\n' :: rest) = dropCarriageReturn row :: lines rest := by
  have hsplit : splitWhere (· = '\n') (row ++ '\n' :: rest) =
      row :: splitWhere (· = '\n') rest := by
    refine splitWhere_append_cons ?_ (by simp) rest
    intro c hc
    have hne : c ≠ '\n' := fun heq => hrow (heq ▸ hc)
    simpa using hne
  obtain ⟨last, finished, hlast⟩ : ∃ last finished,
      (splitWhere (· = '\n') rest).reverse = last :: finished := by
    apply List.exists_cons_of_ne_nil
    obtain ⟨first, more, hpieces⟩ := exists_splitLoop_eq_cons (· = '\n') rest
    simp [splitWhere, hpieces]
  simp only [lines, hsplit, List.reverse_cons, hlast, List.cons_append, List.reverse_append,
    List.reverse_nil, List.nil_append, List.map_cons]
  split
  · rfl
  · rfl

theorem lines_of_notMem (hrow : '\n' ∉ row) (hne : row ≠ []) : lines row = [row] := by
  have hsplit : splitWhere (· = '\n') row = [row] := by
    refine splitWhere_of_forall ?_
    intro c hc
    have hne : c ≠ '\n' := fun heq => hrow (heq ▸ hc)
    simpa using hne
  simp [lines, hsplit, hne]

/-- A text is empty, or a line without an end, or a line with its end and a shorter text. -/
@[elab_as_elim]
theorem byLines {motive : List Char → Prop} (nil : motive [])
    (last : ∀ row, row ≠ [] → '\n' ∉ row → motive row)
    (more : ∀ row rest, '\n' ∉ row → motive rest → motive (row ++ '\n' :: rest))
    (text : List Char) : motive text := by
  induction hlength : text.length using Nat.strong_induction_on generalizing text with
  | _ length ih =>
      by_cases hbreak : '\n' ∈ text
      · obtain ⟨row, rest, rfl, hrow⟩ := List.eq_append_cons_of_mem hbreak
        have hshorter : rest.length < length := by
          rw [← hlength, List.length_append, List.length_cons]
          omega
        exact more row rest hrow (ih rest.length hshorter rest rfl)
      · by_cases hempty : text = []
        · exact hempty ▸ nil
        · exact last text hempty hbreak

theorem dropCarriageReturn_cases (row : List Char) :
    row = dropCarriageReturn row ∨ row = dropCarriageReturn row ++ ['\r'] := by
  unfold dropCarriageReturn
  split
  · next rest hrow =>
      right
      rw [← List.reverse_reverse row, hrow, List.reverse_cons]
  · exact Or.inl rfl

theorem notMem_of_mem_lines {line : List Char} (hline : line ∈ lines text) : '\n' ∉ line := by
  induction text using byLines with
  | nil => contradiction
  | last row hne hrow =>
      rw [lines_of_notMem hrow hne, List.mem_singleton] at hline
      rwa [hline]
  | more row rest hrow ih =>
      rw [lines_append_break hrow] at hline
      rcases List.mem_cons.mp hline with rfl | hrest
      · intro hbreak
        rcases dropCarriageReturn_cases row with heq | heq
        · exact hrow (heq ▸ hbreak)
        · exact hrow (heq ▸ List.mem_append_left _ hbreak)
      · exact ih hrest

theorem isPlain_append_iff {first second : List Char} :
    IsPlain (first ++ second) ↔ IsPlain first ∧ IsPlain second := by
  unfold IsPlain
  exact List.forall_mem_append

theorem IsPlain.dropCarriageReturn (hrow : IsPlain row) : IsPlain (dropCarriageReturn row) := by
  rcases dropCarriageReturn_cases row with heq | heq
  · exact heq ▸ hrow
  · rw [heq] at hrow
    exact (isPlain_append_iff.mp hrow).1

namespace Region

/-- The regions of a text without quotes. -/
def Unquoted : Region → Prop
  | .code _ | .lineComment | .commentOpener | .blockComment | .commentCloser => True
  | _ => False

/-- The characters that are blanked out in a text that is scanned from a region on. -/
def blanked (region : Region) : List Char → List Char
  | [] => []
  | c :: rest =>
      (if (region.step c rest).2 && c ≠ '\n' then [c] else []) ++
        (region.step c rest).1.blanked rest

variable {region : Region} {c : Char} {stop : List Char}

theorem Unquoted.step (hregion : region.Unquoted) (hc : c ≠ '#' ∧ c ≠ '"' ∧ c ≠ '\'')
    (rest : List Char) : (region.step c rest).1.Unquoted := by
  obtain ⟨hhash, hdouble, hsingle⟩ := hc
  cases region with
  | code sign =>
      simp only [Region.step, hhash, hdouble, hsingle, decide_false, Bool.or_self,
        Bool.false_and, Bool.false_eq_true, if_false]
      split_ifs <;> trivial
  | lineComment | blockComment =>
      simp only [Region.step]
      split_ifs <;> trivial
  | commentOpener | commentCloser => trivial
  | literal quote | escaped quote | verbatim | doubledQuote | rawOpener quote remaining
  | raw quote | rawCloser quote remaining => exact hregion.elim

theorem Unquoted.behind (hregion : region.Unquoted) (hrow : IsPlain row) :
    (region.behind row).Unquoted := by
  induction row generalizing region with
  | nil => exact hregion
  | cons c row ih =>
      obtain ⟨hc, hrow⟩ := isPlain_cons_iff.mp hrow
      exact ih (hregion.step hc row) hrow

/-- Outside of literals nothing but the two signs of comments is looked for. -/
theorem Unquoted.step_append (hregion : region.Unquoted)
    (hc : c ≠ '#' ∧ c ≠ '"' ∧ c ≠ '\'') (hslash : stop.head? ≠ some '/')
    (hasterisk : stop.head? ≠ some '*') (row : List Char) :
    region.step c (row ++ stop) = region.step c row := by
  have hhead : ∀ d, stop.head? ≠ some d →
      decide ((row ++ stop).head? = some d) = decide (row.head? = some d) := by
    intro d hd
    cases row with
    | nil => simpa using hd
    | cons e row => rfl
  obtain ⟨hhash, hdouble, hsingle⟩ := hc
  cases region with
  | code sign =>
      simp only [Region.step, hhead '/' hslash, hhead '*' hasterisk, hdouble, hsingle,
        decide_false, Bool.or_self, Bool.false_and]
  | blockComment => simp only [Region.step, hhead '/' hslash]
  | lineComment | commentOpener | commentCloser => rfl
  | literal quote | escaped quote | verbatim | doubledQuote | rawOpener quote remaining
  | raw quote | rawCloser quote remaining => exact hregion.elim

theorem Unquoted.maskFrom_append (hregion : region.Unquoted) (hrow : IsPlain row)
    (hslash : stop.head? ≠ some '/') (hasterisk : stop.head? ≠ some '*') :
    maskFrom region (row ++ stop) =
      maskFrom region row ++ maskFrom (region.behind row) stop := by
  induction row generalizing region with
  | nil => rfl
  | cons c row ih =>
      obtain ⟨hc, hrow⟩ := isPlain_cons_iff.mp hrow
      rw [List.cons_append, maskFrom_cons, maskFrom_cons,
        hregion.step_append hc hslash hasterisk row, ih (hregion.step hc row) hrow,
        List.append_assoc]
      rfl

theorem Unquoted.behind_append (hregion : region.Unquoted) (hrow : IsPlain row)
    (hslash : stop.head? ≠ some '/') (hasterisk : stop.head? ≠ some '*') :
    region.behind (row ++ stop) = (region.behind row).behind stop := by
  induction row generalizing region with
  | nil => rfl
  | cons c row ih =>
      obtain ⟨hc, hrow⟩ := isPlain_cons_iff.mp hrow
      rw [List.cons_append, Region.behind, Region.behind,
        hregion.step_append hc hslash hasterisk row]
      exact ih (hregion.step hc row) hrow

/-- The region of the next line. -/
theorem Unquoted.behind_line (hregion : region.Unquoted) (hrow : IsPlain row) :
    region.behind (row ++ ['\n']) = (region.behind row).behind ['\n'] :=
  hregion.behind_append hrow (by decide) (by decide)

theorem Unquoted.blanked_append (hregion : region.Unquoted) (hrow : IsPlain row)
    (hslash : stop.head? ≠ some '/') (hasterisk : stop.head? ≠ some '*') :
    region.blanked (row ++ stop) = region.blanked row ++ (region.behind row).blanked stop := by
  induction row generalizing region with
  | nil => rfl
  | cons c row ih =>
      obtain ⟨hc, hrow⟩ := isPlain_cons_iff.mp hrow
      rw [List.cons_append, blanked, blanked, hregion.step_append hc hslash hasterisk row,
        ih (hregion.step hc row) hrow, List.append_assoc]
      rfl

/-- A carriage return makes no difference for the region of the next line. -/
theorem Unquoted.step_return_break (hregion : region.Unquoted) (rest rest' rest'' : List Char) :
    ((region.step '\r' rest).1.step '\n' rest').1 = (region.step '\n' rest'').1 := by
  cases region with
  | code sign | lineComment | commentOpener | blockComment | commentCloser =>
      simp [Region.step]
  | literal quote | escaped quote | verbatim | doubledQuote | rawOpener quote remaining
  | raw quote | rawCloser quote remaining => exact hregion.elim

theorem Unquoted.behind_dropCarriageReturn (hregion : region.Unquoted) (hrow : IsPlain row) :
    region.behind (dropCarriageReturn row ++ ['\n']) = region.behind (row ++ ['\n']) := by
  have hline := hrow.dropCarriageReturn
  rcases dropCarriageReturn_cases row with heq | heq
  · rw [← heq]
  · conv => rhs; rw [heq, List.append_assoc]
    rw [hregion.behind_line hline, hregion.behind_append hline (by decide) (by decide)]
    exact ((hregion.behind hline).step_return_break _ _ _).symm

/-- A line begins in code or in a block comment. -/
def AtLineStart (region : Region) : Prop :=
  region = .plainCode ∨ region = .blockComment

theorem AtLineStart.unquoted (hregion : region.AtLineStart) : region.Unquoted := by
  rcases hregion with rfl | rfl <;> trivial

theorem Unquoted.atLineStart_step (hregion : region.Unquoted) (rest : List Char) :
    (region.step '\n' rest).1.AtLineStart := by
  cases region with
  | code sign | lineComment | commentOpener | blockComment | commentCloser =>
      simp [Region.step, AtLineStart]
  | literal quote | escaped quote | verbatim | doubledQuote | rawOpener quote remaining
  | raw quote | rawCloser quote remaining => exact hregion.elim

theorem AtLineStart.behind (hregion : region.AtLineStart) (hrow : IsPlain row) :
    (region.behind (row ++ ['\n'])).AtLineStart := by
  rw [hregion.unquoted.behind_line hrow]
  exact (hregion.unquoted.behind hrow).atLineStart_step []

theorem Unquoted.quotesOnLine (hregion : region.Unquoted) : region.QuotesOnLine := by
  cases region with
  | code sign | lineComment | commentOpener | blockComment | commentCloser =>
      simp [QuotesOnLine, quote?]
  | literal quote | escaped quote | verbatim | doubledQuote | rawOpener quote remaining
  | raw quote | rawCloser quote remaining => exact hregion.elim

/-- The end of a line is left as it is. -/
theorem Unquoted.maskFrom_break (hregion : region.Unquoted) (rest : List Char) :
    maskFrom region ('\n' :: rest) = '\n' :: maskFrom (region.behind ['\n']) rest := by
  rw [maskFrom_cons, hregion.quotesOnLine.step_break rest []]
  split <;> rfl

theorem Unquoted.blanked_break (hregion : region.Unquoted) (rest : List Char) :
    region.blanked ('\n' :: rest) = (region.behind ['\n']).blanked rest := by
  rw [blanked, hregion.quotesOnLine.step_break rest []]
  simp [Region.behind]

end Region

/-! ## Lines with their regions -/

/-- A line of a text with the lines above it, the nearest one first, and the region in which it
begins. -/
structure PlacedLine where
  above : List (List Char)
  region : Region
  line : List Char

namespace PlacedLine

/-- The line as it is masked in the text, apart from its end. -/
def masked (place : PlacedLine) : List Char :=
  maskFrom place.region place.line

/-- The characters of the line that are blanked out. -/
def comments (place : PlacedLine) : List Char :=
  place.region.blanked place.line

/-- What is known of a line of a text without hash signs and quotes. -/
structure IsPlain (place : PlacedLine) : Prop where
  region : place.region.AtLineStart
  line : Text.IsPlain place.line
  row : '\n' ∉ place.line

end PlacedLine

def placeLines (region : Region) (above : List (List Char)) : List (List Char) → List PlacedLine
  | [] => []
  | line :: rest =>
      { above, region, line } ::
        placeLines (region.behind (line ++ ['\n'])) (line :: above) rest

def placedLines (text : List Char) : List PlacedLine :=
  placeLines .plainCode [] (lines text)

theorem map_line_placeLines (region : Region) (above lines : List (List Char)) :
    (placeLines region above lines).map (·.line) = lines := by
  induction lines generalizing region above with
  | nil => rfl
  | cons line lines ih => rw [placeLines, List.map_cons, ih]

theorem isPlain_and_notMem_of_mem_lines (htext : IsPlain text) {line : List Char}
    (hline : line ∈ lines text) : IsPlain line ∧ '\n' ∉ line := by
  refine ⟨?_, notMem_of_mem_lines hline⟩
  induction text using byLines with
  | nil => contradiction
  | last row hne hrow =>
      rw [lines_of_notMem hrow hne, List.mem_singleton] at hline
      exact hline ▸ htext
  | more row rest hrow ih =>
      rw [isPlain_append_iff, isPlain_cons_iff] at htext
      rw [lines_append_break hrow] at hline
      rcases List.mem_cons.mp hline with rfl | hline
      · exact htext.1.dropCarriageReturn
      · exact ih htext.2.2 hline

theorem isPlain_of_mem_placeLines {region : Region} (hregion : region.AtLineStart)
    {lines : List (List Char)} (hlines : ∀ line ∈ lines, IsPlain line ∧ '\n' ∉ line)
    {above : List (List Char)} {place : PlacedLine}
    (hplace : place ∈ placeLines region above lines) : place.IsPlain := by
  induction lines generalizing region above with
  | nil => contradiction
  | cons line lines ih =>
      obtain ⟨⟨hline, hrow⟩, hlines⟩ := List.forall_mem_cons.mp hlines
      rcases List.mem_cons.mp hplace with rfl | hplace
      · exact ⟨hregion, hline, hrow⟩
      · exact ih (hregion.behind hline) hlines hplace

theorem isSolid_append (first second : List Char) :
    isSolid (first ++ second) = (isSolid first || isSolid second) := by
  simp [isSolid]

theorem notMem_maskFrom {region : Region} (hrow : '\n' ∉ row) : '\n' ∉ maskFrom region row := by
  intro hmem
  obtain ⟨front, behind, hmasked⟩ := List.append_of_mem hmem
  obtain ⟨before, after, rfl, -, -⟩ :=
    (covers_maskFrom region row).exists_split hmasked (by decide)
  exact hrow (by simp)

theorem isSolid_dropCarriageReturn (row : List Char) :
    isSolid (dropCarriageReturn row) = isSolid row := by
  rcases dropCarriageReturn_cases row with heq | heq
  · rw [← heq]
  · have hreturn : isSolid ['\r'] = false := by decide
    conv => rhs; rw [heq, isSolid_append, hreturn, Bool.or_false]

variable {region : Region}

theorem isSolid_maskFrom_dropCarriageReturn (hregion : region.Unquoted) (hrow : IsPlain row) :
    isSolid (maskFrom region (dropCarriageReturn row)) = isSolid (maskFrom region row) := by
  rcases dropCarriageReturn_cases row with heq | heq
  · rw [← heq]
  · have hreturn : ∀ region, isSolid (maskFrom region ['\r']) = false := by
      intro region
      rw [maskFrom_cons, maskFrom_nil, List.append_nil]
      split <;> decide
    conv => rhs; rw [heq]
    rw [hregion.maskFrom_append hrow.dropCarriageReturn (by decide) (by decide), isSolid_append,
      hreturn, Bool.or_false]

/-- A line of the masked text shows something exactly if the line itself does, masked in the
region in which it begins. -/
theorem map_isSolid_lines_maskFrom (hregion : region.AtLineStart) (htext : IsPlain text)
    (above : List (List Char)) :
    (lines (maskFrom region text)).map isSolid =
      (placeLines region above (lines text)).map (isSolid ·.masked) := by
  induction text using byLines generalizing region above with
  | nil => rfl
  | last row hne hrow =>
      have hmasked : maskFrom region row ≠ [] := by
        have hempty := (covers_maskFrom region row).isEmpty_eq
        rwa [Ne, ← List.isEmpty_iff, hempty, List.isEmpty_iff]
      rw [lines_of_notMem hrow hne, lines_of_notMem (notMem_maskFrom hrow) hmasked]
      rfl
  | more row rest hrow ih =>
      rw [isPlain_append_iff, isPlain_cons_iff] at htext
      obtain ⟨hplain, -, hrest⟩ := htext
      have hunquoted := hregion.unquoted
      have hline := isSolid_maskFrom_dropCarriageReturn hunquoted hplain
      have hbehind := hunquoted.behind_line hplain
      rw [hunquoted.maskFrom_append hplain (by simp) (by simp),
        (hunquoted.behind hplain).maskFrom_break, lines_append_break (notMem_maskFrom hrow),
        lines_append_break hrow, placeLines, List.map_cons, List.map_cons,
        isSolid_dropCarriageReturn, hunquoted.behind_dropCarriageReturn hplain, ← hline]
      have hnext := ih (hregion.behind hplain) hrest (dropCarriageReturn row :: above)
      rw [← hnext, hbehind]
      rfl

/-- What is blanked out of the lines comes in order in what is blanked out of the text. -/
theorem flatMap_comments_sublist (hregion : region.AtLineStart) (htext : IsPlain text)
    (above : List (List Char)) :
    ((placeLines region above (lines text)).flatMap (·.comments)).Sublist
      (region.blanked text) := by
  induction text using byLines generalizing region above with
  | nil => exact List.Sublist.refl []
  | last row hne hrow =>
      rw [lines_of_notMem hrow hne, placeLines, placeLines, List.flatMap_singleton]
      exact List.Sublist.refl _
  | more row rest hrow ih =>
      rw [isPlain_append_iff, isPlain_cons_iff] at htext
      obtain ⟨hplain, -, hrest⟩ := htext
      have hunquoted := hregion.unquoted
      have hline : (region.blanked (dropCarriageReturn row)).Sublist (region.blanked row) := by
        rcases dropCarriageReturn_cases row with heq | heq
        · rw [← heq]
        · conv => rhs; rw [heq]
          rw [hunquoted.blanked_append hplain.dropCarriageReturn (by decide) (by decide)]
          exact List.sublist_append_left _ _
      have hnext := ih (hregion.behind hplain) hrest (dropCarriageReturn row :: above)
      have hbehind := hunquoted.behind_line hplain
      rw [lines_append_break hrow, placeLines, List.flatMap_cons,
        hunquoted.behind_dropCarriageReturn hplain,
        hunquoted.blanked_append hplain (by simp) (by simp),
        (hunquoted.behind hplain).blanked_break, ← hbehind]
      exact hline.append hnext

variable {word : List Char}

theorem solid_of_any (hword : word.any isBlank = false) : ∀ c ∈ word, isBlank c = false := by
  simpa using hword

theorem prefix_append_blanks_iff {blanks : List Char} (hblanks : ∀ c ∈ blanks, isBlank c = true)
    (hword : ∀ c ∈ word, isBlank c = false) : word <+: text ++ blanks ↔ word <+: text := by
  constructor
  · intro hbegins
    rcases List.prefix_or_prefix_of_prefix hbegins (List.prefix_append text blanks) with
      hword' | ⟨more, rfl⟩
    · exact hword'
    · have hmore : more = [] := by
        cases more with
        | nil => rfl
        | cons c more =>
            have hc : c ∈ blanks := by
              have hprefix := (List.prefix_append_right_inj text).mp hbegins
              exact hprefix.subset List.mem_cons_self
            have hsolid := hword c (by simp)
            rw [hblanks c hc] at hsolid
            contradiction
      subst hmore
      exact ⟨[], by simp⟩
  · exact fun hbegins => hbegins.trans (List.prefix_append text blanks)

theorem infix_append_blanks_iff {blanks : List Char} (hblanks : ∀ c ∈ blanks, isBlank c = true)
    (hne : word ≠ []) (hword : ∀ c ∈ word, isBlank c = false) :
    word <:+: text ++ blanks ↔ word <:+: text := by
  have hreverse : ∀ c ∈ blanks.reverse, isBlank c = true :=
    fun c hc => hblanks c (List.mem_reverse.mp hc)
  rw [← List.reverse_infix, List.reverse_append,
    infix_blanks_append_iff hreverse (by simpa using hne) (by simpa using hword),
    List.reverse_infix]

/-- A word without blanks begins a trimmed line if it is the first word of the line. -/
theorem prefix_trim_iff (hword : ∀ c ∈ word, isBlank c = false) :
    word <+: trim text ↔ word <+: trimStart text := by
  obtain ⟨blanks, hblanks, htext⟩ := exists_blanks_trimEnd (trimStart text)
  conv => rhs; rw [htext, prefix_append_blanks_iff hblanks hword]
  rfl

theorem infix_trim_iff (hne : word ≠ []) (hword : ∀ c ∈ word, isBlank c = false) :
    word <:+: trim text ↔ word <:+: text := by
  obtain ⟨front, hfront, htext⟩ := exists_blanks_trimStart text
  obtain ⟨blanks, hblanks, hstart⟩ := exists_blanks_trimEnd (trimStart text)
  conv => rhs; rw [htext, infix_blanks_append_iff hfront hne hword, hstart,
    infix_append_blanks_iff hblanks hne hword]
  rfl

namespace Region

/-- Scanned from a region on, all of a row is blanked out, and it leaves the scanner in the
next region. -/
structure Swallows (region : Region) (row : List Char) (next : Region) : Prop where
  behind : region.behind row = next
  blanked : region.blanked row = row
  masked : isSolid (maskFrom region row) = false

theorem swallows_nil (region : Region) : region.Swallows [] region :=
  ⟨rfl, rfl, rfl⟩

variable {c : Char} {middle next : Region}

theorem Swallows.cons (hrow : middle.Swallows row next)
    (hstep : region.step c row = (middle, true)) (hc : c ≠ '\n') :
    region.Swallows (c :: row) next where
  behind := by rw [Region.behind, hstep, hrow.behind]
  blanked := by
    rw [Region.blanked, hstep, hrow.blanked]
    simp [hc]
  masked := by
    have hblank : isSolid (blankOut c) = false := by
      rw [isSolid, List.any_eq_false]
      intro d hd
      simpa using isBlank_of_mem_blankOut hd
    rw [maskFrom_cons, hstep, if_pos rfl, isSolid_append, hblank, hrow.masked]
    rfl

theorem swallows_lineComment (hrow : '\n' ∉ row) :
    Region.lineComment.Swallows row .lineComment := by
  induction row with
  | nil => exact swallows_nil _
  | cons c row ih =>
      have hc : c ≠ '\n' := fun heq => hrow (heq ▸ List.mem_cons_self)
      refine (ih fun hmem => hrow (List.mem_cons_of_mem c hmem)).cons ?_ hc
      simp [Region.step, hc]

theorem swallows_blockComment (hrow : '\n' ∉ row) (hopen : ¬['*', '/'] <:+: row) :
    Region.blockComment.Swallows row .blockComment := by
  induction row with
  | nil => exact swallows_nil _
  | cons c row ih =>
      have hc : c ≠ '\n' := fun heq => hrow (heq ▸ List.mem_cons_self)
      rw [List.infix_cons_iff, not_or] at hopen
      refine (ih (fun hmem => hrow (List.mem_cons_of_mem c hmem)) hopen.2).cons ?_ hc
      have hends : ¬(c = '*' ∧ row.head? = some '/') := by
        rintro ⟨rfl, hhead⟩
        obtain ⟨rest, rfl⟩ := head?_eq_some_iff.mp hhead
        exact hopen.1 ⟨rest, rfl⟩
      simp [Region.step, hends]

/-- White space in code is kept, and code goes on behind it. -/
theorem step_plainCode_of_isBlank (hc : isBlank c = true) (row : List Char) :
    Region.plainCode.step c row = (.plainCode, false) := by
  have hne : ∀ d, isBlank d = false → c ≠ d := by
    rintro d hd rfl
    rw [hc] at hd
    contradiction
  simp [Region.step, hne '/' (by decide), hne '"' (by decide), hne '\'' (by decide),
    hne '#' (by decide), hne '@' (by decide), hne '$' (by decide)]

/-- White space before a row makes no difference in code. -/
theorem plainCode_blanks_append {blanks : List Char} (hblanks : ∀ c ∈ blanks, isBlank c = true)
    (row : List Char) :
    Region.plainCode.behind (blanks ++ row) = Region.plainCode.behind row ∧
      Region.plainCode.blanked (blanks ++ row) = Region.plainCode.blanked row ∧
      isSolid (maskFrom .plainCode (blanks ++ row)) = isSolid (maskFrom .plainCode row) := by
  induction blanks with
  | nil => exact ⟨rfl, rfl, rfl⟩
  | cons c blanks ih =>
      obtain ⟨hc, hblanks⟩ := List.forall_mem_cons.mp hblanks
      obtain ⟨hbehind, hblanked, hmasked⟩ := ih hblanks
      have hstep := step_plainCode_of_isBlank hc (blanks ++ row)
      have hblank : isSolid [c] = false := by simp [isSolid, hc]
      rw [List.cons_append, Region.behind, Region.blanked, maskFrom_cons, hstep, isSolid_append]
      refine ⟨hbehind, ?_, ?_⟩
      · simpa using hblanked
      · simpa [hblank] using hmasked

/-- In code, a row is blanked out from its first sign on. -/
structure StartsComment (row : List Char) (next : Region) : Prop where
  behind : Region.plainCode.behind row = next
  blanked : Region.plainCode.blanked row = trimStart row
  masked : isSolid (maskFrom .plainCode row) = false

theorem Swallows.startsComment (hrow : Region.plainCode.Swallows (trimStart row) next) :
    StartsComment row next := by
  obtain ⟨blanks, hblanks, htext⟩ := exists_blanks_trimStart row
  obtain ⟨hbehind, hblanked, hmasked⟩ := plainCode_blanks_append hblanks (trimStart row)
  rw [← htext] at hbehind hblanked hmasked
  exact ⟨hbehind.trans hrow.behind, hblanked.trans hrow.blanked, hmasked.trans hrow.masked⟩

theorem suffix_of_append_eq_trimStart {sign : List Char} (hstart : sign ++ rest = trimStart row) :
    rest <:+ row := by
  have htrimmed : trimStart row <:+ row := List.dropWhile_suffix isBlank
  rw [← hstart] at htrimmed
  exact (List.suffix_append sign rest).trans htrimmed

theorem startsComment_twoSlashes (hrow : '\n' ∉ row) (hbegins : ['/', '/'] <+: trimStart row) :
    StartsComment row .lineComment := by
  obtain ⟨rest, hstart⟩ := hbegins
  have hrest : '\n' ∉ rest := fun hmem =>
    hrow ((suffix_of_append_eq_trimStart hstart).subset hmem)
  apply Swallows.startsComment
  rw [← hstart]
  exact ((swallows_lineComment hrest).cons rfl (by decide)).cons rfl (by decide)

theorem startsComment_slashAsterisk (hrow : '\n' ∉ row) (hopen : ¬['*', '/'] <:+: row)
    (hbegins : ['/', '*'] <+: trimStart row) : StartsComment row .blockComment := by
  obtain ⟨rest, hstart⟩ := hbegins
  have hsuffix := suffix_of_append_eq_trimStart hstart
  have hrest : '\n' ∉ rest := fun hmem => hrow (hsuffix.subset hmem)
  have hblock : Region.blockComment.Swallows rest .blockComment :=
    swallows_blockComment hrest fun hends => hopen (hends.trans hsuffix.isInfix)
  have hopener : Region.commentOpener.Swallows ('*' :: rest) .blockComment :=
    hblock.cons rfl (by decide)
  apply Swallows.startsComment
  rw [← hstart]
  exact hopener.cons rfl (by decide)

end Region

end SourceAtlas.Text
