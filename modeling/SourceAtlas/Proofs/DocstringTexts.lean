import SourceAtlas.Proofs.DocumentationTexts
import SourceAtlas.Proofs.ExactDiscovery
import SourceAtlas.Python.Docstring
import SourceAtlas.Python.Word
import Mathlib.Data.List.TakeWhile

/-!
# Texts of docstrings

Cleaning a docstring only takes away white space, as long as every line has a character that
begins at the shared indentation.  Indentation is counted in bytes, and white space may be
wider than one byte, so a line can lie across the shared indentation; such a line is lost as
a whole.  The line that fixes the indentation never is, and therefore nothing is made of a
literal only if the literal holds nothing but white space.
-/

namespace SourceAtlas

namespace Text

/-- The characters of a text that are not white space. -/
def visible (text : List Char) : List Char :=
  text.filter (!isBlank ·)

variable {text : List Char}

@[simp] theorem visible_nil : visible [] = [] := rfl

@[simp] theorem visible_append (first second : List Char) :
    visible (first ++ second) = visible first ++ visible second :=
  List.filter_append first second

theorem visible_eq_nil_iff : visible text = [] ↔ ∀ c ∈ text, isBlank c = true := by
  simp [visible, List.filter_eq_nil_iff]

theorem visible_trimStart (text : List Char) : visible (trimStart text) = visible text := by
  obtain ⟨blanks, hblanks, htext⟩ := exists_blanks_trimStart text
  conv => rhs; rw [htext]
  rw [visible_append, visible_eq_nil_iff.mpr hblanks, List.nil_append]

theorem visible_trimEnd (text : List Char) : visible (trimEnd text) = visible text := by
  obtain ⟨blanks, hblanks, htext⟩ := exists_blanks_trimEnd text
  conv => rhs; rw [htext]
  rw [visible_append, visible_eq_nil_iff.mpr hblanks, List.append_nil]

theorem visible_trim (text : List Char) : visible (trim text) = visible text := by
  rw [trim, visible_trimEnd, visible_trimStart]

theorem trimEnd_eq_nil_iff : trimEnd text = [] ↔ visible text = [] := by
  constructor
  · intro hnil
    rw [← visible_trimEnd, hnil, visible_nil]
  · intro hnone
    have hblanks := visible_eq_nil_iff.mp hnone
    rw [trimEnd, dropEndWhile, List.reverse_eq_nil_iff, List.dropWhile_eq_nil_iff]
    exact fun c hc => hblanks c (List.mem_reverse.mp hc)

theorem trim_eq_nil_iff : trim text = [] ↔ visible text = [] := by
  rw [trim, trimEnd_eq_nil_iff, visible_trimStart]

theorem visible_lines (text : List Char) : (lines text).flatMap visible = visible text := by
  induction text using byLines with
  | nil => rfl
  | last row hne hrow => simp [lines_of_notMem hrow hne]
  | more row rest hrow ih =>
      have hline : visible (dropCarriageReturn row) = visible row := by
        rcases dropCarriageReturn_cases row with heq | heq
        · rw [← heq]
        · conv => rhs; rw [heq]
          rw [visible_append]
          exact (List.append_nil _).symm
      rw [lines_append_break hrow, List.flatMap_cons, ih, hline, visible_append]
      rfl

theorem visible_join (pieces : List (List Char)) :
    visible (join ['\n'] pieces) = pieces.flatMap visible := by
  induction pieces with
  | nil => rfl
  | cons piece pieces ih =>
      by_cases hne : pieces = []
      · simp [hne]
      · rw [join_cons hne, visible_append, visible_append, ih, List.flatMap_cons]
        exact List.append_assoc _ [] _

end Text

namespace Python

open Text

variable {offset indentation : Nat} {line rest : List Char} {lines : List (List Char)}

theorem fromOffset?_eq_some_iff :
    fromOffset? offset line = some rest ↔
      ∃ front, line = front ++ rest ∧ offset = byteWidth front := by
  induction line generalizing offset with
  | nil =>
      cases offset with
      | zero => simp [fromOffset?, eq_comm]
      | succ offset =>
          simp only [fromOffset?, reduceCtorEq, false_iff, not_exists, not_and]
          rintro front hnil
          simp [(List.append_eq_nil_iff.mp hnil.symm).1]
  | cons c line ih =>
      cases offset with
      | zero =>
          have hzero : ∀ front, 0 = byteWidth front ↔ front = [] := by
            intro front
            cases front with
            | nil => simp
            | cons d front =>
                have hd := d.utf8Size_pos
                simp only [byteWidth_cons, reduceCtorEq, iff_false]
                omega
          simp [fromOffset?, hzero]
      | succ offset =>
          rw [fromOffset?]
          constructor
          · intro hrest
            split at hrest
            · contradiction
            · obtain ⟨front, rfl, hoffset⟩ := ih.mp hrest
              exact ⟨c :: front, rfl, by rw [byteWidth_cons]; omega⟩
          · rintro ⟨_ | ⟨d, front⟩, hline, hoffset⟩
            · simp at hoffset
            · obtain ⟨rfl, rfl⟩ := List.cons_eq_cons.mp hline
              rw [byteWidth_cons] at hoffset
              rw [if_neg (by omega)]
              exact ih.mpr ⟨front, rfl, by omega⟩

theorem isBoundary_iff_exists_fromOffset? :
    IsBoundary line offset ↔ ∃ rest, fromOffset? offset line = some rest := by
  simp only [isBoundary_iff, fromOffset?_eq_some_iff]
  exact exists_comm

theorem indentationWidth_eq (line : List Char) :
    indentationWidth line = byteWidth (line.takeWhile isBlank) := by
  have hline : byteWidth line =
      byteWidth (line.takeWhile isBlank) + byteWidth (trimStart line) := by
    rw [← byteWidth_append, trimStart, List.takeWhile_append_dropWhile]
  rw [indentationWidth, hline, Nat.add_sub_cancel_right]

/-- A beginning of a line that is no wider than its indentation is white space. -/
theorem forall_isBlank_of_le {front : List Char}
    (hwithin : byteWidth front ≤ indentationWidth (front ++ rest)) :
    ∀ c ∈ front, isBlank c = true := by
  have hblanks : ∀ c ∈ (front ++ rest).takeWhile isBlank, isBlank c = true :=
    List.all_eq_true.mp List.all_takeWhile
  rw [indentationWidth_eq] at hwithin
  rcases List.prefix_or_prefix_of_prefix (List.prefix_append front rest)
    (List.takeWhile_prefix isBlank) with hfront | ⟨more, hmore⟩
  · exact fun c hc => hblanks c (hfront.subset hc)
  · have hnil : more = [] := by
      by_contra hne
      have hpos := byteWidth_pos hne
      have hwidth := congrArg byteWidth hmore
      rw [byteWidth_append] at hwidth
      omega
    rw [hnil, List.append_nil] at hmore
    exact hmore ▸ hblanks

/-- Cutting a line within its indentation takes away white space, if the line can be cut
there at all. -/
theorem visible_outdent (hwithin : indentation ≤ indentationWidth line) :
    visible (outdent indentation line) =
      if IsBoundary line indentation then visible line else [] := by
  rw [outdent, visible_trimEnd]
  cases hcut : fromOffset? indentation line with
  | none =>
      have hnot : ¬IsBoundary line indentation := by
        simp [isBoundary_iff_exists_fromOffset?, hcut]
      rw [if_neg hnot]
      rfl
  | some rest =>
      rw [if_pos (isBoundary_iff_exists_fromOffset?.mpr ⟨rest, hcut⟩), Option.getD_some]
      obtain ⟨front, rfl, rfl⟩ := fromOffset?_eq_some_iff.mp hcut
      rw [visible_append, visible_eq_nil_iff.mpr (forall_isBlank_of_le hwithin), List.nil_append]

theorem outdent_sublist (indentation : Nat) (line : List Char) :
    (outdent indentation line).Sublist line := by
  have hend : outdent indentation line <+: (fromOffset? indentation line).getD [] :=
    trimEnd_prefix _
  apply hend.sublist.trans
  cases hcut : fromOffset? indentation line with
  | none => exact List.nil_sublist line
  | some rest =>
      obtain ⟨front, rfl, -⟩ := fromOffset?_eq_some_iff.mp hcut
      exact List.sublist_append_right front rest

theorem indentationWidth_mem (hline : line ∈ lines) (hsolid : visible line ≠ []) :
    indentationWidth line ∈
      (lines.filter fun line => !(trim line).isEmpty).map indentationWidth := by
  refine List.mem_map_of_mem (List.mem_filter.mpr ⟨hline, ?_⟩)
  simpa [trim_eq_nil_iff] using hsolid

theorem sharedIndentation_le (hline : line ∈ lines) (hsolid : visible line ≠ []) :
    sharedIndentation lines ≤ indentationWidth line := by
  have hmem := indentationWidth_mem hline hsolid
  rw [sharedIndentation]
  cases hmin : ((lines.filter fun line => !(trim line).isEmpty).map indentationWidth).min? with
  | none => exact Nat.zero_le _
  | some least => exact (List.min?_eq_some_iff.mp hmin).2 _ hmem

/-- The shared indentation is that of a line that holds more than white space. -/
theorem exists_sharedIndentation (hline : line ∈ lines) (hsolid : visible line ≠ []) :
    ∃ least ∈ lines, visible least ≠ [] ∧ sharedIndentation lines = indentationWidth least := by
  have hmem := indentationWidth_mem hline hsolid
  rw [sharedIndentation]
  cases hmin : ((lines.filter fun line => !(trim line).isEmpty).map indentationWidth).min? with
  | none =>
      rw [List.min?_eq_none_iff.mp hmin] at hmem
      contradiction
  | some width =>
      obtain ⟨least, hleast, rfl⟩ := List.mem_map.mp (List.min?_eq_some_iff.mp hmin).1
      obtain ⟨hleast, hsolid'⟩ := List.mem_filter.mp hleast
      exact ⟨least, hleast, by simpa [trim_eq_nil_iff] using hsolid', rfl⟩

theorem isBoundary_indentationWidth (line : List Char) :
    IsBoundary line (indentationWidth line) := by
  have hline := isBoundary_byteWidth (line.takeWhile isBlank) (line.dropWhile isBlank)
  rwa [List.takeWhile_append_dropWhile, ← indentationWidth_eq] at hline

/-- What is left of a line that loses the indentation which it shares with others. -/
theorem visible_outdent_shared (hline : line ∈ lines) :
    visible (outdent (sharedIndentation lines) line) =
      if IsBoundary line (sharedIndentation lines) then visible line else [] := by
  by_cases hsolid : visible line = []
  · have hnone : visible (outdent (sharedIndentation lines) line) = [] := by
      have hblanks := visible_eq_nil_iff.mp hsolid
      exact visible_eq_nil_iff.mpr fun c hc => hblanks c ((outdent_sublist _ line).subset hc)
    rw [hnone, hsolid, ite_self]
  · exact visible_outdent (sharedIndentation_le hline hsolid)

theorem exists_trimLines (lines : List (List Char)) :
    ∃ front behind, (∀ line ∈ front, line = []) ∧ (∀ line ∈ behind, line = []) ∧
      lines = front ++ (trimLines lines ++ behind) := by
  have hempty : ∀ lines : List (List Char), ∀ line ∈ lines.takeWhile List.isEmpty, line = [] :=
    fun lines line hline =>
      List.isEmpty_iff.mp (List.all_eq_true.mp List.all_takeWhile line hline)
  let rest := lines.dropWhile List.isEmpty
  refine ⟨lines.takeWhile List.isEmpty, (rest.reverse.takeWhile List.isEmpty).reverse,
    hempty lines, fun line hline => hempty _ line (List.mem_reverse.mp hline), ?_⟩
  rw [trimLines, ← List.reverse_append, List.takeWhile_append_dropWhile, List.reverse_reverse,
    List.takeWhile_append_dropWhile]

theorem visible_trimLines (lines : List (List Char)) :
    (trimLines lines).flatMap visible = lines.flatMap visible := by
  have hnone : ∀ lines : List (List Char), (∀ line ∈ lines, line = []) →
      lines.flatMap visible = [] := by
    intro lines hlines
    rw [List.flatMap_eq_nil_iff]
    intro line hline
    rw [hlines line hline, visible_nil]
  obtain ⟨front, behind, hfront, hbehind, hall⟩ := exists_trimLines lines
  conv => rhs; rw [hall]
  rw [List.flatMap_append, List.flatMap_append, hnone front hfront, hnone behind hbehind,
    List.nil_append, List.append_nil]

theorem trimLines_eq_nil_iff : trimLines lines = [] ↔ ∀ line ∈ lines, line = [] := by
  constructor
  · intro hnil
    obtain ⟨front, behind, hfront, hbehind, hall⟩ := exists_trimLines lines
    rw [hall, hnil, List.nil_append]
    exact List.forall_mem_append.mpr ⟨hfront, hbehind⟩
  · intro hlines
    have hrest : lines.dropWhile List.isEmpty = [] := by
      rw [List.dropWhile_eq_nil_iff]
      exact fun line hline => List.isEmpty_iff.mpr (hlines line hline)
    rw [trimLines, hrest]
    rfl

theorem head?_dropWhile_isEmpty (lines : List (List Char)) :
    (lines.dropWhile List.isEmpty).head? ≠ some [] := by
  intro hhead
  have hnot := List.head?_dropWhile_not List.isEmpty lines
  rw [hhead] at hnot
  contradiction

theorem getLast?_trimLines (lines : List (List Char)) : (trimLines lines).getLast? ≠ some [] := by
  rw [trimLines, List.getLast?_reverse]
  exact head?_dropWhile_isEmpty _

theorem head?_trimLines (lines : List (List Char)) : (trimLines lines).head? ≠ some [] := by
  have hbegins : trimLines lines <+: lines.dropWhile List.isEmpty := by
    rw [trimLines, ← List.reverse_suffix, List.reverse_reverse]
    exact List.dropWhile_suffix _
  obtain ⟨behind, hbehind⟩ := hbegins
  intro hhead
  apply head?_dropWhile_isEmpty lines
  rw [← hbehind, List.head?_append, hhead]
  rfl

section Kept

variable {α β : Type} (keeps : α → Bool) (content : α → List β)

theorem flatMap_filter (items : List α) :
    (items.filter keeps).flatMap content =
      items.flatMap fun item => if keeps item then content item else [] := by
  induction items with
  | nil => rfl
  | cons item items ih =>
      rw [List.filter_cons, List.flatMap_cons, ← ih]
      split <;> rfl

/-- What is left out can be missed only if it holds anything. -/
theorem flatMap_filter_eq_iff {items : List α} :
    (items.filter keeps).flatMap content = items.flatMap content ↔
      ∀ item ∈ items, content item ≠ [] → keeps item = true := by
  induction items with
  | nil => simp
  | cons item items ih =>
      rw [List.filter_cons, List.forall_mem_cons, List.flatMap_cons]
      split
      · next hkept => simp [hkept, ih]
      · next hlost =>
          rw [← ih]
          constructor
          · intro heq
            have hshorter : ((items.filter keeps).flatMap content).length ≤
                (items.flatMap content).length :=
              (List.filter_sublist.flatMap content).length_le
            have hnone : content item = [] := by
              have hlength := congrArg List.length heq
              rw [List.length_append] at hlength
              exact List.length_eq_zero_iff.mp (by omega)
            rw [hnone, List.nil_append] at heq
            exact ⟨fun hsolid => absurd hnone hsolid, heq⟩
          · rintro ⟨hnone, heq⟩
            have hempty : content item = [] := by
              by_contra hsolid
              exact hlost (hnone hsolid)
            rw [hempty, List.nil_append, heq]

end Kept

/-! ## Cleaned lines -/

/-- The lines that keep what they hold when a docstring is cleaned: the first one, and the
others that can be cut at the indentation which they share. -/
def keptLines (body : List Char) : List (List Char) :=
  match Text.lines body with
  | [] => []
  | first :: rest =>
      first :: rest.filter fun line => IsBoundary line (sharedIndentation rest)

theorem visible_cleanLines (body : List Char) :
    (cleanLines body).flatMap visible = (keptLines body).flatMap visible := by
  unfold cleanLines keptLines
  cases Text.lines body with
  | nil => rfl
  | cons first rest =>
      have hrest : rest.flatMap (fun line => visible (outdent (sharedIndentation rest) line)) =
          rest.flatMap fun line =>
            if IsBoundary line (sharedIndentation rest) then visible line else [] :=
        List.flatMap_congr fun line hline => visible_outdent_shared hline
      simp only [visible_trimLines, List.flatMap_cons, List.flatMap_map, visible_trim, hrest,
        flatMap_filter, decide_eq_true_eq]

/-- Nothing is left of a body only if it holds nothing, since the line that fixes the
indentation is never lost. -/
theorem cleanLines_eq_nil_iff {body : List Char} : cleanLines body = [] ↔ visible body = [] := by
  rw [← visible_lines]
  unfold cleanLines
  cases Text.lines body with
  | nil => simp
  | cons first rest =>
      simp only [trimLines_eq_nil_iff, List.forall_mem_cons, trim_eq_nil_iff, List.forall_mem_map,
        List.flatMap_cons, List.append_eq_nil_iff, List.flatMap_eq_nil_iff]
      refine and_congr_right fun _ => ⟨?_, ?_⟩
      · intro hnone line hline
        by_contra hsolid
        obtain ⟨least, hleast, hsolid', hshared⟩ := exists_sharedIndentation hline hsolid
        have hkept := visible_outdent_shared hleast
        rw [hnone least hleast, hshared, if_pos (isBoundary_indentationWidth least)] at hkept
        exact hsolid' hkept.symm
      · intro hblank line hline
        have hkept := visible_outdent_shared hline
        rw [hblank line hline, ite_self, outdent, visible_trimEnd] at hkept
        exact trimEnd_eq_nil_iff.mpr hkept

/-- Cleaning loses nothing visible exactly if every line behind the first that holds anything
can be cut at the indentation which these lines share. -/
theorem visible_keptLines_eq_iff {body : List Char} :
    (keptLines body).flatMap visible = visible body ↔
      ∀ line ∈ (Text.lines body).tail, visible line ≠ [] →
        IsBoundary line (sharedIndentation (Text.lines body).tail) := by
  rw [← visible_lines, keptLines]
  cases Text.lines body with
  | nil => simp
  | cons first rest =>
      simp only [List.flatMap_cons, List.append_cancel_left_eq, flatMap_filter_eq_iff,
        List.tail_cons, decide_eq_true_eq]

theorem forall_notMem_cleanLines (body : List Char) : ∀ line ∈ cleanLines body, '\n' ∉ line := by
  unfold cleanLines
  cases hlines : Text.lines body with
  | nil => simp
  | cons first rest =>
      have hclean : ∀ line ∈ first :: rest, '\n' ∉ line := fun line hline =>
        notMem_of_mem_lines (hlines ▸ hline)
      intro line hline
      obtain ⟨front, behind, -, -, hall⟩ :=
        exists_trimLines (trim first :: rest.map (outdent (sharedIndentation rest)))
      have hmem : line ∈ trim first :: rest.map (outdent (sharedIndentation rest)) := by
        rw [hall]
        exact List.mem_append_right _ (List.mem_append_left _ hline)
      rcases List.mem_cons.mp hmem with rfl | hrest
      · exact fun hbreak => hclean first List.mem_cons_self ((trim_sublist first).subset hbreak)
      · obtain ⟨old, hold, rfl⟩ := List.mem_map.mp hrest
        exact fun hbreak =>
          hclean old (List.mem_cons_of_mem _ hold) ((outdent_sublist _ old).subset hbreak)

/-- A string literal: letters that say of which kind it is, and a text between quotes.  A
single quote at the start of a text between single quotes would end it. -/
structure Literal where
  mark : List Char
  delimiter : Delimiter
  body : List Char
  mark_letters : ∀ c ∈ mark, isAsciiLetter c = true
  quote_mem : delimiter.quote ∈ ['"', '\'']
  body_begins : delimiter.isLong = false → body.head? ≠ some delimiter.quote

namespace Literal

/-- The literal without the letters in front of its quotes. -/
def quoted (literal : Literal) : List Char :=
  literal.delimiter.quotes ++ (literal.body ++ literal.delimiter.quotes)

def chars (literal : Literal) : List Char :=
  literal.mark ++ literal.quoted

def text (literal : Literal) : String :=
  String.ofList literal.chars

theorem quote_cases (literal : Literal) :
    literal.delimiter.quote = '"' ∨ literal.delimiter.quote = '\'' := by
  simpa using literal.quote_mem

theorem byteWidth_quotes (literal : Literal) :
    byteWidth literal.delimiter.quotes = literal.delimiter.quotes.length := by
  have hwidth : literal.delimiter.quote.utf8Size = 1 := by
    rcases literal.quote_cases with hquote | hquote <;> rw [hquote] <;> decide
  unfold Delimiter.quotes
  cases literal.delimiter.isLong <;> simp [List.replicate, hwidth]

/-- A literal has room for its quotes on both sides. -/
theorem two_mul_length_quotes_le (literal : Literal) :
    2 * literal.delimiter.quotes.length ≤ byteWidth literal.quoted := by
  rw [quoted, byteWidth_append, byteWidth_append, byteWidth_quotes]
  omega

/-- The quotes of a literal are those that are looked for first among all that it starts
with. -/
theorem find?_quotations (literal : Literal) :
    quotations.find? (fun quotes => startsWith literal.quoted quotes
      && 2 * quotes.length ≤ byteWidth literal.quoted) = some literal.delimiter.quotes := by
  have hquotations : quotations =
      [['"', '"', '"'], ['\'', '\'', '\''], ['"'], ['\'']] := by decide
  have hroom := literal.two_mul_length_quotes_le
  have hcases := literal.quote_cases
  obtain ⟨mark, ⟨quote, isLong, isRaw⟩, body, hmark, hquote, hbegins⟩ := literal
  rw [hquotations]
  cases isLong with
  | true =>
      rcases hcases with rfl | rfl <;>
        simp [quoted, Delimiter.quotes, startsWith, dropWord?, List.replicate] at hroom ⊢ <;>
        omega
  | false =>
      have hnext : body.head? ≠ some quote := hbegins rfl
      cases body with
      | nil =>
          rcases hcases with rfl | rfl <;>
            simp [quoted, Delimiter.quotes, startsWith, dropWord?] at hroom ⊢ <;>
            omega
      | cons c body =>
          have hc : c ≠ quote := by simpa using hnext
          rcases hcases with rfl | rfl <;>
            simp [quoted, Delimiter.quotes, startsWith, dropWord?, hc.symm] at hroom ⊢ <;>
            omega

theorem dropWhile_chars (literal : Literal) :
    literal.chars.dropWhile isAsciiLetter = literal.quoted := by
  have hquote : isAsciiLetter literal.delimiter.quote = false := by
    rcases literal.quote_cases with hquote | hquote <;> rw [hquote] <;> decide
  have hquotes : ∃ more, literal.quoted = literal.delimiter.quote :: more := by
    unfold quoted Delimiter.quotes
    cases literal.delimiter.isLong <;> exact ⟨_, rfl⟩
  obtain ⟨more, hmore⟩ := hquotes
  rw [chars, List.dropWhile_append_of_pos literal.mark_letters, hmore,
    List.dropWhile_cons_of_neg (by simp [hquote])]

/-- What stands between the quotes of a literal is found. -/
theorem unquoted?_chars (literal : Literal) :
    unquoted? literal.chars = some literal.body := by
  have hstop : byteWidth literal.quoted - literal.delimiter.quotes.length =
      byteWidth literal.delimiter.quotes + byteWidth literal.body := by
    rw [quoted, byteWidth_append, byteWidth_append, ← byteWidth_quotes]
    omega
  rw [unquoted?, dropWhile_chars]
  simp only [find?_quotations, Option.map_some]
  rw [hstop, ← byteWidth_quotes, quoted, slice_append]

end Literal

theorem docstring?_text (literal : Literal) :
    docstring? literal.text =
      if visible literal.body = [] then none
      else some (String.ofList (join ['\n'] (cleanLines literal.body))) := by
  rw [docstring?, Literal.text, String.toList_ofList, literal.unquoted?_chars, Option.bind_some]
  simp only [← cleanLines_eq_nil_iff]
  cases cleanLines literal.body <;> rfl

/-- The lines of a text that has been put together. -/
def rows (text : String) : List (List Char) :=
  splitWhere (· = '\n') text.toList

theorem rows_join_cleanLines {body : List Char} (hsolid : visible body ≠ []) :
    rows (String.ofList (join ['\n'] (cleanLines body))) = cleanLines body := by
  have hne : cleanLines body ≠ [] := fun hnil => hsolid (cleanLines_eq_nil_iff.mp hnil)
  rw [rows, String.toList_ofList]
  exact splitWhere_intercalate hne (forall_notMem_cleanLines body)

theorem head?_cleanLines (body : List Char) : (cleanLines body).head? ≠ some [] := by
  unfold cleanLines
  cases Text.lines body with
  | nil => simp
  | cons first rest => exact head?_trimLines _

theorem getLast?_cleanLines (body : List Char) : (cleanLines body).getLast? ≠ some [] := by
  unfold cleanLines
  cases Text.lines body with
  | nil => simp
  | cons first rest => exact getLast?_trimLines _

/-- A literal that holds more than white space gives a docstring without empty lines at its
ends.  The docstring shows what the literal shows, line by line and in order, except for the
lines that cannot be cut at the shared indentation; these are lost as a whole. -/
theorem docstring?_literal (literal : Literal) :
    (docstring? literal.text = none ↔ ∀ c ∈ literal.body, isBlank c = true) ∧
      ∀ doc, docstring? literal.text = some doc →
        (rows doc).head? ≠ some [] ∧
        (rows doc).getLast? ≠ some [] ∧
        visible doc.toList = (keptLines literal.body).flatMap visible ∧
        (visible doc.toList = visible literal.body ↔
          ∀ line ∈ (Text.lines literal.body).tail, visible line ≠ [] →
            IsBoundary line (sharedIndentation (Text.lines literal.body).tail)) := by
  rw [docstring?_text, ← visible_eq_nil_iff]
  by_cases hnone : visible literal.body = []
  · simp [hnone]
  · rw [if_neg hnone]
    refine ⟨by simp [hnone], ?_⟩
    intro doc hdoc
    obtain rfl := Option.some.inj hdoc
    have hvisible : visible (join ['\n'] (cleanLines literal.body)) =
        (keptLines literal.body).flatMap visible := by
      rw [visible_join, visible_cleanLines]
    rw [rows_join_cleanLines hnone, String.toList_ofList, hvisible, visible_keptLines_eq_iff]
    exact ⟨head?_cleanLines _, getLast?_cleanLines _, rfl, Iff.rfl⟩

/-- A literal between long quotes whose last line is indented by one white space of three
bytes, and another line by one of a single byte. -/
def unevenLiteral : Literal where
  mark := []
  delimiter := { quote := '"', isLong := true, isRaw := false }
  body := "a\n b\n\u3000c".toList
  mark_letters := by simp
  quote_mem := by decide
  body_begins := by decide

theorem docstring?_unevenLiteral : docstring? unevenLiteral.text = some "a\nb" := by
  rw [docstring?_text]
  rfl

theorem docstring?_literal_unevenLiteral :
    docstring? unevenLiteral.text = some "a\nb" ∧
      (keptLines unevenLiteral.body).flatMap visible = ['a', 'b'] := by
  obtain ⟨-, -, hshown, -⟩ :=
    (docstring?_literal unevenLiteral).2 "a\nb" docstring?_unevenLiteral
  exact ⟨docstring?_unevenLiteral, hshown.symm⟩

theorem not_visible_docstring?_unevenLiteral :
    ¬∀ (literal : Literal) (doc : String), docstring? literal.text = some doc →
      visible doc.toList = visible literal.body := by
  intro hall
  have hlost := hall unevenLiteral "a\nb" docstring?_unevenLiteral
  revert hlost
  decide

end Python

end SourceAtlas
