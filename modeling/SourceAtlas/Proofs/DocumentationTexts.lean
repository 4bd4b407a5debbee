import SourceAtlas.CSharp.Documentation
import SourceAtlas.Proofs.DeclarationCuts
import SourceAtlas.Proofs.PlacedLines
import Mathlib.Data.List.Flatten

/-!
# Texts of documentation

Whatever is made of documentation lines, a summary cut out, tags removed, lines trimmed and
joined, nothing is added to them but line breaks and nothing changes its place.
-/

namespace SourceAtlas

namespace Text

/-- The characters of a text apart from its line breaks. -/
def withoutBreaks (text : List Char) : List Char :=
  text.filter (· ≠ '\n')

theorem withoutBreaks_append (first second : List Char) :
    withoutBreaks (first ++ second) = withoutBreaks first ++ withoutBreaks second :=
  List.filter_append first second

/-- Between the pieces only line breaks have been put. -/
theorem withoutBreaks_join (pieces : List (List Char)) :
    withoutBreaks (join ['\n'] pieces) = withoutBreaks pieces.flatten := by
  induction pieces with
  | nil => rfl
  | cons piece pieces ih =>
      by_cases hne : pieces = []
      · simp [hne]
      · rw [join_cons hne, withoutBreaks_append, withoutBreaks_append, ih, List.flatten_cons,
          withoutBreaks_append]
        simp [withoutBreaks]

theorem takeBytes_sublist (count : Nat) (text : List Char) :
    (takeBytes count text).Sublist text := by
  induction text generalizing count with
  | nil => simp
  | cons c text ih =>
      by_cases hcount : 0 < count
      · rw [takeBytes_cons hcount]
        exact (ih _).cons_cons c
      · rw [Nat.eq_zero_of_not_pos hcount, takeBytes_zero]
        exact List.nil_sublist _

/-- White space is left out of a text here and there. -/
inductive DropsBlanks : List Char → List Char → Prop
  | nil : DropsBlanks [] []
  | keep (c : Char) {text kept : List Char} (hrest : DropsBlanks text kept) :
      DropsBlanks (c :: text) (c :: kept)
  | drop {c : Char} {text kept : List Char} (hc : isBlank c = true)
      (hrest : DropsBlanks text kept) : DropsBlanks (c :: text) kept

namespace DropsBlanks

variable {text kept first second keptFirst keptSecond row : List Char}

theorem refl (text : List Char) : DropsBlanks text text := by
  induction text with
  | nil => exact .nil
  | cons c text ih => exact .keep c ih

theorem of_blanks (hblanks : ∀ c ∈ text, isBlank c = true) : DropsBlanks text [] := by
  induction text with
  | nil => exact .nil
  | cons c text ih =>
      obtain ⟨hc, hblanks⟩ := List.forall_mem_cons.mp hblanks
      exact .drop hc (ih hblanks)

theorem append (hfirst : DropsBlanks first keptFirst) (hsecond : DropsBlanks second keptSecond) :
    DropsBlanks (first ++ second) (keptFirst ++ keptSecond) := by
  induction hfirst with
  | nil => exact hsecond
  | keep c hrest ih => exact .keep c ih
  | drop hc hrest ih => exact .drop hc ih

theorem sublist (hdrops : DropsBlanks text kept) : kept.Sublist text := by
  induction hdrops with
  | nil => exact List.Sublist.refl []
  | keep c hrest ih => exact ih.cons_cons c
  | drop hc hrest ih => exact ih.cons _

theorem trim (text : List Char) : DropsBlanks text (trim text) := by
  obtain ⟨front, hfront, htext⟩ := exists_blanks_trimStart text
  obtain ⟨behind, hbehind, hstart⟩ := exists_blanks_trimEnd (trimStart text)
  have hdrops : DropsBlanks (front ++ (Text.trim text ++ behind)) (Text.trim text) := by
    simpa using (of_blanks hfront).append ((refl (Text.trim text)).append (of_blanks hbehind))
  rwa [Text.trim, ← hstart, ← htext] at hdrops

theorem trim_line (row : List Char) :
    DropsBlanks row (Text.trim (dropCarriageReturn row)) := by
  rcases dropCarriageReturn_cases row with heq | heq
  · rw [← heq]
    exact trim row
  · have hreturn : DropsBlanks ['\r'] [] := .drop (by decide) .nil
    conv => lhs; rw [heq]
    simpa using (trim (dropCarriageReturn row)).append hreturn

theorem join_line {line rest : List Char} {rows : List (List Char)} (hrow : DropsBlanks row line)
    (hrest : DropsBlanks rest (join ['\n'] rows)) :
    DropsBlanks (row ++ '\n' :: rest) (join ['\n'] (line :: rows)) := by
  have hbreak : isBlank '\n' = true := by decide
  by_cases hlast : rows = []
  · have hdrops := hrow.append (.drop hbreak hrest)
    rw [hlast, show join ['\n'] [] = [] from rfl, List.append_nil] at hdrops
    rwa [hlast, join_singleton]
  · rw [join_cons hlast, List.append_assoc, List.singleton_append]
    exact hrow.append (.keep '\n' hrest)

end DropsBlanks

theorem trim_sublist (text : List Char) : (trim text).Sublist text :=
  (DropsBlanks.trim text).sublist

variable {word text : List Char}

theorem dropWord?_eq_none_iff : dropWord? word text = none ↔ ¬word <+: text := by
  rw [← startsWith_iff, startsWith, Bool.not_eq_true, Option.isSome_eq_false_iff,
    Option.isNone_iff_eq_none]

/-- A word occurs in a text between two parts and nowhere earlier. -/
structure IsFirst (word before after text : List Char) : Prop where
  occurs : text = before ++ (word ++ after)
  least : ∀ front rest, text = front ++ (word ++ rest) → before.length ≤ front.length

theorem IsFirst.not_earlier {before after : List Char} (hfirst : IsFirst word before after text)
    (hne : word ≠ []) : ¬word <:+: before := by
  rintro ⟨front, rest, hbefore⟩
  have hearlier : text = front ++ (word ++ (rest ++ (word ++ after))) := by
    rw [hfirst.occurs, ← hbefore]
    simp only [List.append_assoc]
  have hle := hfirst.least _ _ hearlier
  have hpos := List.length_pos_of_ne_nil hne
  rw [← hbefore, List.length_append, List.length_append] at hle
  omega

theorem isFirst_of_cutLoop {before front rest : List Char}
    (hcut : cutLoop word before text = some (front, rest)) :
    ∃ passed, front = before.reverse ++ passed ∧ IsFirst word passed rest text := by
  induction text generalizing before with
  | nil =>
      unfold cutLoop at hcut
      split at hcut
      · next hrest =>
          obtain ⟨rfl, rfl⟩ := Prod.mk.inj (Option.some.inj hcut)
          exact ⟨[], by simp, by simpa using eq_append_of_dropWord? hrest, by simp⟩
      · contradiction
  | cons c text ih =>
      unfold cutLoop at hcut
      split at hcut
      · next hrest =>
          obtain ⟨rfl, rfl⟩ := Prod.mk.inj (Option.some.inj hcut)
          exact ⟨[], by simp, by simpa using eq_append_of_dropWord? hrest, by simp⟩
      · next hnone =>
          obtain ⟨passed, hfront, hpassed⟩ := ih hcut
          refine ⟨c :: passed, by simp [hfront], by rw [hpassed.occurs]; rfl, ?_⟩
          intro other behind hother
          cases other with
          | nil => exact absurd ⟨behind, hother.symm⟩ (dropWord?_eq_none_iff.mp hnone)
          | cons d other =>
              have hle := hpassed.least other behind (List.cons.inj hother).2
              exact Nat.succ_le_succ hle

theorem isFirst_of_cutAt? {front rest : List Char}
    (hcut : cutAt? word text = some (front, rest)) : IsFirst word front rest text := by
  obtain ⟨passed, rfl, hpassed⟩ := isFirst_of_cutLoop hcut
  exact hpassed

theorem not_infix_of_cutLoop_eq_none {before : List Char}
    (hcut : cutLoop word before text = none) : ¬word <:+: text := by
  induction text generalizing before with
  | nil =>
      unfold cutLoop at hcut
      split at hcut
      · contradiction
      · next hnone =>
          rw [List.infix_nil, ← List.prefix_nil]
          exact dropWord?_eq_none_iff.mp hnone
  | cons c text ih =>
      unfold cutLoop at hcut
      split at hcut
      · contradiction
      · next hnone =>
          rw [List.infix_cons_iff, not_or]
          exact ⟨dropWord?_eq_none_iff.mp hnone, ih hcut⟩

/-- A text is cut at the first occurrence of a word. -/
theorem cutAt?_eq_some_iff {before after : List Char} :
    cutAt? word text = some (before, after) ↔ IsFirst word before after text := by
  refine ⟨isFirst_of_cutAt?, fun hfirst => ?_⟩
  cases hcut : cutAt? word text with
  | none =>
      refine absurd ⟨before, after, ?_⟩ (not_infix_of_cutLoop_eq_none hcut)
      rw [hfirst.occurs, List.append_assoc]
  | some cut =>
      obtain ⟨front, rest⟩ := cut
      have hother := isFirst_of_cutAt? hcut
      have hlength : front.length = before.length :=
        Nat.le_antisymm (hother.least _ _ hfirst.occurs) (hfirst.least _ _ hother.occurs)
      obtain ⟨rfl, hrest⟩ := List.append_inj (hother.occurs.symm.trans hfirst.occurs) hlength
      rw [List.append_cancel_left hrest]

/-- What stands before the first occurrence of a word begins the text and does not hold the
word. -/
theorem upToWord_isPrefix (word text : List Char) : upToWord word text <+: text := by
  unfold upToWord
  split
  · next front rest hcut => exact ⟨_, (eq_append_of_cutAt? hcut).symm⟩
  · exact List.prefix_rfl

theorem not_infix_upToWord (hne : word ≠ []) : ¬word <:+: upToWord word text := by
  unfold upToWord
  split
  · next front rest hcut => exact (isFirst_of_cutAt? hcut).not_earlier hne
  · next hcut => exact not_infix_of_cutLoop_eq_none hcut

theorem dropWord?_append (word rest : List Char) : dropWord? word (word ++ rest) = some rest := by
  induction word with
  | nil => cases rest <;> rfl
  | cons c word ih => rw [List.cons_append, dropWord?, if_pos rfl, ih]

theorem dropRepeats_eq_self (hnot : ¬word <+: text) (count : Nat) :
    dropRepeats word count text = text := by
  cases count with
  | zero => rfl
  | succ count => rw [dropRepeats, dropWord?_eq_none_iff.mpr hnot]

theorem trimStartWord_eq_self (hnot : ¬word <+: text) : trimStartWord word text = text :=
  dropRepeats_eq_self hnot _

/-- A word that is not repeated is dropped once. -/
theorem trimStartWord_append (hne : word ≠ []) {rest : List Char} (hnot : ¬word <+: rest) :
    trimStartWord word (word ++ rest) = rest := by
  obtain ⟨count, hcount⟩ : ∃ count, (word ++ rest).length = count + 1 := by
    apply Nat.exists_eq_succ_of_ne_zero
    simp [hne]
  rw [trimStartWord, hcount, dropRepeats, dropWord?_append]
  exact dropRepeats_eq_self hnot count

namespace Pattern

variable {Part : Type}

theorem withoutLoop_sublist (pattern : Pattern Part) (count : Nat) (place : Cursor)
    (kept : List Char) :
    (withoutLoop place kept (pattern.allLoop count place [])).Sublist
      (kept.reverse ++ place.after) := by
  induction count generalizing place kept with
  | zero => exact (takeBytes_sublist _ _).append_left kept.reverse
  | succ count ih =>
      unfold allLoop
      split
      · exact (takeBytes_sublist _ _).append_left kept.reverse
      · next occurrence hoccurrence =>
          obtain ⟨⟨front, hfront⟩, hproduces⟩ := leadsTo_and_produces_of_find? hoccurrence
          obtain ⟨matched, hmatched⟩ := hproduces.leadsTo
          rw [allLoop_eq, List.reverse_singleton, List.singleton_append, withoutLoop,
            hfront.upTo_eq]
          refine (ih _ _).trans ?_
          rw [hfront.after, hmatched.after, List.reverse_append, List.reverse_reverse,
            List.append_assoc]
          exact ((List.sublist_append_right matched _).append_left front).append_left kept.reverse

theorem removeAll_sublist (pattern : Pattern Part) (text : List Char) :
    (removeAll pattern text).Sublist text :=
  withoutLoop_sublist pattern _ (Cursor.ofText text) []

end Pattern

end Text

namespace CSharp

open Text

theorem summaryOf_sublist (text : List Char) : (summaryOf text).Sublist text := by
  unfold summaryOf
  split
  · next before inside untilCloser rest hopener hcloser =>
      split
      · have htext := eq_append_of_cutAt? hopener
        have hinside : inside.Sublist text := by
          rw [htext]
          exact (List.sublist_append_right _ _).trans (List.sublist_append_right _ _)
        exact (upToWord_isPrefix _ inside).sublist.trans hinside
      · exact List.Sublist.refl text
  · exact List.Sublist.refl text

/-- The solid lines of a text are what is left of it without some white space. -/
theorem dropsBlanks_solidLines (text : List Char) :
    DropsBlanks text (join ['\n'] (solidLines text)) := by
  induction text using byLines with
  | nil => exact .nil
  | last row hne hrow =>
      have htrim := DropsBlanks.trim row
      rw [solidLines, lines_of_notMem hrow hne, List.map_singleton]
      by_cases hblank : trim row = []
      · rw [List.filter_cons_of_neg (by simpa using hblank)]
        rwa [hblank] at htrim
      · rw [List.filter_cons_of_pos (by simpa using hblank)]
        simpa using htrim
  | more row rest hrow ih =>
      have htrim := DropsBlanks.trim_line row
      rw [solidLines, lines_append_break hrow, List.map_cons]
      by_cases hblank : trim (dropCarriageReturn row) = []
      · rw [List.filter_cons_of_neg (by simpa using hblank), ← solidLines]
        rw [hblank] at htrim
        simpa using htrim.append (.drop (by decide) ih)
      · rw [List.filter_cons_of_pos (by simpa using hblank), ← solidLines]
        exact htrim.join_line ih

theorem toList_of_paragraph? {lines : List (List Char)} {doc : String}
    (hdoc : paragraph? lines = some doc) : doc.toList = join ['\n'] lines := by
  unfold paragraph? at hdoc
  split at hdoc
  · contradiction
  · rw [← Option.some.inj hdoc, String.toList_ofList]

/-- Cleaned documentation has nothing but what stands in its lines. -/
theorem cleanDocumentation_sublist {lines : List (List Char)} {doc : String}
    (hdoc : cleanDocumentation lines = some doc) :
    (withoutBreaks doc.toList).Sublist (withoutBreaks lines.flatten) := by
  have hcleaned := (dropsBlanks_solidLines
    (Pattern.removeAll tagShape (summaryOf (join ['\n'] lines)))).sublist
  have hkept := (Pattern.removeAll_sublist tagShape (summaryOf (join ['\n'] lines))).trans
    (summaryOf_sublist _)
  rw [toList_of_paragraph? hdoc, ← withoutBreaks_join]
  exact (hcleaned.trans hkept).filter _

end CSharp

end SourceAtlas
