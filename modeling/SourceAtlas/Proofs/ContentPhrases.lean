import SourceAtlas.Classification.Basic
import SourceAtlas.Proofs.ExactDiscovery
import SourceAtlas.Proofs.Masking
import Mathlib.Data.List.Find

/-!
# Phrases in Python code

The scanner that blanks out comments takes two slashes, and a slash with an asterisk, for
the start of one in every language.  In Python two slashes divide.  In code without hash
signs and quotes they are all that is blanked out, and since the phrases that tell a role
have no blanks, a phrase is found exactly if it stands in one of the stretches between
what is taken for comments.
-/

namespace SourceAtlas.Text

/-- What a part of a text is taken for. -/
inductive Passage
  | code
  /-- Behind two slashes, up to the end of the line. -/
  | line
  /-- Behind a slash with an asterisk, up to an asterisk with a slash. -/
  | block

/-- The stretches of code in a text that begins with a passage. -/
def stretches : Passage → List Char → List (List Char)
  | _, [] => [[]]
  | .code, '/' :: '/' :: text => [] :: stretches .line text
  | .code, '/' :: '*' :: text => [] :: stretches .block text
  | .code, c :: text => (stretches .code text).modifyHead (c :: ·)
  | .line, '\n' :: text => (stretches .code text).modifyHead ('\n' :: ·)
  | .line, _ :: text => stretches .line text
  | .block, '*' :: '/' :: text => stretches .code text
  | .block, _ :: text => stretches .block text

/-- A text made up of stretches and of blanks in each place between two of them. -/
inductive Separated : List Char → List (List Char) → Prop
  | nil : Separated [] [[]]
  | keep (c : Char) {text first : List Char} {others : List (List Char)}
      (htext : Separated text (first :: others)) : Separated (c :: text) ((c :: first) :: others)
  | gap {blanks text : List Char} {pieces : List (List Char)} (hne : blanks ≠ [])
      (hblanks : ∀ c ∈ blanks, isBlank c = true) (htext : Separated text pieces) :
      Separated (blanks ++ text) ([] :: pieces)

variable {text masked word : List Char} {pieces : List (List Char)}

theorem not_prefix_of_isBlank {c : Char} (hc : isBlank c = true) (hne : word ≠ [])
    (hword : ∀ d ∈ word, isBlank d = false) : ¬word <+: c :: text := by
  intro hbegins
  obtain ⟨d, rest, rfl⟩ := List.exists_cons_of_ne_nil hne
  have hd := hword d List.mem_cons_self
  rw [(List.cons_prefix_cons.mp hbegins).1, hc] at hd
  contradiction

/-- A word without blanks does not reach over some. -/
theorem infix_blanks_append_iff {blanks : List Char} (hblanks : ∀ c ∈ blanks, isBlank c = true)
    (hne : word ≠ []) (hword : ∀ c ∈ word, isBlank c = false) :
    word <:+: blanks ++ text ↔ word <:+: text := by
  induction blanks with
  | nil => rfl
  | cons c blanks ih =>
      obtain ⟨hc, hblanks⟩ := List.forall_mem_cons.mp hblanks
      rw [List.cons_append, List.infix_cons_iff, ih hblanks,
        or_iff_right (not_prefix_of_isBlank hc hne hword)]

namespace Separated

variable {first : List Char} {others : List (List Char)}

theorem prefix_iff (htext : Separated text (first :: others))
    (hword : ∀ c ∈ word, isBlank c = false) : word <+: text ↔ word <+: first := by
  generalize hpieces : first :: others = pieces at htext
  induction htext generalizing first others word with
  | nil => rw [(List.cons.inj hpieces).1]
  | keep c _ ih =>
      obtain ⟨rfl, -⟩ := List.cons.inj hpieces
      cases word with
      | nil => simp
      | cons d word =>
          obtain ⟨-, hword⟩ := List.forall_mem_cons.mp hword
          rw [List.cons_prefix_cons, List.cons_prefix_cons, ih hword rfl]
  | gap hne hblanks _ _ =>
      obtain ⟨rfl, -⟩ := List.cons.inj hpieces
      obtain ⟨c, blanks, rfl⟩ := List.exists_cons_of_ne_nil hne
      by_cases hempty : word = []
      · simp [hempty]
      · rw [List.cons_append, List.prefix_nil]
        exact iff_of_false (not_prefix_of_isBlank (hblanks c List.mem_cons_self) hempty hword)
          hempty

/-- A word without blanks occurs in a text exactly if it occurs in one of its stretches. -/
theorem infix_iff (htext : Separated text pieces) (hne : word ≠ [])
    (hword : ∀ c ∈ word, isBlank c = false) :
    word <:+: text ↔ ∃ piece ∈ pieces, word <:+: piece := by
  induction htext with
  | nil => simp
  | keep c htext ih =>
      have hbegins := (htext.keep c).prefix_iff hword
      rw [List.infix_cons_iff, hbegins, ih]
      simp only [List.exists_mem_cons_iff, List.infix_cons_iff]
      rw [or_assoc]
  | gap _ hblanks _ ih =>
      rw [infix_blanks_append_iff hblanks hne hword, ih]
      simp [hne]

end Separated

theorem isBlank_of_mem_blankOut {c d : Char} (hd : d ∈ blankOut c) : isBlank d = true := by
  unfold blankOut at hd
  split at hd
  · rw [List.mem_singleton.mp hd]
    decide
  · rw [List.eq_of_mem_replicate hd]
    decide

/-- What a masked text has kept of a word without blanks stands in the text as well. -/
theorem Covers.begins_of_begins (hcovers : Covers masked text)
    (hword : ∀ c ∈ word, isBlank c = false) (hbegins : word <+: masked) : word <+: text := by
  induction hcovers generalizing word with
  | nil => exact hbegins
  | keep c _ ih =>
      cases word with
      | nil => exact List.nil_prefix
      | cons d word =>
          obtain ⟨-, hword⟩ := List.forall_mem_cons.mp hword
          obtain ⟨rfl, hrest⟩ := List.cons_prefix_cons.mp hbegins
          exact List.cons_prefix_cons.mpr ⟨rfl, ih hword hrest⟩
  | blank c _ _ _ =>
      by_cases hempty : word = []
      · rw [hempty]
        exact List.nil_prefix
      · obtain ⟨width, hwidth⟩ := Nat.exists_eq_succ_of_ne_zero (Nat.ne_of_gt c.utf8Size_pos)
        rw [hwidth, List.replicate_succ, List.cons_append] at hbegins
        exact absurd hbegins (not_prefix_of_isBlank (by decide) hempty hword)

theorem Covers.occurs_of_occurs (hcovers : Covers masked text) (hne : word ≠ [])
    (hword : ∀ c ∈ word, isBlank c = false) (hoccurs : word <:+: masked) : word <:+: text := by
  induction hcovers with
  | nil => exact hoccurs
  | keep c hrest ih =>
      rcases List.infix_cons_iff.mp hoccurs with hbegins | hoccurs
      · exact ((Covers.keep c hrest).begins_of_begins hword hbegins).isInfix
      · exact List.infix_cons_iff.mpr (Or.inr (ih hoccurs))
  | blank c _ _ ih =>
      have hblanks : ∀ d ∈ List.replicate c.utf8Size ' ', isBlank d = true := by
        intro d hd
        rw [List.eq_of_mem_replicate hd]
        decide
      exact List.infix_cons_iff.mpr
        (Or.inr (ih ((infix_blanks_append_iff hblanks hne hword).mp hoccurs)))

/-- A text without hash signs and quotes. -/
def IsPlain (text : List Char) : Prop :=
  ∀ c ∈ text, c ≠ '#' ∧ c ≠ '"' ∧ c ≠ '\''

instance (text : List Char) : Decidable (IsPlain text) :=
  List.decidableBAll _ text

theorem isPlain_cons_iff {c : Char} :
    IsPlain (c :: text) ↔ (c ≠ '#' ∧ c ≠ '"' ∧ c ≠ '\'') ∧ IsPlain text :=
  List.forall_mem_cons

theorem isPlain_cons_cons_iff {c d : Char} :
    IsPlain (c :: d :: text) ↔ (c ≠ '#' ∧ c ≠ '"' ∧ c ≠ '\'') ∧
      (d ≠ '#' ∧ d ≠ '"' ∧ d ≠ '\'') ∧ IsPlain text := by
  rw [isPlain_cons_iff, isPlain_cons_iff]

/-- The scanner looks at a character and the next one, the stretches at both together. -/
theorem opensWithPair_eq_false {c first second : Char}
    (hpair : ∀ rest, c = first → text = second :: rest → False) :
    (decide (c = first) && decide (text.head? = some second)) = false := by
  rw [← Bool.not_eq_true, Bool.and_eq_true, decide_eq_true_eq, decide_eq_true_eq]
  rintro ⟨hc, hhead⟩
  obtain ⟨rest, hrest⟩ := List.head?_eq_some_iff.mp hhead
  exact hpair rest hc hrest

theorem maskFrom_twoSlashes (sign : VerbatimSign) (text : List Char) :
    maskFrom (.code sign) ('/' :: '/' :: text) =
      blankOut '/' ++ (blankOut '/' ++ maskFrom .lineComment text) := by
  rw [maskFrom_cons, maskFrom_cons]
  rfl

theorem maskFrom_slashAsterisk (sign : VerbatimSign) (text : List Char) :
    maskFrom (.code sign) ('/' :: '*' :: text) =
      blankOut '/' ++ (blankOut '*' ++ maskFrom .blockComment text) := by
  rw [maskFrom_cons, maskFrom_cons]
  rfl

theorem maskFrom_lineEnd (text : List Char) :
    maskFrom .lineComment ('\n' :: text) = '\n' :: maskFrom .plainCode text := by
  rw [maskFrom_cons]
  rfl

theorem maskFrom_lineComment {c : Char} (hc : c ≠ '\n') (text : List Char) :
    maskFrom .lineComment (c :: text) = blankOut c ++ maskFrom .lineComment text := by
  rw [maskFrom_cons]
  simp only [Region.step, if_neg hc, if_true]

theorem maskFrom_asteriskSlash (text : List Char) :
    maskFrom .blockComment ('*' :: '/' :: text) =
      blankOut '*' ++ (blankOut '/' ++ maskFrom .plainCode text) := by
  rw [maskFrom_cons, maskFrom_cons]
  rfl

theorem maskFrom_blockComment {c : Char}
    (hc : (decide (c = '*') && decide (text.head? = some '/')) = false) :
    maskFrom .blockComment (c :: text) = blankOut c ++ maskFrom .blockComment text := by
  rw [maskFrom_cons]
  simp only [Region.step, hc, Bool.false_eq_true, if_false, if_true]

/-- A text that goes on with blanks before its stretches begin. -/
def Trails (masked : List Char) (pieces : List (List Char)) : Prop :=
  ∃ blanks text, masked = blanks ++ text ∧ (∀ c ∈ blanks, isBlank c = true) ∧
    Separated text pieces

theorem Separated.trails (htext : Separated text pieces) : Trails text pieces :=
  ⟨[], text, rfl, by simp, htext⟩

theorem Trails.blankOut_append (hmasked : Trails masked pieces) (c : Char) :
    Trails (blankOut c ++ masked) pieces := by
  obtain ⟨blanks, text, rfl, hblanks, htext⟩ := hmasked
  refine ⟨blankOut c ++ blanks, text, (List.append_assoc _ _ _).symm, ?_, htext⟩
  intro d hd
  exact (List.mem_append.mp hd).elim isBlank_of_mem_blankOut (hblanks d)

theorem blankOut_ne_nil (c : Char) : blankOut c ≠ [] := by
  have hwidth : c.utf8Size ≠ 0 := Nat.ne_of_gt c.utf8Size_pos
  unfold blankOut
  split
  · exact List.cons_ne_nil _ _
  · simp [hwidth]

/-- A blanked character begins what stands between two stretches. -/
theorem Trails.separated (hmasked : Trails masked pieces) (c : Char) :
    Separated (blankOut c ++ masked) ([] :: pieces) := by
  obtain ⟨blanks, text, rfl, hblanks, htext⟩ := hmasked
  rw [← List.append_assoc]
  refine .gap (by simp [blankOut_ne_nil c]) ?_ htext
  intro d hd
  exact (List.mem_append.mp hd).elim isBlank_of_mem_blankOut (hblanks d)

theorem Separated.modifyHead (htext : Separated text pieces) (c : Char) :
    Separated (c :: text) (pieces.modifyHead (c :: ·)) := by
  cases htext with
  | nil => exact .keep c .nil
  | keep d htext => exact .keep c (.keep d htext)
  | gap hne hblanks htext => exact .keep c (.gap hne hblanks htext)

/-- Of a text that begins with a passage the stretches are left. -/
def Passage.Leaves (passage : Passage) (text : List Char) : Prop :=
  match passage with
  | .code => ∀ sign, Separated (maskFrom (.code sign) text) (stretches .code text)
  | .line => Trails (maskFrom .lineComment text) (stretches .line text)
  | .block => Trails (maskFrom .blockComment text) (stretches .block text)

theorem leaves_of_isPlain (passage : Passage) (htext : IsPlain text) : passage.Leaves text := by
  -- One case for each equation of the stretches; the scanner takes two steps in some of them.
  induction passage, text using stretches.induct with
  | case1 passage =>
      cases passage with
      | code => exact fun _ => .nil
      | line => exact Separated.nil.trails
      | block => exact Separated.nil.trails
  | case2 text ih =>
      intro sign
      obtain ⟨-, -, htext⟩ := isPlain_cons_cons_iff.mp htext
      have hline : Trails (maskFrom .lineComment text) (stretches .line text) := ih htext
      rw [maskFrom_twoSlashes]
      exact (hline.blankOut_append '/').separated '/'
  | case3 text ih =>
      intro sign
      obtain ⟨-, -, htext⟩ := isPlain_cons_cons_iff.mp htext
      have hblock : Trails (maskFrom .blockComment text) (stretches .block text) := ih htext
      rw [maskFrom_slashAsterisk]
      exact (hblock.blankOut_append '*').separated '/'
  | case4 c text hline hblock ih =>
      intro sign
      obtain ⟨hc, htext⟩ := isPlain_cons_iff.mp htext
      obtain ⟨next, hstep⟩ := Region.exists_step_plain hc (opensWithPair_eq_false hline)
        (opensWithPair_eq_false hblock) sign
      have hcode : Separated (maskFrom (.code next) text) (stretches .code text) :=
        ih htext next
      rw [maskFrom_cons, hstep, stretches.eq_4 c text hline hblock]
      exact hcode.modifyHead c
  | case5 text ih =>
      obtain ⟨-, htext⟩ := isPlain_cons_iff.mp htext
      have hcode : Separated (maskFrom .plainCode text) (stretches .code text) := ih htext .absent
      rw [Passage.Leaves, maskFrom_lineEnd, stretches.eq_5]
      exact (hcode.modifyHead '\n').trails
  | case6 c text hbreak ih =>
      obtain ⟨-, htext⟩ := isPlain_cons_iff.mp htext
      have hline : Trails (maskFrom .lineComment text) (stretches .line text) := ih htext
      rw [Passage.Leaves, maskFrom_lineComment hbreak, stretches.eq_6 c text hbreak]
      exact hline.blankOut_append c
  | case7 text ih =>
      obtain ⟨-, -, htext⟩ := isPlain_cons_cons_iff.mp htext
      have hcode : Separated (maskFrom .plainCode text) (stretches .code text) := ih htext .absent
      rw [Passage.Leaves, maskFrom_asteriskSlash, stretches.eq_7]
      exact (hcode.trails.blankOut_append '/').blankOut_append '*'
  | case8 c text hclose ih =>
      obtain ⟨-, htext⟩ := isPlain_cons_iff.mp htext
      have hblock : Trails (maskFrom .blockComment text) (stretches .block text) := ih htext
      rw [Passage.Leaves, maskFrom_blockComment (opensWithPair_eq_false hclose),
        stretches.eq_8 c text hclose]
      exact hblock.blankOut_append c

theorem infix_mask_iff (htext : IsPlain text) (hne : word ≠ [])
    (hword : ∀ c ∈ word, isBlank c = false) :
    word <:+: mask text ↔ ∃ piece ∈ stretches .code text, word <:+: piece :=
  (leaves_of_isPlain .code htext .absent).infix_iff hne hword

theorem occursIn_iff : occursIn word text = true ↔ word <:+: text := by
  induction text with
  | nil => rw [occursIn, startsWith_iff, List.prefix_nil, List.infix_nil]
  | cons c text ih => rw [occursIn, Bool.or_eq_true, startsWith_iff, ih, List.infix_cons_iff]

end SourceAtlas.Text

namespace SourceAtlas.Classification

open Text

/-! ## The rules of Python -/

/-- Whether the phrase of a rule occurs in a text. -/
def inText (content : String) (rule : Rule) : Bool :=
  occursIn rule.1.toList content.toList

/-- Whether the phrase of a rule occurs in a stretch of code. -/
def inStretch (content : String) (rule : Rule) : Bool :=
  (stretches .code content.toList).any (occursIn rule.1.toList)

def ofRule (rule : Rule) : Classification :=
  { role := rule.2, signal := .content rule.1 }

/-- What the first phrase in a stretch of code tells, or else the declarations. -/
def ofStretches (content : String) (model : Option SourceModel) : Classification :=
  ((pythonRules.find? (inStretch content)).map ofRule).getD
    { role := roleOfStructure model, signal := .structure }

/-- The content of a file decides if a phrase of the rules occurs in it, and then it is the
first of them that does. -/
def ReadsPhrases (path : Path) (content : String) (model : Option SourceModel) : Prop :=
  ((explain path content model).signal.kind = "content" ↔
      ∃ rule ∈ pythonRules, inText content rule = true) ∧
    ∀ rule, pythonRules.find? (inText content) = some rule →
      explain path content model = ofRule rule

variable {path : Path} {content : String} {model : Option SourceModel}

theorem unblank_of_mem_pythonRules {rule : Rule} (hrule : rule ∈ pythonRules) :
    rule.1.toList ≠ [] ∧ ∀ c ∈ rule.1.toList, isBlank c = false := by
  have hrules : ∀ rule ∈ pythonRules,
      rule.1.toList ≠ [] ∧ rule.1.toList.any isBlank = false := by
    decide +kernel
  obtain ⟨hne, hsolid⟩ := hrules rule hrule
  exact ⟨hne, fun c hc => Bool.eq_false_iff.mpr (List.any_eq_false.mp hsolid c hc)⟩

theorem occursIn_mask_eq_inStretch (hcontent : IsPlain content.toList) {rule : Rule}
    (hrule : rule ∈ pythonRules) :
    occursIn rule.1.toList (mask content.toList) = inStretch content rule := by
  obtain ⟨hne, hword⟩ := unblank_of_mem_pythonRules hrule
  rw [Bool.eq_iff_iff, occursIn_iff, infix_mask_iff hcontent hne hword, inStretch, List.any_eq_true]
  simp only [occursIn_iff]

theorem inText_of_inStretch (hcontent : IsPlain content.toList) {rule : Rule}
    (hrule : rule ∈ pythonRules) (hstretch : inStretch content rule = true) :
    inText content rule = true := by
  obtain ⟨hne, hword⟩ := unblank_of_mem_pythonRules hrule
  have hcovers : Covers (mask content.toList) content.toList := covers_maskFrom _ _
  rw [← occursIn_mask_eq_inStretch hcontent hrule, occursIn_iff] at hstretch
  exact occursIn_iff.mpr (hcovers.occurs_of_occurs hne hword hstretch)

/-- A first match is also the first one of a narrower test that it passes. -/
theorem find?_eq_some_of_imp {rules : List Rule} {narrow wide : Rule → Bool} {rule : Rule}
    (himp : ∀ rule ∈ rules, narrow rule = true → wide rule = true)
    (hfound : rules.find? wide = some rule) (hrule : narrow rule = true) :
    rules.find? narrow = some rule := by
  obtain ⟨-, front, behind, rfl, hfront⟩ := List.find?_eq_some_iff_append.mp hfound
  refine List.find?_eq_some_iff_append.mpr ⟨hrule, front, behind, rfl, fun other hother => ?_⟩
  have hwide := hfront other hother
  have hnarrow := himp other (List.mem_append_left _ hother)
  cases hother : narrow other with
  | false => rfl
  | true =>
      rw [hnarrow hother] at hwide
      contradiction

theorem explain_eq_ofStretches
    (hextension : path.extension? = some "py" ∨ path.extension? = some "pyi")
    (hpath : ofPath? path = none) (hcontent : IsPlain content.toList)
    (model : Option SourceModel) :
    explain path content model = ofStretches content model := by
  have hlanguage : Language.ofPath? path = some .python := by
    unfold Language.ofPath?
    rcases hextension with hextension | hextension
    · rw [hextension]
      rfl
    · rw [hextension]
      rfl
  have hrules : pythonRules.find? (fun rule => occursIn rule.1.toList (mask content.toList)) =
      pythonRules.find? (inStretch content) :=
    List.find?_congr fun rule hrule => occursIn_mask_eq_inStretch hcontent hrule
  have hfound : ofContent? path content = (pythonRules.find? (inStretch content)).map ofRule := by
    unfold ofContent?
    rw [hlanguage]
    exact congrArg (Option.map ofRule) hrules
  rw [explain, hpath, hfound, ofStretches]
  cases (pythonRules.find? (inStretch content)).map ofRule with
  | none => rfl
  | some found => rfl

/-- A phrase that is read as the first one of the text stands in a stretch of code. -/
theorem inStretch_of_ofStretches_eq {rule : Rule}
    (hread : ofStretches content model = ofRule rule) : inStretch content rule = true := by
  unfold ofStretches at hread
  cases hfound : pythonRules.find? (inStretch content) with
  | none =>
      rw [hfound] at hread
      have hsignal : Signal.structure = .content rule.1 := congrArg (·.signal) hread
      contradiction
  | some found =>
      rw [hfound] at hread
      obtain ⟨hrole, hsignal⟩ := Classification.mk.inj hread
      have hsame : found = rule := Prod.ext (Signal.content.inj hsignal) hrole
      exact hsame ▸ List.find?_some hfound

theorem readsPhrases_of_first (hexplain : explain path content model = ofStretches content model)
    (himp : ∀ rule ∈ pythonRules, inStretch content rule = true → inText content rule = true)
    (hfirst : ∀ rule, pythonRules.find? (inText content) = some rule →
      inStretch content rule = true) : ReadsPhrases path content model := by
  unfold ReadsPhrases
  rw [hexplain, ofStretches]
  cases hrule : pythonRules.find? (inText content) with
  | none =>
      have hnowhere := List.find?_eq_none.mp hrule
      have hnone : pythonRules.find? (inStretch content) = none :=
        List.find?_eq_none.mpr fun rule hmem hstretch =>
          hnowhere rule hmem (himp rule hmem hstretch)
      have hkind : Signal.structure.kind ≠ "content" := by decide
      rw [hnone]
      refine ⟨iff_of_false hkind ?_, fun rule hsome => absurd hsome (Option.some_ne_none rule).symm⟩
      rintro ⟨rule, hmem, htext⟩
      exact hnowhere rule hmem htext
  | some rule =>
      rw [find?_eq_some_of_imp himp hrule (hfirst rule hrule)]
      refine ⟨iff_of_true rfl ⟨rule, List.mem_of_find?_eq_some hrule, List.find?_some hrule⟩, ?_⟩
      intro other hother
      rw [Option.some.inj hother]
      rfl

/-- In Python code without hash signs and quotes the first phrase that occurs in a stretch of
code decides on the role.  So the phrases are read right unless the first one of the text
stands only behind what is taken for a comment. -/
theorem explain_of_isPlain
    (hextension : path.extension? = some "py" ∨ path.extension? = some "pyi")
    (hpath : ofPath? path = none) (hcontent : IsPlain content.toList)
    (model : Option SourceModel) :
    explain path content model = ofStretches content model ∧
      (ReadsPhrases path content model ↔
        ∀ rule, pythonRules.find? (inText content) = some rule →
          inStretch content rule = true) := by
  have hexplain := explain_eq_ofStretches hextension hpath hcontent model
  have himp : ∀ rule ∈ pythonRules, inStretch content rule = true → inText content rule = true :=
    fun rule hrule => inText_of_inStretch hcontent hrule
  refine ⟨hexplain, ?_, readsPhrases_of_first hexplain himp⟩
  rintro ⟨-, hfirst⟩ rule hrule
  have hread := hfirst rule hrule
  rw [hexplain] at hread
  exact inStretch_of_ofStretches_eq hread

/-- Two slashes do not hide what stands on the next line. -/
theorem explain_of_isPlain_nextLine :
    (Path.mk "app/core.py").extension? = some "py" ∧ ofPath? ⟨"app/core.py"⟩ = none ∧
      IsPlain "half = n // 2\napi = APIRouter()\n".toList ∧
      explain ⟨"app/core.py"⟩ "half = n // 2\napi = APIRouter()\n" none =
        { role := .controller, signal := .content "APIRouter(" } ∧
      ReadsPhrases ⟨"app/core.py"⟩ "half = n // 2\napi = APIRouter()\n" none := by
  have hextension : (Path.mk "app/core.py").extension? = some "py" := by decide +kernel
  have hpath : ofPath? ⟨"app/core.py"⟩ = none := by decide +kernel
  have hcontent : IsPlain "half = n // 2\napi = APIRouter()\n".toList := by
    decide +kernel
  obtain ⟨hexplain, hreads⟩ := explain_of_isPlain (.inl hextension) hpath hcontent none
  have hstretch : pythonRules.find? (inStretch "half = n // 2\napi = APIRouter()\n") =
      some ("APIRouter(", .controller) := by
    decide +kernel
  have hfirst : pythonRules.find? (inText "half = n // 2\napi = APIRouter()\n") =
      some ("APIRouter(", .controller) := by
    decide +kernel
  rw [ofStretches, hstretch] at hexplain
  refine ⟨hextension, hpath, hcontent, hexplain, hreads.mpr fun rule hrule => ?_⟩
  rw [hfirst] at hrule
  exact Option.some.inj hrule ▸ List.find?_some hstretch

/-- A division hides the call behind it. -/
theorem not_readsPhrases_division :
    ¬(∀ (path : Path) (content : String) (model : Option SourceModel),
        path.extension? = some "py" ∨ path.extension? = some "pyi" → ofPath? path = none →
        IsPlain content.toList → ReadsPhrases path content model) ∧
      explain ⟨"app/core.py"⟩ "half = n // 2; api = APIRouter()\n" none =
        { role := .unknown, signal := .structure } := by
  have hexplain : explain ⟨"app/core.py"⟩ "half = n // 2; api = APIRouter()\n" none =
      { role := .unknown, signal := .structure } := by
    decide +kernel
  refine ⟨fun hreads => ?_, hexplain⟩
  have hextension : (Path.mk "app/core.py").extension? = some "py" := by decide +kernel
  have hpath : ofPath? ⟨"app/core.py"⟩ = none := by decide +kernel
  have hcontent : IsPlain "half = n // 2; api = APIRouter()\n".toList := by
    decide +kernel
  have hoccurs : ∃ rule ∈ pythonRules,
      inText "half = n // 2; api = APIRouter()\n" rule = true := by
    decide +kernel
  have hkind := (hreads _ _ none (.inl hextension) hpath hcontent).1.mpr hoccurs
  rw [hexplain] at hkind
  have hstructure : Signal.structure.kind ≠ "content" := by decide
  exact hstructure hkind

end SourceAtlas.Classification
