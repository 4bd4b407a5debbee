import SourceAtlas.Proofs.ConstantOrder
import SourceAtlas.Proofs.Outlines

/-!
# Names of constants

A file lists the names that its direct statements assign to, if they have a letter and no
small one.  Where a script has only one case, its letters are neither small nor capital, so
such names are listed without having any capital letter.  Among letters of two cases there
is no difference.
-/

namespace SourceAtlas

namespace Text

/-- Whether two sets of code points are related at every code point, where the lists of
their changes are merged.  The first number bounds the number of changes. -/
def related (relation : Bool → Bool → Bool) : Nat → Bool → Bool → List Nat → List Nat → Bool
  | 0, _, _, _, _ => false
  | fuel + 1, inside, inside', flips, flips' =>
      relation inside inside' &&
        match flips, flips' with
        | [], [] => true
        | _ :: flips, [] => related relation fuel (!inside) inside' flips []
        | [], _ :: flips' => related relation fuel inside (!inside') [] flips'
        | flip :: flips, flip' :: flips' =>
            if flip < flip' then related relation fuel (!inside) inside' flips (flip' :: flips')
            else if flip' < flip then
              related relation fuel inside (!inside') (flip :: flips) flips'
            else related relation fuel (!inside) (!inside') flips flips'

theorem insideFlips_cons (flip : Nat) (flips : List Nat) (code : Nat) (inside : Bool) :
    (inside ^^ insideFlips (flip :: flips) code) =
      if code < flip then inside else (!inside) ^^ insideFlips flips code := by
  rw [insideFlips]
  split <;> simp

theorem relation_of_related {relation : Bool → Bool → Bool} {fuel : Nat} {inside inside' : Bool}
    {flips flips' : List Nat} (hrelated : related relation fuel inside inside' flips flips' = true)
    (code : Nat) :
    relation (inside ^^ insideFlips flips code) (inside' ^^ insideFlips flips' code) = true := by
  induction fuel generalizing inside inside' flips flips' with
  | zero => contradiction
  | succ fuel ih =>
      cases flips with
      | nil =>
          cases flips' with
          | nil =>
              simp only [related, Bool.and_true] at hrelated
              simpa [insideFlips] using hrelated
          | cons flip' flips' =>
              simp only [related, Bool.and_eq_true] at hrelated
              rw [insideFlips_cons]
              split
              · simpa [insideFlips] using hrelated.1
              · exact ih hrelated.2
      | cons flip flips =>
          cases flips' with
          | nil =>
              simp only [related, Bool.and_eq_true] at hrelated
              rw [insideFlips_cons]
              split
              · simpa [insideFlips] using hrelated.1
              · exact ih hrelated.2
          | cons flip' flips' =>
              simp only [related, Bool.and_eq_true] at hrelated
              obtain ⟨hhere, hbehind⟩ := hrelated
              rcases Nat.lt_trichotomy flip flip' with hlt | rfl | hgt
              · rw [if_pos hlt] at hbehind
                rw [insideFlips_cons flip]
                split
                · next hcode => rwa [insideFlips_cons, if_pos (hcode.trans hlt)]
                · exact ih hbehind
              · rw [if_neg (Nat.lt_irrefl _), if_neg (Nat.lt_irrefl _)] at hbehind
                rw [insideFlips_cons, insideFlips_cons]
                split
                · exact hhere
                · exact ih hbehind
              · rw [if_neg (Nat.lt_asymm hgt), if_pos hgt] at hbehind
                rw [insideFlips_cons flip']
                split
                · next hcode => rwa [insideFlips_cons, if_pos (hcode.trans hgt)]
                · exact ih hbehind

theorem isLetter_of_isSmall {c : Char} (hc : isSmall c = true) :
    isLetter c = true ∧ isCapital c = false := by
  have hletters : related (fun small letter => !small || letter) 3000 false false
      lowercaseFlips alphabeticFlips = true := by decide +kernel
  have hcapitals : related (fun small capital => !small || !capital) 3000 false false
      lowercaseFlips uppercaseFlips = true := by decide +kernel
  have hletter := relation_of_related hletters c.toNat
  have hcapital := relation_of_related hcapitals c.toNat
  unfold isSmall at hc
  unfold isLetter isCapital
  split at hc
  · next hascii =>
      rw [if_pos hascii, if_pos hascii]
      refine ⟨by rw [isAsciiLetter, hc, Bool.true_or], ?_⟩
      rw [Bool.and_eq_true, decide_eq_true_eq] at hc
      have hlarge : ¬c ≤ 'Z' := fun hle => absurd (Char.le_trans hc.1 hle) (by decide)
      rw [decide_eq_false hlarge, Bool.and_false]
  · next hascii =>
      rw [if_neg hascii, if_neg hascii]
      simp only [Bool.false_xor, hc, Bool.not_true, Bool.false_or, Bool.not_eq_true']
        at hletter hcapital
      exact ⟨hletter, hcapital⟩

end Text

namespace Python

open Text

variable {source name : String}

/-- The assignment gives its value to a name, or its value is an assignment that does. -/
inductive Node.Assigns (source name : String) : Node → Prop
  | left {assignment target : Node} (htarget : assignment.childAs? "left" = some target)
      (hkind : target.kind = "identifier") (htext : target.text source = name) :
      assignment.Assigns source name
  | right {assignment value : Node} (hvalue : assignment.childAs? "right" = some value)
      (hkind : value.kind = "assignment") (hassigns : value.Assigns source name) :
      assignment.Assigns source name

theorem Node.assigns_iff {assignment : Node} :
    assignment.Assigns source name ↔
      (∃ target, assignment.childAs? "left" = some target ∧ target.kind = "identifier" ∧
        target.text source = name) ∨
      ∃ value, assignment.childAs? "right" = some value ∧ value.kind = "assignment" ∧
        value.Assigns source name := by
  constructor
  · rintro (⟨htarget, hkind, htext⟩ | ⟨hvalue, hkind, hassigns⟩)
    · exact Or.inl ⟨_, htarget, hkind, htext⟩
    · exact Or.inr ⟨_, hvalue, hkind, hassigns⟩
  · rintro (⟨target, htarget, hkind, htext⟩ | ⟨value, hvalue, hkind, hassigns⟩)
    · exact .left htarget hkind htext
    · exact .right hvalue hkind hassigns

theorem mem_identifierText?_iff {node? : Option Node} :
    name ∈ (node?.bind (identifierText? source)).toList ↔
      ∃ target, node? = some target ∧ target.kind = "identifier" ∧ target.text source = name := by
  simp [Option.mem_toList, Option.bind_eq_some_iff, identifierText?]

mutual

theorem mem_targets_iff :
    (assignment : Node) → (name ∈ assignment.targets source ↔ assignment.Assigns source name)
  | .mk label children => by
      rw [Node.targets, List.mem_append, mem_identifierText?_iff, mem_targetsBehind_iff children,
        Node.assigns_iff]
      rfl

theorem mem_targetsBehind_iff :
    (nodes : List Node) → (name ∈ targetsBehind source nodes ↔
      ∃ value, nodes.find? (·.label.field = some "right") = some value ∧
        value.kind = "assignment" ∧ value.Assigns source name)
  | [] => by simp [targetsBehind]
  | .mk label children :: nodes => by
      rw [targetsBehind]
      by_cases hright : label.field = some "right"
      · rw [if_pos hright, List.find?_cons_of_pos (by simp [hright])]
        by_cases hkind : label.kind = "assignment"
        · rw [if_pos hkind, mem_targets_iff (.mk label children)]
          simp [hkind]
        · simp [hkind]
      · rw [if_neg hright, List.find?_cons_of_neg (by simp [hright]),
          mem_targetsBehind_iff nodes]

end

/-- The statement consists of assignments, one of which gives a value to the name. -/
def Node.StatesName (source name : String) (statement : Node) : Prop :=
  statement.kind = "expression_statement" ∧
    ∃ assignment ∈ statement.namedChildren, assignment.kind = "assignment" ∧
      assignment.Assigns source name

theorem mem_assignedNames_iff {statement : Node} :
    name ∈ assignedNames source statement ↔ statement.StatesName source name := by
  unfold assignedNames Node.StatesName
  split
  · next hkind => simp [hkind, mem_targets_iff, and_assoc]
  · next hkind => simp [hkind]

def HasLetter (name : String) : Prop :=
  ∃ c ∈ name.toList, isLetter c = true

def HasSmall (name : String) : Prop :=
  ∃ c ∈ name.toList, isSmall c = true

/-- The name has a letter that is not capital. -/
def HasOther (name : String) : Prop :=
  ∃ c ∈ name.toList, isLetter c = true ∧ isCapital c = false

theorem isConstantName_iff {name : String} :
    isConstantName name = true ↔ HasLetter name ∧ ¬HasSmall name := by
  simp [isConstantName, HasLetter, HasSmall]

theorem HasSmall.hasOther {name : String} (hsmall : HasSmall name) : HasOther name := by
  obtain ⟨c, hc, hsmall⟩ := hsmall
  exact ⟨c, hc, isLetter_of_isSmall hsmall⟩

/-- Names that are listed once each come in the order of their first places. -/
theorem pairwise_idxOf_foldl_addOnce (keeps : String → Bool) (names : List String) :
    ((names.filter keeps).foldl addOnce []).Pairwise fun first second =>
      names.idxOf first < names.idxOf second := by
  rw [CSharp.pairwise_foldl_addOnce_iff]
  intro front first back hkept hnew second hsecond hlate hne
  obtain ⟨before, rest, rfl, rfl, hrest⟩ := List.filter_eq_append_iff.mp hkept
  obtain ⟨between, behind, rfl, hnone, hfirst, rfl⟩ := List.filter_eq_cons_iff.mp hrest
  have hout : ∀ name, keeps name = true → name ∉ before.filter keeps →
      name ∉ before ++ between := by
    intro name hkeeps hnew hmem
    rcases List.mem_append.mp hmem with hbefore | hbetween
    · exact hnew (List.mem_filter.mpr ⟨hbefore, hkeeps⟩)
    · exact hnone name hbetween hkeeps
  have hlater := hout second (List.mem_filter.mp hsecond).2 hlate
  rw [← List.append_assoc, List.idxOf_append_of_notMem (hout first hfirst hnew),
    List.idxOf_append_of_notMem hlater, List.idxOf_cons_self, List.idxOf_cons_ne _ hne.symm]
  omega

/-- The constants of a file are the names with a letter and without a small one that its
statements assign to, each once and in the order of their first places.  These are the names
whose letters are all capital exactly if every other name with a letter has a small one. -/
theorem exists_constants_of_isModule {parser : Parser} {file : SourceFile} {root : Node}
    (hroot : parser file.content = some root) (hfaultless : root.IsFaultless)
    (hmodule : root.IsModule) :
    ∃ (model : SourceModel) (names : List String),
      extract parser file = .ok model ∧
      names = root.children.flatMap (assignedNames file.content) ∧
      (∀ name, name ∈ names ↔
        ∃ statement ∈ root.children, statement.StatesName file.content name) ∧
      model.constants.Nodup ∧
      (model.constants.Pairwise fun first second => names.idxOf first < names.idxOf second) ∧
      (∀ name, name ∈ model.constants ↔ name ∈ names ∧ HasLetter name ∧ ¬HasSmall name) ∧
      ((∀ name, name ∈ model.constants ↔ name ∈ names ∧ HasLetter name ∧ ¬HasOther name) ↔
        ∀ name ∈ names, HasOther name → HasSmall name) := by
  have hconstants := (hmodule.reportsScope file).constants
  have hmem : ∀ name, name ∈ (modelOf file root).constants ↔
      name ∈ root.children.flatMap (assignedNames file.content) ∧ HasLetter name ∧
        ¬HasSmall name := by
    intro name
    rw [hconstants, CSharp.mem_foldl_addOnce_nil, List.mem_filter, isConstantName_iff]
  refine ⟨modelOf file root, _, extract_of_isFaultless hroot hfaultless, rfl, ?_, ?_, ?_, hmem, ?_⟩
  · intro name
    simp only [List.mem_flatMap, mem_assignedNames_iff]
  · rw [hconstants]
    exact nodup_foldl_addOnce _
  · rw [hconstants]
    exact pairwise_idxOf_foldl_addOnce isConstantName _
  · constructor
    · intro hcapital name hname hother
      by_contra hsmall
      obtain ⟨c, hc, hletter, -⟩ := id hother
      have hlisted := (hmem name).mpr ⟨hname, ⟨c, hc, hletter⟩, hsmall⟩
      exact ((hcapital name).mp hlisted).2.2 hother
    · intro hcased name
      rw [hmem]
      refine and_congr_right fun hname => and_congr_right fun _ => not_congr ?_
      exact ⟨HasSmall.hasOther, hcased name hname⟩

/-- A file with a chain of assignments, annotated ones and one in a block. -/
def assignedFile : SourceFile :=
  { path := Path.ofNames ["settings.py"]
    content := "B = a = A_1 = 0\nC: int = 1\nD: int\nB = 2\n_ = 3\nif a:\n    E = 4\n"
    lastModified := .epoch }

theorem exists_constants_assignedFile :
    ∃ (root : Node) (model : SourceModel) (names : List String),
      parse assignedFile.content = some root ∧ root.IsFaultless ∧ root.IsModule ∧
      extract parse assignedFile = .ok model ∧
      names = root.children.flatMap (assignedNames assignedFile.content) ∧
      model.constants = ["B", "A_1", "C", "D"] ∧
      names.idxOf "B" < names.idxOf "C" ∧ "D" ∈ names := by
  have hfound : (parse assignedFile.content).any (fun root =>
      root.IsFaultless ∧ root.IsModule ∧
      (modelOf assignedFile root).constants = ["B", "A_1", "C", "D"]) = true := by
    decide +kernel
  obtain ⟨root, hroot, hfaultless, hmodule, hconstants⟩ := exists_root_of_any hfound
  obtain ⟨model, names, hmodel, hnames, -, -, hordered, hmem, -⟩ :=
    exists_constants_of_isModule hroot hfaultless hmodule
  obtain rfl := Except.ok.inj ((extract_of_isFaultless hroot hfaultless).symm.trans hmodel)
  rw [hconstants] at hordered hmem
  have hfirst := (List.pairwise_cons.mp hordered).1 "C" (by simp)
  exact ⟨root, modelOf assignedFile root, names, hroot, hfaultless, hmodule, hmodel, hnames,
    hconstants, hfirst, ((hmem "D").mp (by simp)).1⟩

/-- A file that assigns to a name in a script with one case. -/
def uncasedFile : SourceFile :=
  { path := Path.ofNames ["uncased.py"]
    content := "\u4e2d = 1\n"
    lastModified := .epoch }

theorem not_isCapital_uncasedFile :
    ¬∀ (parser : Parser) (file : SourceFile) (root : Node) (model : SourceModel),
      parser file.content = some root → root.IsFaultless → root.IsModule →
      extract parser file = .ok model → ∀ name ∈ model.constants, ¬HasOther name := by
  intro hall
  have hfound : (parse uncasedFile.content).any (fun root =>
      root.IsFaultless ∧ root.IsModule ∧
      (modelOf uncasedFile root).constants = ["\u4e2d"]) = true := by
    decide +kernel
  obtain ⟨root, hroot, hfaultless, hmodule, hconstants⟩ := exists_root_of_any hfound
  have hnone := hall parse uncasedFile root _ hroot hfaultless hmodule
    (extract_of_isFaultless hroot hfaultless) "\u4e2d" (by simp [hconstants])
  exact hnone ⟨'\u4e2d', by decide, by decide +kernel, by decide +kernel⟩

end Python

end SourceAtlas
