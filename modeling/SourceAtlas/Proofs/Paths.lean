import SourceAtlas.Model.Kinds
import Mathlib.Data.List.Lex
import Mathlib.Data.String.Basic

/-!
# Paths of names

Entries of directories have names that are single ordinary segments.  The path
of such names has exactly them as components, so different names give paths
that differ in order, and the extension of the path is that of its last name.
-/

namespace SourceAtlas

namespace Text

theorem splitLoop_eq (separates : Char → Bool) (piece text : List Char)
    (pieces : List (List Char)) :
    splitLoop separates piece text pieces =
      pieces.reverse ++ splitLoop separates piece text [] := by
  induction text generalizing piece pieces with
  | nil => simp [splitLoop]
  | cons c text ih =>
      unfold splitLoop
      split
      · rw [ih, ih _ [piece.reverse]]
        simp
      · exact ih _ _

/-- The part of a text up to its first separator is the first piece. -/
theorem splitLoop_append_cons {separates : Char → Bool} {first : List Char} {c : Char}
    (hfirst : ∀ d ∈ first, separates d = false) (hc : separates c = true)
    (piece rest : List Char) :
    splitLoop separates piece (first ++ c :: rest) [] =
      (piece.reverse ++ first) :: splitWhere separates rest := by
  induction first generalizing piece with
  | nil =>
      simp only [List.nil_append, List.append_nil, splitLoop, hc, if_true]
      rw [splitLoop_eq]
      rfl
  | cons d first ih =>
      have hd : separates d = false := hfirst d List.mem_cons_self
      simp only [List.cons_append, splitLoop, hd, Bool.false_eq_true, if_false]
      rw [ih fun e hmem => hfirst e (List.mem_cons_of_mem _ hmem)]
      simp

theorem splitWhere_append_cons {separates : Char → Bool} {first : List Char} {c : Char}
    (hfirst : ∀ d ∈ first, separates d = false) (hc : separates c = true)
    (rest : List Char) :
    splitWhere separates (first ++ c :: rest) = first :: splitWhere separates rest := by
  have hloop := splitLoop_append_cons hfirst hc [] rest
  simpa [splitWhere] using hloop

theorem splitLoop_of_forall {separates : Char → Bool} {text : List Char}
    (htext : ∀ c ∈ text, separates c = false) (piece : List Char) :
    splitLoop separates piece text [] = [piece.reverse ++ text] := by
  induction text generalizing piece with
  | nil => simp [splitLoop]
  | cons c text ih =>
      have hc : separates c = false := htext c List.mem_cons_self
      simp only [splitLoop, hc, Bool.false_eq_true, if_false]
      rw [ih fun d hmem => htext d (List.mem_cons_of_mem _ hmem)]
      simp

theorem splitWhere_of_forall {separates : Char → Bool} {text : List Char}
    (htext : ∀ c ∈ text, separates c = false) :
    splitWhere separates text = [text] := by
  have hloop := splitLoop_of_forall htext []
  simpa [splitWhere] using hloop

/-- Pieces without the separator are got back after joining them with it. -/
theorem splitWhere_intercalate {c : Char} {pieces : List (List Char)}
    (hne : pieces ≠ []) (hpieces : ∀ piece ∈ pieces, c ∉ piece) :
    splitWhere (· = c) ([c].intercalate pieces) = pieces := by
  have hclean : ∀ piece ∈ pieces, ∀ d ∈ piece, decide (d = c) = false := by
    intro piece hmem d hd
    apply decide_eq_false
    rintro rfl
    exact hpieces piece hmem hd
  induction pieces with
  | nil => exact (hne rfl).elim
  | cons first rest ih =>
      have hfirst := hclean first List.mem_cons_self
      cases rest with
      | nil => simpa [List.intercalate] using splitWhere_of_forall hfirst
      | cons second rest =>
          have htail := ih (by simp)
            (fun piece hmem => hpieces piece (List.mem_cons_of_mem _ hmem))
            (fun piece hmem => hclean piece (List.mem_cons_of_mem _ hmem))
          have hjoin : [c].intercalate (first :: second :: rest) =
              first ++ c :: [c].intercalate (second :: rest) := by
            simp [List.intercalate]
          rw [hjoin, splitWhere_append_cons hfirst (by simp), htail]

theorem separates_eq_false_of_mem_splitLoop {separates : Char → Bool} {piece text : List Char}
    (hpiece : ∀ c ∈ piece, separates c = false) {found : List Char}
    (hfound : found ∈ splitLoop separates piece text []) :
    ∀ c ∈ found, separates c = false := by
  induction text generalizing piece with
  | nil =>
      simp only [splitLoop, List.reverse_cons, List.reverse_nil, List.nil_append,
        List.mem_singleton] at hfound
      subst found
      simpa using hpiece
  | cons c text ih =>
      unfold splitLoop at hfound
      split at hfound
      · rw [splitLoop_eq] at hfound
        rcases List.mem_append.mp hfound with hhead | htail
        · simp only [List.reverse_cons, List.reverse_nil, List.nil_append,
            List.mem_singleton] at hhead
          subst found
          simpa using hpiece
        · exact ih (by simp) htail
      · next hc =>
        refine ih ?_ hfound
        intro d hmem
        rcases List.mem_cons.mp hmem with heq | hold
        · rw [heq]
          exact Bool.eq_false_iff.mpr hc
        · exact hpiece d hold

theorem separates_eq_false_of_mem_splitWhere {separates : Char → Bool} {text found : List Char}
    (hfound : found ∈ splitWhere separates text) :
    ∀ c ∈ found, separates c = false :=
  separates_eq_false_of_mem_splitLoop (by simp) hfound

end Text

/-- A name that an entry of a directory can have. -/
structure IsEntryName (name : String) : Prop where
  ne_empty : name ≠ ""
  ne_current : name ≠ "."
  ne_up : name ≠ ".."
  noSlash : '/' ∉ name.toList

theorem isEntryName_iff {name : String} :
    IsEntryName name ↔
      name ≠ "" ∧ name ≠ "." ∧ name ≠ ".." ∧ '/' ∉ name.toList :=
  ⟨fun hname => ⟨hname.ne_empty, hname.ne_current, hname.ne_up, hname.noSlash⟩,
    fun ⟨hempty, hcurrent, hup, hslash⟩ => ⟨hempty, hcurrent, hup, hslash⟩⟩

instance (name : String) : Decidable (IsEntryName name) :=
  decidable_of_iff _ isEntryName_iff.symm

namespace Path

theorem componentOf_of_isEntryName {name : String} (hname : IsEntryName name) :
    componentOf name.toList = some (.name name) := by
  have hcurrent : name.toList ≠ ['.'] := by
    intro heq
    exact hname.ne_current (String.toList_inj.mp (by simpa using heq))
  have hup : name.toList ≠ ['.', '.'] := by
    intro heq
    exact hname.ne_up (String.toList_inj.mp (by simpa using heq))
  simp [componentOf, hcurrent, hup]

/-- Every component that is a name can be the name of an entry. -/
theorem isEntryName_of_mem_components {path : Path} {text : String}
    (hmem : Component.name text ∈ path.components) : IsEntryName text := by
  have hsegment : ∃ segment ∈ path.segments, componentOf segment = some (.name text) := by
    unfold components at hmem
    split at hmem
    · simpa using hmem
    · split at hmem
      · next rest hsegments =>
        obtain ⟨segment, hsegment, hof⟩ : ∃ segment ∈ rest,
            componentOf segment = some (.name text) := by
          simpa using hmem
        exact ⟨segment, by simp [hsegments, hsegment], hof⟩
      · exact List.mem_filterMap.mp hmem
  obtain ⟨segment, hsegment, hof⟩ := hsegment
  unfold segments at hsegment
  obtain ⟨hpiece, hnonempty⟩ := List.mem_filter.mp hsegment
  have hclean := Text.separates_eq_false_of_mem_splitWhere hpiece
  unfold componentOf at hof
  split at hof
  · contradiction
  · next hcurrent =>
    split at hof
    · simp at hof
    · next hup =>
      have htext : String.ofList segment = text := by simpa using hof
      subst text
      constructor
      · intro hempty
        have hnil : segment = [] := by simpa using congrArg String.toList hempty
        simp [hnil] at hnonempty
      · intro hdot
        exact hcurrent (by simpa using congrArg String.toList hdot)
      · intro hdots
        exact hup (by simpa using congrArg String.toList hdots)
      · intro hslash
        have := hclean '/' (by simpa using hslash)
        simp at this

theorem toList_ofNames (names : List String) :
    (ofNames names).text.toList = ['/'].intercalate (names.map String.toList) := by
  simp only [ofNames, String.toList_intercalate]
  rfl

theorem segments_ofNames {names : List String} (hnames : ∀ name ∈ names, IsEntryName name) :
    (ofNames names).segments = names.map String.toList := by
  cases names with
  | nil => simp [ofNames, segments, Text.splitWhere, Text.splitLoop]
  | cons first rest =>
      have hsplit : Text.splitWhere (· = '/') (ofNames (first :: rest)).text.toList =
          (first :: rest).map String.toList := by
        rw [toList_ofNames]
        apply Text.splitWhere_intercalate (by simp)
        intro piece hpiece
        obtain ⟨name, hname, rfl⟩ := List.mem_map.mp hpiece
        exact (hnames name hname).noSlash
      unfold segments
      rw [hsplit, List.filter_eq_self]
      intro piece hpiece
      obtain ⟨name, hname, rfl⟩ := List.mem_map.mp hpiece
      have hne := (hnames name hname).ne_empty
      simpa using hne

theorem components_ofNames {names : List String} (hnames : ∀ name ∈ names, IsEntryName name) :
    (ofNames names).components = names.map .name := by
  have hsegments := segments_ofNames hnames
  have hall : (names.map String.toList).filterMap componentOf = names.map .name := by
    rw [List.filterMap_map, ← List.filterMap_eq_map]
    apply List.filterMap_congr
    intro name hname
    exact componentOf_of_isEntryName (hnames name hname)
  have hhead : (ofNames names).text.toList.head? ≠ some '/' := by
    cases names with
    | nil => simp [ofNames]
    | cons first rest =>
        have hfirst := hnames first List.mem_cons_self
        cases hchars : first.toList with
        | nil =>
            exact (hfirst.ne_empty (by simpa using hchars)).elim
        | cons c cs =>
            have hc : c ≠ '/' := by
              rintro rfl
              exact hfirst.noSlash (by simp [hchars])
            rw [toList_ofNames]
            cases rest <;> simp [List.intercalate, hchars, hc]
  unfold components
  rw [if_neg hhead, hsegments]
  split
  · next rest hsplit =>
    cases names with
    | nil => simp at hsplit
    | cons first others =>
        have hdot : first.toList = ['.'] := by
          simpa using congrArg List.head? hsplit
        have := (hnames first List.mem_cons_self).ne_current
        exact (this (String.toList_inj.mp (by simpa using hdot))).elim
  · exact hall

theorem key_ofNames {names : List String} (hnames : ∀ name ∈ names, IsEntryName name) :
    (ofNames names).key = names.map ("3" ++ ·) := by
  unfold key
  rw [components_ofNames hnames, List.map_map]
  rfl

/-- Different names give paths with different keys. -/
theorem eq_of_key_ofNames_eq {first second : List String}
    (hfirst : ∀ name ∈ first, IsEntryName name) (hsecond : ∀ name ∈ second, IsEntryName name)
    (hkey : (ofNames first).key = (ofNames second).key) : first = second := by
  rw [key_ofNames hfirst, key_ofNames hsecond] at hkey
  refine List.map_injective_iff.mpr ?_ hkey
  intro one other heq
  simpa using heq

theorem fileName?_ofNames {names : List String} (hnames : ∀ name ∈ names, IsEntryName name) :
    (ofNames names).fileName? = names.getLast? := by
  unfold fileName?
  rw [components_ofNames hnames, List.getLast?_map]
  cases names.getLast? <;> rfl

theorem ofNames_singleton (name : String) : ofNames [name] = ⟨name⟩ := by
  simp [ofNames]

/-- The language of a path hangs on its last component. -/
theorem language_eq_of_fileName?_eq {first second : Path}
    (hname : first.fileName? = second.fileName?) :
    Language.ofPath? first = Language.ofPath? second := by
  unfold Language.ofPath? extension?
  rw [hname]

theorem fileName?_mk_of_isEntryName {name : String} (hname : IsEntryName name) :
    (Path.mk name).fileName? = some name := by
  rw [← ofNames_singleton, fileName?_ofNames (by simpa using hname)]
  rfl

theorem lt_iff_key_lt {first second : Path} : first < second ↔ first.key < second.key :=
  Iff.rfl

theorem lt_or_lt_of_key_ne {first second : Path} (hne : first.key ≠ second.key) :
    first < second ∨ second < first :=
  lt_or_gt_of_ne hne

theorem not_lt_self (path : Path) : ¬ path < path :=
  fun hlt => lt_irrefl path.key hlt

end Path

end SourceAtlas
