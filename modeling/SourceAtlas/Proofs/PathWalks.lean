import SourceAtlas.Proofs.AddedFiles

/-!
# Walks along paths

Before every segment a walk stands in a directory.  A segment that is empty or a single
dot asks for nothing more, so segments of this kind may be left out where the walk ends in
a directory, and anywhere but at the end.  What is left are the steps, and these can be
read off the components of a path: a path and the path of its components take the same
steps from the same start.
-/

namespace SourceAtlas

namespace FileTree

variable {root : FileNode} {reversed names : List String}

/-- A segment that leaves a walk where it stands. -/
def isStay (segment : List Char) : Bool :=
  segment = [] || segment = ['.']

/-- The names of a place, last one first, lead to a directory. -/
def InDirectory (root : FileNode) (reversed : List String) : Prop :=
  ∃ entries, root.descend? reversed.reverse = some (.directory entries)

/-- What a walk does for one segment. -/
inductive Step (root : FileNode) (reversed : List String) : List Char → List String → Prop
  | stay {segment : List Char} (hhere : InDirectory root reversed)
      (hstay : isStay segment = true) : Step root reversed segment reversed
  | up (hhere : InDirectory root reversed) : Step root reversed ['.', '.'] reversed.tail
  | enter {segment : List Char} (hstay : isStay segment = false) (hup : segment ≠ ['.', '.'])
      (hentry : (root.descend? (String.ofList segment :: reversed).reverse).isSome = true) :
      Step root reversed segment (String.ofList segment :: reversed)

theorem isSome_descend?_cons_iff {name : String} :
    (root.descend? (name :: reversed).reverse).isSome = true ↔
      ∃ entries, root.descend? reversed.reverse = some (.directory entries) ∧
        entries.any (·.1 = name) = true := by
  rw [List.reverse_cons, FileNode.descend?_append]
  cases hhere : root.descend? reversed.reverse with
  | none => simp
  | some node =>
      rw [Option.bind_some, FileNode.descend?_cons]
      cases node with
      | file bytes lastModified => simp
      | directory entries =>
          have hentry : (( FileNode.entry? name (.directory entries)).bind
              (·.descend? [])).isSome = true ↔
                ( FileNode.entry? name (.directory entries)).isSome = true := by
            cases FileNode.entry? name (.directory entries) <;> simp
          rw [hentry, FileNode.isSome_entry?_iff]
          simp

theorem isStay_name {name : String} (hname : IsEntryName name) : isStay name.toList = false := by
  have hempty : name.toList ≠ [] := by simpa using hname.ne_empty
  have hcurrent : name.toList ≠ ['.'] := by
    intro heq
    exact hname.ne_current (String.toList_inj.mp (by simpa using heq))
  simp [isStay, hempty, hcurrent]

/-- The name of an entry leads into it. -/
theorem Step.enterName {name : String} (hname : IsEntryName name)
    (hentry : (root.descend? (name :: reversed).reverse).isSome = true) :
    Step root reversed name.toList (name :: reversed) := by
  have hup : name.toList ≠ ['.', '.'] := by
    intro hdots
    exact hname.ne_up (String.toList_inj.mp (by simpa using hdots))
  have hstep := Step.enter (isStay_name hname) hup (by rwa [String.ofList_toList])
  rwa [String.ofList_toList] at hstep

theorem Step.inDirectory {segment : List Char} {next : List String}
    (hstep : Step root reversed segment next) : InDirectory root reversed := by
  cases hstep with
  | stay hhere hstay => exact hhere
  | up hhere => exact hhere
  | enter hstay hup hentry =>
      obtain ⟨entries, hhere, -⟩ := isSome_descend?_cons_iff.mp hentry
      exact ⟨entries, hhere⟩

theorem Step.eq_of_isStay {segment : List Char} {next : List String}
    (hstep : Step root reversed segment next) (hstay : isStay segment = true) :
    next = reversed := by
  cases hstep with
  | stay => rfl
  | up => simp [isStay] at hstay
  | enter hproper => simp [hproper] at hstay

theorem walk_cons_iff {segment : List Char} {segments : List (List Char)} :
    walk root reversed (segment :: segments) = .ok names ↔
      ∃ next, Step root reversed segment next ∧ walk root next segments = .ok names := by
  constructor
  · intro hwalk
    unfold walk at hwalk
    split at hwalk
    · contradiction
    · contradiction
    · next entries hhere =>
      split at hwalk
      · next hstay => exact ⟨reversed, .stay ⟨entries, hhere⟩ hstay, hwalk⟩
      · next hstay =>
        split at hwalk
        · next hup =>
          rw [hup]
          exact ⟨reversed.tail, .up ⟨entries, hhere⟩, hwalk⟩
        · next hup =>
          simp only at hwalk
          split at hwalk
          · next hentry =>
            exact ⟨_, .enter (Bool.eq_false_iff.mpr hstay) hup
              (isSome_descend?_cons_iff.mpr ⟨entries, hhere, hentry⟩), hwalk⟩
          · contradiction
  · rintro ⟨next, hstep, hwalk⟩
    unfold walk
    cases hstep with
    | stay hhere hstay =>
        obtain ⟨entries, hhere⟩ := hhere
        rw [hhere]
        exact (if_pos hstay).trans hwalk
    | up hhere =>
        obtain ⟨entries, hhere⟩ := hhere
        rw [hhere]
        exact hwalk
    | enter hstay hup hentry =>
        obtain ⟨entries, hhere, hentry⟩ := isSome_descend?_cons_iff.mp hentry
        have hstay : ¬ (decide (segment = []) || decide (segment = ['.'])) = true :=
          Bool.eq_false_iff.mp hstay
        rw [hhere]
        simp only [if_neg hstay, if_neg hup, if_pos hentry]
        exact hwalk

theorem walk_append_iff {front back : List (List Char)} :
    walk root reversed (front ++ back) = .ok names ↔
      ∃ between, walk root reversed front = .ok between ∧
        walk root between back = .ok names := by
  induction front generalizing reversed with
  | nil => simp [walk]
  | cons segment front ih =>
      simp only [List.cons_append, walk_cons_iff, ih]
      constructor
      · rintro ⟨next, hstep, between, hfront, hback⟩
        exact ⟨between, ⟨next, hstep, hfront⟩, hback⟩
      · rintro ⟨between, ⟨next, hstep, hfront⟩, hback⟩
        exact ⟨next, hstep, between, hfront, hback⟩

theorem walk_singleton_iff {segment : List Char} :
    walk root reversed [segment] = .ok names ↔ Step root reversed segment names := by
  rw [walk_cons_iff]
  constructor
  · rintro ⟨next, hstep, hwalk⟩
    have heq : next = names := by simpa [walk] using hwalk
    rwa [← heq]
  · intro hstep
    exact ⟨names, hstep, by simp [walk]⟩

/-- The segments that lead a walk to another place. -/
def stepsOf (segments : List (List Char)) : List (List Char) :=
  segments.filter (!isStay ·)

/-- A walk that ends in a directory is the walk of its steps. -/
theorem walk_stepsOf_iff (hend : InDirectory root names) {segments : List (List Char)} :
    walk root reversed (stepsOf segments) = .ok names ↔
      walk root reversed segments = .ok names := by
  induction segments generalizing reversed with
  | nil => rfl
  | cons segment segments ih =>
      unfold stepsOf at ih ⊢
      cases hstay : isStay segment with
      | false =>
          rw [List.filter_cons_of_pos (by simp [hstay]), walk_cons_iff, walk_cons_iff]
          simp only [ih]
      | true =>
          rw [List.filter_cons_of_neg (by simp [hstay]), ih, walk_cons_iff]
          constructor
          · intro hwalk
            -- The next segment, if there is one, asks for a directory as well.
            have hhere : InDirectory root reversed := by
              cases segments with
              | nil =>
                  have heq : reversed = names := by simpa [walk] using hwalk
                  rwa [heq]
              | cons next segments =>
                  obtain ⟨_, hstep, -⟩ := walk_cons_iff.mp hwalk
                  exact hstep.inDirectory
            exact ⟨reversed, .stay hhere hstay, hwalk⟩
          · rintro ⟨next, hstep, hwalk⟩
            rwa [hstep.eq_of_isStay hstay] at hwalk

def segmentsOf (path : Path) : List (List Char) :=
  Text.splitWhere (· = '/') path.text.toList

theorem segmentsOf_ne_nil (path : Path) : segmentsOf path ≠ [] := by
  have hloop : ∀ piece text pieces, Text.splitLoop (· = '/') piece text pieces ≠ [] := by
    intro piece text
    induction text generalizing piece with
    | nil => simp [Text.splitLoop]
    | cons c text ih =>
        intro pieces
        unfold Text.splitLoop
        split <;> exact ih _ _
  exact hloop [] path.text.toList []

/-- A path whose last segment is not empty is not empty. -/
theorem isEmpty_eq_false_of_getLast? {path : Path} {last : List Char}
    (hlast : (segmentsOf path).getLast? = some last) (hne : last ≠ []) :
    path.text.isEmpty = false := by
  cases hempty : path.text.isEmpty with
  | false => rfl
  | true =>
      have hnil : path.text.toList = [] := by simpa using hempty
      have hone : segmentsOf path = [[]] := by
        unfold segmentsOf
        rw [hnil]
        rfl
      rw [hone] at hlast
      exact (hne (Option.some.inj hlast).symm).elim

/-- Where the walk along a path starts. -/
def startOf (tree : FileTree) (path : Path) : List String :=
  if path.text.toList.head? = some '/' then [] else tree.workingDirectory.reverse

theorem resolve_eq_ok_iff {tree : FileTree} {path : Path} :
    tree.resolve path = .ok names ↔
      path.text.isEmpty = false ∧
        walk tree.root (tree.startOf path) (segmentsOf path) = .ok names.reverse := by
  have hmap : (walk tree.root (tree.startOf path) (segmentsOf path)).map List.reverse =
      .ok names ↔ walk tree.root (tree.startOf path) (segmentsOf path) = .ok names.reverse := by
    cases walk tree.root (tree.startOf path) (segmentsOf path) with
    | error error => simp [Except.map]
    | ok reversed => simp [Except.map, List.reverse_eq_iff]
  unfold resolve
  cases path.text.isEmpty with
  | true => simp
  | false => exact hmap.trans (by simp)

/-- The step that a component stands for. -/
def stepOf? : Component → Option (List Char)
  | .root => none
  | .current => none
  | .up => some ['.', '.']
  | .name text => some text.toList

/-- Where the walk along components starts. -/
def startAt (tree : FileTree) (components : List Component) : List String :=
  if components.head? = some .root then [] else tree.workingDirectory.reverse

theorem stepOf?_of_componentOf {segment : List Char} :
    (Path.componentOf segment).bind stepOf? =
      if segment = ['.'] then none else some segment := by
  unfold Path.componentOf
  split
  · rfl
  · split
    · next hup => rw [hup]; rfl
    · simp [stepOf?]

theorem filterMap_stepOf?_components (path : Path) :
    path.components.filterMap stepOf? = stepsOf (segmentsOf path) := by
  have hkeep : ∀ segments : List (List Char), (∀ segment ∈ segments, segment ≠ []) →
      (segments.filterMap Path.componentOf).filterMap stepOf? = stepsOf segments := by
    intro segments hsegments
    rw [List.filterMap_filterMap]
    induction segments with
    | nil => rfl
    | cons segment segments ih =>
        obtain ⟨hne, hrest⟩ := List.forall_mem_cons.mp hsegments
        have hstep : (Path.componentOf segment).bind stepOf? =
            if isStay segment = true then none else some segment := by
          rw [stepOf?_of_componentOf]
          simp [isStay, hne]
        unfold stepsOf at ih ⊢
        cases hstay : isStay segment <;> simp [hstep, hstay, ih hrest]
  have hsegments : stepsOf path.segments = stepsOf (segmentsOf path) := by
    unfold stepsOf Path.segments segmentsOf
    rw [List.filter_filter]
    apply List.filter_congr
    intro segment _
    cases segment <;> simp [isStay]
  have hnonempty : ∀ segment ∈ path.segments, segment ≠ [] := by
    intro segment hsegment hnil
    have hkept := (List.mem_filter.mp hsegment).2
    simp [hnil] at hkept
  rw [← hsegments]
  unfold Path.components
  split
  · rw [List.filterMap_cons_none rfl]
    exact hkeep _ hnonempty
  · split
    · next rest hrest =>
      rw [List.filterMap_cons_none rfl, hrest]
      rw [hrest] at hnonempty
      exact hkeep rest fun segment hmem => hnonempty segment (List.mem_cons_of_mem _ hmem)
    · exact hkeep _ hnonempty

theorem startOf_eq_startAt (tree : FileTree) (path : Path) :
    tree.startOf path = tree.startAt path.components := by
  have hhead : path.components.head? = some .root ↔ path.text.toList.head? = some '/' := by
    have hother : ∀ segments : List (List Char),
        (segments.filterMap Path.componentOf).head? ≠ some .root := by
      intro segments hroot
      obtain ⟨segment, -, hsegment⟩ := List.mem_filterMap.mp (List.mem_of_head? hroot)
      unfold Path.componentOf at hsegment
      split at hsegment
      · contradiction
      · split at hsegment <;> simp at hsegment
    unfold Path.components
    split
    · next habsolute => simp [habsolute]
    · next hrelative =>
      split
      · simp [hrelative]
      · exact ⟨fun hroot => (hother _ hroot).elim, fun hroot => (hrelative hroot).elim⟩
  unfold startOf startAt
  simp only [hhead]

/-! ## Paths of components -/

/-- The names among some components can be names of entries. -/
def ProperNames (components : List Component) : Prop :=
  ∀ name, Component.name name ∈ components → IsEntryName name

theorem properNames_components (path : Path) : ProperNames path.components :=
  fun _ hmem => Path.isEntryName_of_mem_components hmem

theorem ProperNames.leading {above components : List Component}
    (hproper : ProperNames components) (hwithin : above <+: components) :
    ProperNames above :=
  fun name hmem => hproper name (hwithin.subset hmem)

theorem noSlash_segment {components : List Component} (hproper : ProperNames components)
    {component : Component} (hmem : component ∈ components) :
    '/' ∉ (Path.Component.segment component).toList := by
  cases component with
  | root => simp [Path.Component.segment]
  | current => decide
  | up => decide
  | name text => exact (hproper text hmem).noSlash

theorem toList_ofComponents {components : List Component} (hne : components ≠ [])
    (hroot : components ≠ [.root]) :
    (Path.ofComponents components).text.toList =
      ['/'].intercalate (components.map (Path.Component.segment · |>.toList)) := by
  have htext : (Path.ofComponents components).text =
      "/".intercalate (components.map Path.Component.segment) := by
    unfold Path.ofComponents
    split
    · exact (hne rfl).elim
    · exact (hroot rfl).elim
    · rfl
  rw [htext, String.toList_intercalate, List.map_map]
  rfl

theorem segmentsOf_ofComponents {components : List Component} (hproper : ProperNames components)
    (hne : components ≠ []) (hroot : components ≠ [.root]) :
    segmentsOf (.ofComponents components) =
      components.map (Path.Component.segment · |>.toList) := by
  unfold segmentsOf
  rw [toList_ofComponents hne hroot]
  apply Text.splitWhere_intercalate (by simpa using hne)
  intro segment hsegment
  obtain ⟨component, hmem, rfl⟩ := List.mem_map.mp hsegment
  exact noSlash_segment hproper hmem

theorem stepsOf_segmentsOf_ofComponents {components : List Component}
    (hproper : ProperNames components) :
    stepsOf (segmentsOf (.ofComponents components)) = components.filterMap stepOf? := by
  by_cases hne : components = []
  · subst hne
    decide
  by_cases hroot : components = [.root]
  · subst hroot
    decide
  rw [segmentsOf_ofComponents hproper hne hroot, stepsOf, List.filter_map,
    ← List.filterMap_eq_filter, List.map_filterMap]
  apply List.filterMap_congr
  intro component hmem
  cases component with
  | root => decide
  | current => decide
  | up => decide
  | name text =>
      simp [Option.guard, isStay_name (hproper text hmem), Path.Component.segment, stepOf?]

theorem startOf_ofComponents (tree : FileTree) {components : List Component}
    (hproper : ProperNames components) :
    tree.startOf (.ofComponents components) = tree.startAt components := by
  have hhead : (Path.ofComponents components).text.toList.head? = some '/' ↔
      components.head? = some .root := by
    cases components with
    | nil => decide
    | cons component rest =>
        by_cases hroot : component = .root
        · subst hroot
          cases rest with
          | nil => decide
          | cons next rest =>
              rw [toList_ofComponents (by simp) (by simp)]
              simp [List.intercalate, Path.Component.segment]
        · -- The text begins with a segment that is not empty.
          have hslash := noSlash_segment hproper (List.mem_cons_self (a := component))
          have hne : (Path.Component.segment component).toList ≠ [] := by
            cases component with
            | root => exact (hroot rfl).elim
            | current => decide
            | up => decide
            | name text =>
                simpa [Path.Component.segment] using
                  (hproper text List.mem_cons_self).ne_empty
          rw [toList_ofComponents (by simp) (by simp [hroot])]
          obtain ⟨c, chars, hchars⟩ := List.exists_cons_of_ne_nil hne
          have hc : c ≠ '/' := by
            rintro rfl
            exact hslash (by simp [hchars])
          cases rest <;> simp [List.intercalate, hchars, hc, hroot]
  unfold startOf startAt
  simp only [hhead]

theorem parentNames_eq_ok_iff {tree : FileTree} {components : List Component} :
    tree.parentNames components = .ok names ↔
      tree.resolve (.ofComponents components.dropLast) = .ok names ∧
        ∃ entries, tree.root.descend? names = some (.directory entries) := by
  unfold parentNames
  split
  · next error herror => simp [herror]
  · next found hfound =>
    rw [hfound, Except.ok.injEq]
    constructor
    · intro hparent
      split at hparent
      · next entries hentries =>
        obtain rfl : found = names := Except.ok.inj hparent
        exact ⟨rfl, entries, hentries⟩
      · contradiction
      · contradiction
    · rintro ⟨rfl, entries, hentries⟩
      rw [hentries]

theorem walk_of_parentNames {tree : FileTree} {components : List Component}
    (hproper : ProperNames components) (hparent : tree.parentNames components = .ok names) :
    InDirectory tree.root names.reverse ∧
      walk tree.root (tree.startAt components.dropLast)
        (components.dropLast.filterMap stepOf?) = .ok names.reverse := by
  have hproper' := hproper.leading components.dropLast_prefix
  obtain ⟨hresolve, entries, hentries⟩ := parentNames_eq_ok_iff.mp hparent
  have hdirectory : InDirectory tree.root names.reverse :=
    ⟨entries, by rwa [List.reverse_reverse]⟩
  obtain ⟨-, hwalk⟩ := resolve_eq_ok_iff.mp hresolve
  rw [← walk_stepsOf_iff hdirectory, stepsOf_segmentsOf_ofComponents hproper',
    startOf_ofComponents tree hproper'] at hwalk
  exact ⟨hdirectory, hwalk⟩

theorem startAt_dropLast (tree : FileTree) {components : List Component} {name : String}
    (hlast : components.getLast? = some (.name name)) :
    tree.startAt components.dropLast = tree.startAt components := by
  obtain ⟨above, rfl⟩ := List.getLast?_eq_some_iff.mp hlast
  unfold startAt
  rw [List.dropLast_concat]
  cases above <;> simp

/-- A path that takes the steps of some components and ends in a step leads to the entry
that the components name, if their directory has one of this name. -/
theorem resolve_of_steps {tree : FileTree} {path : Path} {components : List Component}
    (hproper : ProperNames components) {front : List (List Char)} {last : List Char}
    (hsegments : segmentsOf path = front ++ [last]) (hstay : isStay last = false)
    (hsteps : stepsOf (segmentsOf path) = components.filterMap stepOf?)
    (hstart : tree.startOf path = tree.startAt components) {name : String}
    (hlast : components.getLast? = some (.name name))
    (hparent : tree.parentNames components = .ok names)
    (hentry : (tree.root.descend? (names ++ [name])).isSome = true) :
    tree.resolve path = .ok (names ++ [name]) := by
  obtain ⟨hdirectory, hwalk⟩ := walk_of_parentNames hproper hparent
  rw [startAt_dropLast tree hlast, ← hstart] at hwalk
  obtain ⟨above, rfl⟩ := List.getLast?_eq_some_iff.mp hlast
  rw [hsegments, stepsOf, List.filter_append, List.filter_cons_of_pos (by simp [hstay]),
    List.filterMap_append] at hsteps
  obtain ⟨hfront, heq⟩ : stepsOf front = above.filterMap stepOf? ∧ [last] = [name.toList] :=
    List.append_inj' hsteps (by simp)
  obtain rfl : last = name.toList := by simpa using heq
  rw [List.dropLast_concat, ← hfront, walk_stepsOf_iff hdirectory] at hwalk
  have hname := hproper name (by simp)
  have hstep : Step tree.root names.reverse name.toList (name :: names.reverse) :=
    .enterName hname (by simpa using hentry)
  have hempty : path.text.isEmpty = false :=
    isEmpty_eq_false_of_getLast? (by rw [hsegments, List.getLast?_concat])
      (by simpa using hname.ne_empty)
  rw [resolve_eq_ok_iff, hsegments, List.reverse_append]
  exact ⟨hempty, walk_append_iff.mpr ⟨names.reverse, hwalk, walk_singleton_iff.mpr hstep⟩⟩

theorem resolve_ofComponents {tree : FileTree} {components : List Component}
    (hproper : ProperNames components) {name : String}
    (hlast : components.getLast? = some (.name name))
    (hparent : tree.parentNames components = .ok names)
    (hentry : (tree.root.descend? (names ++ [name])).isSome = true) :
    tree.resolve (.ofComponents components) = .ok (names ++ [name]) := by
  obtain ⟨above, rfl⟩ := List.getLast?_eq_some_iff.mp hlast
  have hsegments : segmentsOf (.ofComponents (above ++ [.name name])) =
      above.map (Path.Component.segment · |>.toList) ++ [name.toList] := by
    rw [segmentsOf_ofComponents hproper (by simp) (by cases above <;> simp), List.map_append]
    rfl
  exact resolve_of_steps hproper hsegments (isStay_name (hproper name (by simp)))
    (stepsOf_segmentsOf_ofComponents hproper) (startOf_ofComponents tree hproper) hlast hparent
    hentry

theorem resolve_of_parentNames {tree : FileTree} {path : Path} {front : List (List Char)}
    {last : List Char} (hsegments : segmentsOf path = front ++ [last])
    (hstay : isStay last = false) {name : String}
    (hlast : path.components.getLast? = some (.name name))
    (hparent : tree.parentNames path.components = .ok names)
    (hentry : (tree.root.descend? (names ++ [name])).isSome = true) :
    tree.resolve path = .ok (names ++ [name]) :=
  resolve_of_steps (properNames_components path) hsegments hstay
    (filterMap_stepOf?_components path).symm (startOf_eq_startAt tree path) hlast hparent hentry

/-- A walk along names of entries goes down to where the names lead. -/
theorem walk_names (hnames : ∀ name ∈ names, IsEntryName name)
    (hleads : (root.descend? (reversed.reverse ++ names)).isSome = true) :
    walk root reversed (names.map String.toList) = .ok (names.reverse ++ reversed) := by
  induction names generalizing reversed with
  | nil => rfl
  | cons name names ih =>
      have hname := hnames name List.mem_cons_self
      have hleads' : (root.descend? ((name :: reversed).reverse ++ names)).isSome = true := by
        simpa using hleads
      have hhere : (root.descend? (name :: reversed).reverse).isSome = true := by
        rw [FileNode.descend?_append] at hleads'
        exact Option.isSome_of_isSome_bind hleads'
      rw [List.map_cons, walk_cons_iff]
      refine ⟨_, .enterName hname hhere, ?_⟩
      rw [ih (fun other hother => hnames other (List.mem_cons_of_mem _ hother)) hleads']
      simp

theorem resolve_ofNames {tree : FileTree} (hne : names ≠ [])
    (hnames : ∀ name ∈ names, IsEntryName name)
    (hleads : (tree.root.descend? (tree.workingDirectory ++ names)).isSome = true) :
    tree.resolve (.ofNames names) = .ok (tree.workingDirectory ++ names) := by
  have hsegments : segmentsOf (.ofNames names) = names.map String.toList := by
    unfold segmentsOf
    rw [Path.toList_ofNames]
    apply Text.splitWhere_intercalate (by simpa using hne)
    intro segment hsegment
    obtain ⟨name, hname, rfl⟩ := List.mem_map.mp hsegment
    exact (hnames name hname).noSlash
  have hstart : tree.startOf (.ofNames names) = tree.workingDirectory.reverse := by
    rw [startOf_eq_startAt, Path.components_ofNames hnames, startAt]
    cases names <;> simp
  have hlast : (segmentsOf (.ofNames names)).getLast? = some (names.getLast hne).toList := by
    rw [hsegments, List.getLast?_map, List.getLast?_eq_some_getLast hne]
    rfl
  have hempty : (Path.ofNames names).text.isEmpty = false :=
    isEmpty_eq_false_of_getLast? hlast
      (by simpa using (hnames _ (List.getLast_mem hne)).ne_empty)
  rw [resolve_eq_ok_iff, hsegments, hstart, List.reverse_append]
  exact ⟨hempty, walk_names hnames (by rwa [List.reverse_reverse])⟩

end FileTree

end SourceAtlas
