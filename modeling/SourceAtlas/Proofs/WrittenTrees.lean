import SourceAtlas.Proofs.PathWalks

/-!
# Written trees

A node that is put where names lead changes what stands there and nothing else.  So making
a directory changes one place where nothing was, making a directory with those that lead to
it changes places of this kind only, and writing a file changes the place where its path
leads.  No directory is lost on the way; that is why a path that leads somewhere before
still leads there afterwards.
-/

namespace SourceAtlas

namespace FileNode

/-- What stands where names lead. -/
inductive Standing
  | nothing
  | directory
  | file (bytes : ByteArray) (lastModified : Timestamp)

def standing (node : FileNode) (names : List String) : Standing :=
  match node.descend? names with
  | none => .nothing
  | some (.directory _) => .directory
  | some (.file bytes lastModified) => .file bytes lastModified

variable {node new : FileNode} {names above : List String}

theorem standing_eq_nothing_iff : node.standing names = .nothing ↔ node.descend? names = none := by
  unfold standing
  split <;> simp_all

theorem standing_eq_directory_iff :
    node.standing names = .directory ↔
      ∃ entries, node.descend? names = some (.directory entries) := by
  unfold standing
  split <;> simp_all

theorem standing_eq_file_iff {bytes : ByteArray} {lastModified : Timestamp} :
    node.standing names = .file bytes lastModified ↔
      node.descend? names = some (.file bytes lastModified) := by
  unfold standing
  split <;> simp_all

theorem isSome_of_standing (hthere : node.standing names ≠ .nothing) :
    (node.descend? names).isSome = true :=
  Option.isSome_iff_ne_none.mpr (mt standing_eq_nothing_iff.mpr hthere)

theorem standing_congr {other : FileNode} {others : List String}
    (hsame : node.descend? names = other.descend? others) :
    node.standing names = other.standing others := by
  unfold standing
  rw [hsame]

/-- What has something below it is a directory. -/
theorem standing_eq_directory_of_append {below : List String} (hne : below ≠ [])
    (hleads : (node.descend? (above ++ below)).isSome = true) :
    node.standing above = .directory := by
  obtain ⟨name, rest, rfl⟩ := List.exists_cons_of_ne_nil hne
  rw [descend?_append] at hleads
  rw [standing_eq_directory_iff]
  cases hhere : node.descend? above with
  | none => simp [hhere] at hleads
  | some child =>
      cases child with
      | directory entries => exact ⟨entries, rfl⟩
      | file bytes lastModified => simp [hhere, descend?_cons] at hleads

theorem standing_eq_directory_of_prefix (hwithin : above <+: names)
    (hstanding : node.standing names = .directory) : node.standing above = .directory := by
  obtain ⟨below, rfl⟩ := hwithin
  by_cases hne : below = []
  · simpa [hne] using hstanding
  · obtain ⟨entries, hentries⟩ := standing_eq_directory_iff.mp hstanding
    exact standing_eq_directory_of_append hne (by rw [hentries]; rfl)

theorem place_cons_eq (new node : FileNode) (name : String) (names : List String) :
    ∃ entries, place new (name :: names) node =
        .directory (setEntry name (place new names ((node.entry? name).getD empty)) entries) ∧
      ∀ other, entry? other (.directory entries) = node.entry? other := by
  cases node with
  | directory entries => exact ⟨entries, place_cons _ _ _ _, fun _ => rfl⟩
  | file bytes lastModified => exact ⟨[], by simp [place], fun _ => rfl⟩

theorem descend?_place (new node : FileNode) (names below : List String) :
    (place new names node).descend? (names ++ below) = new.descend? below := by
  induction names generalizing node with
  | nil => rw [place_nil, List.nil_append]
  | cons name names ih =>
      obtain ⟨entries, hplace, -⟩ := place_cons_eq new node name names
      rw [hplace, List.cons_append, descend?_cons, entry?_setEntry_self, Option.bind_some, ih]

/-- Beside the way to where a node is put, nothing changes. -/
theorem descend?_place_eq_of_apart (habove : ¬ above <+: names) (hbelow : ¬ names <+: above) :
    (place new names node).descend? above = node.descend? above := by
  induction names generalizing node above with
  | nil => exact (hbelow List.nil_prefix).elim
  | cons name names ih =>
      cases above with
      | nil => exact (habove List.nil_prefix).elim
      | cons first above =>
          obtain ⟨entries, hplace, hentries⟩ := place_cons_eq new node name names
          rw [hplace, descend?_cons, descend?_cons]
          by_cases heq : name = first
          · subst heq
            rw [List.prefix_cons_inj] at habove hbelow
            rw [entry?_setEntry_self, Option.bind_some, ih habove hbelow]
            cases hentry : node.entry? name with
            | some child => rfl
            | none =>
                obtain ⟨next, rest, rfl⟩ : ∃ next rest, above = next :: rest :=
                  List.exists_cons_of_ne_nil (fun hnil => habove (hnil ▸ List.nil_prefix))
                rfl
          · rw [entry?_setEntry_of_ne heq, hentries]

/-- Two trees differ at most in what stands at some names. -/
structure ChangedAt (names : List String) (what : Standing) (old new : FileNode) : Prop where
  here : new.standing names = what
  elsewhere : ∀ others, others ≠ names → new.standing others = old.standing others

/-- A node without entries that is put into a directory, where no directory was, changes
what stands at this one place. -/
theorem changedAt_place (new : FileNode) {name : String}
    (hparent : node.standing above = .directory)
    (hleaf : ∀ below, below ≠ [] → new.descend? below = none)
    (hold : node.standing (above ++ [name]) ≠ .directory) :
    ChangedAt (above ++ [name]) (new.standing []) node (place new (above ++ [name]) node) := by
  have hplace := descend?_place new node (above ++ [name])
  constructor
  · exact standing_congr (by simpa using hplace [])
  · intro others hne
    by_cases hbelow : above ++ [name] <+: others
    · -- Nothing is below the place, before or after.
      obtain ⟨below, rfl⟩ := hbelow
      have hne' : below ≠ [] := by
        rintro rfl
        exact hne (List.append_nil _)
      have hnone : node.descend? (above ++ [name] ++ below) = none := by
        by_contra hsome
        exact hold (standing_eq_directory_of_append hne' (Option.isSome_iff_ne_none.mpr hsome))
      exact standing_congr (by rw [hplace, hleaf below hne', hnone])
    · by_cases hwithin : others <+: above ++ [name]
      · -- What leads to the place are directories, before and after.
        obtain ⟨below, hsplit⟩ := (List.prefix_concat_iff.mp hwithin).resolve_left hne
        have hleads : ((place new (above ++ [name]) node).descend?
            (others ++ (below ++ [name]))).isSome = true := by
          rw [← List.append_assoc, hsplit]
          simpa using congrArg Option.isSome (hplace [])
        rw [standing_eq_directory_of_append (by simp) hleads,
          standing_eq_directory_of_prefix ⟨below, hsplit⟩ hparent]
      · exact standing_congr (descend?_place_eq_of_apart hwithin hbelow)

theorem descend?_empty {below : List String} (hne : below ≠ []) : empty.descend? below = none := by
  obtain ⟨name, rest, rfl⟩ := List.exists_cons_of_ne_nil hne
  simp [descend?_cons, FileNode.entry?, empty]

theorem descend?_file {bytes : ByteArray} {lastModified : Timestamp} {below : List String}
    (hne : below ≠ []) : (file bytes lastModified).descend? below = none := by
  obtain ⟨name, rest, rfl⟩ := List.exists_cons_of_ne_nil hne
  simp [descend?_cons]

/-- A file in the place of a file is the only change. -/
theorem changedAt_place_file {old : ByteArray} {oldModified : Timestamp}
    (hold : node.standing names = .file old oldModified) (bytes : ByteArray)
    (lastModified : Timestamp) :
    ChangedAt names (.file bytes lastModified) node
      (place (.file bytes lastModified) names node) := by
  rcases List.eq_nil_or_concat names with rfl | ⟨above, name, rfl⟩
  · have hnode : node = .file old oldModified := by
      simpa using standing_eq_file_iff.mp hold
    subst hnode
    rw [place_nil]
    exact ⟨rfl, fun others hne => standing_congr (by rw [descend?_file hne, descend?_file hne])⟩
  · rw [List.concat_eq_append] at hold ⊢
    have hleads : (node.descend? (above ++ [name])).isSome = true :=
      isSome_of_standing (by simp [hold])
    have hparent : node.standing above = .directory :=
      standing_eq_directory_of_append (List.cons_ne_nil name []) hleads
    exact changedAt_place _ hparent (fun _ => descend?_file) (by simp [hold])

/-- Where directories stay directories and nothing gets lost, a tree extends another. -/
theorem extends_of_standing {old : FileNode}
    (hdirectory : ∀ names, old.standing names = .directory → new.standing names = .directory)
    (hthere : ∀ names, old.standing names ≠ .nothing → new.standing names ≠ .nothing) :
    old.Extends new := by
  intro above entries habove
  obtain ⟨others, hothers⟩ := standing_eq_directory_iff.mp
    (hdirectory above (standing_eq_directory_iff.mpr ⟨entries, habove⟩))
  have hentry : ∀ {node : FileNode} {children : List (String × FileNode)} (name : String),
      node.descend? above = some (.directory children) →
      (node.standing (above ++ [name]) ≠ .nothing ↔ ∃ child ∈ children, child.1 = name) := by
    intro node children name hchildren
    rw [ne_eq, standing_eq_nothing_iff, descend?_append, hchildren, Option.bind_some,
      descend?_cons, ← isSome_entry?_iff]
    cases FileNode.entry? name (.directory children) <;> simp
  refine ⟨others, hothers, ?_⟩
  intro entry hmem
  exact (hentry entry.1 hothers).mp
    (hthere _ ((hentry entry.1 habove).mpr ⟨entry, hmem, rfl⟩))

/-- One change that takes no directory away extends a tree. -/
theorem ChangedAt.extends {what : Standing} (hchanged : ChangedAt names what node new)
    (hwhat : what ≠ .nothing) (hfree : node.standing names ≠ .directory) : node.Extends new := by
  apply extends_of_standing
  · intro others hold
    have hne : others ≠ names := by
      rintro rfl
      exact hfree hold
    rwa [hchanged.elsewhere others hne]
  · intro others hold
    by_cases hne : others = names
    · rwa [hne, hchanged.here]
    · rwa [hchanged.elsewhere others hne]

end FileNode

namespace FileTree

theorem resolve_of_extends {old new : FileTree} (hextends : old.root.Extends new.root)
    (hworking : new.workingDirectory = old.workingDirectory) {path : Path} {names : List String}
    (hresolve : old.resolve path = .ok names) : new.resolve path = .ok names := by
  have hstart : new.startOf path = old.startOf path := by
    unfold startOf
    rw [hworking]
  rw [resolve_eq_ok_iff] at hresolve ⊢
  rw [hstart]
  exact ⟨hresolve.1, walk_eq_of_extends hextends hresolve.2⟩

theorem hasPath_iff {tree : FileTree} {path : Path} :
    tree.hasPath path = true ↔
      ∃ names, tree.resolve path = .ok names ∧ tree.root.standing names ≠ .nothing := by
  constructor
  · intro hthere
    unfold hasPath at hthere
    split at hthere
    · next node hnode =>
      obtain ⟨names, hresolve, hleads⟩ := exists_resolve hnode
      refine ⟨names, hresolve, ?_⟩
      rw [ne_eq, FileNode.standing_eq_nothing_iff, hleads]
      simp
    · contradiction
  · rintro ⟨names, hresolve, hthere⟩
    obtain ⟨node, hnode⟩ := Option.isSome_iff_exists.mp (FileNode.isSome_of_standing hthere)
    unfold hasPath
    rw [node_eq_of_resolve hresolve hnode]

/-- A file or an empty directory that is put where nothing was is the only change. -/
theorem addEntry_spec {tree new : FileTree} {components : List Component} {leaf : FileNode}
    (hleaf : ∀ below, below ≠ [] → leaf.descend? below = none)
    (hwhat : leaf.standing [] ≠ .nothing)
    (habsent : ∀ name names, components.getLast? = some (.name name) →
      tree.parentNames components = .ok names →
      tree.root.standing (names ++ [name]) = .nothing)
    (hadd : tree.addEntry components leaf = .ok new) :
    ∃ name names, components.getLast? = some (.name name) ∧
      new.parentNames components = .ok names ∧
      tree.root.standing (names ++ [name]) = .nothing ∧
      new.workingDirectory = tree.workingDirectory ∧ tree.root.Extends new.root ∧
      FileNode.ChangedAt (names ++ [name]) (leaf.standing []) tree.root new.root := by
  unfold addEntry at hadd
  split at hadd
  · next name hlast =>
    cases hparent : tree.parentNames components with
    | error error => simp [hparent, Except.map] at hadd
    | ok names =>
        rw [hparent] at hadd
        obtain rfl : tree.withNode (names ++ [name]) leaf = new := Except.ok.inj hadd
        have hnothing := habsent name names hlast hparent
        obtain ⟨hresolve, hentries⟩ := parentNames_eq_ok_iff.mp hparent
        have hdirectory := FileNode.standing_eq_directory_iff.mpr hentries
        have hfree : tree.root.standing (names ++ [name]) ≠ .directory := by simp [hnothing]
        have hchanged : FileNode.ChangedAt (names ++ [name]) (leaf.standing []) tree.root
            (tree.withNode (names ++ [name]) leaf).root :=
          FileNode.changedAt_place leaf hdirectory hleaf hfree
        have hextends := hchanged.extends hwhat hfree
        have hparent' : (tree.withNode (names ++ [name]) leaf).parentNames components =
            .ok names := by
          refine parentNames_eq_ok_iff.mpr ⟨resolve_of_extends hextends rfl hresolve, ?_⟩
          refine FileNode.standing_eq_directory_iff.mp ?_
          exact (hchanged.elsewhere names (by simp)).trans hdirectory
        exact ⟨name, names, hlast, hparent', hnothing, rfl, hextends, hchanged⟩
  · contradiction

/-! ## Making directories -/

/-- Names that some of the leading components lead to. -/
def LeadsAlong (tree : FileTree) (components : List Component) (names : List String) : Prop :=
  ∃ above, above <+: components ∧ tree.resolve (.ofComponents above) = .ok names

/-- The second tree is the first one with directories where nothing was, all of them where
some of the leading components lead. -/
structure AddsDirectories (components : List Component) (old new : FileTree) : Prop where
  workingDirectory : new.workingDirectory = old.workingDirectory
  standing : ∀ names, new.root.standing names = old.root.standing names ∨
    old.root.standing names = .nothing ∧ new.root.standing names = .directory ∧
      new.LeadsAlong components names

namespace AddsDirectories

variable {components above : List Component} {old middle new : FileTree}

theorem refl (components : List Component) (tree : FileTree) :
    AddsDirectories components tree tree :=
  ⟨rfl, fun _ => Or.inl rfl⟩

theorem mono (hadds : AddsDirectories above old new) (hwithin : above <+: components) :
    AddsDirectories components old new := by
  refine ⟨hadds.workingDirectory, fun names => (hadds.standing names).imp_right ?_⟩
  rintro ⟨hold, hnew, leading, hleading, hresolve⟩
  exact ⟨hold, hnew, leading, hleading.trans hwithin, hresolve⟩

theorem root_extends (hadds : AddsDirectories components old new) :
    old.root.Extends new.root := by
  apply FileNode.extends_of_standing
  · intro names hdirectory
    rcases hadds.standing names with hsame | ⟨-, hnew, -⟩
    · rwa [hsame]
    · exact hnew
  · intro names hthere
    rcases hadds.standing names with hsame | ⟨hnothing, -⟩
    · rwa [hsame]
    · exact (hthere hnothing).elim

theorem trans (hfirst : AddsDirectories components old middle)
    (hsecond : AddsDirectories components middle new) : AddsDirectories components old new := by
  refine ⟨hsecond.workingDirectory.trans hfirst.workingDirectory, fun names => ?_⟩
  rcases hsecond.standing names with hsame | ⟨hmiddle, hnew, hleads⟩
  · rw [hsame]
    refine (hfirst.standing names).imp_right ?_
    rintro ⟨hold, hmiddle, leading, hleading, hresolve⟩
    exact ⟨hold, hmiddle, leading, hleading,
      resolve_of_extends hsecond.root_extends hsecond.workingDirectory hresolve⟩
  · rcases hfirst.standing names with hsame | ⟨-, hdirectory, -⟩
    · exact Or.inr ⟨hsame ▸ hmiddle, hnew, hleads⟩
    · rw [hmiddle] at hdirectory
      contradiction

end AddsDirectories

theorem addsDirectories_of_makeDirectory {tree new : FileTree} {components : List Component}
    (hproper : ProperNames components) (hmake : tree.makeDirectory components = .ok new) :
    AddsDirectories components tree new := by
  unfold makeDirectory at hmake
  split at hmake
  · contradiction
  · next hpath =>
    have habsent : ∀ name names, components.getLast? = some (.name name) →
        tree.parentNames components = .ok names →
        tree.root.standing (names ++ [name]) = .nothing := by
      intro name names hlast hparent
      by_contra hthere
      have hresolve := resolve_ofComponents hproper hlast hparent
        (FileNode.isSome_of_standing hthere)
      exact hpath (hasPath_iff.mpr ⟨_, hresolve, hthere⟩)
    obtain ⟨name, names, hlast, hparent, hnothing, hworking, -, hchanged⟩ :=
      addEntry_spec (fun _ => FileNode.descend?_empty) FileNode.Standing.noConfusion habsent hmake
    have hhere : new.root.standing (names ++ [name]) = .directory := hchanged.here
    have hresolve : new.resolve (.ofComponents components) = .ok (names ++ [name]) := by
      refine resolve_ofComponents hproper hlast hparent (FileNode.isSome_of_standing ?_)
      simp [hhere]
    refine ⟨hworking, fun others => ?_⟩
    by_cases heq : others = names ++ [name]
    · rw [heq]
      exact Or.inr ⟨hnothing, hhere, components, List.prefix_refl _, hresolve⟩
    · exact Or.inl (hchanged.elsewhere others heq)

/-- Making a directory with those that lead to it adds directories, where it succeeds. -/
theorem addsDirectories_of_makeDirectoriesLoop {tree new : FileTree}
    {reversed : List Component} (hproper : ProperNames reversed.reverse)
    (hmake : tree.makeDirectoriesLoop reversed = (new, none)) :
    AddsDirectories reversed.reverse tree new := by
  induction reversed generalizing tree new with
  | nil =>
      have heq : tree = new := by simpa [makeDirectoriesLoop] using hmake
      rw [heq]
      exact .refl _ _
  | cons component above ih =>
      have haccept : ∀ {tree : FileTree} {error : FileError},
          tree.acceptDirectory (component :: above).reverse error = (new, none) → tree = new := by
        intro tree error haccept
        unfold acceptDirectory at haccept
        split at haccept
        · exact congrArg Prod.fst haccept
        · simp at haccept
      have hwithin : above.reverse <+: (component :: above).reverse := by
        rw [List.reverse_cons]
        exact List.prefix_append _ _
      unfold makeDirectoriesLoop at hmake
      simp only at hmake
      split at hmake
      · next made hmade =>
        have heq : made = new := congrArg Prod.fst hmake
        rw [← heq]
        exact addsDirectories_of_makeDirectory hproper hmade
      · split at hmake
        · simp at hmake
        · next middle habove =>
          have hmiddle := (ih (hproper.leading hwithin) habove).mono hwithin
          split at hmake
          · next made hmade =>
            have heq : made = new := congrArg Prod.fst hmake
            rw [← heq]
            exact hmiddle.trans (addsDirectories_of_makeDirectory hproper hmade)
          · rw [← haccept hmake]
            exact hmiddle
      · rw [haccept hmake]
        exact .refl _ _

theorem addsDirectories_of_makeDirectories {tree new : FileTree} {components : List Component}
    (hproper : ProperNames components)
    (hmake : tree.makeDirectories components = (new, none)) :
    AddsDirectories components tree new := by
  rw [← List.reverse_reverse components] at hproper ⊢
  exact addsDirectories_of_makeDirectoriesLoop hproper hmake

/-- The second tree has a file with these bytes where the path leads, and is the first one
anywhere else. -/
structure WritesFile (path : Path) (bytes : ByteArray) (old new : FileTree) : Prop where
  workingDirectory : new.workingDirectory = old.workingDirectory
  root_extends : old.root.Extends new.root
  changedAt : ∃ names, new.resolve path = .ok names ∧
    FileNode.ChangedAt names (.file bytes .epoch) old.root new.root

theorem root_extends_of_file {tree : FileTree} {names : List String} {old : ByteArray}
    {oldModified : Timestamp} (hold : tree.root.standing names = .file old oldModified)
    (bytes : ByteArray) (lastModified : Timestamp) :
    tree.root.Extends (tree.withNode names (.file bytes lastModified)).root :=
  (FileNode.changedAt_place_file hold bytes lastModified).extends
    FileNode.Standing.noConfusion (by simp [hold])

/-- Where a file is rewritten, no path is lost. -/
theorem hasPath_withNode_file {tree : FileTree} {names : List String} {old : ByteArray}
    {oldModified : Timestamp} (hold : tree.root.standing names = .file old oldModified)
    (bytes : ByteArray) (lastModified : Timestamp) {path : Path}
    (hpath : tree.hasPath path = true) :
    (tree.withNode names (.file bytes lastModified)).hasPath path = true := by
  have hchanged := FileNode.changedAt_place_file hold bytes lastModified
  obtain ⟨way, hresolve, hsome⟩ := hasPath_iff.mp hpath
  have hresolve' := resolve_of_extends (root_extends_of_file hold bytes lastModified) rfl hresolve
  refine hasPath_iff.mpr ⟨way, hresolve', ?_⟩
  by_cases hne : way = names
  · rw [hne, withNode, hchanged.here]
    exact FileNode.Standing.noConfusion
  · rwa [withNode, hchanged.elsewhere way hne]

theorem writesFile_of_file {tree : FileTree} {path : Path} {names : List String}
    {old : ByteArray} {oldModified : Timestamp} (hresolve : tree.resolve path = .ok names)
    (hold : tree.root.standing names = .file old oldModified) (bytes : ByteArray) :
    WritesFile path bytes tree (tree.withNode names (.file bytes .epoch)) := by
  have hextends := root_extends_of_file hold bytes .epoch
  exact ⟨rfl, hextends, names, resolve_of_extends hextends rfl hresolve,
    FileNode.changedAt_place_file hold bytes .epoch⟩

theorem writesFile_of_addEntry {tree new : FileTree} {path : Path} {last : List Char}
    {bytes : ByteArray} (hpath : tree.hasPath path = false)
    (hlast : (segmentsOf path).getLast? = some last) (hstay : isStay last = false)
    (hadd : tree.addEntry path.components (.file bytes .epoch) = .ok new) :
    WritesFile path bytes tree new := by
  obtain ⟨front, hsegments⟩ := List.getLast?_eq_some_iff.mp hlast
  have habsent : ∀ name names, path.components.getLast? = some (.name name) →
      tree.parentNames path.components = .ok names →
      tree.root.standing (names ++ [name]) = .nothing := by
    intro name names hname hparent
    by_contra hthere
    have hresolve := resolve_of_parentNames hsegments hstay hname hparent
      (FileNode.isSome_of_standing hthere)
    exact Bool.eq_false_iff.mp hpath (hasPath_iff.mpr ⟨_, hresolve, hthere⟩)
  obtain ⟨name, names, hname, hparent, -, hworking, hextends, hchanged⟩ :=
    addEntry_spec (fun _ => FileNode.descend?_file) FileNode.Standing.noConfusion habsent hadd
  refine ⟨hworking, hextends, names ++ [name], ?_, hchanged⟩
  refine resolve_of_parentNames hsegments hstay hname hparent (FileNode.isSome_of_standing ?_)
  rw [hchanged.here]
  exact FileNode.Standing.noConfusion

theorem writesFile_of_writeFile {tree new : FileTree} {path : Path} {bytes : ByteArray}
    (hwrite : tree.writeFile path bytes = .ok new) : WritesFile path bytes tree new := by
  unfold writeFile at hwrite
  simp only at hwrite
  split at hwrite
  · contradiction
  · next old lastModified hnode =>
    obtain ⟨names, hresolve, hold⟩ := exists_resolve hnode
    rw [hresolve] at hwrite
    rw [← Except.ok.inj hwrite]
    exact writesFile_of_file hresolve (FileNode.standing_eq_file_iff.mpr hold) bytes
  · next error hnode =>
    have hpath : tree.hasPath path = false := by
      unfold hasPath
      rw [hnode]
    split at hwrite
    · contradiction
    · split at hwrite
      · split at hwrite
        · contradiction
        · cases hparent : tree.parentNames path.components <;>
            simp [hparent, Except.bind] at hwrite
      · contradiction
      · next hempty hcurrent =>
        obtain ⟨last, hlast⟩ : ∃ last, (segmentsOf path).getLast? = some last :=
          ⟨_, List.getLast?_eq_some_getLast (segmentsOf_ne_nil path)⟩
        have hstay : isStay last = false := by
          have hne : last ≠ [] := by
            rintro rfl
            exact hempty hlast
          have hne' : last ≠ ['.'] := by
            rintro rfl
            exact hcurrent hlast
          simp [isStay, hne, hne']
        exact writesFile_of_addEntry hpath hlast hstay hwrite

end FileTree

end SourceAtlas
