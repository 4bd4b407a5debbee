import SourceAtlas.Files.Writing
import SourceAtlas.Proofs.ExactDiscovery

/-!
# Added files

A file that is put where nothing was adds at most one file to what the walk lists and
leaves the others in their order.  Sorting, leaving out and reading keep this relation
between two lists, since what a file comes to hangs on that file alone.  So the report on
the larger tree is the report on the smaller one, but for the path of the new file.
-/

namespace SourceAtlas

/-- The second list is the first one, perhaps with one more item somewhere in it. -/
inductive GrowsBy {α : Type} (item : α) : List α → List α → Prop
  | same (items : List α) : GrowsBy item items items
  | added (before after : List α) : GrowsBy item (before ++ after) (before ++ item :: after)

namespace GrowsBy

variable {α β : Type} {item : α} {old new : List α}

theorem append_right (hgrows : GrowsBy item old new) (after : List α) :
    GrowsBy item (old ++ after) (new ++ after) := by
  cases hgrows with
  | same => exact same _
  | added before between =>
      simpa using added before (between ++ after)

theorem append_left (hgrows : GrowsBy item old new) (before : List α) :
    GrowsBy item (before ++ old) (before ++ new) := by
  cases hgrows with
  | same => exact same _
  | added between after =>
      simpa using added (before ++ between) after

theorem map (hgrows : GrowsBy item old new) (f : α → β) :
    GrowsBy (f item) (old.map f) (new.map f) := by
  cases hgrows with
  | same => exact same _
  | added before after => simpa using added (before.map f) (after.map f)

theorem filter (hgrows : GrowsBy item old new) (keep : α → Bool) :
    GrowsBy item (old.filter keep) (new.filter keep) := by
  cases hgrows with
  | same => exact same _
  | added before after =>
      rw [List.filter_append, List.filter_append, List.filter_cons]
      split
      · exact added _ _
      · exact same _

/-- Sorting keeps the relation where items of which each may come first are equal. -/
theorem mergeSort (hgrows : GrowsBy item old new) {le : α → α → Bool}
    (htrans : ∀ first second third, le first second = true → le second third = true →
      le first third = true)
    (htotal : ∀ first second, (le first second || le second first) = true)
    (hantisymm : ∀ first ∈ old, ∀ second ∈ old, le first second = true →
      le second first = true → first = second) :
    GrowsBy item (old.mergeSort le) (new.mergeSort le) := by
  cases hgrows with
  | same => exact same _
  | added before after =>
      have hperm : ((before ++ item :: after).mergeSort le).Perm (item :: (before ++ after)) :=
        (List.mergeSort_perm _ le).trans List.perm_middle
      obtain ⟨front, rest, hsplit⟩ := List.append_of_mem (hperm.symm.subset List.mem_cons_self)
      have hsorted := List.pairwise_mergeSort htrans htotal (before ++ item :: after)
      rw [hsplit] at hperm hsorted ⊢
      have hothers : (front ++ rest).Perm (before ++ after) :=
        (List.perm_middle.symm.trans hperm).cons_inv
      have hmem : ∀ other, other ∈ (before ++ after).mergeSort le → other ∈ before ++ after :=
        fun other hother => List.mem_mergeSort.mp hother
      -- Without the new item both sides are sorted lists of the same items.
      have heq : (before ++ after).mergeSort le = front ++ rest := by
        apply List.Perm.eq_of_pairwise _ (List.pairwise_mergeSort htrans htotal _)
          (hsorted.sublist ((List.sublist_cons_self item rest).append_left front))
          ((List.mergeSort_perm _ le).trans hothers.symm)
        intro first second hfirst hsecond
        exact hantisymm first (hmem first hfirst) second (hothers.subset hsecond)
      rw [heq]
      exact added front rest

/-- What items come to is the same but for what the new one comes to. -/
theorem filter_filterMap (hgrows : GrowsBy item old new) {f : α → Option β} {keep : β → Bool}
    (hold : ∀ other ∈ old, ∀ result, f other = some result → keep result = true)
    (hitem : ∀ result, f item = some result → keep result = false) :
    (new.filterMap f).filter keep = old.filterMap f := by
  have hkeep : ∀ items ⊆ old, (items.filterMap f).filter keep = items.filterMap f := by
    intro items hitems
    rw [List.filter_eq_self]
    intro result hresult
    obtain ⟨other, hother, hf⟩ := List.mem_filterMap.mp hresult
    exact hold other (hitems hother) result hf
  cases hgrows with
  | same => exact hkeep _ (List.Subset.refl _)
  | added before after =>
      have hnew : ((item :: after).filterMap f).filter keep = after.filterMap f := by
        cases hf : f item with
        | none => simpa [hf] using hkeep after (List.subset_append_right _ _)
        | some result =>
            simpa [hf, hitem result hf] using hkeep after (List.subset_append_right _ _)
      rw [List.filterMap_append, List.filter_append, hnew, List.filterMap_append,
        hkeep before (List.subset_append_left _ _)]

end GrowsBy

/-! ## Trees with one more file -/

namespace FileNode

/-- A file can be put where names lead: nothing is there, and what is on the way are
directories. -/
structure HasRoomFor (node : FileNode) (names : List String) : Prop where
  absent : node.descend? names = none
  passable : ∀ above child, above <+: names → node.descend? above = some child →
    child.isDirectory = true
  entryNames : ∀ name ∈ names, IsEntryName name

theorem descend?_append (node : FileNode) (above below : List String) :
    node.descend? (above ++ below) = (node.descend? above).bind (·.descend? below) := by
  induction above generalizing node with
  | nil => simp
  | cons name above ih =>
      rw [List.cons_append, descend?_cons, descend?_cons, Option.bind_assoc]
      congr 1
      funext child
      exact ih child

theorem HasRoomFor.below {node child : FileNode} {above below : List String}
    (hroom : node.HasRoomFor (above ++ below)) (hchild : node.descend? above = some child) :
    child.HasRoomFor below := by
  have hdescend : ∀ names, node.descend? (above ++ names) = child.descend? names := by
    intro names
    rw [descend?_append, hchild, Option.bind_some]
  constructor
  · rw [← hdescend]
    exact hroom.absent
  · intro names other hwithin hother
    exact hroom.passable (above ++ names) other ((List.prefix_append_right_inj above).mpr hwithin)
      ((hdescend names).trans hother)
  · exact fun name hname => hroom.entryNames name (List.mem_append_right _ hname)

theorem HasRoomFor.child {entries : List (String × FileNode)} {name : String} {child : FileNode}
    {names : List String} (hroom : (directory entries).HasRoomFor (name :: names))
    (hchild : entry? name (directory entries) = some child) : child.HasRoomFor names := by
  have hsplit : (directory entries).HasRoomFor ([name] ++ names) := hroom
  refine hsplit.below ?_
  rw [descend?_cons, hchild, Option.bind_some, descend?_nil]

theorem hasRoomFor_empty {names : List String} (hne : names ≠ [])
    (hnames : ∀ name ∈ names, IsEntryName name) : empty.HasRoomFor names := by
  have hnone : ∀ name below, empty.descend? (name :: below) = none := by
    intro name below
    simp [descend?_cons, FileNode.entry?, empty]
  constructor
  · cases names with
    | nil => exact (hne rfl).elim
    | cons name names => exact hnone name names
  · intro above child _ hchild
    cases above with
    | nil =>
        rw [descend?_nil] at hchild
        rw [← Option.some.inj hchild]
        rfl
    | cons name above =>
        rw [hnone] at hchild
        contradiction
  · exact hnames

theorem HasRoomFor.entryNames_tail {node : FileNode} {name : String} {names : List String}
    (hroom : node.HasRoomFor (name :: names)) : ∀ other ∈ names, IsEntryName other :=
  fun other hother => hroom.entryNames other (List.mem_cons_of_mem _ hother)

theorem HasRoomFor.ne_nil {node : FileNode} {names : List String}
    (hroom : node.HasRoomFor names) : names ≠ [] := by
  rintro rfl
  simpa using hroom.absent

theorem HasRoomFor.exists_entries {node : FileNode} {names : List String}
    (hroom : node.HasRoomFor names) : ∃ entries, node = .directory entries := by
  have hdirectory := hroom.passable [] node (List.nil_prefix) (descend?_nil node)
  cases node with
  | file bytes lastModified => simp [isDirectory] at hdirectory
  | directory entries => exact ⟨entries, rfl⟩

@[simp] theorem place_nil (new node : FileNode) : place new [] node = new := by
  simp [place]

theorem place_cons (new : FileNode) (name : String) (names : List String)
    (entries : List (String × FileNode)) :
    place new (name :: names) (.directory entries) =
      .directory (setEntry name
        (place new names (( entry? name (directory entries)).getD empty)) entries) := by
  simp [place]

theorem entry?_setEntry_self (name : String) (node : FileNode)
    (entries : List (String × FileNode)) :
    entry? name (directory (setEntry name node entries)) = some node := by
  induction entries with
  | nil => exact entry?_cons_self _ _ _
  | cons entry entries ih =>
      unfold setEntry
      split
      · exact entry?_cons_self _ _ _
      · next hne => rw [entry?_cons_of_ne hne, ih]

theorem entry?_setEntry_of_ne {name other : String} (hne : name ≠ other) (node : FileNode)
    (entries : List (String × FileNode)) :
    entry? other (directory (setEntry name node entries)) =
      entry? other (directory entries) := by
  induction entries with
  | nil => exact entry?_cons_of_ne hne _ _
  | cons entry entries ih =>
      obtain ⟨first, old⟩ := entry
      unfold setEntry
      split
      · next heq =>
        rw [entry?_cons_of_ne hne, entry?_cons_of_ne (heq ▸ hne)]
      · by_cases hfirst : first = other
        · rw [hfirst, entry?_cons_self, entry?_cons_self]
        · rw [entry?_cons_of_ne hfirst, entry?_cons_of_ne hfirst, ih]

theorem isSome_entry?_iff {name : String} {entries : List (String × FileNode)} :
    ( entry? name (directory entries)).isSome = true ↔ ∃ entry ∈ entries, entry.1 = name := by
  simp [FileNode.entry?]

theorem mem_setEntry {name : String} {node : FileNode} {entries : List (String × FileNode)}
    {entry : String × FileNode} (hmem : entry ∈ setEntry name node entries) :
    entry = (name, node) ∨ entry ∈ entries := by
  induction entries with
  | nil => simpa [setEntry] using hmem
  | cons first entries ih =>
      unfold setEntry at hmem
      split at hmem
      · rcases List.mem_cons.mp hmem with heq | hold
        · exact Or.inl heq
        · exact Or.inr (List.mem_cons_of_mem _ hold)
      · rcases List.mem_cons.mp hmem with heq | hrest
        · exact Or.inr (heq ▸ List.mem_cons_self)
        · exact (ih hrest).imp_right (List.mem_cons_of_mem _)

theorem WellFormedEntries.setEntry {entries : List (String × FileNode)}
    (hentries : WellFormedEntries entries) {name : String} (hname : IsEntryName name)
    {node : FileNode} (hnode : node.WellFormed) :
    WellFormedEntries (setEntry name node entries) := by
  induction entries with
  | nil => exact ⟨hname, by simp, hnode, trivial⟩
  | cons first entries ih =>
      obtain ⟨hfirst, hother, hold, hrest⟩ := hentries
      unfold FileNode.setEntry
      split
      · next heq => exact ⟨hname, heq ▸ hother, hnode, hrest⟩
      · next hne =>
        refine ⟨hfirst, ?_, hold, ih hrest⟩
        intro other hmem
        rcases mem_setEntry hmem with heq | hmem
        · rw [heq]
          exact Ne.symm hne
        · exact hother other hmem

theorem WellFormed.place {new node : FileNode} (hnode : node.WellFormed)
    (hnew : new.WellFormed) {names : List String} (hroom : node.HasRoomFor names) :
    (place new names node).WellFormed := by
  induction names generalizing node with
  | nil => simpa using hnew
  | cons name names ih =>
      obtain ⟨entries, rfl⟩ := hroom.exists_entries
      have hname : IsEntryName name := hroom.entryNames name List.mem_cons_self
      rw [place_cons]
      refine WellFormedEntries.setEntry hnode hname ?_
      cases names with
      | nil => simpa using hnew
      | cons next names =>
          cases hold : FileNode.entry? name (directory entries) with
          | none => exact ih trivial (hasRoomFor_empty (by simp) hroom.entryNames_tail)
          | some old =>
              exact ih (hnode.entry? hold) (hroom.child hold)

/-- Below where the file is put, the tree has grown. -/
theorem descend?_place_append {new node child : FileNode} {above : List String}
    (hchild : node.descend? above = some child) (below : List String) :
    (place new (above ++ below) node).descend? above = some (place new below child) := by
  induction above generalizing node with
  | nil =>
      rw [descend?_nil] at hchild
      rw [← Option.some.inj hchild, List.nil_append, descend?_nil]
  | cons name above ih =>
      rw [descend?_cons] at hchild
      obtain ⟨next, hentry, hrest⟩ := Option.bind_eq_some_iff.mp hchild
      cases node with
      | file bytes lastModified => simp at hentry
      | directory entries =>
          rw [List.cons_append, place_cons, descend?_cons, entry?_setEntry_self, hentry,
            Option.getD_some, Option.bind_some]
          exact ih hrest

/-- Beside the way to the new file, nothing changes. -/
theorem descend?_place_of_apart {new node child : FileNode} {names above : List String}
    (hchild : node.descend? above = some child) (habove : ¬ above <+: names)
    (hbelow : ¬ names <+: above) : (place new names node).descend? above = some child := by
  induction names generalizing node above with
  | nil => exact (hbelow List.nil_prefix).elim
  | cons name names ih =>
      cases above with
      | nil => exact (habove List.nil_prefix).elim
      | cons first above =>
          rw [descend?_cons] at hchild
          obtain ⟨next, hentry, hrest⟩ := Option.bind_eq_some_iff.mp hchild
          cases node with
          | file bytes lastModified => simp at hentry
          | directory entries =>
              rw [place_cons, descend?_cons]
              by_cases heq : name = first
              · subst heq
                rw [List.prefix_cons_inj] at habove hbelow
                rw [entry?_setEntry_self, hentry, Option.getD_some, Option.bind_some]
                exact ih hrest habove hbelow
              · rw [entry?_setEntry_of_ne heq, hentry, Option.bind_some]
                exact hrest

theorem HasRoomFor.not_prefix {node child : FileNode} {names above : List String}
    (hroom : node.HasRoomFor names) (hchild : node.descend? above = some child) :
    ¬ names <+: above := by
  rintro ⟨more, rfl⟩
  rw [descend?_append, hroom.absent] at hchild
  contradiction

/-- Every directory of the first tree is one of the second, with entries of at least the
same names. -/
def Extends (old new : FileNode) : Prop :=
  ∀ above entries, old.descend? above = some (.directory entries) →
    ∃ others, new.descend? above = some (.directory others) ∧
      ∀ entry ∈ entries, ∃ other ∈ others, other.1 = entry.1

theorem exists_name_setEntry (name : String) (node : FileNode)
    (entries : List (String × FileNode)) :
    ∀ entry ∈ entries, ∃ other ∈ setEntry name node entries, other.1 = entry.1 := by
  intro entry hentry
  rw [← isSome_entry?_iff]
  by_cases hname : name = entry.1
  · rw [← hname, entry?_setEntry_self]
    rfl
  · rw [entry?_setEntry_of_ne hname, isSome_entry?_iff]
    exact ⟨entry, hentry, rfl⟩

theorem HasRoomFor.extends {node : FileNode} {names : List String}
    (hroom : node.HasRoomFor names) (new : FileNode) : node.Extends (place new names node) := by
  intro above entries habove
  by_cases hwithin : above <+: names
  · obtain ⟨below, rfl⟩ := hwithin
    rw [descend?_place_append habove]
    cases below with
    | nil => exact ((hroom.below habove).ne_nil rfl).elim
    | cons name below =>
        rw [place_cons]
        exact ⟨_, rfl, exists_name_setEntry name _ entries⟩
  · rw [descend?_place_of_apart habove hwithin (hroom.not_prefix habove)]
    exact ⟨entries, rfl, fun entry hentry => ⟨entry, hentry, rfl⟩⟩

end FileNode

namespace FileTree

/-- A way that can be gone in a tree leads to the same place in a tree that extends it. -/
theorem walk_eq_of_extends {old new : FileNode} (hextends : old.Extends new)
    {segments : List (List Char)} {reversed names : List String}
    (hwalk : walk old reversed segments = .ok names) :
    walk new reversed segments = .ok names := by
  induction segments generalizing reversed with
  | nil => simpa [walk] using hwalk
  | cons segment segments ih =>
      unfold walk at hwalk ⊢
      split at hwalk
      · contradiction
      · contradiction
      · next entries hhere =>
        obtain ⟨others, hothers, hnames⟩ := hextends _ _ hhere
        rw [hothers]
        simp only
        split at hwalk
        · next hstay => rw [if_pos hstay, ih hwalk]
        · next hstay =>
          rw [if_neg hstay]
          split at hwalk
          · next hup => rw [if_pos hup, ih hwalk]
          · next hup =>
            rw [if_neg hup]
            simp only at hwalk ⊢
            split at hwalk
            · next hentry =>
              rw [List.any_eq_true] at hentry
              obtain ⟨entry, hmem, hname⟩ := hentry
              obtain ⟨other, hother, hsame⟩ := hnames entry hmem
              have hfound : others.any (·.1 = String.ofList segment) = true :=
                List.any_eq_true.mpr ⟨other, hother, by rwa [hsame]⟩
              rw [if_pos hfound, ih hwalk]
            · contradiction

theorem resolve_withNode {tree : FileTree} {path : Path} {way names : List String}
    (hresolve : tree.resolve path = .ok way) (hroom : tree.root.HasRoomFor names)
    (new : FileNode) : (tree.withNode names new).resolve path = .ok way := by
  unfold resolve at hresolve ⊢
  split at hresolve
  · contradiction
  · next hempty =>
    rw [if_neg hempty]
    simp only at hresolve ⊢
    cases hwalk : walk tree.root (if path.text.toList.head? = some '/' then [] else
        tree.workingDirectory.reverse) (Text.splitWhere (· = '/') path.text.toList) with
    | error error => simp [hwalk, Except.map] at hresolve
    | ok reversed =>
        rw [hwalk] at hresolve
        exact (congrArg (Except.map List.reverse)
          (walk_eq_of_extends (hroom.extends new) hwalk)).trans hresolve

theorem exists_resolve {tree : FileTree} {path : Path} {node : FileNode}
    (hnode : tree.node path = .ok node) :
    ∃ way, tree.resolve path = .ok way ∧ tree.root.descend? way = some node := by
  unfold FileTree.node at hnode
  split at hnode
  · contradiction
  · next way hway =>
    split at hnode
    · next found hfound => exact ⟨way, hway, hfound.trans (congrArg some (Except.ok.inj hnode))⟩
    · contradiction

theorem node_eq_of_resolve {tree : FileTree} {path : Path} {way : List String} {node : FileNode}
    (hway : tree.resolve path = .ok way) (hnode : tree.root.descend? way = some node) :
    tree.node path = .ok node := by
  unfold FileTree.node
  simp only [hway, hnode]

/-- The root of a scan has grown where the new file lies below it, and is the same
anywhere else. -/
theorem node_withNode {tree : FileTree} {path : Path} {way names : List String}
    {node : FileNode} (hway : tree.resolve path = .ok way)
    (hnode : tree.root.descend? way = some node) (hroom : tree.root.HasRoomFor names)
    (new : FileNode) :
    (∀ below, names = way ++ below →
      (tree.withNode names new).node path = .ok (FileNode.place new below node)) ∧
    (¬ way <+: names → (tree.withNode names new).node path = .ok node) := by
  have hresolve := resolve_withNode hway hroom new
  constructor
  · rintro below rfl
    exact node_eq_of_resolve hresolve (FileNode.descend?_place_append hnode below)
  · intro hapart
    exact node_eq_of_resolve hresolve
      (FileNode.descend?_place_of_apart hnode hapart (hroom.not_prefix hnode))

end FileTree

namespace Discovery

/-! ## What discovery finds -/

/-- The files in and below one entry of a directory. -/
def filesOfEntry (names : List String) (name : String) (node : FileNode) :
    List (List String × ByteArray × Timestamp) :=
  if node.isDirectory && isIgnored name then [] else filesOf (names ++ [name]) node

theorem filesIn_cons (names : List String) (name : String) (node : FileNode)
    (entries : List (String × FileNode)) :
    filesIn names ((name, node) :: entries) =
      filesOfEntry names name node ++ filesIn names entries := rfl

theorem filesOfEntry_empty (names : List String) (name : String) :
    filesOfEntry names name .empty = [] := by
  unfold filesOfEntry
  split <;> rfl

theorem growsBy_filesIn_setEntry {file : List String × ByteArray × Timestamp}
    {names : List String} {name : String} {node : FileNode}
    {entries : List (String × FileNode)}
    (hnew : FileNode.entry? name (.directory entries) = none →
      GrowsBy file [] (filesOfEntry names name node))
    (hold : ∀ old, FileNode.entry? name (.directory entries) = some old →
      GrowsBy file (filesOfEntry names name old) (filesOfEntry names name node)) :
    GrowsBy file (filesIn names entries)
      (filesIn names (FileNode.setEntry name node entries)) := by
  induction entries with
  | nil => simpa [filesIn, FileNode.setEntry, filesIn_cons] using hnew rfl
  | cons entry entries ih =>
      obtain ⟨first, old⟩ := entry
      unfold FileNode.setEntry
      split
      · next heq =>
        subst heq
        exact (hold old (FileNode.entry?_cons_self _ _ _)).append_right _
      · next hne =>
        rw [FileNode.entry?_cons_of_ne hne] at hnew hold
        exact (ih hnew hold).append_left _

theorem growsBy_filesOfEntry {file : List String × ByteArray × Timestamp} {names : List String}
    {name : String} {old new : FileNode}
    (hgrows : GrowsBy file (filesOf (names ++ [name]) old) (filesOf (names ++ [name]) new))
    (hkind : new.isDirectory = old.isDirectory) :
    GrowsBy file (filesOfEntry names name old) (filesOfEntry names name new) := by
  unfold filesOfEntry
  rw [hkind]
  split
  · exact .same _
  · exact hgrows

/-- A file that is put into a tree adds at most itself to what the walk lists. -/
theorem growsBy_filesOf {node : FileNode} {names : List String} (hroom : node.HasRoomFor names)
    (above : List String) (bytes : ByteArray) (lastModified : Timestamp) :
    GrowsBy (above ++ names, bytes, lastModified) (filesOf above node)
      (filesOf above (FileNode.place (.file bytes lastModified) names node)) := by
  induction names generalizing node above with
  | nil => exact (hroom.ne_nil rfl).elim
  | cons name names ih =>
      obtain ⟨entries, rfl⟩ := hroom.exists_entries
      rw [FileNode.place_cons, filesOf, filesOf]
      cases names with
      | nil =>
          -- The file itself is the new entry.
          have hnone : FileNode.entry? name (.directory entries) = none := by
            simpa [FileNode.descend?_cons] using hroom.absent
          apply growsBy_filesIn_setEntry
          · intro _
            exact .added [] []
          · intro old hold
            rw [hnone] at hold
            contradiction
      | cons next names =>
          -- The entry is a directory, before as after.
          have hsplit : above ++ name :: next :: names = (above ++ [name]) ++ next :: names := by
            simp
          rw [hsplit]
          apply growsBy_filesIn_setEntry
          · intro hnone
            rw [hnone, Option.getD_none]
            have hempty := FileNode.hasRoomFor_empty (by simp) hroom.entryNames_tail
            have hgrows := growsBy_filesOfEntry (ih hempty (above ++ [name])) rfl
            rwa [filesOfEntry_empty] at hgrows
          · intro old hold
            obtain ⟨others, rfl⟩ := (hroom.child hold).exists_entries
            rw [hold, Option.getD_some]
            exact growsBy_filesOfEntry (ih (hroom.child hold) (above ++ [name])) rfl

def foundFile (root : Path) (file : List String × ByteArray × Timestamp) : FoundFile :=
  { path := reportedPath root file.1, bytes := file.2.1, lastModified := file.2.2 }

/-- The files below a root that are wanted, in the order of the walk. -/
def wantedFiles (patterns : List (List Glob.Token)) (root : Path) (node : FileNode) :
    List FoundFile :=
  ((filesOf [] node).filter fun file => isWanted patterns root file.1).map (foundFile root)

theorem sourceFiles_of_node {patterns : List (List Glob.Token)} {tree : FileTree} {root : Path}
    {node : FileNode} (hnode : tree.node root = .ok node) :
    sourceFiles patterns tree root =
      .ok ((wantedFiles patterns root node).mergeSort before) := by
  unfold sourceFiles
  rw [hnode]
  rfl

theorem pairwise_apart_wantedFiles (patterns : List (List Glob.Token)) (root : Path)
    {node : FileNode} (hnode : node.WellFormed) :
    (wantedFiles patterns root node).Pairwise FoundFile.Apart :=
  List.pairwise_map.mpr ((pairwise_key_reportedPath root hnode).filter _)

end Discovery

theorem FoundFile.eq_of_key_eq {files : List FoundFile} (hdistinct : files.Pairwise Apart)
    {first second : FoundFile} (hfirst : first ∈ files) (hsecond : second ∈ files)
    (hkey : first.path.key = second.path.key) : first = second := by
  by_contra hne
  exact hdistinct.forall hfirst hsecond hne hkey

namespace Discovery

theorem distinct_of_sourceFiles {patterns : List (List Glob.Token)} {tree : FileTree} {root : Path}
    {node : FileNode} (htree : tree.root.WellFormed) (hnode : tree.node root = .ok node)
    {found : List FoundFile} (hfound : sourceFiles patterns tree root = .ok found) :
    found.Pairwise FoundFile.Apart ∧
      ∀ file ∈ found, (Language.ofPath? file.path).isSome = true := by
  obtain ⟨same, hsame, hspec⟩ := sourceFiles_spec patterns htree hnode
  rw [hfound] at hsame
  cases hsame
  exact hspec

/-- Where a file is put below the root, discovery finds at most one file more, under the
path from the root; no other file has this path. -/
theorem growsBy_sourceFiles (patterns : List (List Glob.Token)) {tree grown : FileTree}
    {root : Path} {node : FileNode} {below : List String} (hwell : node.WellFormed)
    (hroom : node.HasRoomFor below) (bytes : ByteArray) (lastModified : Timestamp)
    (hold : tree.node root = .ok node)
    (hnew : grown.node root = .ok (FileNode.place (.file bytes lastModified) below node)) :
    ∃ found more, sourceFiles patterns tree root = .ok found ∧
      sourceFiles patterns grown root = .ok more ∧
      GrowsBy { path := .ofNames below, bytes, lastModified } found more ∧
      ∀ file ∈ found, file.path ≠ .ofNames below := by
  refine ⟨_, _, sourceFiles_of_node hold, sourceFiles_of_node hnew, ?_, ?_⟩
  · have hgrows : GrowsBy { path := reportedPath root below, bytes, lastModified }
        (wantedFiles patterns root node)
        (wantedFiles patterns root (FileNode.place (.file bytes lastModified) below node)) :=
      ((growsBy_filesOf hroom [] bytes lastModified).filter _).map (foundFile root)
    rw [reportedPath_of_ne_nil root hroom.ne_nil] at hgrows
    refine hgrows.mergeSort before_trans before_total ?_
    intro first hfirst second hsecond hbefore hafter
    exact FoundFile.eq_of_key_eq (pairwise_apart_wantedFiles patterns root hwell) hfirst hsecond
      (le_antisymm (before_iff.mp hbefore) (before_iff.mp hafter))
  · intro file hfile hpath
    obtain ⟨entries, rfl⟩ := hroom.exists_entries
    rw [List.mem_mergeSort] at hfile
    obtain ⟨⟨names, content, modified⟩, hwanted, rfl⟩ := List.mem_map.mp hfile
    obtain ⟨hne, hnames, hreaches⟩ :=
      reaches_of_mem_filesOf hwell (List.mem_filter.mp hwanted).1
    have hpath' : Path.ofNames names = .ofNames below :=
      (reportedPath_of_ne_nil root hne).symm.trans hpath
    have heq : names = below :=
      Path.eq_of_key_ofNames_eq hnames hroom.entryNames (congrArg Path.key hpath')
    have hleads := hreaches.leads
    rw [heq, hroom.absent] at hleads
    contradiction

end Discovery

namespace Scan

/-- A report on a tree with one more file says the same as the report on the tree, but for
the path of that file. -/
structure Unaffected (path : Path) (report grown : ScanReport) : Prop where
  models : grown.models.entries.filter (·.1 ≠ path) = report.models.entries
  order : grown.order.filter (· ≠ path) = report.order
  failures : grown.failures.filter (·.path ≠ path) = report.failures

theorem growsBy_filesToRead {settings : ScanSettings} (hall : settings.maxFiles = none)
    {file : FoundFile} {found more : List FoundFile} (hdistinct : found.Pairwise FoundFile.Apart)
    (hgrows : GrowsBy file found more) :
    GrowsBy file (filesToRead settings found) (filesToRead settings more) := by
  have hqueue : GrowsBy file (queue found) (queue more) := by
    refine hgrows.mergeSort before_trans before_total ?_
    intro first hfirst second hsecond hbefore hafter
    exact FoundFile.eq_of_key_eq hdistinct hfirst hsecond (key_eq_of_before hbefore hafter)
  unfold filesToRead ofWantedNumber ofWantedPriority
  simp only [hall]
  split
  · exact hqueue.filter _
  · exact hqueue

theorem filter_modelsOf {limits : Limits} {file : FoundFile} {old new : List FoundFile}
    (hgrows : GrowsBy file old new) (hold : ∀ other ∈ old, other.path ≠ file.path) :
    (modelsOf limits new).filter (·.1 ≠ file.path) = modelsOf limits old := by
  refine hgrows.filter_filterMap ?_ ?_
  · intro other hother entry hentry
    split at hentry
    · rw [← Option.some.inj hentry]
      simpa using hold other hother
    · contradiction
  · intro entry hentry
    split at hentry
    · rw [← Option.some.inj hentry]
      simp
    · contradiction

theorem filter_failuresOf {limits : Limits} {file : FoundFile} {old new : List FoundFile}
    (hgrows : GrowsBy file old new) (hold : ∀ other ∈ old, other.path ≠ file.path) :
    (failuresOf limits new).filter (·.path ≠ file.path) = failuresOf limits old := by
  refine hgrows.filter_filterMap ?_ ?_
  · intro other hother failure hfailure
    split at hfailure
    · contradiction
    · rw [← Option.some.inj hfailure]
      simpa using hold other hother
  · intro failure hfailure
    split at hfailure
    · contradiction
    · rw [← Option.some.inj hfailure]
      simp

/-- Reports that tell what two lists of files come to agree but for the file that only one
of the lists has. -/
theorem Records.unaffected {limits : Limits} {file : FoundFile} {old new : List FoundFile}
    {report grown : ScanReport} (hreport : Records limits old report)
    (hgrown : Records limits new grown) (hgrows : GrowsBy file old new)
    (hold : ∀ other ∈ old, other.path ≠ file.path) : Unaffected file.path report grown := by
  have hmodels : (modelsOf limits new).filter (·.1 ≠ file.path) = modelsOf limits old :=
    filter_modelsOf hgrows hold
  constructor
  · have hperm : (grown.models.entries.filter (·.1 ≠ file.path)).Perm report.models.entries := by
      refine (hgrown.models.filter _).trans ?_
      rw [hmodels]
      exact hreport.models.symm
    apply List.Perm.eq_of_pairwise _ (grown.models.ascending.filter _) report.models.ascending
      hperm
    intro first second _ _ hlt hgt
    exact (Path.not_lt_self _ (Trans.trans hlt hgt)).elim
  · rw [hgrown.order, hreport.order, ← hmodels, List.filter_map]
    rfl
  · rw [hgrown.failures, hreport.failures]
    exact filter_failuresOf hgrows hold

theorem unaffected_ofFiles {settings : Settings} (hall : settings.scan.maxFiles = none)
    {file : FoundFile} {found more : List FoundFile} (hdistinct : found.Pairwise FoundFile.Apart)
    (hlanguage : ∀ other ∈ found, (Language.ofPath? other.path).isSome = true)
    (hdistinct' : more.Pairwise FoundFile.Apart)
    (hlanguage' : ∀ other ∈ more, (Language.ofPath? other.path).isSome = true)
    (hgrows : GrowsBy file found more) (hold : ∀ other ∈ found, other.path ≠ file.path) :
    Unaffected file.path (ofFiles settings found) (ofFiles settings more) := by
  apply (records_ofFiles hdistinct hlanguage).1.unaffected
    (records_ofFiles hdistinct' hlanguage').1 (growsBy_filesToRead hall hdistinct hgrows)
  intro other hother
  exact hold other (List.mem_mergeSort.mp ((filesToRead_sublist _ _).subset hother))

theorem ofTree_of_sourceFiles {settings : Settings} {patterns : List (List Glob.Token)}
    (hvalid : settings.validate = .ok ()) (hpatterns : settings.excludedPatterns = .ok patterns)
    {tree : FileTree} {root : Path} {found : List FoundFile}
    (hfound : Discovery.sourceFiles patterns tree root = .ok found) :
    ofTree settings tree root = .ok (ofFiles settings found) := by
  unfold ofTree
  simp only [hvalid, hpatterns, hfound, bind, Except.bind]
  rfl

/-- A new file leaves what a scan reports on the other files as it is, wherever it is put
and whatever it holds. -/
theorem exists_unaffected_withNode (settings : Settings) (tree : FileTree) (root : Path)
    (entries : List (String × FileNode)) (names : List String) (bytes : ByteArray)
    (lastModified : Timestamp) (hvalid : settings.validate = .ok ())
    (hall : settings.scan.maxFiles = none) (htree : tree.root.WellFormed)
    (hroot : tree.node root = .ok (.directory entries)) (hroom : tree.root.HasRoomFor names) :
    ∃ way report grown, tree.resolve root = .ok way ∧ ofTree settings tree root = .ok report ∧
      ofTree settings (tree.withNode names (.file bytes lastModified)) root = .ok grown ∧
      (∀ below, names = way ++ below → Unaffected (.ofNames below) report grown) ∧
      (¬ way <+: names → grown = report) := by
  obtain ⟨way, hway, hdirectory⟩ := FileTree.exists_resolve hroot
  obtain ⟨hbelow, hapart⟩ :=
    FileTree.node_withNode hway hdirectory hroom (.file bytes lastModified)
  obtain ⟨-, patterns, hpatterns⟩ := excludedPatterns_of_validate hvalid
  by_cases hwithin : way <+: names
  · -- The new file is below the root and may be among the files that are found.
    obtain ⟨below, rfl⟩ := hwithin
    have hwell := FileTree.node_wellFormed htree hroot
    have hfile : (FileNode.file bytes lastModified).WellFormed := trivial
    have hplaced := htree.place hfile hroom
    obtain ⟨found, more, hfound, hmore, hgrows, hold⟩ :=
      Discovery.growsBy_sourceFiles patterns hwell (hroom.below hdirectory) bytes lastModified
        hroot (hbelow below rfl)
    obtain ⟨hdistinct, hlanguage⟩ := Discovery.distinct_of_sourceFiles htree hroot hfound
    obtain ⟨hdistinct', hlanguage'⟩ :=
      Discovery.distinct_of_sourceFiles hplaced (hbelow below rfl) hmore
    refine ⟨way, _, _, hway, ofTree_of_sourceFiles hvalid hpatterns hfound,
      ofTree_of_sourceFiles hvalid hpatterns hmore, ?_, ?_⟩
    · intro other hother
      rw [List.append_cancel_left_eq] at hother
      subst hother
      exact unaffected_ofFiles hall hdistinct hlanguage hdistinct' hlanguage' hgrows hold
    · exact fun hnot => (hnot (List.prefix_append way below)).elim
  · -- Discovery never comes to where the new file is.
    have hsame : Discovery.sourceFiles patterns
        (tree.withNode names (.file bytes lastModified)) root =
          Discovery.sourceFiles patterns tree root := by
      rw [Discovery.sourceFiles_of_node (hapart hwithin), Discovery.sourceFiles_of_node hroot]
    obtain ⟨found, hfound, -⟩ := Discovery.sourceFiles_spec patterns htree hroot
    refine ⟨way, _, _, hway, ofTree_of_sourceFiles hvalid hpatterns hfound,
      ofTree_of_sourceFiles hvalid hpatterns (hsame.trans hfound), ?_, fun _ => rfl⟩
    rintro below rfl
    exact (hwithin (List.prefix_append way below)).elim

theorem exists_unaffected_withNode_sampleTree :
    Settings.standard.validate = .ok () ∧ Settings.standard.scan.maxFiles = none ∧
      sampleTree.root.WellFormed ∧ sampleTree.root.HasRoomFor ["app", "new", "Broken.py"] ∧
      ∃ entries, sampleTree.node ⟨"app"⟩ = .ok (.directory entries) ∧
        ∃ way report grown, sampleTree.resolve ⟨"app"⟩ = .ok way ∧
          ofTree .standard sampleTree ⟨"app"⟩ = .ok report ∧
          ofTree .standard (sampleTree.withNode ["app", "new", "Broken.py"]
            (.file ⟨#[0xff]⟩ .epoch)) ⟨"app"⟩ = .ok grown ∧
          (∀ below, ["app", "new", "Broken.py"] = way ++ below →
            Unaffected (.ofNames below) report grown) ∧
          (¬ way <+: ["app", "new", "Broken.py"] → grown = report) := by
  have hvalid : Settings.standard.validate = .ok () := by rfl
  have htree : sampleTree.root.WellFormed := by
    simp only [sampleTree, FileNode.WellFormed, FileNode.WellFormedEntries, and_true,
      List.mem_singleton, List.not_mem_nil, false_implies, forall_true_iff, forall_eq]
    decide
  have hroom : sampleTree.root.HasRoomFor ["app", "new", "Broken.py"] := by
    constructor
    · rfl
    · intro above child hwithin hchild
      simp only [List.prefix_cons_iff] at hwithin
      obtain rfl | ⟨_, rfl, rfl | ⟨below, rfl, -⟩⟩ := hwithin
      · rw [← Option.some.inj hchild]
        rfl
      · rw [← Option.some.inj hchild]
        rfl
      · -- Nothing called new is in the directory.
        have hnone : sampleTree.root.descend? ("app" :: "new" :: below) = none := rfl
        rw [hnone] at hchild
        contradiction
    · decide
  exact ⟨hvalid, rfl, htree, hroom, _, rfl,
    exists_unaffected_withNode _ _ _ _ _ _ _ hvalid rfl htree rfl hroom⟩

end Scan

end SourceAtlas
