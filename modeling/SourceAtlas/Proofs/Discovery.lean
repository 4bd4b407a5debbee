import SourceAtlas.Files.Discovery
import SourceAtlas.Proofs.Paths
import Mathlib.Data.List.Nodup

/-!
# Discovered files

In a file system the entries of a directory have different names, and each name
is an ordinary segment of a path.  Under that assumption no two files below a
root are reached by the same names, so the paths under which they are reported
differ in order.  What discovery keeps has a language that reading will find
again, because the reported path ends in the same name.
-/

namespace SourceAtlas

namespace FileNode

mutual

/-- In every directory of the tree the entries have different names, and these
are names of entries. -/
def WellFormed : FileNode → Prop
  | file .. => True
  | directory entries => WellFormedEntries entries

/-- The entries of one directory, and everything below them. -/
def WellFormedEntries : List (String × FileNode) → Prop
  | [] => True
  | (name, node) :: entries =>
      IsEntryName name ∧ (∀ other ∈ entries, other.1 ≠ name) ∧ node.WellFormed ∧
        WellFormedEntries entries

end

theorem WellFormedEntries.of_mem {entries : List (String × FileNode)}
    (hentries : WellFormedEntries entries) {entry : String × FileNode}
    (hmem : entry ∈ entries) : IsEntryName entry.1 ∧ entry.2.WellFormed := by
  induction entries with
  | nil => simp at hmem
  | cons first entries ih =>
      obtain ⟨hname, _, hnode, hrest⟩ := hentries
      rcases List.mem_cons.mp hmem with heq | hold
      · rw [heq]
        exact ⟨hname, hnode⟩
      · exact ih hrest hold

theorem WellFormed.entry? {node child : FileNode} {name : String} (hnode : node.WellFormed)
    (hentry : node.entry? name = some child) : child.WellFormed := by
  cases node with
  | file bytes lastModified => simp [FileNode.entry?] at hentry
  | directory entries =>
      obtain ⟨entry, hfind, rfl⟩ := Option.map_eq_some_iff.mp hentry
      exact (WellFormedEntries.of_mem hnode (List.mem_of_find?_eq_some hfind)).2

theorem WellFormed.descend? {node child : FileNode} {names : List String}
    (hnode : node.WellFormed) (hdescend : node.descend? names = some child) :
    child.WellFormed := by
  induction names generalizing node with
  | nil =>
      have heq : node = child := by simpa [FileNode.descend?] using hdescend
      rw [← heq]
      exact hnode
  | cons name names ih =>
      obtain ⟨next, hentry, hrest⟩ := Option.bind_eq_some_iff.mp hdescend
      exact ih (hnode.entry? hentry) hrest

end FileNode

theorem FileTree.node_wellFormed {tree : FileTree} {path : Path} {node : FileNode}
    (htree : tree.root.WellFormed) (hnode : tree.node path = .ok node) :
    node.WellFormed := by
  unfold FileTree.node at hnode
  split at hnode
  · contradiction
  · split at hnode
    · next found hdescend =>
      have heq : found = node := by simpa using hnode
      rw [← heq]
      exact htree.descend? hdescend
    · contradiction

/-- Two files are reported under paths that differ in order. -/
def FoundFile.Apart (first second : FoundFile) : Prop :=
  first.path.key ≠ second.path.key

theorem FoundFile.Apart.symm {first second : FoundFile} (hapart : first.Apart second) :
    second.Apart first :=
  Ne.symm hapart

instance : Std.Symm FoundFile.Apart := ⟨fun _ _ => FoundFile.Apart.symm⟩

namespace Discovery

mutual

theorem names_of_mem_filesOf {names : List String} {node : FileNode} (hnode : node.WellFormed)
    {file : List String × ByteArray × Timestamp} (hmem : file ∈ filesOf names node) :
    ∃ below, file.1 = names ++ below ∧ ∀ name ∈ below, IsEntryName name := by
  cases node with
  | file bytes lastModified =>
      simp only [filesOf, List.mem_singleton] at hmem
      exact ⟨[], by simp [hmem], by simp⟩
  | directory entries =>
      have hentries : FileNode.WellFormedEntries entries := hnode
      obtain ⟨entry, hentry, below, hnames, hbelow⟩ := names_of_mem_filesIn hentries hmem
      refine ⟨entry.1 :: below, hnames, ?_⟩
      intro name hname
      rcases List.mem_cons.mp hname with heq | hold
      · rw [heq]
        exact (hentries.of_mem hentry).1
      · exact hbelow name hold

theorem names_of_mem_filesIn {names : List String} {entries : List (String × FileNode)}
    (hentries : FileNode.WellFormedEntries entries)
    {file : List String × ByteArray × Timestamp} (hmem : file ∈ filesIn names entries) :
    ∃ entry ∈ entries, ∃ below, file.1 = names ++ entry.1 :: below ∧
      ∀ name ∈ below, IsEntryName name := by
  cases entries with
  | nil => simp [filesIn] at hmem
  | cons entry entries =>
      obtain ⟨name, node⟩ := entry
      obtain ⟨_, _, hnode, hrest⟩ := hentries
      rcases List.mem_append.mp hmem with hhere | hlater
      · split at hhere
        · simp at hhere
        · obtain ⟨below, hnames, hbelow⟩ := names_of_mem_filesOf hnode hhere
          exact ⟨(name, node), List.mem_cons_self, below, by simpa using hnames, hbelow⟩
      · obtain ⟨entry, hentry, below, hnames, hbelow⟩ := names_of_mem_filesIn hrest hlater
        exact ⟨entry, List.mem_cons_of_mem _ hentry, below, hnames, hbelow⟩

end

mutual

/-- No two files of a tree are reached by the same names. -/
theorem nodup_names_filesOf (names : List String) {node : FileNode} (hnode : node.WellFormed) :
    ((filesOf names node).map (·.1)).Nodup := by
  cases node with
  | file bytes lastModified => simp [filesOf]
  | directory entries =>
      have hentries : FileNode.WellFormedEntries entries := hnode
      exact nodup_names_filesIn names hentries

theorem nodup_names_filesIn (names : List String) {entries : List (String × FileNode)}
    (hentries : FileNode.WellFormedEntries entries) :
    ((filesIn names entries).map (·.1)).Nodup := by
  cases entries with
  | nil => simp [filesIn]
  | cons entry entries =>
      obtain ⟨name, node⟩ := entry
      obtain ⟨_, hother, hnode, hrest⟩ := hentries
      rw [filesIn, List.map_append]
      refine List.Nodup.append ?_ (nodup_names_filesIn names hrest) ?_
      · split
        · simp
        · exact nodup_names_filesOf (names ++ [name]) hnode
      · -- The first names below the directory differ.
        intro reached hhere hlater
        obtain ⟨here, hhereMem, rfl⟩ := List.mem_map.mp hhere
        obtain ⟨later, hlaterMem, hsame⟩ := List.mem_map.mp hlater
        obtain ⟨entry, hentry, below, hlaterNames, _⟩ := names_of_mem_filesIn hrest hlaterMem
        split at hhereMem
        · simp at hhereMem
        · obtain ⟨beside, hhereNames, _⟩ := names_of_mem_filesOf hnode hhereMem
          rw [hlaterNames, hhereNames, List.append_assoc, List.append_cancel_left_eq] at hsame
          have hname : entry.1 = name := by simpa using congrArg List.head? hsame
          exact hother entry hentry hname

end

theorem reportedPath_of_ne_nil (root : Path) {names : List String} (hne : names ≠ []) :
    reportedPath root names = .ofNames names := by
  simp [reportedPath, hne]

theorem reportedPath_nil (root : Path) :
    reportedPath root [] = (root.fileName?.map Path.mk).getD root := by
  unfold reportedPath
  cases root.fileName? <;> rfl

/-- The path under which a file is reported has the language by which the file
was picked. -/
theorem language_reportedPath (root : Path) {names : List String}
    (hnames : ∀ name ∈ names, IsEntryName name) :
    Language.ofPath? (reportedPath root names) = languageOf? root names := by
  by_cases hne : names = []
  · subst names
    unfold languageOf?
    rw [reportedPath_nil]
    cases hroot : root.fileName? with
    | none => rfl
    | some name =>
        have hmem : Component.name name ∈ root.components := by
          unfold Path.fileName? at hroot
          split at hroot
          · next text hlast =>
            have heq : text = name := by simpa using hroot
            rw [← heq]
            exact List.mem_of_getLast? hlast
          · contradiction
        apply Path.language_eq_of_fileName?_eq
        rw [hroot]
        exact Path.fileName?_mk_of_isEntryName (Path.isEntryName_of_mem_components hmem)
  · rw [reportedPath_of_ne_nil root hne]
    have hlast := List.getLast?_eq_some_getLast hne
    have hname := hnames _ (List.getLast_mem hne)
    unfold languageOf?
    rw [hlast]
    apply Path.language_eq_of_fileName?_eq
    rw [Path.fileName?_ofNames hnames, hlast, Path.fileName?_mk_of_isEntryName hname]

/-- The files of a tree are reported under paths that differ in order. -/
theorem pairwise_key_reportedPath (root : Path) {node : FileNode} (hnode : node.WellFormed) :
    (filesOf [] node).Pairwise fun first second =>
      (reportedPath root first.1).key ≠ (reportedPath root second.1).key := by
  cases node with
  | file bytes lastModified => simp [filesOf]
  | directory entries =>
      have hdistinct := List.pairwise_map.mp (nodup_names_filesOf [] hnode)
      refine hdistinct.imp_of_mem ?_
      intro first second hfirst hsecond hne hkey
      have hreached : ∀ file ∈ filesOf [] (.directory entries),
          file.1 ≠ [] ∧ ∀ name ∈ file.1, IsEntryName name := by
        intro file hmem
        obtain ⟨below, hnames, hbelow⟩ := names_of_mem_filesOf hnode hmem
        have hentries : FileNode.WellFormedEntries entries := hnode
        obtain ⟨entry, _, beside, hcons, _⟩ := names_of_mem_filesIn hentries hmem
        refine ⟨by simp [hcons], ?_⟩
        rw [hnames]
        simpa using hbelow
      obtain ⟨hfirstNe, hfirstNames⟩ := hreached first hfirst
      obtain ⟨hsecondNe, hsecondNames⟩ := hreached second hsecond
      rw [reportedPath_of_ne_nil root hfirstNe, reportedPath_of_ne_nil root hsecondNe] at hkey
      exact hne (Path.eq_of_key_ofNames_eq hfirstNames hsecondNames hkey)

/-- Below a root that exists, discovery finds files whose paths differ in order
and whose languages reading will recognize. -/
theorem sourceFiles_spec (patterns : List (List Glob.Token)) {tree : FileTree} {root : Path}
    {node : FileNode} (htree : tree.root.WellFormed) (hnode : tree.node root = .ok node) :
    ∃ found, sourceFiles patterns tree root = .ok found ∧
      found.Pairwise FoundFile.Apart ∧
      ∀ file ∈ found, (Language.ofPath? file.path).isSome := by
  have hwell := FileTree.node_wellFormed htree hnode
  refine ⟨_, by unfold sourceFiles; rw [hnode], ?_, ?_⟩
  · apply ((List.mergeSort_perm _ before).pairwise_iff FoundFile.Apart.symm).mpr
    rw [List.pairwise_map]
    exact (pairwise_key_reportedPath root hwell).filter _
  · intro file hmem
    rw [List.mem_mergeSort] at hmem
    obtain ⟨⟨names, bytes, lastModified⟩, hwanted, rfl⟩ := List.mem_map.mp hmem
    obtain ⟨hfile, hkept⟩ := List.mem_filter.mp hwanted
    obtain ⟨below, hnames, hbelow⟩ := names_of_mem_filesOf hwell hfile
    have hall : ∀ name ∈ names, IsEntryName name := by
      have heq : names = below := by simpa using hnames
      rw [heq]
      exact hbelow
    simp only [language_reportedPath root hall]
    exact (Bool.and_eq_true_iff.mp hkept).1

theorem before_iff {first second : FoundFile} :
    before first second = true ↔ first.path.key ≤ second.path.key := by
  simp [before, Path.lt_iff_key_lt]

theorem before_trans (first second third : FoundFile) (hfirst : before first second = true)
    (hsecond : before second third = true) : before first third = true := by
  rw [before_iff] at *
  exact le_trans hfirst hsecond

theorem before_total (first second : FoundFile) :
    (before first second || before second first) = true := by
  rw [Bool.or_eq_true, before_iff, before_iff]
  exact le_total _ _

end Discovery

end SourceAtlas
