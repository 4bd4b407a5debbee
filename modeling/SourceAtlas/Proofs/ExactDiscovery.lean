import SourceAtlas.Proofs.SurveyAgreement

/-!
# Exact discovery

A walk lists a file under the names that lead to it, so what discovery finds can be
said without the walk: names lead to a file, no directory on the way is an ignored one,
the file has the extension of a source file and no pattern fits its path.  Names lead to
one node only, because the entries of a directory have different names; so each of these
paths is found, and none of them twice.
-/

namespace SourceAtlas

namespace Text

theorem startsWith_iff {text word : List Char} : startsWith text word = true ↔ word <+: text := by
  unfold startsWith
  induction word generalizing text with
  | nil => simp [dropWord?]
  | cons c word ih =>
      cases text with
      | nil => simp [dropWord?]
      | cons d text =>
          unfold dropWord?
          split
          · next heq => rw [ih, heq, List.cons_prefix_cons]; simp
          · next hne => simp [List.cons_prefix_cons, hne]

theorem endsWith_iff {text word : List Char} : endsWith text word = true ↔ word <:+ text := by
  rw [endsWith, startsWith_iff, List.reverse_prefix]

end Text

namespace FileNode

@[simp] theorem descend?_nil (node : FileNode) : node.descend? [] = some node := by
  simp [descend?]

theorem descend?_cons (node : FileNode) (name : String) (names : List String) :
    node.descend? (name :: names) = (node.entry? name).bind (·.descend? names) := by
  simp [descend?]

@[simp] theorem entry?_file (name : String) (bytes : ByteArray) (lastModified : Timestamp) :
    entry? name (file bytes lastModified) = none := rfl

theorem entry?_cons_self (name : String) (node : FileNode) (entries : List (String × FileNode)) :
    entry? name (directory ((name, node) :: entries)) = some node := by
  simp [FileNode.entry?]

theorem entry?_cons_of_ne {name other : String} (hne : other ≠ name) (node : FileNode)
    (entries : List (String × FileNode)) :
    entry? name (directory ((other, node) :: entries)) = entry? name (directory entries) := by
  simp [FileNode.entry?, hne]

theorem mem_of_entry_eq_some {name : String} {child : FileNode}
    {entries : List (String × FileNode)}
    (hentry : entry? name (directory entries) = some child) : (name, child) ∈ entries := by
  obtain ⟨⟨found, node⟩, hfind, hnode⟩ := Option.map_eq_some_iff.mp hentry
  have hname : found = name := by simpa using List.find?_some hfind
  subst hname hnode
  exact List.mem_of_find?_eq_some hfind

end FileNode

namespace Discovery

theorem isIgnored_eq_false_iff {name : String} :
    isIgnored name = false ↔
      name ∉ ignoredNames ∧ ¬ ".egg-info".toList <:+ name.toList := by
  rw [← Text.endsWith_iff, isIgnored, Bool.or_eq_false_iff]
  simp

/-- Names lead to a file past directories that are entered. -/
structure Reaches (node : FileNode) (names : List String) (bytes : ByteArray)
    (lastModified : Timestamp) : Prop where
  leads : node.descend? names = some (.file bytes lastModified)
  entered : ∀ directory ∈ names.dropLast, isIgnored directory = false

theorem Reaches.cons_iff {node child : FileNode} {name : String} {names : List String}
    {bytes : ByteArray} {lastModified : Timestamp} (hchild : node.entry? name = some child) :
    Reaches node (name :: names) bytes lastModified ↔
      (child.isDirectory && isIgnored name) = false ∧
        Reaches child names bytes lastModified := by
  have hdescend : node.descend? (name :: names) = child.descend? names := by
    rw [FileNode.descend?_cons, hchild, Option.bind_some]
  cases child with
  | file content modified =>
      constructor
      · rintro ⟨hleads, -⟩
        rw [hdescend] at hleads
        cases names with
        | nil => exact ⟨rfl, hleads, by simp⟩
        | cons next names => simp [FileNode.descend?_cons] at hleads
      · rintro ⟨-, hleads, -⟩
        refine ⟨hdescend.trans hleads, ?_⟩
        cases names with
        | nil => simp
        | cons next names => simp [FileNode.descend?_cons] at hleads
  | directory entries =>
      constructor
      · rintro ⟨hleads, hentered⟩
        rw [hdescend] at hleads
        cases names with
        | nil => simp at hleads
        | cons next names =>
            rw [List.dropLast_cons_cons] at hentered
            refine ⟨?_, hleads, fun other hother => hentered other (List.mem_cons_of_mem _ hother)⟩
            rw [hentered name List.mem_cons_self, Bool.and_false]
      · rintro ⟨hname, hleads, hentered⟩
        refine ⟨hdescend.trans hleads, ?_⟩
        cases names with
        | nil => simp
        | cons next names =>
            have hhere : isIgnored name = false := by
              simpa [FileNode.isDirectory] using hname
            rw [List.dropLast_cons_cons]
            exact List.forall_mem_cons.mpr ⟨hhere, hentered⟩

mutual

/-- The walk over a tree lists exactly the files that names lead to past directories
that are entered. -/
theorem mem_filesOf_iff {node : FileNode} (hnode : node.WellFormed) {above names : List String}
    {bytes : ByteArray} {lastModified : Timestamp} :
    (names, bytes, lastModified) ∈ filesOf above node ↔
      ∃ below, names = above ++ below ∧ Reaches node below bytes lastModified := by
  cases node with
  | file content modified =>
      simp only [filesOf, List.mem_singleton, Prod.mk.injEq]
      constructor
      · rintro ⟨rfl, rfl, rfl⟩
        exact ⟨[], by simp, by simp, by simp⟩
      · rintro ⟨below, rfl, hleads, -⟩
        cases below with
        | nil => simpa [eq_comm] using hleads
        | cons name below => simp [FileNode.descend?_cons] at hleads
  | directory entries =>
      have hentries : FileNode.WellFormedEntries entries := hnode
      rw [filesOf, mem_filesIn_iff hentries]
      constructor
      · rintro ⟨name, child, below, rfl, hchild, hreaches⟩
        exact ⟨name :: below, rfl, hreaches⟩
      · rintro ⟨below, rfl, hreaches⟩
        cases below with
        | nil => simpa using hreaches.leads
        | cons name below =>
            obtain ⟨child, hchild, -⟩ := Option.bind_eq_some_iff.mp
              ((FileNode.descend?_cons _ _ _).symm.trans hreaches.leads)
            exact ⟨name, child, below, rfl, hchild, hreaches⟩

theorem mem_filesIn_iff {entries : List (String × FileNode)}
    (hentries : FileNode.WellFormedEntries entries) {above names : List String}
    {bytes : ByteArray} {lastModified : Timestamp} :
    (names, bytes, lastModified) ∈ filesIn above entries ↔
      ∃ name child below, names = above ++ name :: below ∧
        FileNode.entry? name (.directory entries) = some child ∧
        Reaches (.directory entries) (name :: below) bytes lastModified := by
  cases entries with
  | nil => simp [filesIn, FileNode.entry?]
  | cons entry entries =>
      obtain ⟨name, node⟩ := entry
      obtain ⟨-, hother, hnode, hrest⟩ := hentries
      have hself := FileNode.entry?_cons_self name node entries
      rw [filesIn, List.mem_append, mem_filesIn_iff hrest]
      constructor
      · rintro (hhere | ⟨found, child, below, rfl, hchild, hreaches⟩)
        · split at hhere
          · simp at hhere
          · next hentered =>
            obtain ⟨below, rfl, hreaches⟩ := (mem_filesOf_iff hnode).mp hhere
            exact ⟨name, node, below, by simp, hself,
              (Reaches.cons_iff hself).mpr ⟨by simpa using hentered, hreaches⟩⟩
        · have hne : name ≠ found := (hother _ (FileNode.mem_of_entry_eq_some hchild)).symm
          have hlater := (FileNode.entry?_cons_of_ne hne node entries).trans hchild
          exact ⟨found, child, below, rfl, hlater,
            (Reaches.cons_iff hlater).mpr ((Reaches.cons_iff hchild).mp hreaches)⟩
      · rintro ⟨found, child, below, rfl, hchild, hreaches⟩
        obtain ⟨hentered, hbelow⟩ := (Reaches.cons_iff hchild).mp hreaches
        by_cases hname : name = found
        · subst hname
          have heq : node = child := Option.some.inj (hself.symm.trans hchild)
          subst heq
          refine Or.inl ?_
          rw [hentered]
          exact (mem_filesOf_iff hnode).mpr ⟨below, by simp, hbelow⟩
        · rw [FileNode.entry?_cons_of_ne hname] at hchild
          exact Or.inr ⟨found, child, below, rfl, hchild,
            (Reaches.cons_iff hchild).mpr ⟨hentered, hbelow⟩⟩

end

theorem reaches_of_mem_filesOf {entries : List (String × FileNode)}
    (hwell : (FileNode.directory entries).WellFormed) {names : List String} {bytes : ByteArray}
    {lastModified : Timestamp}
    (hmem : (names, bytes, lastModified) ∈ filesOf [] (.directory entries)) :
    names ≠ [] ∧ (∀ name ∈ names, IsEntryName name) ∧
      Reaches (.directory entries) names bytes lastModified := by
  obtain ⟨below, hbelow, hentry⟩ := names_of_mem_filesOf hwell hmem
  obtain ⟨below', hbelow', hreaches⟩ := (mem_filesOf_iff hwell).mp hmem
  rw [List.nil_append] at hbelow hbelow'
  subst hbelow' hbelow
  refine ⟨?_, hentry, hreaches⟩
  rintro rfl
  simpa using hreaches.leads

/-- Names from a root lead to a file that is reported: a source file in directories none
of which is ignored, with a path that no pattern fits. -/
structure IsReported (patterns : List (List Glob.Token)) (node : FileNode)
    (names : List String) : Prop where
  file : ∃ bytes lastModified, node.descend? names = some (.file bytes lastModified)
  extension : (Path.ofNames names).extension? ∈ [some "py", some "pyi", some "cs"]
  entered : ∀ directory ∈ names.dropLast,
    directory ∉ ignoredNames ∧ ¬ ".egg-info".toList <:+ directory.toList
  notExcluded : ∀ pattern ∈ patterns, Glob.fits pattern ("/".intercalate names) = false

theorem isSome_ofExtension?_iff {extension : Option String} :
    (Language.ofExtension? extension).isSome = true ↔
      extension ∈ [some "py", some "pyi", some "cs"] := by
  unfold Language.ofExtension?
  split
  · simp
  · simp
  · simp
  · next hpy hpyi hcs => simpa using ⟨hpy, hpyi, hcs⟩

theorem isWanted_iff {patterns : List (List Glob.Token)} {root : Path} {names : List String}
    (hne : names ≠ []) (hnames : ∀ name ∈ names, IsEntryName name) :
    isWanted patterns root names = true ↔
      (Path.ofNames names).extension? ∈ [some "py", some "pyi", some "cs"] ∧
        ∀ pattern ∈ patterns, Glob.fits pattern ("/".intercalate names) = false := by
  have hlanguage : languageOf? root names = Language.ofPath? (.ofNames names) := by
    rw [← language_reportedPath root hnames, reportedPath_of_ne_nil root hne]
  rw [isWanted, hlanguage, Bool.and_eq_true, Language.ofPath?, isSome_ofExtension?_iff]
  simp [matchedText]

/-- Below a root that is a directory, discovery finds exactly the paths that are to be
reported. -/
theorem mem_paths_sourceFiles_iff {patterns : List (List Glob.Token)} {tree : FileTree}
    {root : Path} {entries : List (String × FileNode)} (htree : tree.root.WellFormed)
    (hroot : tree.node root = .ok (.directory entries)) {found : List FoundFile}
    (hfound : sourceFiles patterns tree root = .ok found) {path : Path} :
    path ∈ found.map (·.path) ↔
      ∃ names, path = .ofNames names ∧ IsReported patterns (.directory entries) names := by
  have hwell := FileTree.node_wellFormed htree hroot
  have hmem : path ∈ found.map (·.path) ↔
      ∃ names bytes lastModified, (names, bytes, lastModified) ∈ filesOf [] (.directory entries) ∧
        isWanted patterns root names = true ∧ reportedPath root names = path := by
    unfold sourceFiles at hfound
    rw [hroot] at hfound
    rw [← Except.ok.inj hfound]
    simp only [List.mem_map, List.mem_mergeSort, List.mem_filter]
    constructor
    · rintro ⟨file, ⟨⟨names, bytes, lastModified⟩, ⟨hfile, hwanted⟩, rfl⟩, rfl⟩
      exact ⟨names, bytes, lastModified, hfile, hwanted, rfl⟩
    · rintro ⟨names, bytes, lastModified, hfile, hwanted, rfl⟩
      exact ⟨_, ⟨(names, bytes, lastModified), ⟨hfile, hwanted⟩, rfl⟩, rfl⟩
  rw [hmem]
  constructor
  · rintro ⟨names, bytes, lastModified, hfile, hwanted, rfl⟩
    obtain ⟨hne, hnames, hreaches⟩ := reaches_of_mem_filesOf hwell hfile
    obtain ⟨hextension, hpatterns⟩ := (isWanted_iff hne hnames).mp hwanted
    exact ⟨names, reportedPath_of_ne_nil root hne, ⟨bytes, lastModified, hreaches.leads⟩,
      hextension, fun directory hdirectory =>
        isIgnored_eq_false_iff.mp (hreaches.entered directory hdirectory), hpatterns⟩
  · rintro ⟨names, rfl, ⟨bytes, lastModified, hleads⟩, hextension, hentered, hpatterns⟩
    have hfile : (names, bytes, lastModified) ∈ filesOf [] (.directory entries) := by
      refine (mem_filesOf_iff hwell).mpr ⟨names, rfl, hleads, ?_⟩
      exact fun directory hdirectory =>
        isIgnored_eq_false_iff.mpr (hentered directory hdirectory)
    obtain ⟨hne, hnames, -⟩ := reaches_of_mem_filesOf hwell hfile
    exact ⟨names, bytes, lastModified, hfile, (isWanted_iff hne hnames).mpr
      ⟨hextension, hpatterns⟩, reportedPath_of_ne_nil root hne⟩

end Discovery

theorem Scan.paths_byPriority (files : List FoundFile) :
    (byPriority files).map (·.path) =
      (Survey.ofPaths (files.map (·.path))).high ++ (Survey.ofPaths (files.map (·.path))).medium ++
        (Survey.ofPaths (files.map (·.path))).low := by
  simp only [byPriority, List.map_append, paths_ofPriority, List.append_assoc, Survey.ofPaths]

theorem FoundFile.nodup_paths {files : List FoundFile} (hdistinct : files.Pairwise Apart) :
    (files.map (·.path)).Nodup := by
  refine List.pairwise_map.mpr (hdistinct.imp ?_)
  intro first second hapart heq
  exact hapart (congrArg Path.key heq)

namespace Survey

/-- A tree with source files in and below the root, one behind an ignored name, one that
has an ignored name itself, and one that is no source file. -/
def mixedTree : FileTree :=
  { root := .directory
      [("src", .directory
          [("bin", .file .empty .epoch), ("build", .directory [("gen.py", .file .empty .epoch)]),
            ("dist", .directory []), ("env.cs", .file .empty .epoch),
            ("old", .directory [("app.py", .file .empty .epoch)])]),
        ("notes.md", .file .empty .epoch)]
    workingDirectory := ["src"] }

def withoutOld : Settings :=
  { Settings.standard with scan := { Settings.standard.scan with exclude := ["old/*"] } }

end Survey

end SourceAtlas
