import SourceAtlas.Proofs.Paths
import SourceAtlas.Proofs.SortedMaps
import SourceAtlas.Report.Rendering
import Mathlib.Data.List.Nodup

/-!
# Layouts

A layout puts the models one after the other, in the order of their paths, behind those of
the same folder.  So what stands under a folder is what a filter of the models would keep.

In the text of a layout each folder and each path has a line of its own.  Two blanks begin
the line of a path and none begins that of a folder, so the lines tell which is which, whatever
the path is, and the layout is read back from below.
-/

namespace SourceAtlas

namespace ScanReport

/-- The paths of the models that belong into a folder, in their order. -/
def pathsIn (folder : String) (models : List (Path × SourceModel)) : List Path :=
  (models.filter fun entry => folderOf entry.2 = folder).map (·.1)

variable {models : List (Path × SourceModel)} {folder : String} {path : Path}

theorem pathsIn_cons (folder : String) (path : Path) (model : SourceModel)
    (models : List (Path × SourceModel)) :
    pathsIn folder ((path, model) :: models) =
      if folderOf model = folder then path :: pathsIn folder models
      else pathsIn folder models := by
  unfold pathsIn
  split
  · next hfolder => rw [List.filter_cons_of_pos (by simpa using hfolder), List.map_cons]
  · next hfolder => rw [List.filter_cons_of_neg (by simpa using hfolder)]

theorem mem_pathsIn_iff :
    path ∈ pathsIn folder models ↔ ∃ model, (path, model) ∈ models ∧ folderOf model = folder := by
  simp [pathsIn]

/-- The folders with the models put into them one after the other. -/
def group (folders : SortedMap String (List Path)) (models : List (Path × SourceModel)) :
    SortedMap String (List Path) :=
  models.foldl
    (fun folders (path, model) => folders.update (folderOf model) [] (· ++ [path])) folders

theorem get?_group (folders : SortedMap String (List Path))
    (models : List (Path × SourceModel)) (folder : String) :
    (group folders models).get? folder =
      if pathsIn folder models = [] then folders.get? folder
      else some ((folders.get? folder).getD [] ++ pathsIn folder models) := by
  induction models generalizing folders with
  | nil => rfl
  | cons entry models ih =>
      obtain ⟨path, model⟩ := entry
      have hstep : group folders ((path, model) :: models) =
          group (folders.update (folderOf model) [] (· ++ [path])) models := rfl
      rw [hstep, ih, pathsIn_cons]
      by_cases hfolder : folderOf model = folder
      · rw [if_pos hfolder, hfolder, SortedMap.get?_update_self, Option.getD_some,
          if_neg (List.cons_ne_nil _ _)]
        split
        · next hnone => rw [hnone]
        · rw [List.append_assoc, List.singleton_append]
      · rw [if_neg hfolder, SortedMap.get?_update_of_ne _ (Ne.symm hfolder)]

variable {report : ScanReport} {paths : List Path}

theorem mem_layout_iff :
    (folder, paths) ∈ report.layout.entries ↔
      paths = pathsIn folder report.models.entries ∧ paths ≠ [] := by
  have hlayout : report.layout = group .empty report.models.entries := rfl
  have hempty : (SortedMap.empty : SortedMap String (List Path)).get? folder = none := rfl
  rw [← SortedMap.get?_eq_some_iff, hlayout, get?_group, hempty]
  split
  · next hnone =>
      rw [hnone]
      simp only [reduceCtorEq, false_iff, not_and, ne_eq]
      exact fun heq hne => hne heq
  · next hsome =>
      rw [Option.getD_none, List.nil_append, Option.some.injEq]
      constructor
      · rintro rfl
        exact ⟨rfl, hsome⟩
      · rintro ⟨rfl, -⟩
        rfl

/-- Folders with paths are a layout of the models: each path is listed once, under the folder
of its role, which is the one of files without any role where none is known. -/
structure Arranges (folders : List (String × List Path)) (report : ScanReport) : Prop where
  once : (folders.flatMap (·.2)).Perm (report.models.entries.map (·.1))
  nodup : (folders.flatMap (·.2)).Nodup
  folder : ∀ path model, (path, model) ∈ report.models.entries →
    ∃ paths, ((model.role.getD .unknown).folder, paths) ∈ folders ∧ path ∈ paths
  foldersAscend : (folders.map (·.1)).Pairwise (· < ·)
  pathsAscend : ∀ folder paths, (folder, paths) ∈ folders → paths.Pairwise (· < ·)
  notEmpty : ∀ folder paths, (folder, paths) ∈ folders → paths ≠ []

theorem nodup_of_ascending {paths : List Path} (hascending : paths.Pairwise (· < ·)) :
    paths.Nodup := by
  refine hascending.imp ?_
  rintro first second hlt rfl
  exact Path.not_lt_self first hlt

theorem pathsIn_sublist (folder : String) (models : List (Path × SourceModel)) :
    (pathsIn folder models).Sublist (models.map (·.1)) :=
  List.filter_sublist.map _

theorem keys_ascending (report : ScanReport) :
    (report.models.entries.map (·.1)).Pairwise (· < ·) :=
  List.pairwise_map.mpr report.models.ascending

theorem disjoint_pathsIn {other : String} (hne : folder ≠ other) (report : ScanReport) :
    (pathsIn folder report.models.entries).Disjoint (pathsIn other report.models.entries) := by
  intro path hpath hother
  obtain ⟨model, hmem, hfolder⟩ := mem_pathsIn_iff.mp hpath
  obtain ⟨model', hmem', hfolder'⟩ := mem_pathsIn_iff.mp hother
  have hsame : (path, model) = (path, model') :=
    List.inj_on_of_nodup_map (nodup_of_ascending (keys_ascending report)) hmem hmem' rfl
  obtain rfl : model = model' := congrArg Prod.snd hsame
  exact hne (hfolder.symm.trans hfolder')

theorem arranges_layout (report : ScanReport) : Arranges report.layout.entries report := by
  have hgroup : ∀ group ∈ report.layout.entries,
      group.2 = pathsIn group.1 report.models.entries ∧ group.2 ≠ [] :=
    fun group hmem => mem_layout_iff.mp hmem
  have hascend : ∀ group ∈ report.layout.entries, group.2.Pairwise (· < ·) := by
    intro group hmem
    rw [(hgroup group hmem).1]
    exact (keys_ascending report).sublist (pathsIn_sublist _ _)
  have hfolder : ∀ path model, (path, model) ∈ report.models.entries →
      ∃ paths, (folderOf model, paths) ∈ report.layout.entries ∧ path ∈ paths := by
    intro path model hmem
    have hpath : path ∈ pathsIn (folderOf model) report.models.entries :=
      mem_pathsIn_iff.mpr ⟨model, hmem, rfl⟩
    exact ⟨_, mem_layout_iff.mpr ⟨rfl, List.ne_nil_of_mem hpath⟩, hpath⟩
  have hnodup : (report.layout.entries.flatMap (·.2)).Nodup := by
    -- Paths in one folder ascend, and different folders take their paths from different models.
    rw [List.nodup_flatMap]
    refine ⟨fun group hmem => nodup_of_ascending (hascend group hmem), ?_⟩
    refine report.layout.ascending.imp_of_mem fun {first second} hfirst hsecond hlt => ?_
    have hdisjoint := disjoint_pathsIn (ne_of_lt hlt) report
    rwa [← (hgroup first hfirst).1, ← (hgroup second hsecond).1] at hdisjoint
  have hsame : ∀ path, path ∈ report.layout.entries.flatMap (·.2) ↔
      path ∈ report.models.entries.map (·.1) := by
    intro path
    rw [List.mem_flatMap, List.mem_map]
    constructor
    · rintro ⟨group, hmem, hpath⟩
      simp only [(hgroup group hmem).1] at hpath
      obtain ⟨model, hmodel, -⟩ := mem_pathsIn_iff.mp hpath
      exact ⟨(path, model), hmodel, rfl⟩
    · rintro ⟨⟨path, model⟩, hmodel, rfl⟩
      obtain ⟨paths, hmem, hpath⟩ := hfolder path model hmodel
      exact ⟨_, hmem, hpath⟩
  have hkeys := nodup_of_ascending (keys_ascending report)
  exact ⟨(List.perm_ext_iff_of_nodup hnodup hkeys).mpr hsame, hnodup, hfolder,
    List.pairwise_map.mpr report.layout.ascending, fun _ _ hmem => hascend _ hmem,
    fun _ _ hmem => (hgroup _ hmem).2⟩

/-- The lines of a layout without their ends. -/
def layoutRows (folders : List (String × List Path)) : List (List Char) :=
  folders.flatMap fun group =>
    (group.1.toList ++ ['/']) :: group.2.map fun path => ' ' :: ' ' :: path.text.toList

/-- Adds a line to the layout below it.  The paths whose folder stands farther up wait
beside it. -/
def addRow (row : List Char) (below : List Path × List (String × List Path)) :
    List Path × List (String × List Path) :=
  match row with
  | ' ' :: ' ' :: text => (⟨String.ofList text⟩ :: below.1, below.2)
  | row => ([], (String.ofList row.dropLast, below.1) :: below.2)

def readLayout (text : String) : List (String × List Path) :=
  (((Text.splitWhere (· = '\n') text.toList).dropLast).foldr addRow ([], [])).2

theorem addRow_path (path : Path) (below : List Path × List (String × List Path)) :
    addRow (' ' :: ' ' :: path.text.toList) below = (path :: below.1, below.2) := by
  simp [addRow]

theorem addRow_folder (hfolder : folder.toList.head? ≠ some ' ')
    (below : List Path × List (String × List Path)) :
    addRow (folder.toList ++ ['/']) below = ([], (folder, below.1) :: below.2) := by
  unfold addRow
  split
  · next text hrow =>
      cases hchars : folder.toList with
      | nil => simp [hchars] at hrow
      | cons c chars => simp_all
  · rw [List.dropLast_concat, String.ofList_toList]

theorem foldr_addRow_layoutRows {folders : List (String × List Path)}
    (hfolders : ∀ group ∈ folders, group.1.toList.head? ≠ some ' ') :
    (layoutRows folders).foldr addRow ([], []) = ([], folders) := by
  induction folders with
  | nil => rfl
  | cons group folders ih =>
      obtain ⟨hgroup, hrest⟩ := List.forall_mem_cons.mp hfolders
      have hpaths : ∀ paths : List Path,
          (paths.map fun path => ' ' :: ' ' :: path.text.toList).foldr addRow ([], folders) =
            (paths, folders) := by
        intro paths
        induction paths with
        | nil => rfl
        | cons path paths ih => rw [List.map_cons, List.foldr_cons, ih, addRow_path]
      rw [layoutRows, List.flatMap_cons, List.cons_append, List.foldr_cons, List.foldr_append,
        ← layoutRows, ih hrest, hpaths, addRow_folder hgroup]

theorem splitWhere_flatMap_break {rows : List (List Char)} (hrows : ∀ row ∈ rows, '\n' ∉ row) :
    Text.splitWhere (· = '\n') (rows.flatMap (· ++ ['\n'])) = rows ++ [[]] := by
  induction rows with
  | nil => rfl
  | cons row rows ih =>
      obtain ⟨hrow, hrest⟩ := List.forall_mem_cons.mp hrows
      have hkept : ∀ c ∈ row, decide (c = '\n') = false := by
        intro c hc
        simpa using ne_of_mem_of_not_mem hc hrow
      rw [List.flatMap_cons, List.append_assoc, List.singleton_append,
        Text.splitWhere_append_cons hkept (by simp), ih hrest, List.cons_append]

theorem toList_layoutText (report : ScanReport) :
    report.layoutText.toList = (layoutRows report.layout.entries).flatMap (· ++ ['\n']) := by
  unfold layoutText layoutRows
  rw [String.toList_join, List.flatMap_assoc, List.flatMap_assoc]
  refine List.flatMap_congr fun group _ => ?_
  simp [Survey.line, List.flatMap_map]

theorem folder_shape (role : Role) :
    role.folder.toList.head? ≠ some ' ' ∧ '\n' ∉ role.folder.toList := by
  cases role <;> decide

/-- The paths of the models hold no line break. -/
def OneLinePaths (report : ScanReport) : Prop :=
  ∀ entry ∈ report.models.entries, '\n' ∉ entry.1.text.toList

theorem readLayout_layoutText (hpaths : report.OneLinePaths) :
    readLayout report.layoutText = report.layout.entries := by
  have hgroup : ∀ group ∈ report.layout.entries,
      (∃ role : Role, group.1 = role.folder) ∧ ∀ path ∈ group.2, '\n' ∉ path.text.toList := by
    rintro ⟨folder, paths⟩ hmem
    obtain ⟨rfl, hne⟩ := mem_layout_iff.mp hmem
    constructor
    · obtain ⟨path, hpath⟩ := List.exists_mem_of_ne_nil _ hne
      obtain ⟨model, -, hfolder⟩ := mem_pathsIn_iff.mp hpath
      exact ⟨model.role.getD .unknown, hfolder.symm⟩
    · intro path hpath
      obtain ⟨model, hmodel, -⟩ := mem_pathsIn_iff.mp hpath
      exact hpaths _ hmodel
  have hrows : ∀ row ∈ layoutRows report.layout.entries, '\n' ∉ row := by
    intro row hrow
    obtain ⟨group, hmem, hrow⟩ := List.mem_flatMap.mp hrow
    obtain ⟨⟨role, hrole⟩, hgroupPaths⟩ := hgroup group hmem
    rcases List.mem_cons.mp hrow with rfl | hrow
    · simpa [hrole] using (folder_shape role).2
    · obtain ⟨path, hpath, rfl⟩ := List.mem_map.mp hrow
      simpa using hgroupPaths path hpath
  have hfolders : ∀ group ∈ report.layout.entries, group.1.toList.head? ≠ some ' ' := by
    intro group hmem
    obtain ⟨⟨role, hrole⟩, -⟩ := hgroup group hmem
    rw [hrole]
    exact (folder_shape role).1
  rw [readLayout, toList_layoutText, splitWhere_flatMap_break hrows, List.dropLast_concat,
    foldr_addRow_layoutRows hfolders]

/-- A layout lists the path of every model once, in the folder of its role, and is read back
from its text if no path holds a line break; so such texts are equal only for equal
layouts. -/
theorem layout_arranges_and_readLayout :
    (∀ report : ScanReport, Arranges report.layout.entries report) ∧
      (∀ report : ScanReport, report.OneLinePaths →
        readLayout report.layoutText = report.layout.entries) ∧
      ∀ first second : ScanReport, first.OneLinePaths → second.OneLinePaths →
        first.layoutText = second.layoutText → first.layout = second.layout := by
  refine ⟨arranges_layout, fun report hpaths => readLayout_layoutText hpaths, ?_⟩
  intro first second hfirst hsecond htexts
  apply SortedMap.ext
  rw [← readLayout_layoutText hfirst, htexts, readLayout_layoutText hsecond]

/-- Two roles with one folder, a file without a role, and a path that looks like the lines
of a layout. -/
def mixedReport : ScanReport :=
  { ScanReport.empty with
    models := .ofList
      ([("a.cs", some .class), ("  other/", none), ("b.cs", some .dto), ("c.py", some .unknown)].map
        fun (text, role) =>
          (⟨text⟩, { SourceModel.blank ⟨text⟩ .csharp .epoch with role })) }

theorem layout_arranges_and_readLayout_mixedReport :
    mixedReport.OneLinePaths ∧
      { mixedReport with order := [⟨"a.cs"⟩] }.OneLinePaths ∧
      mixedReport.layoutText = "api/models/\n  b.cs\nother/\n    other/\n  a.cs\n  c.py\n" ∧
      readLayout mixedReport.layoutText = mixedReport.layout.entries ∧
      mixedReport.layout = { mixedReport with order := [⟨"a.cs"⟩] }.layout := by
  have hpaths : mixedReport.OneLinePaths := by
    unfold OneLinePaths
    decide +kernel
  have hother : { mixedReport with order := [⟨"a.cs"⟩] }.OneLinePaths := hpaths
  obtain ⟨-, hread, hlayouts⟩ := layout_arranges_and_readLayout
  exact ⟨hpaths, hother, by decide +kernel, hread _ hpaths, hlayouts _ _ hpaths hother rfl⟩

end ScanReport

end SourceAtlas
