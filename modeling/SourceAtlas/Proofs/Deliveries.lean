import SourceAtlas.Proofs.AnalyzeRuns
import SourceAtlas.Proofs.RewrittenFiles

/-!
# Deliveries

A report is complete before anything is written, and it is the last thing that a run
writes.  So a refused analysis leaves no trace, and one that succeeds leaves behind the text
that it would have printed, and the directories that were missing on the way to it.
-/

namespace SourceAtlas.CommandLine

/-- A run leaves a file with these bytes where the path leads.  Anywhere else it leaves
things as they were, or a directory where nothing was and where a part of the path leads. -/
structure Delivered (path : Path) (bytes : ByteArray) (old new : FileTree) : Prop where
  workingDirectory : new.workingDirectory = old.workingDirectory
  content : new.bytes path = .ok bytes
  unchanged : ∀ names, new.resolve path ≠ .ok names →
    new.root.standing names = old.root.standing names ∨
      old.root.standing names = .nothing ∧ new.root.standing names = .directory ∧
        new.LeadsAlong (directoriesOf path) names

theorem prefix_directoriesOf (path : Path) : directoriesOf path <+: path.components := by
  unfold directoriesOf Path.parentComponents?
  split
  · exact List.nil_prefix
  · exact List.nil_prefix
  · exact path.components.dropLast_prefix

theorem bytes_of_standing {tree : FileTree} {path : Path} {names : List String}
    {bytes : ByteArray} {lastModified : Timestamp} (hresolve : tree.resolve path = .ok names)
    (hfile : tree.root.standing names = .file bytes lastModified) :
    tree.bytes path = .ok bytes := by
  have hnode := FileTree.node_eq_of_resolve hresolve (FileNode.standing_eq_file_iff.mp hfile)
  unfold FileTree.bytes
  rw [hnode]

theorem delivered_of_deliver {tree new : FileTree} {delivery : Delivery}
    (hdeliver : deliver tree delivery = (new, none)) :
    Delivered delivery.path delivery.content.toUTF8 tree new := by
  unfold deliver at hdeliver
  split at hdeliver
  · simp at hdeliver
  · next middle hmake =>
    split at hdeliver
    · next written hwrite =>
      obtain rfl : written = new := congrArg Prod.fst hdeliver
      have hadds := FileTree.addsDirectories_of_makeDirectories
        ((FileTree.properNames_components _).leading (prefix_directoriesOf _)) hmake
      have hwrites := FileTree.writesFile_of_writeFile hwrite
      obtain ⟨names, hresolve, hchanged⟩ := hwrites.changedAt
      refine ⟨hwrites.workingDirectory.trans hadds.workingDirectory, ?_, ?_⟩
      · exact bytes_of_standing hresolve hchanged.here
      · intro others hother
        have hne : others ≠ names := by
          rintro rfl
          exact hother hresolve
        rw [hchanged.elsewhere others hne]
        refine (hadds.standing others).imp_right ?_
        rintro ⟨hold, hnew, above, hwithin, hleads⟩
        exact ⟨hold, hnew, above, hwithin,
          FileTree.resolve_of_extends hwrites.root_extends hwrites.workingDirectory hleads⟩
    · simp at hdeliver

theorem run_of_delivery {tree : FileTree} {invocation : Invocation} {product : Product}
    {delivery : Delivery} (hproduce : produce tree invocation = .ok product)
    (hdelivery : product.delivery = some delivery) :
    run tree invocation =
      match deliver tree delivery with
      | (new, none) => { exitCode := 0, output := product.output, errors := "", tree := new }
      | (new, some error) => failed new (.io error.message) := by
  unfold run
  cases hdeliver : deliver tree delivery with
  | mk new error => cases error <;> simp [hproduce, hdelivery, hdeliver]

/-- A run with a delivery succeeds only if the delivery does. -/
theorem delivered_of_run {tree : FileTree} {invocation : Invocation} {product : Product}
    {delivery : Delivery} (hproduce : produce tree invocation = .ok product)
    (hdelivery : product.delivery = some delivery)
    (hsuccess : (run tree invocation).exitCode = 0) :
    Delivered delivery.path delivery.content.toUTF8 tree (run tree invocation).tree := by
  rw [run_of_delivery hproduce hdelivery] at hsuccess ⊢
  split at hsuccess
  · next new hdeliver => exact delivered_of_deliver hdeliver
  · contradiction

/-- An analysis that is the same but for its destination: it has none, while the other
settings, the sources below the root and the name of the root are as they were. -/
structure Undirected (tree : FileTree) (root : Path) (settings : Settings) (other : FileTree)
    (named : Option Path) (options : Overrides) : Prop where
  accepted : Accepted other root named options settings.withoutDestination
  sources : ∀ patterns,
    Discovery.sourceFiles patterns other root = Discovery.sourceFiles patterns tree root
  name : other.entryName? root = tree.entryName? root

theorem run_of_undirected {tree other : FileTree} {root : Path} {settings : Settings}
    {named : Option Path} {options : Overrides} {report : ScanReport}
    (hreport : Scan.ofTree settings tree root = .ok report)
    (hundirected : Undirected tree root settings other named options) (verbose : Bool) :
    run other (.analyze root named options verbose) =
      { exitCode := 0
        output := report.render settings.output.format (projectName settings tree root)
        errors := ""
        tree := other } := by
  obtain ⟨found, hfound, hanalyze⟩ := analyze_of_accepted hundirected.accepted
  have hsame : Scan.ofTree settings.withoutDestination other root =
      Scan.ofTree settings tree root := by
    unfold Scan.ofTree
    simp only [hundirected.sources]
    rfl
  have hname : projectName settings.withoutDestination other root =
      projectName settings tree root := by
    unfold projectName
    rw [hundirected.name]
    rfl
  obtain rfl : found = report := by
    rw [hsame, hreport] at hfound
    exact (Except.ok.inj hfound).symm
  rw [hname] at hanalyze
  exact run_of_printed hanalyze

/-- Where the settings file names no destination, the same words without the option. -/
theorem undirected_of_option {tree : FileTree} {root : Path} {named : Option Path}
    {options : Overrides} {loaded : Settings} (hload : loadSettings tree named = .ok loaded)
    (hnone : loaded.output.path = none)
    (haccepted : Accepted tree root named options (loaded.override options)) :
    Undirected tree root (loaded.override options) tree named { options with output := none } := by
  have hloaded : loaded.withoutDestination = loaded := by
    unfold Settings.withoutDestination
    rw [← hnone]
  have hoverride : (loaded.override options).withoutDestination =
      loaded.override { options with output := none } := by
    rw [← Settings.override_withoutDestination, hloaded]
  refine ⟨⟨⟨loaded, hload, hoverride⟩, ?_, haccepted.hasRoot⟩, fun _ => rfl, rfl⟩
  rw [Settings.validate_withoutDestination]
  exact haccepted.valid

/-- A settings file that is rewritten is read with its new bytes. -/
theorem loadSettings_withNode {tree : FileTree} {named : Option Path} {path : Path}
    {place : List String} {old : ByteArray} {oldModified : Timestamp}
    (hpath : settingsFile? tree named = some path) (hplace : tree.resolve path = .ok place)
    (hold : tree.root.standing place = .file old oldModified) (bytes : ByteArray)
    (lastModified : Timestamp) :
    loadSettings (tree.withNode place (.file bytes lastModified)) named = Settings.load bytes := by
  have hextends := FileTree.root_extends_of_file hold bytes lastModified
  have hchanged := FileNode.changedAt_place_file hold bytes lastModified
  have hsettings : settingsFile? (tree.withNode place (.file bytes lastModified)) named =
      some path := by
    unfold settingsFile? at hpath ⊢
    cases named with
    | some given => exact hpath
    | none =>
        rw [Option.none_or] at hpath ⊢
        split at hpath
        · next hstandard =>
          rwa [if_pos (FileTree.hasPath_withNode_file hold bytes lastModified hstandard)]
        · contradiction
  have hbytes : (tree.withNode place (.file bytes lastModified)).bytes path = .ok bytes :=
    bytes_of_standing (FileTree.resolve_of_extends hextends rfl hplace) hchanged.here
  rw [loadSettings_eq, hsettings]
  unfold settingsOf
  simp only [hbytes]

/-- Where the settings file names the destination, the same words without the option and
with another text of the file, if that file is no source file below the root. -/
theorem undirected_of_settingsFile {tree : FileTree} {root path : Path} {named : Option Path}
    {options : Overrides} {loaded : Settings} {place : List String} {old bytes : ByteArray}
    {oldModified lastModified : Timestamp}
    (haccepted : Accepted tree root named options (loaded.override options))
    (hpath : settingsFile? tree named = some path) (hplace : tree.resolve path = .ok place)
    (hold : tree.root.standing place = .file old oldModified)
    (hother : ∀ way below, tree.resolve root = .ok way → place = way ++ below →
      Discovery.languageOf? root below = none)
    (hload : Settings.load bytes = .ok loaded.withoutDestination) :
    Undirected tree root (loaded.override options)
      (tree.withNode place (.file bytes lastModified)) named { options with output := none } := by
  have hloaded := (loadSettings_withNode hpath hplace hold bytes lastModified).trans hload
  have hroot := FileTree.hasPath_withNode_file hold bytes lastModified haccepted.hasRoot
  refine ⟨⟨⟨_, hloaded, rfl⟩, haccepted.valid, hroot⟩, ?_, ?_⟩
  · exact Discovery.sourceFiles_withNode haccepted.hasRoot hold hother bytes lastModified
  · have hextends := FileTree.root_extends_of_file hold bytes lastModified
    obtain ⟨names, hresolve, -⟩ := FileTree.hasPath_iff.mp haccepted.hasRoot
    unfold FileTree.entryName?
    rw [hresolve, FileTree.resolve_of_extends hextends rfl hresolve]

/-- A tree whose settings file sends the report into a directory that is not there. -/
def directedTree : FileTree :=
  { root := .directory
      [("strata.toml", .file "[output]\npath = \"out/report.txt\"\n".toUTF8 .epoch),
        ("app", .directory [("Main.cs", .file "class A { }".toUTF8 .epoch)])]
    workingDirectory := [] }

/-- What the settings file of the tree says. -/
def directedSettings : Settings :=
  { Settings.standard with
    output := { Settings.standard.output with path := some ⟨"out/report.txt"⟩ } }

end SourceAtlas.CommandLine
