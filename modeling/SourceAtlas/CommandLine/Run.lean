import SourceAtlas.CommandLine.Invocation
import SourceAtlas.Files.Writing
import SourceAtlas.Report.Rendering
import SourceAtlas.Report.Scan
import SourceAtlas.Settings.Reading

/-!
# Runs

What an invocation does: the text it prints and the files it writes.
-/

namespace SourceAtlas.CommandLine

/-- A file to be written, with the directories that are to lead to it. -/
structure Delivery where
  path : Path
  content : String

/-- What a run that has not failed comes to. -/
structure Product where
  /-- The report, if it goes into a file. -/
  delivery : Option Delivery
  output : String

namespace Product

def printed (output : String) : Product := { delivery := none, output }

end Product

def standardSettingsFile : Path := ⟨"strata.toml"⟩

def settingsOf (tree : FileTree) (path : Path) : Except RunError Settings :=
  match tree.bytes path with
  | .ok bytes => Settings.load bytes
  | .error error => .error (.io error.message)

/-- The settings of the named file, or of the standard one if it is there. -/
def loadSettings (tree : FileTree) (path : Option Path) : Except RunError Settings :=
  match path with
  | some path => settingsOf tree path
  | none =>
      if tree.hasPath standardSettingsFile then settingsOf tree standardSettingsFile
      else .ok .standard

/-- The name of a project: from its settings, or else that of its directory. -/
def projectName (settings : Settings) (tree : FileTree) (root : Path) : String :=
  let name := settings.project.name
  if name = ProjectSettings.standard.name || name.isEmpty then
    (tree.entryName? root).getD "Project"
  else name

/-- Reads all source files below a root and reports on them. -/
def analyze (tree : FileTree) (root : Path) (settingsFile : Option Path)
    (options : Overrides) : Except RunError Product := do
  let loaded ← loadSettings tree settingsFile
  let settings := loaded.override options
  settings.validate
  if !tree.hasPath root then throw (.pathNotFound root)
  let report ← Scan.ofTree settings tree root
  let rendered := report.render settings.output.format (projectName settings tree root)
  match settings.output.path with
  | none => return .printed rendered
  | some path =>
      let counts := report.counts
      return {
        delivery := some { path, content := rendered }
        output :=
          toString counts.extracted ++ " files extracted, " ++ toString counts.failed
            ++ " failed\nReport written to: " ++ path.text ++ "\n" }

def survey (tree : FileTree) (root : Path) (settingsFile : Option Path) :
    Except RunError Product := do
  let settings ← loadSettings tree settingsFile
  let found ← Survey.ofTree settings tree root
  return .printed (found.text root)

def sourceOf (tree : FileTree) (path : Path) : Except RunError SourceFile :=
  let outcome :=
    match tree.node path with
    | .ok (.file bytes lastModified) => decodeFile path bytes lastModified
    | .ok (.directory _) => .error (.io FileError.isDirectory.message)
    | .error error => .error (.io error.message)
  outcome.mapError fun cause => .other cause.message

def modelLines (model : SourceModel) : List String :=
  model.classes.flatMap (fun type =>
    ("  " ++ type.name ++ " (line " ++ toString type.line ++ ")")
      :: type.methods.map fun method => "    " ++ method.text)
  ++ model.functions.map fun function => "  " ++ function.text

/-- What is known about the role of a file, line by line. -/
def classificationLines (path : Path) (found : Classification) : List String :=
  [path.text,
    "  role:     " ++ found.role.name ++ " (" ++ found.role.label ++ ")",
    "  signal:   " ++ found.signal.text,
    "  priority: " ++ (Priority.ofPath path).name,
    "  folder:   " ++ found.role.folder]

/-- Explains the role of a file.  One that cannot be read with a grammar is
still classified by its path and content. -/
def classifyFile (tree : FileTree) (path : Path) : Except RunError Product := do
  if !tree.hasPath path then throw (.pathNotFound path)
  if (Language.ofPath? path).isNone then
    throw (.other ("unsupported file type: " ++ path.text))
  let source ← sourceOf tree path
  let settings ← loadSettings tree none
  let model :=
    match readModel settings.limits settings.limits.tier.forced? source with
    | .ok model => some model
    | .error _ => none
  let found := Classification.explain path source.content model
  let lines := classificationLines path found ++ (model.map modelLines).getD []
  return .printed (String.join (lines.map Survey.line))

def versionText : String := "strata 0.1.0\n"

def produce (tree : FileTree) : Invocation → Except RunError Product
  | .analyze path settingsFile options _ => analyze tree path settingsFile options
  | .survey path settingsFile => survey tree path settingsFile
  | .classify file => classifyFile tree file
  | .version => .ok (.printed versionText)

def inputs : Invocation → List Path
  | .analyze path settingsFile _ _ => [path, settingsFile.getD standardSettingsFile]
  | .survey path settingsFile => [path, settingsFile.getD standardSettingsFile]
  | .classify file => [file, standardSettingsFile]
  | .version => []

/-- What a run leaves behind. -/
structure Outcome where
  exitCode : Nat
  output : String
  errors : String
  tree : FileTree

/-- The components of the directories that are to lead to a file. -/
def directoriesOf (path : Path) : List Component :=
  (path.parentComponents?).getD []

def deliver (tree : FileTree) (delivery : Delivery) : FileTree × Option FileError :=
  match tree.makeDirectories (directoriesOf delivery.path) with
  | (tree, some error) => (tree, some error)
  | (tree, none) =>
      match tree.writeFile delivery.path delivery.content.toUTF8 with
      | .ok tree => (tree, none)
      | .error error => (tree, some error)

def failed (tree : FileTree) (error : RunError) : Outcome :=
  { exitCode := 1, output := "", errors := "Error: " ++ error.message ++ "\n", tree }

def run (tree : FileTree) (invocation : Invocation) : Outcome :=
  match produce tree invocation with
  | .error error => failed tree error
  | .ok product =>
      match product.delivery with
      | none => { exitCode := 0, output := product.output, errors := "", tree }
      | some delivery =>
          match deliver tree delivery with
          | (tree, none) => { exitCode := 0, output := product.output, errors := "", tree }
          | (tree, some error) => failed tree (.io error.message)

end SourceAtlas.CommandLine
