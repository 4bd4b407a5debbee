import SourceAtlas.Files.Discovery
import SourceAtlas.Priority

/-!
# Surveys

The source files of a tree by language and priority, without reading them.
-/

namespace SourceAtlas

/-- The source files of a tree, by priority. -/
structure Survey where
  total : Nat
  /-- The number of files of each language. -/
  byLanguage : SortedMap String Nat
  high : List Path
  medium : List Path
  low : List Path

namespace Survey

def paths (survey : Survey) : Priority → List Path
  | .high => survey.high
  | .medium => survey.medium
  | .low => survey.low

def withPriority (priority : Priority) (paths : List Path) : List Path :=
  paths.filter (Priority.ofPath · = priority)

def countLanguages (paths : List Path) : SortedMap String Nat :=
  (paths.filterMap Language.ofPath?).foldl
    (fun counts language => counts.update language.name 0 (· + 1)) .empty

def ofPaths (paths : List Path) : Survey :=
  { total := paths.length
    byLanguage := countLanguages paths
    high := withPriority .high paths
    medium := withPriority .medium paths
    low := withPriority .low paths }

def ofTree (settings : Settings) (tree : FileTree) (root : Path) : Except RunError Survey := do
  settings.validate
  let patterns ← settings.excludedPatterns
  let files ← Discovery.sourceFiles patterns tree root
  return ofPaths (files.map (·.path))

def padded (width : Nat) (text : String) : String :=
  text ++ String.ofList (List.replicate (width - text.length) ' ')

def line (text : String) : String := text ++ "\n"

def text (survey : Survey) (root : Path) : String :=
  let heading := line (root.text ++ ": " ++ toString survey.total ++ " source files")
  let languages := survey.byLanguage.entries.map fun (language, count) =>
    line ("  " ++ padded 8 language ++ " " ++ toString count)
  let counts := Priority.all.map fun priority =>
    line (priority.name ++ " priority: " ++ toString (survey.paths priority).length)
  let first :=
    if survey.high.isEmpty then []
    else "\nHigh priority files:\n" :: survey.high.map fun path => line ("  " ++ path.text)
  String.join (heading :: languages ++ "\n" :: counts ++ first)

end Survey

end SourceAtlas
