import SourceAtlas.Model.Limits

/-!
# Settings

What a run can be told: by a settings file, and by options of the command line
that win over the file.
-/

namespace SourceAtlas

/-- The form of a report. -/
inductive OutputFormat
  | json
  | summary
  /-- Paths grouped by their documentation folder. -/
  | layout
  deriving DecidableEq, Repr, Inhabited

namespace OutputFormat

def name : OutputFormat → String
  | json => "json"
  | summary => "summary"
  | layout => "layout"

def all : List OutputFormat := [json, summary, layout]

end OutputFormat

/-- What is known about a project beforehand. -/
structure ProjectSettings where
  name : String
  deriving DecidableEq, Inhabited

/-- Which files are read, and in what portions. -/
structure ScanSettings where
  /-- Patterns of paths that are left out. -/
  exclude : List String
  chunkSize : Nat
  /-- Whether only files of high priority are read. -/
  priorityOnly : Bool
  maxFiles : Option Nat
  followLinks : Bool
  deriving DecidableEq, Inhabited

/-- Where the report goes. -/
structure OutputSettings where
  format : OutputFormat
  path : Option Path
  deriving DecidableEq, Inhabited

/-- All settings of a run. -/
structure Settings where
  project : ProjectSettings
  scan : ScanSettings
  limits : Limits
  output : OutputSettings
  deriving DecidableEq, Inhabited

namespace ProjectSettings

def standard : ProjectSettings := { name := "Untitled Project" }

end ProjectSettings

namespace ScanSettings

def standard : ScanSettings :=
  { exclude := ["**/*.Designer.cs"], chunkSize := 50, priorityOnly := false,
    maxFiles := none, followLinks := false }

end ScanSettings

namespace OutputSettings

def standard : OutputSettings := { format := .summary, path := none }

end OutputSettings

/-- Options that win over the settings of a file. -/
structure Overrides where
  output : Option Path
  format : Option OutputFormat
  /-- Further patterns of paths that are left out. -/
  exclude : List String
  tier : Option TierChoice
  chunkSize : Option Nat
  priorityOnly : Bool
  maxFiles : Option Nat
  deriving DecidableEq, Inhabited

namespace Overrides

def none : Overrides :=
  { output := .none, format := .none, exclude := [], tier := .none, chunkSize := .none,
    priorityOnly := false, maxFiles := .none }

end Overrides

namespace Settings

def standard : Settings :=
  { project := .standard, scan := .standard, limits := .standard, output := .standard }

def override (settings : Settings) (options : Overrides) : Settings :=
  { settings with
    scan :=
      { settings.scan with
        exclude := settings.scan.exclude ++ options.exclude
        chunkSize := options.chunkSize.getD settings.scan.chunkSize
        priorityOnly := settings.scan.priorityOnly || options.priorityOnly
        maxFiles := options.maxFiles.or settings.scan.maxFiles }
    limits := { settings.limits with tier := options.tier.getD settings.limits.tier }
    output :=
      { format := options.format.getD settings.output.format
        path := options.output.or settings.output.path } }

end Settings

end SourceAtlas
