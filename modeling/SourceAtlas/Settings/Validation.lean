import SourceAtlas.Glob
import SourceAtlas.Settings.Basic

/-!
# Valid settings

Which settings a run accepts, and what ends a run as a whole.  Failures of
single files never do.
-/

namespace SourceAtlas

/-- What is wrong with settings. -/
inductive SettingsFault
  | noChunkSize
  | noFiles
  | sizesOutOfOrder
  | noLines
  | noTime
  deriving DecidableEq, Repr

def SettingsFault.message : SettingsFault → String
  | noChunkSize => "chunk_size must be at least 1"
  | noFiles => "max_files must be at least 1"
  | sizesOutOfOrder => "medium_file_bytes must be smaller than large_file_bytes"
  | noLines => "minimal_line_limit must be at least 1"
  | noTime => "time_budget_ms must be at least 1"

/-- What ends a run. -/
inductive RunError
  /-- Reading or writing did not succeed. -/
  | io (message : String)
  /-- The settings file does not have the form of one. -/
  | settingsSyntax
  | settingsFault (fault : SettingsFault)
  | pathNotFound (path : Path)
  | globPattern (error : Glob.Error)
  | other (message : String)
  deriving DecidableEq, Repr

def RunError.message : RunError → String
  | io message => "IO error: " ++ message
  | settingsSyntax => "Failed to parse config file:"
  | settingsFault fault => "Config validation error: " ++ fault.message
  | pathNotFound path => "Path not found: " ++ path.text
  | globPattern error => "Glob pattern error: " ++ error.message
  | other message => message

namespace Settings

def fault? (settings : Settings) : Option SettingsFault :=
  if settings.scan.chunkSize = 0 then some .noChunkSize
  else if settings.scan.maxFiles = some 0 then some .noFiles
  else if settings.limits.largeFileBytes ≤ settings.limits.mediumFileBytes then
    some .sizesOutOfOrder
  else if settings.limits.minimalLineLimit = 0 then some .noLines
  else if settings.limits.timeBudget = 0 then some .noTime
  else none

def excludedPatterns (settings : Settings) : Except RunError (List (List Glob.Token)) :=
  settings.scan.exclude.mapM fun pattern => (Glob.parse pattern).mapError .globPattern

def validate (settings : Settings) : Except RunError Unit :=
  match settings.fault? with
  | some fault => .error (.settingsFault fault)
  | none => settings.excludedPatterns.map fun _ => ()

end Settings

end SourceAtlas
