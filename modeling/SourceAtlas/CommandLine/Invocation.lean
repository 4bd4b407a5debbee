import SourceAtlas.CommandLine.Options
import SourceAtlas.Settings.Basic

/-!
# Invocations

What a command line asks for.
-/

namespace SourceAtlas.CommandLine

/-- What a command line asks for. -/
inductive Invocation
  /-- Reads all source files and reports on them. -/
  | analyze (path : Path) (settingsFile : Option Path) (options : Overrides) (verbose : Bool)
  /-- Counts source files without reading them. -/
  | survey (path : Path) (settingsFile : Option Path)
  /-- Explains the role of one file. -/
  | classify (file : Path)
  | version
  deriving DecidableEq

def Invocation.isVerbose : Invocation → Bool
  | analyze _ _ _ verbose => verbose
  | _ => false

def helpArgument : Argument := { name := "help", short := some 'h', action := .help }

def settingsArgument : Argument :=
  { name := "config", short := some 'c', action := .take .path }

def longOption (name : String) (action : Action) : Argument :=
  { name, short := none, action }

def positional (name : String) : Argument :=
  { name, short := none, action := .take .path }

def analyzeGrammar : Grammar :=
  { options := [
      { name := "output", short := some 'o', action := .take .path },
      settingsArgument,
      longOption "format" (.take (.choice (OutputFormat.all.map (·.name)))),
      longOption "tier" (.take (.choice (TierChoice.all.map (·.name)))),
      longOption "chunk-size" (.take .number),
      longOption "priority-only" .flag,
      longOption "max-files" (.take .number),
      longOption "exclude" (.collect .text),
      { name := "verbose", short := some 'v', action := .flag },
      helpArgument]
    positional := some (positional "PATH") }

def surveyGrammar : Grammar :=
  { options := [settingsArgument, helpArgument], positional := some (positional "PATH") }

def classifyGrammar : Grammar :=
  { options := [helpArgument], positional := some (positional "FILE") }

def versionGrammar : Grammar :=
  { options := [helpArgument], positional := none }

def globalGrammar : Grammar :=
  { options := [helpArgument, { name := "version", short := some 'V', action := .version }]
    positional := none }

def value? (given : List Given) (name : String) : Option String :=
  (given.find? (·.name = name)).map (·.value)

def path? (given : List Given) (name : String) : Option Path :=
  (value? given name).map Path.mk

def overrides (given : List Given) : Overrides :=
  { output := path? given "output"
    format := (value? given "format").bind fun text => OutputFormat.all.find? (·.name = text)
    exclude := (given.filter (·.name = "exclude")).map (·.value)
    tier := (value? given "tier").bind fun text => TierChoice.all.find? (·.name = text)
    chunkSize := (value? given "chunk-size").bind number?
    priorityOnly := (value? given "priority-only").isSome
    maxFiles := (value? given "max-files").bind number? }

def commandNames : List String := ["analyze", "survey", "classify", "version", "help"]

def positionalPath (given : List Given) (name : String) : Path :=
  (path? given name).getD ⟨""⟩

def help (words : List String) : UsageError :=
  match words with
  | [] => .helpWanted
  | [name] => if commandNames.contains name then .helpWanted else .invalidSubcommand
  | _ => .invalidSubcommand

def readCommand (name : String) (words : List String) : Except UsageError Invocation :=
  match name with
  | "analyze" =>
      (analyzeGrammar.read words).map fun given =>
        .analyze (positionalPath given "PATH") (path? given "config") (overrides given)
          (value? given "verbose").isSome
  | "survey" =>
      (surveyGrammar.read words).map fun given =>
        .survey (positionalPath given "PATH") (path? given "config")
  | "classify" =>
      (classifyGrammar.read words).map fun given => .classify (positionalPath given "FILE")
  | "version" => (versionGrammar.read words).map fun _ => .version
  | _ => .error (help words)

/-- The invocation of the words behind the name of the program. -/
def read : List String → Except UsageError Invocation
  | [] => .error .nothingGiven
  | word :: words =>
      if commandNames.contains word then readCommand word words
      else
        match word.toList with
        | ['-', '-'] =>
            match words with
            | [] => .error .nothingGiven
            | next :: _ =>
                .error (if commandNames.contains next then .unknownArgument
                  else .invalidSubcommand)
        | '-' :: '-' :: name =>
            (readLong globalGrammar .start name).bind fun _ => .error .nothingGiven
        | '-' :: c :: rest =>
            (readShort globalGrammar .start (c :: rest)).bind fun _ => .error .nothingGiven
        | _ => .error .invalidSubcommand

end SourceAtlas.CommandLine
