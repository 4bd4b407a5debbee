import SourceAtlas.Settings.Validation
import SourceAtlas.Toml.Document

/-!
# Reading settings

The settings that a TOML document stands for.  Every section and every field
may be left out; unknown ones do not matter.
-/

namespace SourceAtlas

namespace Toml

/-- The items of an array, or the tables under a common header. -/
def listed? : Toml → Option (List Toml)
  | array items => some items
  | tables reversed => some (reversed.reverse.map (.table .header))
  | _ => none

def fields? : Toml → Option Fields
  | closed fields => some fields
  | table _ fields => some fields
  | _ => none

/-- The values of the fields of a record of which any may be left out.  A
record is written as a table, or as the array of its first values in order.  A
time has none of the fields. -/
def record? (names : List String) (value : Toml) : Option (List (Option Toml)) :=
  match value with
  | time => some (names.map fun _ => none)
  | _ =>
      match value.fields?, value.listed? with
      | some fields, _ => some (names.map (lookup? fields))
      | none, some items => some ((List.range names.length).map (items[·]?))
      | none, none => none

def text? : Toml → Option String
  | text value => some value
  | _ => none

def bool? : Toml → Option Bool
  | bool value => some value
  | _ => none

def nat? : Toml → Option Nat
  | int value => if 0 ≤ value then some value.toNat else none
  | _ => none

def isEmptyPart (value : Toml) : Bool :=
  match value.fields?, value.listed? with
  | some fields, _ => fields.isEmpty
  | none, some items => items.isEmpty
  | none, none => false

/-- The name of a choice among names.  It may also stand as the only field of
a table, with an empty value. -/
def choice? (value : Toml) : Option String :=
  match value, value.fields? with
  | text name, _ => some name
  | _, some [(name, inner)] => if inner.isEmptyPart then some name else none
  | _, _ => none

/-- A setting that keeps its standard value if the document does not name it. -/
def withDefault {α : Type} (standard : α) (decode : Toml → Option α) :
    Option Toml → Option α
  | some value => decode value
  | none => some standard

def named? {α : Type} (all : List α) (name : α → String) (value : Toml) : Option α :=
  value.choice?.bind fun text => all.find? (name · = text)

end Toml

open Toml

def ProjectSettings.ofToml? (value : Toml) : Option ProjectSettings :=
  match value.record? ["name"] with
  | some [name] => do
      let name ← withDefault standard.name Toml.text? name
      return { name }
  | _ => none

def ScanSettings.ofToml? (value : Toml) : Option ScanSettings :=
  match value.record? ["exclude", "chunk_size", "priority_only", "max_files",
      "follow_links"] with
  | some [exclude, chunkSize, priorityOnly, maxFiles, followLinks] => do
      let exclude ← withDefault standard.exclude
        (fun value => value.listed?.bind fun items => items.mapM Toml.text?) exclude
      let chunkSize ← withDefault standard.chunkSize Toml.nat? chunkSize
      let priorityOnly ← withDefault standard.priorityOnly Toml.bool? priorityOnly
      let maxFiles ← withDefault standard.maxFiles (fun value => value.nat?.map some) maxFiles
      let followLinks ← withDefault standard.followLinks Toml.bool? followLinks
      return { exclude, chunkSize, priorityOnly, maxFiles, followLinks }
  | _ => none

def Limits.fieldNames : List String :=
  ["medium_file_bytes", "large_file_bytes", "minimal_line_limit", "partial_method_limit",
    "partial_constant_limit", "time_budget_ms", "tier"]

def Limits.ofToml? (value : Toml) : Option Limits :=
  match value.record? fieldNames with
  | some [medium, large, lines, methods, constants, budget, tier] => do
      let mediumFileBytes ← withDefault standard.mediumFileBytes Toml.nat? medium
      let largeFileBytes ← withDefault standard.largeFileBytes Toml.nat? large
      let minimalLineLimit ← withDefault standard.minimalLineLimit Toml.nat? lines
      let partialMethodLimit ← withDefault standard.partialMethodLimit Toml.nat? methods
      let partialConstantLimit ← withDefault standard.partialConstantLimit Toml.nat? constants
      let timeBudget ← withDefault standard.timeBudget Toml.nat? budget
      let tier ← withDefault standard.tier (named? TierChoice.all TierChoice.name) tier
      return { mediumFileBytes, largeFileBytes, minimalLineLimit, partialMethodLimit,
               partialConstantLimit, timeBudget, tier }
  | _ => none

def OutputSettings.ofToml? (value : Toml) : Option OutputSettings :=
  match value.record? ["format", "path"] with
  | some [format, path] => do
      let format ←
        withDefault standard.format (named? OutputFormat.all OutputFormat.name) format
      let path ← withDefault standard.path
        (fun value => value.text?.map fun text => some ⟨text⟩) path
      return { format, path }
  | _ => none

namespace Settings

def ofFields? (fields : Toml.Fields) : Option Settings := do
  let project ← withDefault .standard ProjectSettings.ofToml? (lookup? fields "project")
  let scan ← withDefault .standard ScanSettings.ofToml? (lookup? fields "scan")
  let limits ← withDefault .standard Limits.ofToml? (lookup? fields "heuristic")
  let output ← withDefault .standard OutputSettings.ofToml? (lookup? fields "output")
  return { project, scan, limits, output }

/-- The settings that a text stands for, without a look at their values. -/
def parse? (text : String) : Option Settings :=
  (Toml.document? text).bind ofFields?

/-- The settings of a file with these bytes, or what is wrong with it. -/
def load (bytes : ByteArray) : Except RunError Settings :=
  match String.fromUTF8? bytes with
  | none => .error (.io "stream did not contain valid UTF-8")
  | some content =>
      match parse? content with
      | none => .error .settingsSyntax
      | some settings => do
          settings.validate
          return settings

end Settings

end SourceAtlas
