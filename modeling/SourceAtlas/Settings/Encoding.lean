import SourceAtlas.Model.Encoding
import SourceAtlas.Settings.Reading

/-!
# Settings as JSON

How settings are written as JSON values, and how limits are read back.
-/

namespace SourceAtlas

def TierChoice.toJson (choice : TierChoice) : Json := .text choice.name

def TierChoice.ofJson? : Json → Option TierChoice := Json.named? all name

def OutputFormat.toJson (format : OutputFormat) : Json := .text format.name

def OutputFormat.ofJson? : Json → Option OutputFormat := Json.named? all name

namespace Limits

def toJson (limits : Limits) : Json :=
  .object [
    ("medium_file_bytes", .nat limits.mediumFileBytes),
    ("large_file_bytes", .nat limits.largeFileBytes),
    ("minimal_line_limit", .nat limits.minimalLineLimit),
    ("partial_method_limit", .nat limits.partialMethodLimit),
    ("partial_constant_limit", .nat limits.partialConstantLimit),
    ("time_budget_ms", .nat limits.timeBudget),
    ("tier", limits.tier.toJson)]

def ofJson? (json : Json) : Option Limits :=
  match json.sparseRecord? fieldNames with
  | some [medium, large, lines, methods, constants, budget, tier] => do
      let mediumFileBytes ← Json.withDefault standard.mediumFileBytes Json.nat? medium
      let largeFileBytes ← Json.withDefault standard.largeFileBytes Json.nat? large
      let minimalLineLimit ← Json.withDefault standard.minimalLineLimit Json.nat? lines
      let partialMethodLimit ← Json.withDefault standard.partialMethodLimit Json.nat? methods
      let partialConstantLimit ←
        Json.withDefault standard.partialConstantLimit Json.nat? constants
      let timeBudget ← Json.withDefault standard.timeBudget Json.nat? budget
      let tier ← Json.withDefault standard.tier TierChoice.ofJson? tier
      return { mediumFileBytes, largeFileBytes, minimalLineLimit, partialMethodLimit,
               partialConstantLimit, timeBudget, tier }
  | _ => none

end Limits

namespace Settings

def toJson (settings : Settings) : Json :=
  .object [
    ("project", .object [("name", .text settings.project.name)]),
    ("scan", .object [
      ("exclude", .texts settings.scan.exclude),
      ("chunk_size", .nat settings.scan.chunkSize),
      ("priority_only", .bool settings.scan.priorityOnly),
      ("max_files", .ofOption .nat settings.scan.maxFiles),
      ("follow_links", .bool settings.scan.followLinks)]),
    ("heuristic", settings.limits.toJson),
    ("output", .object [
      ("format", settings.output.format.toJson),
      ("path", .ofOption (·.toJson) settings.output.path)])]

end Settings

end SourceAtlas
