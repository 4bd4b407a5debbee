import SourceAtlas.Json.Printer
import SourceAtlas.Report.ScanReport
import SourceAtlas.Report.Survey

/-!
# Rendering reports

A report as JSON, as a summary in words, or as the layout of documentation
folders.
-/

namespace SourceAtlas.ScanReport

open Survey (line padded)

def listedFailures : Nat := 10

def modelLine (model : SourceModel) : String :=
  let tier :=
    match model.tier with
    | some tier => " " ++ tier.name
    | none => ""
  "[" ++ (Priority.ofPath model.path).name ++ "] " ++ model.path.text
    ++ " (" ++ (model.role.getD .unknown).name ++ ", " ++ model.language.name ++ ")" ++ tier
    ++ ": " ++ toString model.classes.length ++ " classes, "
    ++ toString model.methodCount ++ " methods, "
    ++ toString model.functions.length ++ " functions"
    ++ (if model.isPartial then " [partial]" else "")

def skippedLines (counts : ScanCounts) : List String :=
  if 0 < counts.skippedByPriority || 0 < counts.skippedByLimit then
    [line (toString counts.skippedByPriority ++ " skipped by priority, "
      ++ toString counts.skippedByLimit ++ " skipped by limit")]
  else []

def roleLines (counts : ScanCounts) : List String :=
  if counts.roles.isEmpty then []
  else
    "\nRoles:\n" :: counts.roles.entries.map fun (role, count) =>
      line ("  " ++ padded 20 role.label ++ " " ++ toString count)

def fileLines (report : ScanReport) : List String :=
  if report.order.isEmpty then []
  else "\nFiles:\n" :: report.inOrder.map fun model => line ("  " ++ modelLine model)

def failureLines (report : ScanReport) : List String :=
  let count := report.failures.length
  if count = 0 then []
  else
    let listed := (report.failures.take listedFailures).map fun failure =>
      line ("  " ++ failure.message)
    let more :=
      if listedFailures < count then
        [line ("  ... and " ++ toString (count - listedFailures) ++ " more")]
      else []
    line ("\nFailures (" ++ toString count ++ "):") :: listed ++ more

def summary (report : ScanReport) (project : String) : String :=
  let counts := report.counts
  String.join (line project
    :: line (toString counts.extracted ++ " files extracted, " ++ toString counts.failed
        ++ " failed, " ++ toString counts.incomplete ++ " partial")
    :: skippedLines counts ++ roleLines counts ++ report.fileLines ++ report.failureLines)

def layoutText (report : ScanReport) : String :=
  String.join (report.layout.entries.flatMap fun (folder, paths) =>
    line (folder ++ "/") :: paths.map fun path => line ("  " ++ path.text))

def render (report : ScanReport) (format : OutputFormat) (project : String) : String :=
  match format with
  | .json => (report.toJson project).pretty
  | .summary => report.summary project
  | .layout => report.layoutText

end SourceAtlas.ScanReport
