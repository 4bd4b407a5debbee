import SourceAtlas.Model.Encoding

/-!
# Scan reports

What a scan has collected: models and failures by path, the order of reading
and the counts of what happened.
-/

namespace SourceAtlas

/-- The counts of a scan. -/
structure ScanCounts where
  /-- Source files below the root. -/
  discovered : Nat
  /-- Left out because only files of high priority were wanted. -/
  skippedByPriority : Nat
  /-- Left out because enough files had been taken. -/
  skippedByLimit : Nat
  extracted : Nat
  failed : Nat
  /-- Models from which something may be missing. -/
  incomplete : Nat
  chunks : Nat
  /-- The number of models of each role. -/
  roles : SortedMap Role Nat

namespace ScanCounts

def zero : ScanCounts :=
  { discovered := 0, skippedByPriority := 0, skippedByLimit := 0, extracted := 0, failed := 0,
    incomplete := 0, chunks := 0, roles := .empty }

def addModel (counts : ScanCounts) (model : SourceModel) : ScanCounts :=
  { counts with
    extracted := counts.extracted + 1
    incomplete := if model.isPartial then counts.incomplete + 1 else counts.incomplete
    roles :=
      match model.role with
      | some role => counts.roles.update role 0 (· + 1)
      | none => counts.roles }

end ScanCounts

/-- What a scan has collected. -/
structure ScanReport where
  models : SortedMap Path SourceModel
  /-- The paths of the models in the order of reading. -/
  order : List Path
  failures : List FileFailure
  counts : ScanCounts

namespace ScanReport

def empty : ScanReport :=
  { models := .empty, order := [], failures := [], counts := .zero }

/-- The report with the outcome of one file.  A file that no reader is in
charge of is not mentioned. -/
def record (report : ScanReport) (path : Path) :
    Except FailureCause SourceModel → ScanReport
  | .ok model =>
      { report with
        models := report.models.insert path model
        order := report.order ++ [path]
        counts := report.counts.addModel model }
  | .error cause =>
      if cause.isReportable then
        { report with
          failures := report.failures ++ [{ path, cause }]
          counts := { report.counts with failed := report.counts.failed + 1 } }
      else report

def model? (report : ScanReport) (path : Path) : Option SourceModel :=
  report.models.get? path

def inOrder (report : ScanReport) : List SourceModel :=
  report.order.filterMap report.model?

def folderOf (model : SourceModel) : String :=
  (model.role.getD .unknown).folder

/-- The paths of the models under the documentation folders of their roles. -/
def layout (report : ScanReport) : SortedMap String (List Path) :=
  report.models.entries.foldl
    (fun folders (path, model) => folders.update (folderOf model) [] (· ++ [path])) .empty

def countsToJson (counts : ScanCounts) : Json :=
  .object [
    ("discovered", .nat counts.discovered),
    ("skipped_by_priority", .nat counts.skippedByPriority),
    ("skipped_by_limit", .nat counts.skippedByLimit),
    ("extracted", .nat counts.extracted),
    ("failed", .nat counts.failed),
    ("partial", .nat counts.incomplete),
    ("chunks", .nat counts.chunks),
    ("roles", .object (counts.roles.entries.map fun (role, count) => (role.name, .nat count)))]

def toJson (report : ScanReport) (project : String) : Json :=
  .object [
    ("project", .text project),
    ("models", .object (report.models.entries.map fun (path, model) =>
      (path.text, model.toJson))),
    ("order", .array (report.order.map (·.toJson))),
    ("failures", .array (report.failures.map (·.toJson))),
    ("stats", countsToJson report.counts)]

end ScanReport

end SourceAtlas
