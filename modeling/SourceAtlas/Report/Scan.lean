import SourceAtlas.Files.Discovery
import SourceAtlas.Reading
import SourceAtlas.Report.ScanReport

/-!
# Scans

A scan reads the source files below a root: those of higher priority first,
files of one priority in the order of their paths, in portions of a fixed size.
-/

namespace SourceAtlas.Scan

def before (first second : FoundFile) : Bool :=
  let rank := fun (file : FoundFile) => (Priority.ofPath file.path).rank
  rank first < rank second || (rank first = rank second && Discovery.before first second)

def queue (files : List FoundFile) : List FoundFile :=
  files.mergeSort before

def ofWantedPriority (settings : ScanSettings) (files : List FoundFile) : List FoundFile :=
  if settings.priorityOnly then files.filter (Priority.ofPath ·.path = .high) else files

/-- The first files of the queue, as many as are wanted. -/
def ofWantedNumber (settings : ScanSettings) (files : List FoundFile) : List FoundFile :=
  match settings.maxFiles with
  | some count => files.take count
  | none => files

/-- Cuts a list into portions of a size; the last one may be smaller. -/
def portionsLoop {α : Type} (size : Nat) : Nat → List α → List (List α)
  | 0, _ => []
  | fuel + 1, items =>
      match items with
      | [] => []
      | items => items.take size :: portionsLoop size fuel (items.drop size)

/-- Cuts a list into portions of a size, at least one; the last portion may be
smaller. -/
def portions {α : Type} (size : Nat) (items : List α) : List (List α) :=
  portionsLoop (max size 1) items.length items

def readFile (limits : Limits) (file : FoundFile) : Except FailureCause SourceModel := do
  let source ← decodeFile file.path file.bytes file.lastModified
  readClassified limits source

def recordPortion (limits : Limits) (report : ScanReport) (files : List FoundFile) :
    ScanReport :=
  let report :=
    { report with counts := { report.counts with chunks := report.counts.chunks + 1 } }
  files.foldl (fun report file => report.record file.path (readFile limits file)) report

def ofFiles (settings : Settings) (files : List FoundFile) : ScanReport :=
  let queue := queue files
  let wanted := ofWantedPriority settings.scan queue
  let taken := ofWantedNumber settings.scan wanted
  let start : ScanReport :=
    { ScanReport.empty with
      counts :=
        { ScanCounts.zero with
          discovered := queue.length
          skippedByPriority := queue.length - wanted.length
          skippedByLimit := wanted.length - taken.length } }
  (portions settings.scan.chunkSize taken).foldl (recordPortion settings.limits) start

def ofTree (settings : Settings) (tree : FileTree) (root : Path) : Except RunError ScanReport := do
  settings.validate
  let patterns ← settings.excludedPatterns
  let files ← Discovery.sourceFiles patterns tree root
  return ofFiles settings files

end SourceAtlas.Scan
