import SourceAtlas.CommandLine.Run
import SourceAtlas.Files.Discovery

/-!
# The program

Takes a picture of the files that a command line asks for, runs on it, and
writes and prints what comes of that.
-/

namespace SourceAtlas.Program

open CommandLine

def namesOf (absolute : String) : List String :=
  (Path.mk absolute).components.filterMap fun component =>
    match component with
    | .name text => some text
    | _ => none

def timestampOf (time : IO.FS.SystemTime) : Timestamp :=
  .ofParts time.sec.toNat time.nsec.toNat

/-- Reads a file, or a directory with everything that is worth entering. -/
partial def readNode (location : String) : IO FileNode := do
  let place ← IO.FS.realPath location
  if ← place.isDir then
    let mut entries : List (String × FileNode) := []
    for entry in ← place.readDir do
      let skipped := (← entry.path.isDir) && Discovery.isIgnored entry.fileName
      let node ← if skipped then pure .empty else readNode entry.path.toString
      entries := (entry.fileName, node) :: entries
    return .directory entries
  else
    let facts ← place.metadata
    return .file (← IO.FS.readBinFile place) (timestampOf facts.modified)

/-- Adds an empty directory to a picture unless something is known there. -/
def addDirectory (root : FileNode) (names : List String) : FileNode :=
  if (root.descend? names).isSome then root else FileNode.place .empty names root

/-- Adds the directories on the way along a path, which need not be the one that
the path leads to. -/
def addWay (root : FileNode) (path : Path) : IO FileNode := do
  let mut root := root
  let components := path.components
  for count in List.range components.length do
    try
      let place ← IO.FS.realPath (Path.ofComponents (components.take count)).text
      if ← place.isDir then root := addDirectory root (namesOf place.toString)
    catch _ => pure ()
  return root

def addPath (root : FileNode) (path : Path) : IO FileNode := do
  let root ← addWay root path
  try
    let place ← IO.FS.realPath path.text
    return FileNode.place (← readNode place.toString) (namesOf place.toString) root
  catch _ => return root

def picture (invocation : Invocation) : IO FileTree := do
  let workingDirectory := namesOf (← IO.currentDir).toString
  let mut root := addDirectory .empty workingDirectory
  for path in inputs invocation do
    root ← addPath root path
  return { root, workingDirectory }

def write (delivery : Delivery) : IO Unit := do
  IO.FS.createDirAll (Path.ofComponents (directoriesOf delivery.path)).text
  IO.FS.writeFile delivery.path.text delivery.content

def fail (error : RunError) : IO UInt32 := do
  IO.eprintln ("Error: " ++ error.message)
  return 1

def perform (invocation : Invocation) : IO UInt32 := do
  match produce (← picture invocation) invocation with
  | .error error => fail error
  | .ok product =>
      try
        for delivery in product.delivery.toList do
          write delivery
        IO.print product.output
        return 0
      catch error => fail (.io (toString error))

def usageText : String :=
  "Usage: strata <COMMAND>\n\nCommands: " ++ ", ".intercalate commandNames

end SourceAtlas.Program

open SourceAtlas in
def main (words : List String) : IO UInt32 := do
  match CommandLine.read words with
  | .ok invocation => Program.perform invocation
  | .error .versionWanted =>
      IO.print CommandLine.versionText
      return 0
  | .error .helpWanted =>
      IO.println Program.usageText
      return 0
  | .error error =>
      IO.eprintln Program.usageText
      return error.exitCode.toUInt32
