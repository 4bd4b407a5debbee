import SourceAtlas.Model.SourceModel

/-!
# File trees

Directories and files as a value, and how a path leads from a working directory
to one of them.  Every entry of a tree is a file or a directory that can be read,
and its name is a text.  There are no links, no entries that may not be read, and
no names that are not UTF-8.
-/

namespace SourceAtlas

/-- A file or a directory. -/
inductive FileNode
  | file (bytes : ByteArray) (lastModified : Timestamp)
  | directory (entries : List (String × FileNode))
  deriving Inhabited

/-- Why a path leads nowhere or an entry cannot be used. -/
inductive FileError
  | notFound
  | notDirectory
  | isDirectory
  | exists
  deriving DecidableEq, Repr

def FileError.message : FileError → String
  | notFound => "No such file or directory (os error 2)"
  | notDirectory => "Not a directory (os error 20)"
  | isDirectory => "Is a directory (os error 21)"
  | .exists => "File exists (os error 17)"

namespace FileNode

def empty : FileNode := directory []

def isDirectory : FileNode → Bool
  | directory _ => true
  | file .. => false

def entry? (name : String) : FileNode → Option FileNode
  | directory entries => (entries.find? (·.1 = name)).map (·.2)
  | file .. => none

def setEntry (name : String) (node : FileNode) :
    List (String × FileNode) → List (String × FileNode)
  | [] => [(name, node)]
  | (other, old) :: entries =>
      if other = name then (name, node) :: entries else (other, old) :: setEntry name node entries

def descend? (node : FileNode) : List String → Option FileNode
  | [] => some node
  | name :: names => (node.entry? name).bind (·.descend? names)

/-- The tree with a node at a sequence of names.  Missing directories are put
there; a file on the way gives way to one. -/
def place (new : FileNode) : List String → FileNode → FileNode
  | [], _ => new
  | name :: names, node =>
      let entries :=
        match node with
        | directory entries => entries
        | file .. => []
      let old := (node.entry? name).getD empty
      directory (setEntry name (place new names old) entries)

end FileNode

/-- A tree with a working directory in it. -/
structure FileTree where
  root : FileNode
  /-- The names of the directories that lead to the working directory. -/
  workingDirectory : List String
  deriving Inhabited

namespace FileTree

/-- Follows the segments of a path.  `reversed` are the names of where the way
stands, last one first. -/
def walk (root : FileNode) (reversed : List String) :
    List (List Char) → Except FileError (List String)
  | [] => .ok reversed
  | segment :: segments =>
      match root.descend? reversed.reverse with
      | none => .error .notFound
      | some (.file ..) => .error .notDirectory
      | some (.directory entries) =>
          if segment = [] || segment = ['.'] then walk root reversed segments
          else if segment = ['.', '.'] then walk root reversed.tail segments
          else
            let name := String.ofList segment
            if entries.any (·.1 = name) then walk root (name :: reversed) segments
            else .error .notFound

/-- The names of the way from the root to where a path leads. -/
def resolve (tree : FileTree) (path : Path) : Except FileError (List String) :=
  if path.text.isEmpty then .error .notFound
  else
    let segments := Text.splitWhere (· = '/') path.text.toList
    let start :=
      if path.text.toList.head? = some '/' then [] else tree.workingDirectory.reverse
    (walk tree.root start segments).map List.reverse

def node (tree : FileTree) (path : Path) : Except FileError FileNode :=
  match tree.resolve path with
  | .error error => .error error
  | .ok names =>
      match tree.root.descend? names with
      | some node => .ok node
      | none => .error .notFound

def hasPath (tree : FileTree) (path : Path) : Bool :=
  match tree.node path with
  | .ok _ => true
  | .error _ => false

def bytes (tree : FileTree) (path : Path) : Except FileError ByteArray :=
  match tree.node path with
  | .ok (.file bytes _) => .ok bytes
  | .ok (.directory _) => .error .isDirectory
  | .error error => .error error

/-- The name of the entry that a path leads to, if it has one. -/
def entryName? (tree : FileTree) (path : Path) : Option String :=
  match tree.resolve path with
  | .ok names => names.getLast?
  | .error _ => none

end FileTree

end SourceAtlas
