import SourceAtlas.Files.Tree

/-!
# Writing into file trees

Making directories and writing files.  What cannot be done leaves the tree as
it was.
-/

namespace SourceAtlas.FileTree

/-- The tree with a node at a sequence of names from the root. -/
def withNode (tree : FileTree) (names : List String) (node : FileNode) : FileTree :=
  { tree with root := FileNode.place node names tree.root }

/-- The names of the directory that is to hold a new entry. -/
def parentNames (tree : FileTree) (components : List Component) :
    Except FileError (List String) :=
  match tree.resolve (.ofComponents components.dropLast) with
  | .error error => .error error
  | .ok names =>
      match tree.root.descend? names with
      | some (.directory _) => .ok names
      | some (.file ..) => .error .notDirectory
      | none => .error .notFound

/-- Puts a new entry where the components lead, if its directory is there. -/
def addEntry (tree : FileTree) (components : List Component) (node : FileNode) :
    Except FileError FileTree :=
  match components.getLast? with
  | some (.name name) =>
      (tree.parentNames components).map fun names => tree.withNode (names ++ [name]) node
  | _ => .error .notFound

def makeDirectory (tree : FileTree) (components : List Component) : Except FileError FileTree :=
  if tree.hasPath (.ofComponents components) then .error .exists
  else tree.addEntry components .empty

def acceptDirectory (tree : FileTree) (components : List Component) (error : FileError) :
    FileTree × Option FileError :=
  match tree.node (.ofComponents components) with
  | .ok (.directory _) => (tree, none)
  | _ => (tree, some error)

/-- Makes a directory and those that lead to it; the components come last one
first.  What has been made before an error stays. -/
def makeDirectoriesLoop (tree : FileTree) : List Component → FileTree × Option FileError
  | [] => (tree, none)
  | component :: above =>
      let components := (component :: above).reverse
      match tree.makeDirectory components with
      | .ok tree => (tree, none)
      | .error .notFound =>
          match makeDirectoriesLoop tree above with
          | (tree, some error) => (tree, some error)
          | (tree, none) =>
              match tree.makeDirectory components with
              | .ok tree => (tree, none)
              | .error error => tree.acceptDirectory components error
      | .error error => tree.acceptDirectory components error

def makeDirectories (tree : FileTree) (components : List Component) :
    FileTree × Option FileError :=
  makeDirectoriesLoop tree components.reverse

/-- Writes a file into a directory that is there.  A path that ends in a slash
names no file. -/
def writeFile (tree : FileTree) (path : Path) (bytes : ByteArray) : Except FileError FileTree :=
  let new := FileNode.file bytes .epoch
  match tree.node path with
  | .ok (.directory _) => .error .isDirectory
  | .ok (.file ..) => (tree.resolve path).map fun names => tree.withNode names new
  | .error error =>
      if error ≠ .notFound then .error error
      else
        match (Text.splitWhere (· = '/') path.text.toList).getLast? with
        | some [] =>
            if path.text.isEmpty then .error .notFound
            else (tree.parentNames path.components).bind fun _ => .error .isDirectory
        | some ['.'] => .error .notFound
        | _ => tree.addEntry path.components new

end SourceAtlas.FileTree
