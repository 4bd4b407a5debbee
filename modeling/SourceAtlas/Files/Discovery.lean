import SourceAtlas.Files.Tree
import SourceAtlas.Settings.Validation

/-!
# Discovery

The source files below a root.  Some directories are never entered, except as
the root itself, and excluded paths are left out.  A file is known by its path
from the root; a root that is a file is known by its name.

As trees have neither links nor entries that cannot be read, the setting that
links are followed has no effect here, and no entry is passed over because it
cannot be opened or because its name is not UTF-8.
-/

namespace SourceAtlas

/-- A file with the path under which it is reported. -/
structure FoundFile where
  path : Path
  bytes : ByteArray
  lastModified : Timestamp

namespace Discovery

def ignoredNames : List String :=
  ["__pycache__", ".git", ".pytest_cache", "venv", "env", ".venv", ".env", "node_modules",
    ".idea", ".vscode", "dist", "build", ".tox", "htmlcov", "bin", "obj"]

def isIgnored (name : String) : Bool :=
  ignoredNames.contains name || Text.endsWith name.toList ".egg-info".toList

mutual

/-- The files in and below a node, with their names from the root. -/
def filesOf (names : List String) : FileNode → List (List String × ByteArray × Timestamp)
  | .file bytes lastModified => [(names, bytes, lastModified)]
  | .directory entries => filesIn names entries

/-- The files in and below the entries of a directory that is entered. -/
def filesIn (names : List String) :
    List (String × FileNode) → List (List String × ByteArray × Timestamp)
  | [] => []
  | (name, node) :: entries =>
      (if node.isDirectory && isIgnored name then [] else filesOf (names ++ [name]) node)
        ++ filesIn names entries

end

/-- The path that exclude patterns are matched against: empty for a root that
is a file. -/
def matchedText (names : List String) : String :=
  "/".intercalate names

def reportedPath (root : Path) (names : List String) : Path :=
  if names.isEmpty then
    match root.fileName? with
    | some name => ⟨name⟩
    | none => root
  else .ofNames names

/-- The language of a file below a root, by the last name on the way. -/
def languageOf? (root : Path) (names : List String) : Option Language :=
  match names.getLast? with
  | some name => Language.ofPath? ⟨name⟩
  | none => Language.ofPath? root

/-- Whether a file is a source file that no pattern excludes. -/
def isWanted (patterns : List (List Glob.Token)) (root : Path) (names : List String) : Bool :=
  (languageOf? root names).isSome && !patterns.any (Glob.fits · (matchedText names))

/-- Whether the names of one file come before those of another. -/
def before (first second : FoundFile) : Bool :=
  !(decide (second.path < first.path))

/-- The source files below a root in the order of their paths. -/
def sourceFiles (patterns : List (List Glob.Token)) (tree : FileTree) (root : Path) :
    Except RunError (List FoundFile) :=
  match tree.node root with
  | .error _ => .error (.pathNotFound root)
  | .ok node =>
      let wanted := (filesOf [] node).filter fun file => isWanted patterns root file.1
      let found := wanted.map fun (names, bytes, lastModified) =>
        { path := reportedPath root names, bytes, lastModified : FoundFile }
      .ok (found.mergeSort before)

end Discovery

end SourceAtlas
