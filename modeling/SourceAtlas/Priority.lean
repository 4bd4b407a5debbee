import SourceAtlas.Classification.Basic

/-!
# Priorities

The order in which the files of a large tree are read: what starts a program
and what answers requests first, then services and data, then the rest.  Only
the path decides, so that files can be ordered before any of them is read.
-/

namespace SourceAtlas

/-- How soon a file is read. -/
inductive Priority
  | high
  | medium
  | low
  deriving DecidableEq, Repr, Inhabited

namespace Priority

def all : List Priority := [high, medium, low]

def name : Priority → String
  | high => "high"
  | medium => "medium"
  | low => "low"

def rank : Priority → Nat
  | high => 0
  | medium => 1
  | low => 2

def entryFiles : List String :=
  ["program.cs", "startup.cs", "main.py", "__main__.py", "app.py", "manage.py", "wsgi.py",
    "asgi.py"]

def isEntry (path : Path) : Bool :=
  path.fileName?.any fun name =>
    entryFiles.any fun entry => entry.toList = Text.lowerAscii name.toList

def ofRole : Role → Priority
  | .controller => high
  | .service => medium
  | .repository => medium
  | .handler => medium
  | .entity => medium
  | .dbContext => medium
  | _ => low

def ofPath (path : Path) : Priority :=
  if isEntry path then high
  else
    match Classification.ofPath? path with
    | some found => ofRole found.role
    | none => low

end Priority

end SourceAtlas
