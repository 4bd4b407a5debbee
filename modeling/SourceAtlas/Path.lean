import SourceAtlas.Text.Basic

/-!
# Paths

A path is text with `/` between its segments.  Repeated slashes and `.` inside
a path mean nothing, so paths are compared by their components.
-/

namespace SourceAtlas

/-- What a path is made of. -/
inductive Component
  /-- The leading slash of an absolute path. -/
  | root
  | current
  | up
  | name (text : String)
  deriving DecidableEq, Repr

/-- A path as written. -/
structure Path where
  text : String
  deriving DecidableEq, Repr, Inhabited

namespace Path

def segments (path : Path) : List (List Char) :=
  (Text.splitWhere (· = '/') path.text.toList).filter (!·.isEmpty)

def componentOf (segment : List Char) : Option Component :=
  if segment = ['.'] then none
  else if segment = ['.', '.'] then some .up
  else some (.name (String.ofList segment))

def components (path : Path) : List Component :=
  if path.text.toList.head? = some '/' then
    .root :: path.segments.filterMap componentOf
  else
    match path.segments with
    | ['.'] :: rest => .current :: rest.filterMap componentOf
    | segments => segments.filterMap componentOf

def Component.key : Component → String
  | .root => "0"
  | .current => "1"
  | .up => "2"
  | .name text => "3" ++ text

def key (path : Path) : List String :=
  path.components.map Component.key

instance : LT Path := ⟨fun first second => first.key < second.key⟩

instance : DecidableLT Path := fun first second =>
  inferInstanceAs (Decidable (first.key < second.key))

instance : Trans (· < · : Path → Path → Prop) (· < · : Path → Path → Prop)
    (· < · : Path → Path → Prop) :=
  ⟨fun hfirst hsecond => List.lt_trans hfirst hsecond⟩

def fileName? (path : Path) : Option String :=
  match path.components.getLast? with
  | some (.name text) => some text
  | _ => none

/-- The parts of a file name before and after its last dot.  A name without a
dot, or with its only dot in front, has no second part. -/
def splitName (name : List Char) : List Char × Option (List Char) :=
  let reversed := name.reverse
  let extension := reversed.takeWhile (· ≠ '.')
  match reversed.drop extension.length with
  | [] => (name, none)
  | [_] => (name, none)
  | _ :: stem => (stem.reverse, some extension.reverse)

def stem? (path : Path) : Option String :=
  path.fileName?.map fun name => String.ofList (splitName name.toList).1

def extension? (path : Path) : Option String :=
  path.fileName?.bind fun name => (splitName name.toList).2.map String.ofList

/-- The components of the directory that holds the path.  There is none for an
empty path and for the root. -/
def parentComponents? (path : Path) : Option (List Component) :=
  match path.components.getLast? with
  | none => none
  | some .root => none
  | some _ => some path.components.dropLast

def Component.segment : Component → String
  | .root => ""
  | .current => "."
  | .up => ".."
  | .name text => text

def ofComponents : List Component → Path
  | [] => ⟨"."⟩
  | [.root] => ⟨"/"⟩
  | components => ⟨"/".intercalate (components.map Component.segment)⟩

def ofNames (names : List String) : Path :=
  ⟨"/".intercalate names⟩

end Path

end SourceAtlas
