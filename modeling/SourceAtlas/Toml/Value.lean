/-!
# TOML values

The tree that a TOML document stands for.  Tables remember how they came about,
because that decides on whether a later line may add to them.
-/

namespace SourceAtlas

/-- How a table came about. -/
inductive TableOrigin
  /-- By a header of its own. -/
  | header
  /-- As a part of the header of another table. -/
  | passage
  /-- As a part of a key with dots. -/
  | dotted
  deriving DecidableEq, Repr

def TableOrigin.allowsDotted : TableOrigin → Bool
  | .header => false
  | .passage => true
  | .dotted => true

/-- A TOML value. -/
inductive Toml
  | text (value : String)
  | int (value : Int)
  | float
  | bool (value : Bool)
  | time
  | array (items : List Toml)
  /-- A table in braces, which no later line may add to. -/
  | closed (fields : List (String × Toml))
  | table (origin : TableOrigin) (fields : List (String × Toml))
  /-- Tables under a common header, the last one first. -/
  | tables (reversed : List (List (String × Toml)))
  deriving Inhabited, Repr

namespace Toml

abbrev Fields := List (String × Toml)

def lookup? (fields : Fields) (name : String) : Option Toml :=
  (fields.find? (·.1 = name)).map (·.2)

/-- The fields with the value of a name set, at its old place if it has
one. -/
def set (fields : Fields) (name : String) (value : Toml) : Fields :=
  if fields.any (·.1 = name) then
    fields.map fun field => if field.1 = name then (name, value) else field
  else fields ++ [(name, value)]

/-- Changes the fields of the table at a path.  Missing tables are put there
with an origin; through an array of tables the way leads into the last one.
There is no way through other values, nor for a dotted key through a table
that has a header. -/
def changeAt (origin : TableOrigin) (change : TableOrigin → Fields → Option Fields) :
    List String → TableOrigin → Fields → Option Fields
  | [], own, fields => change own fields
  | name :: path, _, fields =>
      match lookup? fields name with
      | none =>
          (changeAt origin change path origin []).map fun inner =>
            set fields name (.table origin inner)
      | some (.table own inner) =>
          if origin = .dotted && !own.allowsDotted then none
          else
            (changeAt origin change path own inner).map fun inner =>
              set fields name (.table own inner)
      | some (.tables (last :: earlier)) =>
          (changeAt origin change path .header last).map fun last =>
            set fields name (.tables (last :: earlier))
      | some _ => none

/-- Adds a value under a name that is still free.  A key with dots must end in
a table that such keys have made. -/
def addValue (hasDots : Bool) (name : String) (value : Toml) (own : TableOrigin)
    (fields : Fields) : Option Fields :=
  if hasDots && own ≠ .dotted then none
  else if fields.any (·.1 = name) then none
  else some (set fields name value)

/-- Adds a value to the fields of the current table under a key. -/
def addKey (path : List String) (name : String) (value : Toml) (own : TableOrigin)
    (fields : Fields) : Option Fields :=
  changeAt .dotted (addValue (!path.isEmpty) name value) path own fields

/-- Opens a table.  Only one that other headers passed through may be there
already. -/
def openTable (name : String) (_ : TableOrigin) (fields : Fields) : Option Fields :=
  match lookup? fields name with
  | none => some (set fields name (.table .header []))
  | some (.table .passage inner) => some (set fields name (.table .header inner))
  | some _ => none

def appendTable (name : String) (_ : TableOrigin) (fields : Fields) : Option Fields :=
  match lookup? fields name with
  | none => some (set fields name (.tables [[]]))
  | some (.tables reversed) => some (set fields name (.tables ([] :: reversed)))
  | some _ => none

end Toml

end SourceAtlas
