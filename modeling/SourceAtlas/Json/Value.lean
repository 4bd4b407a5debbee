/-!
# JSON values

The tree of values in which models and reports are written, and the access to
their fields that reading them back needs.
-/

namespace SourceAtlas

/-- A JSON value. -/
inductive Json
  | null
  | bool (value : Bool)
  | int (value : Int)
  /-- A number with a fraction or an exponent, kept as written. -/
  | decimal (digits : String)
  | text (value : String)
  | array (items : List Json)
  | object (fields : List (String × Json))
  deriving Inhabited, Repr

namespace Json

def nat (value : Nat) : Json := int value

def texts (values : List String) : Json := array (values.map text)

def ofOption {α : Type} (encode : α → Json) : Option α → Json
  | some value => encode value
  | none => null

def text? : Json → Option String
  | text value => some value
  | _ => none

def bool? : Json → Option Bool
  | bool value => some value
  | _ => none

/-- A number that a machine word of 64 bits can hold. -/
def nat? : Json → Option Nat
  | int value => if 0 ≤ value && value < 18446744073709551616 then some value.toNat else none
  | _ => none

def array? : Json → Option (List Json)
  | array items => some items
  | _ => none

def object? : Json → Option (List (String × Json))
  | object fields => some fields
  | _ => none

def list? {α : Type} (decode : Json → Option α) (json : Json) : Option (List α) :=
  json.array?.bind fun items => items.mapM decode

def option? {α : Type} (decode : Json → Option α) : Json → Option (Option α)
  | null => some none
  | json => (decode json).map some

/-- The name of a choice among names.  It may also stand as the only field of
an object. -/
def choice? : Json → Option String
  | text value => some value
  | object [(name, null)] => some name
  | _ => none

def lookup? (fields : List (String × Json)) (name : String) : Option Json :=
  (fields.reverse.find? (·.1 = name)).map (·.2)

def field? (json : Json) (name : String) : Option Json :=
  json.object?.bind (lookup? · name)

/-- The values of the fields of a record.  A record is written as an object or
as the array of all its values in order. -/
def record? (names : List String) : Json → Option (List (Option Json))
  | object fields => some (names.map (lookup? fields))
  | array items => if items.length = names.length then some (items.map some) else none
  | _ => none

/-- The values of the fields of a record of which any may be left out; of an
array, the last ones. -/
def sparseRecord? (names : List String) : Json → Option (List (Option Json))
  | object fields => some (names.map (lookup? fields))
  | array items =>
      if items.length ≤ names.length then
        some (items.map some ++ List.replicate (names.length - items.length) none)
      else none
  | _ => none

def needed {α : Type} (decode : Json → Option α) (field : Option Json) : Option α :=
  field.bind decode

def optional {α : Type} (decode : Json → Option α) : Option Json → Option (Option α)
  | some json => json.option? decode
  | none => some none

/-- A field with a value for the case that it is left out. -/
def withDefault {α : Type} (standard : α) (decode : Json → Option α) :
    Option Json → Option α
  | some json => decode json
  | none => some standard

end Json

end SourceAtlas
