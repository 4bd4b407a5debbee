import SourceAtlas.Json.Value

/-!
# Printing JSON

Values are printed on one line, or with one item a line and two spaces to a
level.  Characters that a string cannot hold are escaped, and all others stand
for themselves.
-/

namespace SourceAtlas.Json

def hexDigit (value : Nat) : Char :=
  if value < 10 then Char.ofNat (48 + value) else Char.ofNat (87 + value)

def escape (c : Char) : List Char :=
  if c = '"' then ['\\', '"']
  else if c = '\\' then ['\\', '\\']
  else if c = '\n' then ['\\', 'n']
  else if c = '\r' then ['\\', 'r']
  else if c = '\t' then ['\\', 't']
  else if c = '\x08' then ['\\', 'b']
  else if c = '\x0c' then ['\\', 'f']
  else if c.toNat < 32 then
    ['\\', 'u', '0', '0', hexDigit (c.toNat / 16), hexDigit (c.toNat % 16)]
  else [c]

def quoted (value : String) : List Char :=
  '"' :: (value.toList.flatMap escape ++ ['"'])

mutual

def flat : Json → List Char
  | .null => "null".toList
  | .bool value => (if value then "true" else "false").toList
  | .int value => (toString value).toList
  | .decimal digits => digits.toList
  | .text value => quoted value
  | .array [] => ['[', ']']
  | .array (first :: rest) => '[' :: (flat first ++ flatItems rest ++ [']'])
  | .object [] => ['{', '}']
  | .object ((name, value) :: rest) =>
      '{' :: (quoted name ++ ':' :: flat value ++ flatFields rest ++ ['}'])

def flatItems : List Json → List Char
  | [] => []
  | item :: rest => ',' :: (flat item ++ flatItems rest)

def flatFields : List (String × Json) → List Char
  | [] => []
  | (name, value) :: rest => ',' :: (quoted name ++ ':' :: flat value ++ flatFields rest)

end

def compact (json : Json) : String :=
  String.ofList (flat json)

def lineBreak (level : Nat) : List Char :=
  '\n' :: List.replicate (2 * level) ' '

mutual

/-- A value whose lines after the first are indented to a level. -/
def print (level : Nat) : Json → List Char
  | .null => "null".toList
  | .bool value => (if value then "true" else "false").toList
  | .int value => (toString value).toList
  | .decimal digits => digits.toList
  | .text value => quoted value
  | .array [] => ['[', ']']
  | .array (first :: rest) =>
      '[' :: (lineBreak (level + 1) ++ print (level + 1) first ++ printItems (level + 1) rest
        ++ lineBreak level ++ [']'])
  | .object [] => ['{', '}']
  | .object ((name, value) :: rest) =>
      '{' :: (lineBreak (level + 1) ++ quoted name ++ [':', ' '] ++ print (level + 1) value
        ++ printFields (level + 1) rest ++ lineBreak level ++ ['}'])

def printItems (level : Nat) : List Json → List Char
  | [] => []
  | item :: rest => ',' :: (lineBreak level ++ print level item ++ printItems level rest)

def printFields (level : Nat) : List (String × Json) → List Char
  | [] => []
  | (name, value) :: rest =>
      ',' :: (lineBreak level ++ quoted name ++ [':', ' '] ++ print level value
        ++ printFields level rest)

end

def pretty (json : Json) : String :=
  String.ofList (print 0 json)

end SourceAtlas.Json
