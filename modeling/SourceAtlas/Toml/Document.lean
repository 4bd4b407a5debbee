import SourceAtlas.Toml.Lexical

/-!
# TOML documents

A document is a sequence of lines.  A header says to which table the following
keys belong; a key adds one value.  The fuel of the readers counts characters,
of which each step reads one.
-/

namespace SourceAtlas.Toml

def word? (word : String) (value : Toml) : Word Toml := fun input =>
  (Text.dropWord? word.toList input).map (value, ·)

mutual

def value? : Nat → Word Toml
  | 0, _ => none
  | fuel + 1, input =>
      match input with
      | '"' :: _ => (string? input).map fun (value, rest) => (.text value, rest)
      | '\'' :: _ => (string? input).map fun (value, rest) => (.text value, rest)
      | '[' :: rest => items? [] fuel (skipLines rest.length rest)
      | '{' :: rest =>
          match skipBlanks rest with
          | '}' :: rest => some (.closed [], rest)
          | rest => pairs? [] fuel rest
      | 't' :: rest => word? "rue" (.bool true) rest
      | 'f' :: rest => word? "alse" (.bool false) rest
      | _ => numeral? input

def items? (found : List Toml) : Nat → Word Toml
  | 0, _ => none
  | fuel + 1, input =>
      match input with
      | ']' :: rest => some (.array found.reverse, rest)
      | _ =>
          match value? fuel input with
          | none => none
          | some (item, rest) =>
              match skipLines rest.length rest with
              | ',' :: rest => items? (item :: found) fuel (skipLines rest.length rest)
              | ']' :: rest => some (.array (item :: found).reverse, rest)
              | _ => none

def pairs? (found : Fields) : Nat → Word Toml
  | 0, _ => none
  | fuel + 1, input =>
      match key? input with
      | some ((path, name), '=' :: rest) =>
          match value? fuel (skipBlanks rest) with
          | none => none
          | some (value, rest) =>
              match addKey path name value .header found with
              | none => none
              | some found =>
                  match skipBlanks rest with
                  | ',' :: rest => pairs? found fuel rest
                  | '}' :: rest => some (.closed found, rest)
                  | _ => none
      | _ => none

end

/-- A document in reading: the fields so far and where the next keys go. -/
structure Progress where
  root : Fields
  place : List String

def Progress.add (progress : Progress) (path : List String) (name : String) (value : Toml) :
    Option Progress :=
  (changeAt .passage (addKey path name value) progress.place .header progress.root).map
    fun root => { progress with root }

def Progress.enter (progress : Progress) (isArray : Bool) (path : List String) (name : String) :
    Option Progress :=
  let change := if isArray then appendTable name else openTable name
  (changeAt .passage change path .header progress.root).map fun root =>
    { root, place := path ++ [name] }

def header? (isArray : Bool) (progress : Progress) (input : List Char) :
    Option (Progress × List Char) := do
  let ((path, name), rest) ← key? input
  let rest ← Text.dropWord? (if isArray then [']', ']'] else [']']) rest
  let progress ← progress.enter isArray path name
  return (progress, rest)

def pair? (progress : Progress) (input : List Char) : Option (Progress × List Char) := do
  let ((path, name), rest) ← key? input
  let rest ← behind? '=' rest
  let (value, rest) ← value? (2 * rest.length + 2) (skipBlanks rest)
  let progress ← progress.add path name value
  return (progress, rest)

def line? (progress : Progress) (input : List Char) : Option (Progress × List Char) :=
  match input with
  | '[' :: '[' :: rest => header? true progress rest
  | '[' :: rest => header? false progress rest
  | _ => pair? progress input

def linesLoop? (progress : Progress) : Nat → List Char → Option Fields
  | 0, _ => none
  | fuel + 1, input =>
      match skipLines input.length input with
      | [] => some progress.root
      | rest =>
          match line? progress rest with
          | none => none
          | some (progress, rest) =>
              match endOfLine? rest with
              | none => none
              | some rest => linesLoop? progress fuel rest

def withoutMark : List Char → List Char
  | '\ufeff' :: rest => rest
  | input => input

def document? (text : String) : Option Fields :=
  let input := withoutMark text.toList
  linesLoop? { root := [], place := [] } (input.length + 1) input

end SourceAtlas.Toml
