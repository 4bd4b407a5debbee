import SourceAtlas.Json.Value
import SourceAtlas.Text.Basic

/-!
# Reading JSON

Reads the text of one value.  The fuel of the mutual recursion bounds the
number of steps; two steps for each character are enough, since every second
step reads one.
-/

namespace SourceAtlas.Json

def isLayout (c : Char) : Bool :=
  c = ' ' || c = '\n' || c = '\t' || c = '\r'

def skipLayout (input : List Char) : List Char :=
  input.dropWhile isLayout

def hexValue? (c : Char) : Option Nat :=
  if '0' ≤ c && c ≤ '9' then some (c.toNat - 48)
  else if 'a' ≤ c && c ≤ 'f' then some (c.toNat - 87)
  else if 'A' ≤ c && c ≤ 'F' then some (c.toNat - 55)
  else none

/-- The value of four hexadecimal digits and the text behind them. -/
def unit? : List Char → Option (Nat × List Char)
  | a :: b :: c :: d :: rest =>
      match hexValue? a, hexValue? b, hexValue? c, hexValue? d with
      | some a, some b, some c, some d => some (4096 * a + 256 * b + 16 * c + d, rest)
      | _, _, _, _ => none
  | _ => none

def scalar? (code : Nat) : Option Char :=
  if h : code.isValidChar then some (Char.ofNatAux code h) else none

/-- The character written as one unit, or as a pair of units, behind `\u`. -/
def escapedUnit? (input : List Char) : Option (Char × List Char) :=
  match unit? input with
  | none => none
  | some (high, rest) =>
      if 55296 ≤ high && high < 56320 then
        match rest with
        | '\\' :: 'u' :: rest =>
            match unit? rest with
            | some (low, rest) =>
                if 56320 ≤ low && low < 57344 then
                  (scalar? (65536 + 1024 * (high - 55296) + (low - 56320))).map (·, rest)
                else none
            | none => none
        | _ => none
      else (scalar? high).map (·, rest)

def escaped? : List Char → Option (Char × List Char)
  | '"' :: rest => some ('"', rest)
  | '\\' :: rest => some ('\\', rest)
  | '/' :: rest => some ('/', rest)
  | 'b' :: rest => some ('\x08', rest)
  | 'f' :: rest => some ('\x0c', rest)
  | 'n' :: rest => some ('\n', rest)
  | 'r' :: rest => some ('\r', rest)
  | 't' :: rest => some ('\t', rest)
  | 'u' :: rest => escapedUnit? rest
  | _ => none

def stringLoop? (taken : List Char) : Nat → List Char → Option (String × List Char)
  | 0, _ => none
  | fuel + 1, input =>
      match input with
      | [] => none
      | '"' :: rest => some (String.ofList taken.reverse, rest)
      | '\\' :: rest =>
          match escaped? rest with
          | some (c, rest) => stringLoop? (c :: taken) fuel rest
          | none => none
      | c :: rest => if c.toNat < 32 then none else stringLoop? (c :: taken) fuel rest

def string? (input : List Char) : Option (String × List Char) :=
  stringLoop? [] (input.length + 1) input

def isDigit (c : Char) : Bool :=
  '0' ≤ c && c ≤ '9'

def ofDigits (digits : List Char) : Nat :=
  digits.foldl (fun value c => 10 * value + (c.toNat - 48)) 0

def digits (input : List Char) : List Char × List Char :=
  (input.takeWhile isDigit, input.dropWhile isDigit)

def fraction? : List Char → Option (List Char × List Char)
  | '.' :: input =>
      match digits input with
      | ([], _) => none
      | (found, rest) => some ('.' :: found, rest)
  | input => some ([], input)

def exponent? : List Char → Option (List Char × List Char)
  | [] => some ([], [])
  | c :: input =>
      if c = 'e' || c = 'E' then
        let (sign, input) :=
          match input with
          | '+' :: input => (['+'], input)
          | '-' :: input => (['-'], input)
          | input => ([], input)
        match digits input with
        | ([], _) => none
        | (found, rest) => some (c :: (sign ++ found), rest)
      else some ([], c :: input)

def unsigned? (negative : Bool) (input : List Char) : Option (Json × List Char) :=
  match digits input with
  | ([], _) => none
  | (whole, rest) =>
      if whole.length > 1 && whole.head? = some '0' then none
      else
        match fraction? rest with
        | none => none
        | some (fraction, rest) =>
            match exponent? rest with
            | none => none
            | some (exponent, rest) =>
                let value := ofDigits whole
                let sign := if negative then ['-'] else []
                if fraction.isEmpty && exponent.isEmpty && !(negative && value = 0) then
                  some (int (if negative then -value else value), rest)
                else
                  some (decimal (String.ofList (sign ++ whole ++ fraction ++ exponent)), rest)

def number? : List Char → Option (Json × List Char)
  | '-' :: input => unsigned? true input
  | input => unsigned? false input

def word? (word : String) (json : Json) (input : List Char) : Option (Json × List Char) :=
  (Text.dropWord? word.toList input).map (json, ·)

mutual

def value? : Nat → List Char → Option (Json × List Char)
  | 0, _ => none
  | fuel + 1, input =>
      match skipLayout input with
      | [] => none
      | '"' :: rest => (string? rest).map fun (value, rest) => (.text value, rest)
      | '[' :: rest =>
          match skipLayout rest with
          | ']' :: rest => some (.array [], rest)
          | rest => items? [] fuel rest
      | '{' :: rest =>
          match skipLayout rest with
          | '}' :: rest => some (.object [], rest)
          | rest => fields? [] fuel rest
      | 'n' :: rest => word? "ull" .null rest
      | 't' :: rest => word? "rue" (.bool true) rest
      | 'f' :: rest => word? "alse" (.bool false) rest
      | input => number? input

/-- Reads the items of an array, of which some have been found. -/
def items? (found : List Json) : Nat → List Char → Option (Json × List Char)
  | 0, _ => none
  | fuel + 1, input =>
      match value? fuel input with
      | none => none
      | some (item, rest) =>
          match skipLayout rest with
          | ',' :: rest => items? (item :: found) fuel rest
          | ']' :: rest => some (.array (item :: found).reverse, rest)
          | _ => none

/-- Reads the fields of an object, of which some have been found. -/
def fields? (found : List (String × Json)) : Nat → List Char → Option (Json × List Char)
  | 0, _ => none
  | fuel + 1, input =>
      match skipLayout input with
      | '"' :: rest =>
          match string? rest with
          | none => none
          | some (name, rest) =>
              match skipLayout rest with
              | ':' :: rest =>
                  match value? fuel rest with
                  | none => none
                  | some (value, rest) =>
                      match skipLayout rest with
                      | ',' :: rest => fields? ((name, value) :: found) fuel rest
                      | '}' :: rest => some (.object ((name, value) :: found).reverse, rest)
                      | _ => none
              | _ => none
      | _ => none

end

def parse? (input : String) : Option Json :=
  let input := input.toList
  match value? (2 * input.length + 2) input with
  | some (json, rest) => if (skipLayout rest).isEmpty then some json else none
  | none => none

end SourceAtlas.Json
