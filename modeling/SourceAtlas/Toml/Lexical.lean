import SourceAtlas.Json.Reader
import SourceAtlas.Toml.Value

/-!
# Words of TOML

Blanks, comments, strings, numbers and times.  Every reader answers what it has
read and the text behind it, or nothing if the text does not begin that way.
-/

namespace SourceAtlas.Toml

abbrev Word (α : Type) := List Char → Option (α × List Char)

def isBlank (c : Char) : Bool := c = ' ' || c = '\t'

def skipBlanks (input : List Char) : List Char :=
  input.dropWhile isBlank

/-- A character that may stand in a comment or a string. -/
def isPrintable (c : Char) : Bool :=
  c = '\t' || (32 ≤ c.toNat && c.toNat ≠ 127)

def lineBreak? : List Char → Option (List Char)
  | '\n' :: rest => some rest
  | '\r' :: '\n' :: rest => some rest
  | _ => none

/-- The text behind a comment at its start, if there is one. -/
def skipComment (input : List Char) : List Char :=
  match input with
  | '#' :: rest => rest.dropWhile isPrintable
  | _ => input

/-- The text behind the end of a line, which may hold blanks and a comment. -/
def endOfLine? (input : List Char) : Option (List Char) :=
  match skipComment (skipBlanks input) with
  | [] => some []
  | rest => lineBreak? rest

def skipLines : Nat → List Char → List Char
  | 0, input => input
  | fuel + 1, input =>
      let rest := skipComment (skipBlanks input)
      match lineBreak? rest with
      | some rest => skipLines fuel rest
      | none => rest

/-- The value of a number of hexadecimal digits at the start of a text. -/
def hex? : Nat → Nat → List Char → Option (Nat × List Char)
  | 0, value, input => some (value, input)
  | _ + 1, _, [] => none
  | count + 1, value, c :: rest =>
      (Json.hexValue? c).bind fun digit => hex? count (16 * value + digit) rest

def codePoint? (count : Nat) : Word Char := fun input =>
  (hex? count 0 input).bind fun (code, rest) => (Json.scalar? code).map (·, rest)

def escaped? : Word Char
  | 'b' :: rest => some ('\x08', rest)
  | 'f' :: rest => some ('\x0c', rest)
  | 'n' :: rest => some ('\n', rest)
  | 'r' :: rest => some ('\r', rest)
  | 't' :: rest => some ('\t', rest)
  | '"' :: rest => some ('"', rest)
  | '\\' :: rest => some ('\\', rest)
  | 'u' :: rest => codePoint? 4 rest
  | 'U' :: rest => codePoint? 8 rest
  | _ => none

/-- The rest of a string with escapes, behind its opening quote. -/
def basicLoop (taken : List Char) : Nat → Word String
  | 0, _ => none
  | fuel + 1, input =>
      match input with
      | '"' :: rest => some (String.ofList taken.reverse, rest)
      | '\\' :: rest => (escaped? rest).bind fun (c, rest) => basicLoop (c :: taken) fuel rest
      | c :: rest => if isPrintable c then basicLoop (c :: taken) fuel rest else none
      | [] => none

/-- The rest of a string without escapes, behind its opening quote. -/
def literalLoop (taken : List Char) : Word String
  | '\'' :: rest => some (String.ofList taken.reverse, rest)
  | c :: rest => if isPrintable c then literalLoop (c :: taken) rest else none
  | [] => none

def skipSpace : Nat → List Char → List Char
  | 0, input => input
  | fuel + 1, input =>
      match lineBreak? (skipBlanks input) with
      | some rest => skipSpace fuel rest
      | none => skipBlanks input

/-- The text behind a backslash that joins lines: at least one line break with
white space around it. -/
def joinedLine? (fuel : Nat) (input : List Char) : Option (List Char) :=
  (lineBreak? (skipBlanks input)).map (skipSpace fuel)

/-- The number of copies of a quote, up to a limit, and the text behind
them. -/
def quotes (quote : Char) : Nat → List Char → Nat × List Char
  | 0, input => (0, input)
  | _ + 1, [] => (0, [])
  | limit + 1, c :: rest =>
      if c = quote then
        let (count, behind) := quotes quote limit rest
        (count + 1, behind)
      else (0, c :: rest)

/-- The rest of a string of several lines, behind its opening quotes.  Up to
two quotes may stand just before the closing three. -/
def linesLoop (quote : Char) (escapes : Bool) (taken : List Char) : Nat → Word String
  | 0, _ => none
  | fuel + 1, input =>
      match input with
      | [] => none
      | c :: rest =>
          if c = quote then
            let (count, behind) := quotes quote 5 input
            if 3 ≤ count then
              some (String.ofList (List.replicate (count - 3) quote ++ taken).reverse, behind)
            else linesLoop quote escapes (List.replicate count quote ++ taken) fuel behind
          else if escapes && c = '\\' then
            match escaped? rest with
            | some (c, rest) => linesLoop quote escapes (c :: taken) fuel rest
            | none =>
                (joinedLine? fuel rest).bind fun rest => linesLoop quote escapes taken fuel rest
          else
            match lineBreak? input with
            | some rest => linesLoop quote escapes ('\n' :: taken) fuel rest
            | none =>
                if isPrintable c then linesLoop quote escapes (c :: taken) fuel rest else none

/-- A string of several lines without a line break just behind its opening
quotes. -/
def linesString (quote : Char) (escapes : Bool) : Word String := fun input =>
  linesLoop quote escapes [] (input.length + 1) ((lineBreak? input).getD input)

def lineString? : Word String
  | '"' :: rest => basicLoop [] (rest.length + 1) rest
  | '\'' :: rest => literalLoop [] rest
  | _ => none

def string? : Word String
  | '"' :: '"' :: '"' :: rest => linesString '"' true rest
  | '\'' :: '\'' :: '\'' :: rest => linesString '\'' false rest
  | input => lineString? input

def inBareKey (c : Char) : Bool :=
  Text.isAsciiLetter c || Text.isAsciiDigit c || c = '_' || c = '-'

def keyPart? : Word String := fun input =>
  match input.takeWhile inBareKey with
  | [] => lineString? input
  | found => some (String.ofList found, input.dropWhile inBareKey)

def keyLoop (parts : List String) : Nat → Word (List String)
  | 0, _ => none
  | fuel + 1, input =>
      (keyPart? (skipBlanks input)).bind fun (part, rest) =>
        match skipBlanks rest with
        | '.' :: rest => keyLoop (part :: parts) fuel rest
        | rest => some (part :: parts, rest)

/-- A key: its parts before the last one, and the last one. -/
def key? : Word (List String × String) := fun input =>
  match keyLoop [] (input.length + 1) input with
  | some (last :: reversed, rest) => some ((reversed.reverse, last), rest)
  | _ => none

def digitsLoop (isDigit : Char → Bool) (taken : List Char) : Word (List Char)
  | [] => some (taken.reverse, [])
  | [c] => if isDigit c then some ((c :: taken).reverse, []) else
      if c = '_' then none else some (taken.reverse, [c])
  | c :: d :: rest =>
      if isDigit c then digitsLoop isDigit (c :: taken) (d :: rest)
      else if c = '_' then
        if isDigit d then digitsLoop isDigit (d :: taken) rest else none
      else some (taken.reverse, c :: d :: rest)

def digits? (isDigit : Char → Bool) : Word (List Char)
  | c :: rest => if isDigit c then digitsLoop isDigit [c] rest else none
  | [] => none

/-- Decimal digits of a whole number, which has no zeros in front. -/
def whole? : Word (List Char)
  | '0' :: rest => some (['0'], rest)
  | input => digits? Json.isDigit input

/-- A sign, if there is one, and whether it is a minus. -/
def sign : List Char → Bool × List Char
  | '+' :: rest => (false, rest)
  | '-' :: rest => (true, rest)
  | input => (false, input)

def ofDigits (base : Nat) (found : List Char) : Nat :=
  found.foldl (fun value c => base * value + (Json.hexValue? c).getD 0) 0

def bounded? (value : Int) : Option Toml :=
  if -9223372036854775808 ≤ value && value < 9223372036854775808 then some (.int value)
  else none

def basedInt? (base : Nat) (isDigit : Char → Bool) : Word Toml := fun input =>
  (digits? isDigit input).bind fun (found, rest) =>
    (bounded? (ofDigits base found)).map (·, rest)

def isHexDigit (c : Char) : Bool := (Json.hexValue? c).isSome

def isOctalDigit (c : Char) : Bool := '0' ≤ c && c ≤ '7'

def isBinaryDigit (c : Char) : Bool := c = '0' || c = '1'

def int? : Word Toml
  | '0' :: 'x' :: rest => basedInt? 16 isHexDigit rest
  | '0' :: 'o' :: rest => basedInt? 8 isOctalDigit rest
  | '0' :: 'b' :: rest => basedInt? 2 isBinaryDigit rest
  | input =>
      let (negative, rest) := sign input
      (whole? rest).bind fun (found, rest) =>
        let value : Int := ofDigits 10 found
        (bounded? (if negative then -value else value)).map (·, rest)

def exponent? : Word Int
  | c :: rest =>
      if c = 'e' || c = 'E' then
        let (negative, rest) := sign rest
        (digits? Json.isDigit rest).map fun (found, rest) =>
          let value : Int := ofDigits 10 found
          (if negative then -value else value, rest)
      else none
  | [] => none

def fraction? : Word (List Char)
  | '.' :: rest => digits? Json.isDigit rest
  | _ => none

/-- Whether a decimal number, the digits times a power of ten, lies within the
range of floating-point numbers of 64 bits. -/
def isFinite (digits : List Char) (exponent : Int) : Bool :=
  let value := ofDigits 10 digits
  let size := (Nat.repr value).length + exponent
  if value = 0 || size < 300 then true
  else if 400 < size then false
  else
    let bound := Nat.pow 2 1024 - Nat.pow 2 970
    if 0 ≤ exponent then value * Nat.pow 10 exponent.toNat < bound
    else value < bound * Nat.pow 10 (-exponent).toNat

def decimal? : Word Toml := fun input =>
  (whole? (sign input).2).bind fun (whole, rest) =>
    match exponent? rest with
    | some (exponent, rest) => if isFinite whole exponent then some (.float, rest) else none
    | none =>
        (fraction? rest).bind fun (fraction, rest) =>
          let (exponent, rest) := (exponent? rest).getD (0, rest)
          if isFinite (whole ++ fraction) (exponent - fraction.length) then some (.float, rest)
          else none

def specialFloat? : Word Toml := fun input =>
  match (sign input).2 with
  | 'i' :: 'n' :: 'f' :: rest => some (.float, rest)
  | 'n' :: 'a' :: 'n' :: rest => some (.float, rest)
  | _ => none

def fixedNumber? (count first last : Nat) : Word Nat := fun input =>
  let found := input.take count
  if found.length = count && found.all Json.isDigit then
    let value := ofDigits 10 found
    if first ≤ value && value ≤ last then some (value, input.drop count) else none
  else none

def behind? (c : Char) : List Char → Option (List Char)
  | d :: rest => if c = d then some rest else none
  | [] => none

def isLeapYear (year : Nat) : Bool :=
  year % 4 = 0 && (year % 100 ≠ 0 || year % 400 = 0)

def daysOf (year month : Nat) : Nat :=
  if month = 2 then if isLeapYear year then 29 else 28
  else if month = 4 || month = 6 || month = 9 || month = 11 then 30
  else 31

def date? (input : List Char) : Option (List Char) := do
  let (year, rest) ← fixedNumber? 4 0 9999 input
  let rest ← behind? '-' rest
  let (month, rest) ← fixedNumber? 2 1 12 rest
  let rest ← behind? '-' rest
  let (_, rest) ← fixedNumber? 2 1 (daysOf year month) rest
  return rest

def clock? (input : List Char) : Option (List Char) := do
  let (_, rest) ← fixedNumber? 2 0 23 input
  let rest ← behind? ':' rest
  let (_, rest) ← fixedNumber? 2 0 59 rest
  let rest ← behind? ':' rest
  let (_, rest) ← fixedNumber? 2 0 60 rest
  match rest with
  | '.' :: c :: behind =>
      if Json.isDigit c then return behind.dropWhile Json.isDigit else return rest
  | _ => return rest

/-- The text behind an offset from the zero meridian, if there is one. -/
def skipOffset (input : List Char) : List Char :=
  match input with
  | 'Z' :: rest => rest
  | 'z' :: rest => rest
  | c :: rest =>
      if c = '+' || c = '-' then
        (do
          let (_, rest) ← fixedNumber? 2 0 23 rest
          let rest ← behind? ':' rest
          let (_, rest) ← fixedNumber? 2 0 59 rest
          return rest : Option (List Char)).getD input
      else input
  | [] => []

/-- The text behind a time of the day that follows a date, if there is one. -/
def skipClock (input : List Char) : List Char :=
  match input with
  | c :: rest =>
      if c = 'T' || c = 't' || c = ' ' then ((clock? rest).map skipOffset).getD input
      else input
  | [] => []

def time? : Word Toml := fun input =>
  match date? input with
  | some rest => some (.time, skipClock rest)
  | none => (clock? input).map (.time, ·)

def numeral? : Word Toml := fun input =>
  time? input <|> decimal? input <|> specialFloat? input <|> int? input

end SourceAtlas.Toml
