import SourceAtlas.Python.Node

/-!
# Words of Python

How far names, numbers, symbols and string literals reach.  Every reader answers
the number of characters that its word takes at the start of a text, so that
cutting the text there loses nothing.
-/

namespace SourceAtlas.Python

open Text

/-- How many characters a word takes at the start of a text, if it stands
there. -/
abbrev Reach := List Char → Option Nat

def keywords : List String :=
  ["False", "None", "True", "and", "as", "assert", "async", "await", "break", "class",
    "continue", "def", "del", "elif", "else", "except", "finally", "for", "from", "global",
    "if", "import", "in", "is", "lambda", "nonlocal", "not", "or", "pass", "raise", "return",
    "try", "while", "with", "yield"]

def symbols : List (List Char) :=
  ["**=", "//=", ">>=", "<<=", "...", "**", "//", ">>", "<<", "<=", ">=", "<>", "==", "!=",
    "->", "+=", "-=", "*=", "/=", "%=", "&=", "|=", "^=", "@=", ":=", "+", "-", "*", "/", "%",
    "@", "&", "|", "^", "~", "<", ">", "(", ")", "[", "]", "\x7b", "\x7d", ",", ":", ".", ";",
    "="].map String.toList

/-- The number of characters of a class at the start of a text. -/
def runLoop (test : Char → Bool) (count : Nat) : List Char → Nat
  | [] => count
  | c :: text => if test c then runLoop test (count + 1) text else count

def nameReach : Reach
  | [] => none
  | c :: text => if opensIdentifier c then some (runLoop continuesIdentifier 1 text) else none

def symbolReach : Reach := fun text =>
  (symbols.find? (startsWith text)).map List.length

def digitsLoop (isDigit : Char → Bool) (count : Nat) : List Char → Nat
  | [] => count
  | [c] => if isDigit c then count + 1 else count
  | c :: d :: text =>
      if isDigit c then digitsLoop isDigit (count + 1) (d :: text)
      else if c = '_' && isDigit d && 0 < count then digitsLoop isDigit (count + 2) text
      else count

def decimals (text : List Char) : Nat :=
  digitsLoop isAsciiDigit 0 text

def isHexDigit (c : Char) : Bool :=
  isAsciiDigit c || ('a' ≤ c && c ≤ 'f') || ('A' ≤ c && c ≤ 'F')

def isOctalDigit (c : Char) : Bool := '0' ≤ c && c ≤ '7'

def isBinaryDigit (c : Char) : Bool := c = '0' || c = '1'

/-- The digits behind the mark of a base, which an underscore may precede. -/
def basedDigits (isDigit : Char → Bool) (text : List Char) : Option Nat :=
  let lead := if text.head? = some '_' then 1 else 0
  let count := digitsLoop isDigit 0 (text.drop lead)
  if count = 0 then none else some (count + lead)

/-- The digits of a number in a base other than ten, behind its leading
zero. -/
def basedReach : Char → Reach
  | mark, text =>
      let digits :=
        match asciiLower mark with
        | 'x' => basedDigits isHexDigit text
        | 'o' => basedDigits isOctalDigit text
        | 'b' => basedDigits isBinaryDigit text
        | _ => none
      digits.map (· + 2)

def fractionLength : List Char → Nat
  | '.' :: text => decimals text + 1
  | _ => 0

def exponentLength : List Char → Nat
  | c :: text =>
      if c = 'e' || c = 'E' then
        let sign := if text.head? = some '+' || text.head? = some '-' then 1 else 0
        let count := decimals (text.drop sign)
        if count = 0 then 0 else count + sign + 1
      else 0
  | [] => 0

def isBaseMark (c : Char) : Bool :=
  asciiLower c ∈ ['x', 'o', 'b']

/-- Whether a text starts with the mark of an imaginary number, or of a long one if that may
stand there. -/
def hasNumberMark (isWhole : Bool) (text : List Char) : Bool :=
  text.head?.any fun c => asciiLower c = 'j' || (isWhole && asciiLower c = 'l')

def decimalReach : Reach := fun text =>
  let whole := decimals text
  let fraction := fractionLength (text.drop whole)
  let exponent := exponentLength (text.drop (whole + fraction))
  let length := whole + fraction + exponent
  if whole = 0 && fraction ≤ 1 then none
  else if hasNumberMark (fraction + exponent = 0) (text.drop length) then some (length + 1)
  else some length

def numberReach : Reach := fun text =>
  match text with
  | '0' :: mark :: rest => if isBaseMark mark then basedReach mark rest else decimalReach text
  | _ => decimalReach text

/-- How a string literal is delimited. -/
structure Delimiter where
  quote : Char
  /-- Whether the literal may span lines; then each end is three quotes. -/
  isLong : Bool
  /-- Whether a backslash stands for itself. -/
  isRaw : Bool
  deriving DecidableEq, Repr, Inhabited

namespace Delimiter

def quotes (delimiter : Delimiter) : List Char :=
  List.replicate (if delimiter.isLong then 3 else 1) delimiter.quote

def closes (delimiter : Delimiter) (text : List Char) : Bool :=
  startsWith text delimiter.quotes

end Delimiter

/-- The number of characters of a backslash and what it escapes. -/
def escapeLength : List Char → Nat
  | '\r' :: '\n' :: _ => 3
  | [] => 1
  | _ => 2

/-- Counts the characters of a string literal up to and with its closing
quotes; the first number is of characters that are already decided. -/
def stringLoop (delimiter : Delimiter) : Nat → Nat → Reach
  | _, _, [] => none
  | pending + 1, count, _ :: text => stringLoop delimiter pending (count + 1) text
  | 0, count, c :: text =>
      if c = '\\' then stringLoop delimiter (escapeLength text - 1) (count + 1) text
      else if delimiter.closes (c :: text) then some (count + delimiter.quotes.length)
      else if c = '\n' && !delimiter.isLong then none
      else stringLoop delimiter 0 (count + 1) text

def stringMarks : List (List Char) :=
  ["", "r", "u", "b", "f", "br", "rb", "fr", "rf"].map String.toList

/-- The opening of a string literal. -/
structure Opening where
  /-- The number of its characters. -/
  length : Nat
  delimiter : Delimiter
  /-- Whether the literal may hold replacement fields. -/
  isFormat : Bool
  deriving DecidableEq, Repr, Inhabited

/-- The opening of a string literal at the start of a text. -/
def opening? (text : List Char) : Option Opening :=
  let count := runLoop isAsciiLetter 0 (text.take 3)
  let mark := lowerAscii (text.take count)
  match text.drop count with
  | quote :: rest =>
      if (quote = '"' || quote = '\'') && stringMarks.contains mark then
        let isLong := startsWith rest [quote, quote]
        let delimiter := { quote, isLong, isRaw := mark.contains 'r' }
        some
          { length := count + delimiter.quotes.length, delimiter
            isFormat := mark.contains 'f' }
      else none
  | [] => none

/-- What stands at a place in the text of a format string. -/
def textLoop (delimiter : Delimiter) (doubled : Bool) : Nat → Nat → Reach
  | _, count, [] => some count
  | pending + 1, count, _ :: text => textLoop delimiter doubled pending (count + 1) text
  | 0, count, c :: text =>
      if delimiter.closes (c :: text) then some count
      else if c = '\x7b' || c = '\x7d' then
        if doubled && text.head? = some c then textLoop delimiter doubled 1 (count + 1) text
        else some count
      else if c = '\n' && !delimiter.isLong then none
      else if c = '\\' then
        match text with
        | '\x7b' :: _ => textLoop delimiter doubled 0 (count + 1) text
        | '\x7d' :: _ => textLoop delimiter doubled 0 (count + 1) text
        | 'N' :: '\x7b' :: rest =>
            if delimiter.isRaw then textLoop delimiter doubled 1 (count + 1) text
            else
              textLoop delimiter doubled (runLoop (· ≠ '\x7d') 0 rest + 3) (count + 1) text
        | _ => textLoop delimiter doubled (escapeLength text - 1) (count + 1) text
      else textLoop delimiter doubled 0 (count + 1) text

/-- The literal text of a format string, up to a replacement field or the
closing quotes.  A doubled brace stands for one. -/
def formatTextReach (delimiter : Delimiter) : Reach :=
  textLoop delimiter true 0 0

/-- The literal text of a format specification, up to a brace. -/
def specTextReach (delimiter : Delimiter) : Reach :=
  textLoop delimiter false 0 0

end SourceAtlas.Python
