import SourceAtlas.Text.CharClass

/-!
# Text

Source text is handled as a list of characters.  Positions in it are byte
offsets into its UTF-8 encoding, so the width of a piece of text is the sum of
the widths of its characters.  This module holds the vocabulary shared by all
scanners: widths, trimming, lines, words, and searching for a fixed word.
-/

namespace SourceAtlas.Text

def byteWidth (text : List Char) : Nat :=
  text.foldl (fun width c => width + c.utf8Size) 0

/-- The text from a byte offset on; an offset inside a character moves on to
the end of that character. -/
def dropBytes : Nat → List Char → List Char
  | _, [] => []
  | 0, text => text
  | count, c :: text => dropBytes (count - c.utf8Size) text

def takeBytesLoop (taken : List Char) : Nat → List Char → List Char
  | _, [] => taken.reverse
  | 0, _ => taken.reverse
  | count, c :: text => takeBytesLoop (c :: taken) (count - c.utf8Size) text

/-- The characters that begin within the first bytes of a text. -/
def takeBytes (count : Nat) (text : List Char) : List Char :=
  takeBytesLoop [] count text

def slice (text : List Char) (start stop : Nat) : List Char :=
  takeBytes (stop - start) (dropBytes start text)

def trimStart (text : List Char) : List Char :=
  text.dropWhile isBlank

/-- The text without the characters of a class at its end. -/
def dropEndWhile (test : Char → Bool) (text : List Char) : List Char :=
  (text.reverse.dropWhile test).reverse

def trimEnd (text : List Char) : List Char :=
  dropEndWhile isBlank text

def trim (text : List Char) : List Char :=
  trimEnd (trimStart text)

def splitLoop (separates : Char → Bool) (piece : List Char) :
    List Char → List (List Char) → List (List Char)
  | [], pieces => (piece.reverse :: pieces).reverse
  | c :: text, pieces =>
      if separates c then splitLoop separates [] text (piece.reverse :: pieces)
      else splitLoop separates (c :: piece) text pieces

def splitWhere (separates : Char → Bool) (text : List Char) : List (List Char) :=
  splitLoop separates [] text []

def words (text : List Char) : List (List Char) :=
  (splitWhere isBlank text).filter (!·.isEmpty)

/-- A line without the carriage return that stands before its line break. -/
def dropCarriageReturn (line : List Char) : List Char :=
  match line.reverse with
  | '\r' :: rest => rest.reverse
  | _ => line

/-- The lines of a text.  A line break ends a line, so a text that ends in one
has no further line; a carriage return belongs to the line break it precedes. -/
def lines (text : List Char) : List (List Char) :=
  match (splitWhere (· = '\n') text).reverse with
  | [] => []
  | last :: finished =>
      let finished := finished.reverse.map dropCarriageReturn
      if last.isEmpty then finished else finished ++ [last]

def join (separator : List Char) (pieces : List (List Char)) : List Char :=
  (pieces.intersperse separator).flatten

def joinWords (pieces : List (List Char)) : List Char :=
  join [' '] pieces

/-- Runs of white space made single spaces, none at either end. -/
def collapseBlanks (text : List Char) : List Char :=
  joinWords (words text)

/-- The rest of a text after a fixed word at its start. -/
def dropWord? : List Char → List Char → Option (List Char)
  | [], text => some text
  | _ :: _, [] => none
  | c :: word, d :: text => if c = d then dropWord? word text else none

def startsWith (text word : List Char) : Bool :=
  (dropWord? word text).isSome

def endsWith (text word : List Char) : Bool :=
  startsWith text.reverse word.reverse

/-- Walks to the first occurrence of a word, collecting what precedes it. -/
def cutLoop (word : List Char) (before : List Char) :
    List Char → Option (List Char × List Char)
  | [] =>
      match dropWord? word [] with
      | some rest => some (before.reverse, rest)
      | none => none
  | c :: text =>
      match dropWord? word (c :: text) with
      | some rest => some (before.reverse, rest)
      | none => cutLoop word (c :: before) text

/-- The parts of a text before and after the first occurrence of a word. -/
def cutAt? (word text : List Char) : Option (List Char × List Char) :=
  cutLoop word [] text

def occursIn (word : List Char) : List Char → Bool
  | [] => startsWith [] word
  | c :: text => startsWith (c :: text) word || occursIn word text

/-- The text before the first occurrence of a word, or all of it. -/
def upToWord (word text : List Char) : List Char :=
  match cutAt? word text with
  | some (before, _) => before
  | none => text

def dropRepeats (word : List Char) : Nat → List Char → List Char
  | 0, text => text
  | count + 1, text =>
      match dropWord? word text with
      | some rest => dropRepeats word count rest
      | none => text

/-- The text without any copies of a non-empty word at its start. -/
def trimStartWord (word text : List Char) : List Char :=
  dropRepeats word text.length text

end SourceAtlas.Text
