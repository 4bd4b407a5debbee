import SourceAtlas.Text.CharRanges

/-!
# Character classes

The classes of characters that the text scanners test.  Each class answers
from a short rule for ASCII and from a range list for the rest of Unicode.
-/

namespace SourceAtlas.Text

def isBlank (c : Char) : Bool :=
  if c.val < 128 then c = ' ' || (9 ≤ c.val && c.val ≤ 13)
  else insideFlips blankFlips c.toNat

def isAsciiLetter (c : Char) : Bool :=
  ('a' ≤ c && c ≤ 'z') || ('A' ≤ c && c ≤ 'Z')

def isAsciiDigit (c : Char) : Bool :=
  '0' ≤ c && c ≤ '9'

def isWord (c : Char) : Bool :=
  if c.val < 128 then isAsciiLetter c || isAsciiDigit c || c = '_'
  else insideFlips wordFlips c.toNat

def isLetter (c : Char) : Bool :=
  if c.val < 128 then isAsciiLetter c
  else insideFlips alphabeticFlips c.toNat

def isCapital (c : Char) : Bool :=
  if c.val < 128 then 'A' ≤ c && c ≤ 'Z'
  else insideFlips uppercaseFlips c.toNat

def isSmall (c : Char) : Bool :=
  if c.val < 128 then 'a' ≤ c && c ≤ 'z'
  else insideFlips lowercaseFlips c.toNat

def opensIdentifier (c : Char) : Bool :=
  if c.val < 128 then isAsciiLetter c || c = '_'
  else insideFlips identifierStartFlips c.toNat

def continuesIdentifier (c : Char) : Bool :=
  if c.val < 128 then isAsciiLetter c || isAsciiDigit c || c = '_'
  else insideFlips identifierPartFlips c.toNat

def asciiLower (c : Char) : Char :=
  if 'A' ≤ c && c ≤ 'Z' then Char.ofNat (c.toNat + 32) else c

def lowerAscii (text : List Char) : List Char :=
  text.map asciiLower

end SourceAtlas.Text
