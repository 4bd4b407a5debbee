import SourceAtlas.Text.Basic

/-!
# Glob patterns

Patterns of paths.  A star and a question mark stand for any characters,
slashes included; two stars, which must fill a path segment, stand for any
number of leading segments.
-/

namespace SourceAtlas.Glob

/-- A piece of a set of characters. -/
inductive CharSet
  | single (c : Char)
  | range (first last : Char)
  deriving DecidableEq, Repr

namespace CharSet

def contains : CharSet → Char → Bool
  | single c, d => d = c
  | range first last, d => first ≤ d && d ≤ last

end CharSet

/-- A piece of a pattern. -/
inductive Token
  | char (c : Char)
  | anyChar
  | anyText
  /-- Any number of whole segments with their slashes. -/
  | anySegments
  | within (sets : List CharSet)
  | except (sets : List CharSet)
  deriving DecidableEq, Repr

/-- Why a text is not a pattern. -/
inductive ErrorCause
  /-- More than two stars in a row. -/
  | starCount
  /-- Two stars that do not fill a segment. -/
  | partialSegment
  /-- A bracket that opens no set. -/
  | openSet
  deriving DecidableEq, Repr

def ErrorCause.message : ErrorCause → String
  | starCount => "wildcards are either regular `*` or recursive `**`"
  | partialSegment => "recursive wildcards must form a single path component"
  | openSet => "invalid range pattern"

/-- Why and where a text is not a pattern.  Positions count characters. -/
structure Error where
  position : Nat
  cause : ErrorCause
  deriving DecidableEq, Repr

def Error.message (error : Error) : String :=
  "Pattern syntax error near position " ++ toString error.position ++ ": " ++ error.cause.message

def charSets : List Char → List CharSet
  | first :: '-' :: last :: rest => .range first last :: charSets rest
  | c :: rest => .single c :: charSets rest
  | [] => []

def upToBracket? : List Char → Option (List Char × List Char)
  | [] => none
  | c :: rest =>
      if c = ']' then some ([], rest)
      else (upToBracket? rest).map fun (inside, behind) => (c :: inside, behind)

/-- The set behind an opening bracket.  A bracket that comes first belongs to
the set. -/
def set? : List Char → Option (Token × List Char)
  | '!' :: first :: rest =>
      (upToBracket? rest).map fun (inside, behind) => (.except (charSets (first :: inside)), behind)
  | '!' :: [] => none
  | first :: rest =>
      (upToBracket? rest).map fun (inside, behind) => (.within (charSets (first :: inside)), behind)
  | [] => none

/-- The number of stars at the start of a text and what is behind them. -/
def stars : List Char → Nat × List Char
  | '*' :: rest =>
      let (count, behind) := stars rest
      (count + 1, behind)
  | rest => (0, rest)

/-- Adds a piece for any segments.  Two in a row mean the same as one, unless
they open the pattern. -/
def addAnySegments (tokens : List Token) : List Token :=
  match tokens with
  | .anySegments :: _ :: _ => tokens
  | _ => .anySegments :: tokens

/-- Reads a pattern.  `tokens` are the pieces read so far, last one first,
`previous` is the character before the text, and `position` counts the
characters before it. -/
def tokensLoop (tokens : List Token) (previous : Option Char) (position : Nat) :
    Nat → List Char → Except Error (List Token)
  | 0, _ => .ok tokens.reverse
  | fuel + 1, text =>
      match text with
      | [] => .ok tokens.reverse
      | '?' :: rest => tokensLoop (.anyChar :: tokens) (some '?') (position + 1) fuel rest
      | '*' :: rest =>
          let (count, behind) := stars rest
          if count = 0 then
            tokensLoop (.anyText :: tokens) (some '*') (position + 1) fuel behind
          else if 1 < count then .error { position := position + 2, cause := .starCount }
          else if previous.any (· ≠ '/') then
            .error { position := position - 1, cause := .partialSegment }
          else
            match behind with
            | [] => .ok (addAnySegments tokens).reverse
            | '/' :: behind =>
                tokensLoop (addAnySegments tokens) (some '/') (position + 3) fuel behind
            | _ => .error { position := position + 2, cause := .partialSegment }
      | '[' :: rest =>
          match set? rest with
          | some (token, behind) =>
              tokensLoop (token :: tokens) (some ']') (position + (text.length - behind.length))
                fuel behind
          | none => .error { position, cause := .openSet }
      | c :: rest => tokensLoop (.char c :: tokens) (some c) (position + 1) fuel rest

def parse (pattern : String) : Except Error (List Token) :=
  let text := pattern.toList
  tokensLoop [] none 0 (text.length + 1) text

/-- How an attempt to match ends. -/
inductive Outcome
  | matched
  /-- Not here, but perhaps with less of the text. -/
  | mismatch
  /-- The text is too short, here and everywhere further on. -/
  | exhausted
  deriving DecidableEq, Repr

def trySuffixes (attempt : List Char → Outcome) : List Char → Outcome
  | [] => attempt []
  | c :: rest =>
      match attempt (c :: rest) with
      | .mismatch => trySuffixes attempt rest
      | outcome => outcome

/-- Tries the suffixes behind slashes in turn, and last the end. -/
def tryBehindSlashes (attempt : List Char → Outcome) : List Char → Outcome
  | [] => attempt []
  | c :: rest =>
      if c = '/' then
        match attempt rest with
        | .mismatch => tryBehindSlashes attempt rest
        | outcome => outcome
      else tryBehindSlashes attempt rest

def trySegments (attempt : List Char → Outcome) (text : List Char) : Outcome :=
  match attempt text with
  | .mismatch => tryBehindSlashes attempt text
  | outcome => outcome

def Token.fits : Token → Char → Bool
  | char c, d => d = c
  | anyChar, _ => true
  | within sets, d => sets.any (·.contains d)
  | except sets, d => !sets.any (·.contains d)
  | anyText, _ => false
  | anySegments, _ => false

def matchFrom : List Token → List Char → Outcome
  | [], [] => .matched
  | [], _ :: _ => .mismatch
  | .anyText :: tokens, text => trySuffixes (matchFrom tokens) text
  | .anySegments :: tokens, text => trySegments (matchFrom tokens) text
  | _ :: _, [] => .exhausted
  | token :: tokens, c :: text => if token.fits c then matchFrom tokens text else .mismatch

def fits (tokens : List Token) (text : String) : Bool :=
  matchFrom tokens text.toList = .matched

end SourceAtlas.Glob
