import SourceAtlas.Text.Cursor

/-!
# Patterns

Declarations are found with small patterns over text.  A pattern denotes, for
each place, the list of places that it can lead to in order of preference, and
a match is the first of them.  Runs of a character class always take the
longest run.  Repetitions and optional parts prefer more and fall back to less,
so a later part of a pattern can still succeed with fewer of them.

The parts of a match that a reader wants back are marked with names.
-/

namespace SourceAtlas.Text

/-- A pattern whose marked parts have names of the given type. -/
inductive Pattern (Part : Type)
  /-- One character of a class. -/
  | one (test : Char → Bool)
  | word (text : List Char)
  /-- The longest run of a class, possibly empty. -/
  | run (test : Char → Bool)
  /-- Through characters of a class to a closing character and past it, the
  nearest one first. -/
  | through (test : Char → Bool) (closer : Char)
  /-- One pattern after the other. -/
  | seq (first second : Pattern Part)
  /-- The first pattern, or else the second. -/
  | alt (first second : Pattern Part)
  /-- The pattern, or else nothing. -/
  | maybe (inner : Pattern Part)
  /-- As many copies of the pattern as possible, or else fewer. -/
  | copies (inner : Pattern Part)
  /-- Where a word begins or stops. -/
  | wordEdge
  /-- The start of the window. -/
  | windowStart
  /-- The start of a line. -/
  | lineStart
  /-- A part that is wanted back. -/
  | part (name : Part) (inner : Pattern Part)

/-- A stretch of text between two places. -/
structure Span where
  start : Cursor
  stop : Cursor

namespace Span

def text (span : Span) : List Char :=
  span.start.upTo span.stop.offset

def string (span : Span) : String :=
  String.ofList span.text

end Span

/-- How far a match has come, and the parts marked on the way. -/
structure Progress (Part : Type) where
  place : Cursor
  parts : List (Part × Span)

namespace Pattern

variable {Part : Type}

/-- Collects the places past each closing character that a class leads to, in
reverse. -/
def throughLoop (test : Char → Bool) (closer : Char) (stop : Nat) :
    List Char → Nat → List Char → List Cursor → List Cursor
  | _, _, [], found => found.reverse
  | before, offset, c :: after, found =>
      if offset < stop then
        let past : Cursor :=
          { before := c :: before, after, offset := offset + c.utf8Size, stop }
        let found := if c = closer then past :: found else found
        if test c then throughLoop test closer stop past.before past.offset after found
        else found.reverse
      else found.reverse

def atWordEdge (place : Cursor) : Bool :=
  place.previous?.any isWord != place.head?.any isWord

def atLineStart (place : Cursor) : Bool :=
  match place.previous? with
  | none => true
  | some c => c = '\n'

/-- All ways to take a step up to a number of times, more steps first. -/
def repeated (step : Progress Part → List (Progress Part)) :
    Nat → Progress Part → List (Progress Part)
  | 0, progress => [progress]
  | count + 1, progress =>
      (step progress).flatMap (repeated step count) ++ [progress]

def outcomes : Pattern Part → Progress Part → List (Progress Part)
  | one test, progress =>
      match progress.place.next? with
      | some (c, place) => if test c then [{ progress with place }] else []
      | none => []
  | word text, progress =>
      match progress.place.skipWord? text with
      | some place => [{ progress with place }]
      | none => []
  | run test, progress =>
      [{ progress with place := progress.place.skipWhile test }]
  | through test closer, progress =>
      (throughLoop test closer progress.place.stop progress.place.before
        progress.place.offset progress.place.after []).map
          fun place => { progress with place }
  | seq first second, progress =>
      (first.outcomes progress).flatMap second.outcomes
  | alt first second, progress =>
      first.outcomes progress ++ second.outcomes progress
  | maybe inner, progress =>
      inner.outcomes progress ++ [progress]
  | copies inner, progress =>
      repeated inner.outcomes (progress.place.stop - progress.place.offset) progress
  | wordEdge, progress =>
      if atWordEdge progress.place then [progress] else []
  | windowStart, progress =>
      if progress.place.before.isEmpty then [progress] else []
  | lineStart, progress =>
      if atLineStart progress.place then [progress] else []
  | part name inner, progress =>
      (inner.outcomes progress).map fun reached =>
        { reached with
          parts := (name, { start := progress.place, stop := reached.place }) :: reached.parts }

end Pattern

/-- An occurrence of a pattern. -/
structure Match (Part : Type) where
  whole : Span
  parts : List (Part × Span)

/-- The stretch marked with a name, if the match went through it. -/
def Match.part? {Part : Type} [DecidableEq Part] (found : Match Part) (name : Part) :
    Option Span :=
  (found.parts.find? (·.1 = name)).map (·.2)

namespace Pattern

variable {Part : Type}

def matchAt? (pattern : Pattern Part) (place : Cursor) : Option (Match Part) :=
  match pattern.outcomes { place, parts := [] } with
  | [] => none
  | reached :: _ =>
      some { whole := { start := place, stop := reached.place }, parts := reached.parts }

def findLoop (pattern : Pattern Part) (stop : Nat) :
    List Char → Nat → List Char → Option (Match Part)
  | before, offset, [] => pattern.matchAt? { before, after := [], offset, stop }
  | before, offset, c :: after =>
      match pattern.matchAt? { before, after := c :: after, offset, stop } with
      | some found => some found
      | none =>
          if offset < stop then
            findLoop pattern stop (c :: before) (offset + c.utf8Size) after
          else none

def find? (pattern : Pattern Part) (place : Cursor) : Option (Match Part) :=
  findLoop pattern place.stop place.before place.offset place.after

/-- Collects matches in reverse, each beginning where the last one stopped. -/
def allLoop (pattern : Pattern Part) :
    Nat → Cursor → List (Match Part) → List (Match Part)
  | 0, _, found => found.reverse
  | count + 1, place, found =>
      match pattern.find? place with
      | none => found.reverse
      | some occurrence =>
          allLoop pattern count occurrence.whole.stop (occurrence :: found)

/-- The successive matches from a place on that do not overlap. -/
def findAll (pattern : Pattern Part) (place : Cursor) : List (Match Part) :=
  allLoop pattern (place.stop - place.offset) place []

def withoutLoop (place : Cursor) (kept : List Char) : List (Match Part) → List Char
  | [] => kept.reverse ++ place.upTo place.stop
  | found :: rest =>
      withoutLoop found.whole.stop
        ((place.upTo found.whole.start.offset).reverse ++ kept) rest

def removeAll (pattern : Pattern Part) (text : List Char) : List Char :=
  let place := Cursor.ofText text
  withoutLoop place [] (pattern.findAll place)

def oneOf (chars : String) : Pattern Part :=
  one fun c => chars.toList.contains c

def char (c : Char) : Pattern Part :=
  one fun d => d = c

def literal (text : String) : Pattern Part :=
  word text.toList

/-- The first of some words that fits; at least one is given. -/
def anyWord (first : String) : List String → Pattern Part
  | [] => literal first
  | second :: rest => alt (literal first) (anyWord second rest)

def runOf (test : Char → Bool) : Pattern Part :=
  seq (one test) (run test)

def blanks : Pattern Part := run isBlank

def gap : Pattern Part := runOf isBlank

instance : Append (Pattern Part) := ⟨seq⟩
instance : OrElse (Pattern Part) := ⟨fun first second => alt first (second ())⟩

end Pattern

end SourceAtlas.Text
