import SourceAtlas.Python.Token

/-!
# Layout of Python files

Cuts a file into tokens.  Outside brackets the ends of lines and the changes of
indentation are tokens of their own; inside brackets line breaks are blanks.  A
format string is cut further: its literal text, and the tokens of its
replacement fields.
-/

namespace SourceAtlas.Python

open Text

/-- What is open at a place in a file. -/
inductive Frame
  /-- A bracket, with the symbol that closes it. -/
  | bracket (closing : Char)
  /-- The text of a format string. -/
  | format (delimiter : Delimiter)
  /-- Inside of the braces of a format string. -/
  | field (delimiter : Delimiter)
  /-- The format specification of a replacement field. -/
  | spec (delimiter : Delimiter)
  deriving DecidableEq, Repr

/-- The width of an indentation, once with tabs that reach the next multiple of
eight and once with tabs that count as one.  Two indentations compare only if
both widths agree on the order. -/
structure Indentation where
  wide : Nat
  narrow : Nat
  deriving DecidableEq, Repr

namespace Indentation

def none : Indentation := { wide := 0, narrow := 0 }

def past (indentation : Indentation) (c : Char) : Indentation :=
  if c = ' ' then { wide := indentation.wide + 1, narrow := indentation.narrow + 1 }
  else if c = '\t' then
    { wide := (indentation.wide / 8 + 1) * 8, narrow := indentation.narrow + 1 }
  else if c = '\x0c' then none
  else indentation

end Indentation

def isGap (c : Char) : Bool :=
  c = ' ' || c = '\t' || c = '\x0c' || c = '\r'

/-- The state of cutting a file into tokens. -/
structure Layout where
  /-- The tokens so far, the last one first. -/
  tokens : List Token
  /-- The place that has been reached. -/
  position : Position
  /-- The number of bytes before it. -/
  offset : Nat
  /-- What is open, the innermost first. -/
  frames : List Frame
  /-- The indentations of the open blocks, the innermost first. -/
  indentations : List Indentation
  /-- The indentation of the line as far as it has been passed, while no token
  of the line has been passed. -/
  fresh : Option Indentation

/-- Why a file cannot be cut into tokens. -/
inductive LayoutFault
  /-- Something is still open at the end of the file, behind these tokens. -/
  | unclosed (tokens : List Token)
  /-- No token can stand at some place. -/
  | malformed
  deriving DecidableEq, Repr

namespace Layout

def initial : Layout :=
  { tokens := [], position := .start, offset := 0, frames := [], indentations := [],
    fresh := some .none }

def skip (layout : Layout) (text : List Char) : Layout :=
  { layout with
    position := layout.position.pastText text, offset := layout.offset + byteWidth text }

def emit (layout : Layout) (kind : TokenKind) (text : List Char) : Layout :=
  let token :=
    { kind, text := String.ofList text, position := layout.position, start := layout.offset }
  { layout.skip text with tokens := token :: layout.tokens }

def push (layout : Layout) (frame : Frame) : Layout :=
  { layout with frames := frame :: layout.frames }

def pop (layout : Layout) : Layout :=
  { layout with frames := layout.frames.tail }

/-- One step: the state behind some characters, and how many they are. -/
abbrev Step := Option (Layout × Nat)

def word (layout : Layout) (kind : TokenKind) (text : List Char) (length : Nat) : Step :=
  some (layout.emit kind (text.take length), length)

def dedentTo (indentation : Indentation) (layout : Layout) :
    List Indentation → Option Layout
  | [] =>
      if indentation = .none then some { layout with indentations := [] } else none
  | innermost :: outer =>
      if innermost.wide ≤ indentation.wide then
        if innermost = indentation then some { layout with indentations := innermost :: outer }
        else none
      else dedentTo indentation (layout.emit .dedent []) outer

def startLine (layout : Layout) (indentation : Indentation) : Option Layout :=
  let layout := { layout with fresh := none }
  let innermost := layout.indentations.headD .none
  if innermost.wide < indentation.wide then
    if innermost.narrow < indentation.narrow then
      some { layout.emit .indent [] with indentations := indentation :: layout.indentations }
    else none
  else dedentTo indentation layout layout.indentations

def joinStep (layout : Layout) (text : List Char) : Step :=
  match text with
  | '\\' :: '\n' :: _ :: _ => some (layout.skip ['\\', '\n'], 2)
  | '\\' :: '\r' :: '\n' :: _ :: _ => some (layout.skip ['\\', '\r', '\n'], 3)
  | _ => none

def isBareLine (text : List Char) : Bool :=
  match text with
  | [] => true
  | c :: _ => c = '\n' || c = '#'

def bareLineStep (layout : Layout) (text : List Char) : Step :=
  let comment := text.takeWhile (· ≠ '\n')
  let lineBreak := (text.drop comment.length).take 1
  some ({ (layout.skip comment).skip lineBreak with fresh := some .none },
    comment.length + lineBreak.length)

/-- A step at the start of a line that is indented so far.  Where lines are
joined before any token, the first of them that is indented decides. -/
def lineStep (layout : Layout) (indentation : Indentation) (text : List Char) : Step :=
  let blanks := text.takeWhile isGap
  let rest := text.drop blanks.length
  let layout := layout.skip blanks
  let indentation :=
    if indentation = .none then blanks.foldl Indentation.past .none else indentation
  let step :=
    if isBareLine rest then layout.bareLineStep rest
    else if rest.head? = some '\\' then
      { layout with fresh := some indentation }.joinStep rest
    else (layout.startLine indentation).map (·, 0)
  step.map fun (layout, length) => (layout, blanks.length + length)

def closingOf : Char → Option Char
  | '(' => some ')'
  | '[' => some ']'
  | '\x7b' => some '\x7d'
  | _ => none

def isClosing (c : Char) : Bool :=
  c = ')' || c = ']' || c = '\x7d'

def breakStep (layout : Layout) : Step :=
  if layout.frames.isEmpty then
    some ({ layout.emit .newline ['\n'] with fresh := some .none }, 1)
  else some (layout.skip ['\n'], 1)

/-- A step over a symbol that closes the innermost bracket or field. -/
def closingStep (layout : Layout) (c : Char) : Step :=
  match layout.frames with
  | .bracket closing :: _ =>
      if c = closing then some ((layout.emit .symbol [c]).pop, 1) else none
  | .field _ :: _ => if c = '\x7d' then some ((layout.emit .symbol [c]).pop, 1) else none
  | _ => none

/-- A step over the symbols that have a meaning of their own directly in a
replacement field. -/
def fieldStep (layout : Layout) (text : List Char) : Step :=
  match layout.frames, text with
  | .field delimiter :: _, ':' :: _ =>
      some ((layout.emit .symbol [':']).push (.spec delimiter), 1)
  | .field _ :: _, '!' :: c :: _ =>
      if c ∈ ['s', 'r', 'a'] then layout.word .symbol text 2 else none
  | _, _ => none

/-- A step over a string literal, or over the opening of a format string. -/
def stringStep (layout : Layout) (text : List Char) : Step :=
  (opening? text).bind fun opening =>
    if opening.isFormat then
      (layout.word .formatOpen text opening.length).map fun (layout, length) =>
        (layout.push (.format opening.delimiter), length)
    else
      (stringLoop opening.delimiter 0 opening.length (text.drop opening.length)).bind
        (layout.word .string text)

def nameStep (layout : Layout) (text : List Char) : Step :=
  (nameReach text).bind fun length =>
    let kind :=
      if keywords.contains (String.ofList (text.take length)) then .keyword else .name
    layout.word kind text length

def symbolStep (layout : Layout) (text : List Char) : Step :=
  (symbolReach text).bind fun length =>
    (layout.word .symbol text length).map fun (layout, length) =>
      match text.head?.bind closingOf with
      | some closing => (layout.push (.bracket closing), length)
      | none => (layout, length)

def tokenStep (layout : Layout) (c : Char) (text : List Char) : Step :=
  if isClosing c then layout.closingStep c
  else if isAsciiDigit c || (c = '.' && (text.drop 1).head?.any isAsciiDigit) then
    (numberReach text).bind (layout.word .number text)
  else
    layout.fieldStep text <|>
      if (opening? text).isSome then layout.stringStep text
      else if opensIdentifier c then layout.nameStep text
      else layout.symbolStep text

def codeStep (layout : Layout) (text : List Char) : Step :=
  match text with
  | [] => none
  | c :: _ =>
      if c = '\n' then layout.breakStep
      else if isGap c then
        let blanks := text.takeWhile isGap
        some (layout.skip blanks, blanks.length)
      else if c = '#' then
        let comment := text.takeWhile (· ≠ '\n')
        some (layout.skip comment, comment.length)
      else if c = '\\' then layout.joinStep text
      else layout.tokenStep c text

def textStep (layout : Layout) (reach : Reach) (text : List Char) : Step :=
  (reach text).bind fun length =>
    if length = 0 then none else layout.word .formatText text length

def openField (layout : Layout) (delimiter : Delimiter) : Step :=
  some ((layout.emit .symbol ['\x7b']).push (.field delimiter), 1)

def formatStep (layout : Layout) (delimiter : Delimiter) (text : List Char) : Step :=
  if delimiter.closes text then
    (layout.word .formatClose text delimiter.quotes.length).map fun (layout, length) =>
      (layout.pop, length)
  else
    match text with
    | '\x7b' :: '\x7b' :: _ => layout.textStep (formatTextReach delimiter) text
    | '\x7b' :: _ => layout.openField delimiter
    | _ => layout.textStep (formatTextReach delimiter) text

/-- A step in a format specification.  The brace that ends it closes the
field as well. -/
def specStep (layout : Layout) (delimiter : Delimiter) (text : List Char) : Step :=
  match text with
  | '\x7b' :: _ => layout.openField delimiter
  | '\x7d' :: _ => some ((layout.emit .symbol ['\x7d']).pop.pop, 1)
  | _ => layout.textStep (specTextReach delimiter) text

def step (layout : Layout) (text : List Char) : Step :=
  match layout.frames with
  | .format delimiter :: _ => layout.formatStep delimiter text
  | .spec delimiter :: _ => layout.specStep delimiter text
  | _ =>
      match layout.fresh with
      | some indentation => layout.lineStep indentation text
      | none => layout.codeStep text

/-- The tokens of a file that has been passed.  A last line need not end in a
line break. -/
def finish (layout : Layout) : Except LayoutFault (List Token) :=
  if layout.frames.isEmpty then
    let layout := if layout.fresh.isSome then layout else layout.emit .newline []
    let layout := layout.indentations.foldl (fun layout _ => layout.emit .dedent []) layout
    .ok (layout.emit .stop []).tokens.reverse
  else .error (.unclosed layout.tokens.reverse)

def run : Nat → Layout → List Char → Except LayoutFault (List Token)
  | _, layout, [] => layout.finish
  | 0, _, _ => .error .malformed
  | fuel + 1, layout, text =>
      match layout.step text with
      | some (layout, length) => run fuel layout (text.drop length)
      | none => .error .malformed

end Layout

/-- The tokens of a file.  A step that takes no character starts a line, and
the next one does take some. -/
def tokensOf (text : List Char) : Except LayoutFault (List Token) :=
  Layout.run (2 * text.length + 1) .initial text

end SourceAtlas.Python
