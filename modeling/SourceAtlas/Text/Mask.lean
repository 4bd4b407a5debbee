import SourceAtlas.Text.Basic

/-!
# Masking

Comments, preprocessor lines and the bodies of string and character literals
are blanked out, so that what remains can be searched as code.  A blanked
character becomes as many spaces as it has bytes and line breaks stay, so every
offset and every line number found in the masked text holds for the text
itself.

The scanner is a machine over regions.  It reads one character at a time and
may look at what follows; sequences of several characters, such as the three
quotes of a raw string, have a region for their remaining characters.
-/

namespace SourceAtlas.Text

/-- Which sign before a quote, if any, announces a verbatim string. -/
inductive VerbatimSign
  | absent
  /-- An `@` stands just before. -/
  | direct
  /-- An `@$` stands just before. -/
  | interpolated
  deriving DecidableEq, Repr

/-- Where in a text the scanner stands. -/
inductive Region
  | code (sign : VerbatimSign)
  | lineComment
  /-- On the second character of a comment opener. -/
  | commentOpener
  | blockComment
  /-- On the second character of a comment closer. -/
  | commentCloser
  /-- In a literal that a quote or a line break ends. -/
  | literal (quote : Char)
  /-- On the character after a backslash. -/
  | escaped (quote : Char)
  | verbatim
  /-- On the second of two quotes that stand for one. -/
  | doubledQuote
  /-- On one of the remaining quotes that open a raw string. -/
  | rawOpener (quote : Char) (remaining : Nat)
  | raw (quote : Char)
  /-- On one of the remaining quotes that close a raw string. -/
  | rawCloser (quote : Char) (remaining : Nat)
  deriving DecidableEq, Repr

abbrev Region.plainCode : Region := .code .absent

def startsWithTwo (c : Char) : List Char → Bool
  | first :: second :: _ => first = c && second = c
  | _ => false

/-- The region of the next character, and whether this one is blanked. -/
def Region.step (region : Region) (c : Char) (rest : List Char) : Region × Bool :=
  match region with
  | .code sign =>
      if c = '/' && rest.head? = some '/' then (.lineComment, true)
      else if c = '/' && rest.head? = some '*' then (.commentOpener, true)
      else if (c = '"' || c = '\'') && startsWithTwo c rest then (.rawOpener c 2, false)
      else if c = '"' then
        (if sign = .absent then .literal '"' else .verbatim, false)
      else if c = '\'' then (.literal '\'', false)
      else if c = '#' then (.lineComment, true)
      else if c = '@' then (.code .direct, false)
      else if c = '$' && sign = .direct then (.code .interpolated, false)
      else (.plainCode, false)
  | .lineComment =>
      if c = '\n' then (.plainCode, false) else (.lineComment, true)
  | .commentOpener => (.blockComment, true)
  | .blockComment =>
      if c = '*' && rest.head? = some '/' then (.commentCloser, true)
      else (.blockComment, true)
  | .commentCloser => (.plainCode, true)
  | .literal quote =>
      if c = quote || c = '\n' then (.plainCode, false)
      else if c = '\\' && rest.head?.any (· ≠ '\n') then (.escaped quote, true)
      else (.literal quote, true)
  | .escaped quote => (.literal quote, true)
  | .verbatim =>
      if c = '"' && rest.head? = some '"' then (.doubledQuote, true)
      else if c = '"' then (.plainCode, false)
      else (.verbatim, true)
  | .doubledQuote => (.verbatim, true)
  | .rawOpener quote remaining =>
      (if remaining ≤ 1 then .raw quote else .rawOpener quote (remaining - 1), false)
  | .raw quote =>
      if c = quote && startsWithTwo quote rest then (.rawCloser quote 2, false)
      else (.raw quote, true)
  | .rawCloser quote remaining =>
      (if remaining ≤ 1 then .plainCode else .rawCloser quote (remaining - 1), false)

/-- A blanked character: a line break stays, anything else becomes as many
spaces as it has bytes. -/
def blankOut (c : Char) : List Char :=
  if c = '\n' then ['\n'] else List.replicate c.utf8Size ' '

/-- Puts the masked form of a text in reverse before what has been masked. -/
def maskLoop (masked : List Char) : Region → List Char → List Char
  | _, [] => masked.reverse
  | region, c :: rest =>
      match region.step c rest with
      | (next, true) => maskLoop ((blankOut c).reverse ++ masked) next rest
      | (next, false) => maskLoop (c :: masked) next rest

/-- The masked form of a text whose first character lies in a region. -/
def maskFrom (region : Region) (text : List Char) : List Char :=
  maskLoop [] region text

def mask (text : List Char) : List Char :=
  maskFrom .plainCode text

theorem maskLoop_eq (masked : List Char) (region : Region) (text : List Char) :
    maskLoop masked region text = masked.reverse ++ maskFrom region text := by
  unfold maskFrom
  induction text generalizing masked region with
  | nil => simp [maskLoop]
  | cons c rest ih =>
      simp only [maskLoop]
      split
      · rw [ih, ih ((blankOut c).reverse ++ [])]
        simp
      · rw [ih, ih [c]]
        simp

@[simp] theorem maskFrom_nil (region : Region) : maskFrom region [] = [] := rfl

theorem maskFrom_cons (region : Region) (c : Char) (rest : List Char) :
    maskFrom region (c :: rest) =
      (if (region.step c rest).2 then blankOut c else [c]) ++
        maskFrom (region.step c rest).1 rest := by
  conv => lhs; unfold maskFrom maskLoop
  split
  · next next heq => simp [heq, maskLoop_eq]
  · next next heq => simp [heq, maskLoop_eq]

end SourceAtlas.Text
