import SourceAtlas.Text.Basic

/-!
# Line metrics

Every line of a file is blank, a comment or code.  Comments are told by how a
trimmed line starts, and for block comments by the lines up to the closing one.
-/

namespace SourceAtlas

open Text

/-- Size and complexity of one file. -/
structure Metrics where
  totalLines : Nat
  codeLines : Nat
  commentLines : Nat
  blankLines : Nat
  /-- One more than the number of decision points. -/
  complexity : Nat
  deriving DecidableEq, Repr, Inhabited

/-- How comments are written. -/
inductive CommentStyle
  /-- A `#` starts a comment. -/
  | hash
  /-- A `//` starts a comment, and `/*` starts a block of them. -/
  | slashes
  deriving DecidableEq, Repr

/-- What a line counts as. -/
inductive LineClass
  | blank
  | comment
  | code
  deriving DecidableEq, Repr

/-- The class of a line, and whether the next line lies in a block comment. -/
def CommentStyle.classify (style : CommentStyle) (inBlock : Bool) (line : List Char) :
    LineClass × Bool :=
  let trimmed := trim line
  if trimmed.isEmpty then (.blank, inBlock)
  else
    match style with
    | .hash => (if trimmed.head? = some '#' then .comment else .code, inBlock)
    | .slashes =>
        if inBlock then (.comment, !occursIn ['*', '/'] trimmed)
        else if startsWith trimmed ['/', '/'] then (.comment, false)
        else if startsWith trimmed ['/', '*'] then (.comment, !occursIn ['*', '/'] trimmed)
        else (.code, false)

namespace Metrics

/-- The metrics of an empty file, without a base value of complexity. -/
def zero : Metrics :=
  { totalLines := 0, codeLines := 0, commentLines := 0, blankLines := 0, complexity := 0 }

def addLine (metrics : Metrics) (kind : LineClass) : Metrics :=
  let metrics := { metrics with totalLines := metrics.totalLines + 1 }
  match kind with
  | .blank => { metrics with blankLines := metrics.blankLines + 1 }
  | .comment => { metrics with commentLines := metrics.commentLines + 1 }
  | .code => { metrics with codeLines := metrics.codeLines + 1 }

def countLines (style : CommentStyle) : Metrics → Bool → List (List Char) → Metrics
  | metrics, _, [] => metrics
  | metrics, inBlock, line :: rest =>
      let (kind, inBlock) := style.classify inBlock line
      countLines style (metrics.addLine kind) inBlock rest

/-- The line counts of a text; its complexity starts at one. -/
def ofText (style : CommentStyle) (text : List Char) : Metrics :=
  countLines style { zero with complexity := 1 } false (lines text)

def addDecisions (metrics : Metrics) (count : Nat) : Metrics :=
  { metrics with complexity := metrics.complexity + count }

end Metrics

end SourceAtlas
