import SourceAtlas.Path

/-!
# Failures

Why a file has no model.  Failures of single files are collected in reports;
they never end a scan.
-/

namespace SourceAtlas

/-- Why a file has no model. -/
inductive FailureCause
  /-- The bytes are not text. -/
  | decode
  /-- The text does not follow the grammar at some line and column. -/
  | parse (line column : Nat) (detail : String)
  /-- The bytes could not be read. -/
  | io (message : String)
  /-- No reader is in charge of the extension. -/
  | unsupportedExtension
  deriving DecidableEq, Repr, Inhabited

namespace FailureCause

def name : FailureCause → String
  | decode => "decode"
  | parse .. => "parse"
  | io _ => "io"
  | unsupportedExtension => "unsupported_extension"

def message : FailureCause → String
  | decode => "file is not valid UTF-8 text"
  | parse line column detail =>
      "syntax error at " ++ toString line ++ ":" ++ toString column ++ ": " ++ detail
  | io message => "read failed: " ++ message
  | unsupportedExtension => "unsupported file extension"

def isReportable (cause : FailureCause) : Bool :=
  cause ≠ unsupportedExtension

end FailureCause

/-- The failure of a file. -/
structure FileFailure where
  path : Path
  cause : FailureCause
  deriving DecidableEq, Repr, Inhabited

def FileFailure.message (failure : FileFailure) : String :=
  failure.path.text ++ ": " ++ failure.cause.message

end SourceAtlas
