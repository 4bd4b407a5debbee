import SourceAtlas.CSharp.Extraction
import SourceAtlas.Priority
import SourceAtlas.Python.Parsing
import SourceAtlas.Settings.Validation

/-!
# Reading files

The model of a file in any language, and the text of a file from its bytes.
-/

namespace SourceAtlas

/-- The model of a file, if Python files are read with some parser.  A tier
applies to the languages that are read without a grammar; without one, the size
of the file decides. -/
def readModelWith (parser : Python.Parser) (limits : Limits) (tier : Option Tier)
    (file : SourceFile) : Except FailureCause SourceModel :=
  match file.language? with
  | some .python => Python.extract parser file
  | some .csharp => .ok (CSharp.extract limits tier file)
  | none => .error .unsupportedExtension

def readModel (limits : Limits) (tier : Option Tier) (file : SourceFile) :
    Except FailureCause SourceModel :=
  readModelWith Python.parse limits tier file

theorem readModel_eq_extract {file : SourceFile} (hlanguage : file.language? = some .csharp)
    (limits : Limits) (tier : Option Tier) :
    readModel limits tier file = .ok (CSharp.extract limits tier file) := by
  unfold readModel readModelWith
  rw [hlanguage]

def readClassified (limits : Limits) (file : SourceFile) : Except FailureCause SourceModel :=
  (readModel limits limits.tier.forced? file).map fun model =>
    { model with role := some (classify file.path file.content (some model)) }

def withoutByteOrderMark (text : String) : String :=
  match text.toList with
  | '\ufeff' :: rest => String.ofList rest
  | _ => text

def decodeFile (path : Path) (bytes : ByteArray) (lastModified : Timestamp) :
    Except FailureCause SourceFile :=
  match String.fromUTF8? bytes with
  | none => .error .decode
  | some text => .ok { path, content := withoutByteOrderMark text, lastModified }

end SourceAtlas
