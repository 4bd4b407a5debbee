import SourceAtlas.Classification.Rules
import SourceAtlas.Model.SourceModel
import SourceAtlas.Text.Mask

/-!
# Classification

The role of a file and the signal that decided it.  The file name speaks first,
then its directories from the deepest one up, then phrases in its code, and
last what its model declares.
-/

namespace SourceAtlas

open Text

namespace Classification

/-- What decided on a role. -/
inductive Signal
  /-- How the file name ends. -/
  | suffix (text : String)
  /-- How the file name begins. -/
  | opening (text : String)
  /-- A directory on the way to the file, as written. -/
  | directory (segment : String)
  /-- A phrase in the code. -/
  | content (phrase : String)
  /-- The declarations of the file. -/
  | «structure»
  deriving DecidableEq, Repr

def Signal.kind : Signal → String
  | suffix _ => "suffix"
  | opening _ => "prefix"
  | directory _ => "directory"
  | content _ => "content"
  | .structure => "structure"

def Signal.text : Signal → String
  | suffix text => "file name suffix `" ++ text ++ "`"
  | opening text => "file name prefix `" ++ text ++ "`"
  | directory segment => "directory `" ++ segment ++ "`"
  | content phrase => "content marker `" ++ phrase ++ "`"
  | .structure => "file structure"

end Classification

/-- A role with the signal that decided it. -/
structure Classification where
  role : Role
  signal : Classification.Signal
  deriving DecidableEq, Repr

namespace Classification

/-- A name without separators, in small letters.  The rules are written in
ASCII, so the case of other letters does not matter. -/
def normalize (name : List Char) : List Char :=
  lowerAscii (name.filter fun c => !(c = '_' || c = '-'))

def ofSuffix? (stem : List Char) : Option Classification :=
  (suffixRules.find? fun rule => endsWith (normalize stem) rule.1.toList).map fun rule =>
    { role := rule.2, signal := .suffix rule.1 }

/-- Whether a name has the form of the name of an interface. -/
def looksLikeInterface : List Char → Bool
  | first :: second :: third :: _ => first = 'I' && isCapital second && isSmall third
  | _ => false

/-- Whether a capital follows a word at the start of a name. -/
def opensWith (word : String) (stem : List Char) : Bool :=
  match dropWord? word.toList stem with
  | some rest => rest.head?.any isCapital
  | none => false

def ofOpening? (stem : List Char) : Option Classification :=
  if looksLikeInterface stem then some { role := .interface, signal := .opening "I" }
  else if opensWith "Abstract" stem then
    some { role := .abstraction, signal := .opening "Abstract" }
  else if opensWith "Base" stem then some { role := .abstraction, signal := .opening "Base" }
  else none

def ofName? (path : Path) : Option Classification :=
  match path.stem? with
  | none => none
  | some stem => ofSuffix? stem.toList <|> ofOpening? stem.toList

def ofSegment? (segment : String) : Option Classification :=
  (directoryRules.find? fun rule => rule.1.toList = normalize segment.toList).map fun rule =>
    { role := rule.2, signal := .directory segment }

def nameOf? : Component → Option String
  | .name text => some text
  | _ => none

def ofDirectories? (path : Path) : Option Classification :=
  match path.parentComponents? with
  | none => none
  | some components => (components.reverse.filterMap nameOf?).findSome? ofSegment?

def contentRules : Language → List Rule
  | .csharp => csharpRules
  | .python => pythonRules

/-- The role told by the first phrase that occurs outside comments and
literals. -/
def ofContent? (path : Path) (content : String) : Option Classification :=
  match Language.ofPath? path with
  | none => none
  | some language =>
      let code := mask content.toList
      ((contentRules language).find? fun rule => occursIn rule.1.toList code).map fun rule =>
        { role := rule.2, signal := .content rule.1 }

def roleOfStructure : Option SourceModel → Role
  | none => .unknown
  | some model =>
      if model.classes.any (·.isException) then .exception
      else if !model.classes.isEmpty then .class
      else if !model.functions.isEmpty then .utility
      else .unknown

def ofPath? (path : Path) : Option Classification :=
  ofName? path <|> ofDirectories? path

/-- The role of a file with the signal that decided it. -/
def explain (path : Path) (content : String) (model : Option SourceModel) : Classification :=
  match ofPath? path with
  | some found => found
  | none =>
      match ofContent? path content with
      | some found => found
      | none => { role := roleOfStructure model, signal := .structure }

end Classification

def classify (path : Path) (content : String) (model : Option SourceModel) : Role :=
  (Classification.explain path content model).role

end SourceAtlas
