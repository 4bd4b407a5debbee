import SourceAtlas.Model.Metrics
import SourceAtlas.Model.Signature
import SourceAtlas.Role

/-!
# Source models

The structural summary of one file.  Every reader of files produces this one
shape; what was not looked for is absent, which differs from empty.
-/

namespace SourceAtlas

/-- A point in time after the epoch, with fewer than a billion nanoseconds
beyond its seconds. -/
structure Timestamp where
  seconds : Nat
  nanoseconds : Nat
  nanoseconds_lt : nanoseconds < 1000000000
  deriving DecidableEq

namespace Timestamp

def epoch : Timestamp :=
  { seconds := 0, nanoseconds := 0, nanoseconds_lt := by decide }

/-- The time that lies some seconds and nanoseconds after the epoch. -/
def ofParts (seconds nanoseconds : Nat) : Timestamp :=
  { seconds := seconds + nanoseconds / 1000000000
    nanoseconds := nanoseconds % 1000000000
    nanoseconds_lt := Nat.mod_lt _ (by decide) }

instance : Inhabited Timestamp := ⟨epoch⟩

end Timestamp

/-- The structural summary of one file. -/
structure SourceModel where
  /-- The identity of the file. -/
  path : Path
  language : Language
  docComment : Option String
  /-- Top-level functions; methods belong to their class. -/
  functions : List FunctionSignature
  classes : List ClassSignature
  imports : List String
  /-- Constant names in the order of their first appearance. -/
  constants : List String
  namespaceName : Option String
  /-- Absent until the file is classified. -/
  role : Option Role
  /-- The tier used, for files that are read without a grammar. -/
  tier : Option Tier
  completeness : Completeness
  metrics : Metrics
  lastModified : Timestamp
  deriving DecidableEq, Inhabited

namespace SourceModel

def blank (path : Path) (language : Language) (lastModified : Timestamp) : SourceModel :=
  { path, language, docComment := none, functions := [], classes := [], imports := [],
    constants := [], namespaceName := none, role := none, tier := none,
    completeness := .complete, metrics := .zero, lastModified }

def isEmpty (model : SourceModel) : Bool :=
  model.classes.isEmpty && model.functions.isEmpty && model.constants.isEmpty

def isPartial (model : SourceModel) : Bool :=
  model.completeness.isPartial

def addConstant (model : SourceModel) (name : String) : SourceModel :=
  { model with constants := addOnce model.constants name }

def class? (model : SourceModel) (name : String) : Option ClassSignature :=
  model.classes.find? (·.name = name)

def function? (model : SourceModel) (name : String) : Option FunctionSignature :=
  model.functions.find? (·.name = name)

def methodCount (model : SourceModel) : Nat :=
  model.classes.foldl (fun count signature => count + signature.methods.length) 0

end SourceModel

/-- A file that is to be read: its identity, text and time of change. -/
structure SourceFile where
  path : Path
  content : String
  lastModified : Timestamp
  deriving DecidableEq, Inhabited

def SourceFile.language? (file : SourceFile) : Option Language :=
  Language.ofPath? file.path

end SourceAtlas
