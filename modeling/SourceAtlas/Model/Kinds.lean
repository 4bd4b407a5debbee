import SourceAtlas.Path

/-!
# Kinds

The small vocabularies of a source model: languages, tiers, completeness and
kinds of type declarations, each with the names under which they are written.
-/

namespace SourceAtlas

/-- The language of a source file. -/
inductive Language
  /-- Read with a grammar; the structure is exact. -/
  | python
  /-- Recovered from text; the structure is a best effort. -/
  | csharp
  deriving DecidableEq, Repr, Inhabited

namespace Language

def ofExtension? : Option String → Option Language
  | some "py" => some .python
  | some "pyi" => some .python
  | some "cs" => some .csharp
  | _ => none

def ofPath? (path : Path) : Option Language :=
  ofExtension? path.extension?

def name : Language → String
  | python => "python"
  | csharp => "csharp"

def all : List Language := [python, csharp]

end Language

/-- How much work goes into a file that is read without a grammar. -/
inductive Tier
  /-- Type names and lines only. -/
  | minimal
  /-- Type names, a few unscoped methods and a few constants. -/
  | partly
  /-- Scoped members, imports, namespace and constants. -/
  | full
  deriving DecidableEq, Repr, Inhabited

namespace Tier

def name : Tier → String
  | minimal => "minimal"
  | partly => "partial"
  | full => "full"

def all : List Tier := [minimal, partly, full]

/-- The tier of a name, in any ASCII case.  The error is the name that was not
understood, made small. -/
def parse (text : String) : Except String Tier :=
  let lowered := String.ofList (Text.lowerAscii text.toList)
  match all.find? (·.name = lowered) with
  | some tier => .ok tier
  | none => .error lowered

end Tier

/-- Whether a model covers the whole file. -/
inductive Completeness
  | complete
  /-- The text was cut at the line limit of the cheapest tier. -/
  | truncated
  /-- The time budget ran out. -/
  | timedOut
  deriving DecidableEq, Repr, Inhabited

namespace Completeness

def name : Completeness → String
  | complete => "complete"
  | truncated => "truncated"
  | timedOut => "timed_out"

def all : List Completeness := [complete, truncated, timedOut]

def isPartial (completeness : Completeness) : Bool :=
  completeness ≠ .complete

end Completeness

/-- The kind of a type declaration. -/
inductive TypeKind
  | «class»
  | interface
  | struct
  | record
  | enum
  deriving DecidableEq, Repr, Inhabited

namespace TypeKind

def name : TypeKind → String
  | .class => "class"
  | interface => "interface"
  | struct => "struct"
  | record => "record"
  | enum => "enum"

def all : List TypeKind := [.class, interface, struct, record, enum]

/-- The kind that the first word of a declaration names; a class if it names
none. -/
def ofKeyword (keyword : List Char) : TypeKind :=
  match (Text.words keyword).head? with
  | none => .class
  | some word => (all.find? (·.name.toList = word)).getD .class

end TypeKind

end SourceAtlas
