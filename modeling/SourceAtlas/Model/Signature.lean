import SourceAtlas.Model.Kinds
import SourceAtlas.SortedMap

/-!
# Signatures

What a source model records about a function and about a type declaration.
-/

namespace SourceAtlas

/-- A function, method or constructor. -/
structure FunctionSignature where
  name : String
  /-- Parameter names in the order of their declaration. -/
  parameters : List String
  returnType : Option String
  isAsync : Bool
  docComment : Option String
  /-- The line of the definition, counted from one. -/
  line : Nat
  decorators : List String
  typeHints : SortedMap String String
  /-- The texts of default values in the order of their parameters. -/
  defaults : List String
  deriving DecidableEq, Inhabited

namespace FunctionSignature

def named (name : String) (line : Nat) : FunctionSignature :=
  { name, parameters := [], returnType := none, isAsync := false, docComment := none,
    line, decorators := [], typeHints := .empty, defaults := [] }

def bareName (parameter : String) : String :=
  String.ofList (parameter.toList.dropWhile (· = '*'))

def parameterText (function : FunctionSignature) (parameter : String) : String :=
  match function.typeHints.get? (bareName parameter) with
  | some hint => parameter ++ ": " ++ hint
  | none => parameter

def text (function : FunctionSignature) : String :=
  let opening := if function.isAsync then "async " else ""
  let parameters := ", ".intercalate (function.parameters.map function.parameterText)
  let result :=
    match function.returnType with
    | some type => " -> " ++ type
    | none => ""
  opening ++ function.name ++ "(" ++ parameters ++ ")" ++ result

end FunctionSignature

/-- The list with a name at its end, unless it has the name already. -/
def addOnce (names : List String) (name : String) : List String :=
  if names.contains name then names else names ++ [name]

/-- A class or another type declaration. -/
structure ClassSignature where
  name : String
  kind : TypeKind
  /-- The base types as written. -/
  baseTypes : List String
  docComment : Option String
  /-- The line of the declaration, counted from one. -/
  line : Nat
  decorators : List String
  /-- The methods declared directly in the body. -/
  methods : List FunctionSignature
  /-- The attributes or properties declared in the body. -/
  fields : List String
  deriving DecidableEq, Inhabited

namespace ClassSignature

def named (name : String) (line : Nat) : ClassSignature :=
  { name, kind := .class, baseTypes := [], docComment := none, line,
    decorators := [], methods := [], fields := [] }

def addField (signature : ClassSignature) (name : String) : ClassSignature :=
  { signature with fields := addOnce signature.fields name }

def addMethod (signature : ClassSignature) (function : FunctionSignature) : ClassSignature :=
  { signature with methods := signature.methods ++ [function] }

def method? (signature : ClassSignature) (name : String) : Option FunctionSignature :=
  signature.methods.find? (·.name = name)

def isException (signature : ClassSignature) : Bool :=
  signature.baseTypes.any fun base =>
    Text.occursIn "Exception".toList base.toList || Text.occursIn "Error".toList base.toList

end ClassSignature

end SourceAtlas
