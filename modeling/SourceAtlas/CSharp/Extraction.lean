import SourceAtlas.CSharp.Budget
import SourceAtlas.CSharp.Documentation
import SourceAtlas.CSharp.Method
import SourceAtlas.Model.Limits
import SourceAtlas.Model.SourceModel

/-!
# Models of C# files

The three tiers of reading a C# file.  The minimal tier lists the types of the
first lines.  The partial tier adds some methods, each to the nearest type
before it, and some constants.  The full tier counts braces to find the members
of each type and adds imports, namespace, annotations and free functions.

Each tier is given twice: as what it finds with all the time there is, and as
the loops that collect it within a budget, which a file is read with.
-/

namespace SourceAtlas.CSharp

open Text

/-- What a tier finds in a listing. -/
structure Findings where
  classes : List ClassSignature
  functions : List FunctionSignature
  constants : List String
  imports : List String
  namespaceName : Option String

namespace Findings

def none : Findings :=
  { classes := [], functions := [], constants := [], imports := [], namespaceName := .none }

end Findings

/-- The names that a shape marks in a window and that stand at places that are
wanted. -/
def namesOf (shape : Shape) (wanted : Nat → Bool) (place : Cursor) : List String :=
  (shape.findAll place).filterMap fun found =>
    if wanted found.whole.start.offset then (found.part? .name).map (·.string) else none

def minimalFindings (listing : Listing) (types : List TypeDeclaration) : Findings :=
  { Findings.none with classes := types.map (·.signature listing) }

/-- The methods of a listing that have a return type, wherever they stand. -/
def unscopedMethods (listing : Listing) : List Method :=
  (Method.allIn (Cursor.ofText listing.masked)).filter (·.returnType.isSome)

/-- How many types start before a method.  The last of them owns it. -/
def typesBefore (types : List TypeDeclaration) (method : Method) : Nat :=
  types.countP (·.start < method.start)

/-- The signatures of the methods that a number of types precede. -/
def methodsBehind (listing : Listing) (types : List TypeDeclaration) (methods : List Method)
    (count : Nat) : List FunctionSignature :=
  (methods.filter (typesBefore types · = count)).map (·.signature listing [] none)

/-- Types with a limited number of methods, and a limited number of
constants. -/
def partialFindings (limits : Limits) (listing : Listing) (types : List TypeDeclaration) :
    Findings :=
  let methods := (unscopedMethods listing).take limits.partialMethodLimit
  let names := namesOf constShape (fun _ => true) (Cursor.ofText listing.masked)
  { Findings.none with
    classes := types.mapIdx fun index type =>
      { type.signature listing with
        methods := methodsBehind listing types methods (index + 1) }
    functions := methodsBehind listing types methods 0
    constants := (names.foldl addOnce []).take limits.partialConstantLimit }

/-- Whether as many braces are closed as opened between a place and an
offset. -/
def isDirectlyIn (place : Cursor) (offset : Nat) : Bool :=
  balanceFrom 0 offset place.offset place.after = 0

/-- The methods declared directly in the body of a type.  What has no return type
must be a constructor of the type itself. -/
def directMethods (type : TypeDeclaration) : List Method :=
  match type.body with
  | some (_, body) =>
      (Method.allIn body).filter fun method =>
        isDirectlyIn body method.start && (method.returnType.isSome || method.name = type.name)
  | none => []

/-- The signature of a method of a type with its annotations. -/
def memberSignature (listing : Listing) (method : Method) : FunctionSignature :=
  let annotations := listing.annotations method.start
  method.signature listing annotations.attributes annotations.docComment

/-- The name of the property that a match stands for, if it stands directly in
a body. -/
def propertyName? (body : Cursor) (found : Match Mark) : Option String :=
  match found.part? .type, found.part? .name with
  | some type, some name =>
      if isKeyword type.string || isKeyword name.string then none
      else if isDirectlyIn body type.start.offset then some name.string
      else none
  | _, _ => none

/-- The names of the properties declared directly in the body of a type. -/
def fieldsOf (type : TypeDeclaration) : List String :=
  match type.body with
  | some (_, body) =>
      ((propertyShape.findAll body).filterMap (propertyName? body)).foldl addOnce []
  | none => []

/-- The names of the constants declared directly in a body, those with a fixed
value first. -/
def constantsOf (type : TypeDeclaration) : List String :=
  match type.body with
  | some (_, body) =>
      namesOf constShape (isDirectlyIn body) body
        ++ namesOf staticReadonlyShape (isDirectlyIn body) body
  | none => []

def fullSignature (listing : Listing) (type : TypeDeclaration) : ClassSignature :=
  let annotations := listing.annotations type.start
  { type.signature listing with
    baseTypes := type.baseTypes
    decorators := annotations.attributes
    docComment := annotations.docComment
    methods := (directMethods type).map (memberSignature listing)
    fields := fieldsOf type }

/-- Collects the functions outside all types and outside each other's
bodies. -/
def freeMethodsLoop (listing : Listing) (types : List TypeDeclaration) (bodies : List Block)
    (kept : List Method) : List Method → List Method
  | [] => kept.reverse
  | method :: rest =>
      if method.returnType.isNone
          || TypeDeclaration.insideAny types listing.masked method.start
          || bodies.any (·.contains method.start) then
        freeMethodsLoop listing types bodies kept rest
      else
        freeMethodsLoop listing types (method.body.toList ++ bodies) (method :: kept) rest

def freeMethods (listing : Listing) (types : List TypeDeclaration) : List Method :=
  freeMethodsLoop listing types [] [] (Method.allIn (Cursor.ofText listing.masked))

/-- The text of a directive without the semicolon that ends it. -/
def directiveText (text : List Char) : String :=
  String.ofList (collapseBlanks (dropEndWhile (· = ';') (trim text)))

def importMatches (listing : Listing) (types : List TypeDeclaration) : List (Match Mark) :=
  (usingShape.findAll (Cursor.ofText listing.masked)).filter fun found =>
    !TypeDeclaration.insideAny types listing.masked found.whole.start.offset

def importsOf (listing : Listing) (types : List TypeDeclaration) : List String :=
  (importMatches listing types).map fun found =>
    directiveText (slice listing.text found.whole.start.offset found.whole.stop.offset)

def namespaceOf (listing : Listing) : Option String :=
  match namespaceShape.find? (Cursor.ofText listing.masked) with
  | some found => (found.part? .name).map (·.string)
  | none => none

/-- What is found before the members of types are looked at. -/
def surroundings (listing : Listing) (types : List TypeDeclaration) : Findings :=
  { Findings.none with
    imports := importsOf listing types
    namespaceName := namespaceOf listing }

def fullFindings (listing : Listing) (types : List TypeDeclaration) : Findings :=
  { surroundings listing types with
    classes := types.map (fullSignature listing)
    functions := (freeMethods listing types).map (·.signature listing [] none)
    constants := (types.flatMap constantsOf).foldl addOnce [] }

/-- A method behind so many types: the last of them owns it. -/
def Findings.addMethod (found : Findings) (before : Nat) (method : FunctionSignature) :
    Findings :=
  match before with
  | 0 => { found with functions := found.functions ++ [method] }
  | index + 1 =>
      { found with
        classes := found.classes.modify index fun type =>
          { type with methods := type.methods ++ [method] } }

def minimalWithin (listing : Listing) (types : List TypeDeclaration) (budget : Budget) :
    Timed Findings :=
  (Timed.collectEach (fun classes type => type.signature listing :: classes) [] types budget).map
    fun classes => { Findings.none with classes := classes.reverse }

/-- Adds methods with a return type until there are as many as the limit
allows. -/
def collectUnscoped (limit : Nat) (listing : Listing) (types : List TypeDeclaration) :
    Nat → Findings → List Method → Budget → Timed Findings
  | _, found, [], budget => (found, some budget)
  | count, found, method :: rest, budget =>
      if limit ≤ count then (found, some budget)
      else
        match budget.look? with
        | none => (found, none)
        | some budget =>
            if method.returnType.isNone then
              collectUnscoped limit listing types count found rest budget
            else
              collectUnscoped limit listing types (count + 1)
                (found.addMethod (typesBefore types method) (method.signature listing [] none))
                rest budget

/-- Adds names until there are as many as the limit allows. -/
def collectNames (limit : Nat) : List String → List String → List String
  | names, [] => names
  | names, name :: rest =>
      if limit ≤ names.length then names else collectNames limit (addOnce names name) rest

def partialWithin (limits : Limits) (listing : Listing) (types : List TypeDeclaration)
    (budget : Budget) : Timed Findings :=
  (minimalWithin listing types budget).andThen id fun found budget =>
    (collectUnscoped limits.partialMethodLimit listing types 0 found
      (Method.allIn (Cursor.ofText listing.masked)) budget).andThen id fun found budget =>
        ({ found with
            constants := collectNames limits.partialConstantLimit found.constants
              (namesOf constShape (fun _ => true) (Cursor.ofText listing.masked)) },
          some budget)

/-- The methods of a type that its body declares directly, the last one first. -/
def collectMembers (listing : Listing) (type : TypeDeclaration) (body : Cursor) :
    Budget → Timed (List FunctionSignature) :=
  Timed.collectEach
    (fun methods method =>
      if isDirectlyIn body method.start && (method.returnType.isSome || method.name = type.name)
      then memberSignature listing method :: methods else methods)
    [] (Method.allIn body)

/-- The types so far, the last one first, and the names of constants. -/
structure Collected where
  types : List ClassSignature
  constants : List String

def Collected.addType (found : Collected) (type : ClassSignature) : Collected :=
  { found with types := type :: found.types }

/-- Takes up a type with its members.  Fields and constants come behind the
methods, so a type whose methods take too long has none. -/
def collectType (listing : Listing) (found : Collected) (type : TypeDeclaration)
    (budget : Budget) : Timed Collected :=
  let annotations := listing.annotations type.start
  let bare :=
    { type.signature listing with
      baseTypes := type.baseTypes
      decorators := annotations.attributes
      docComment := annotations.docComment }
  match type.body with
  | none => (found.addType bare, some budget)
  | some (_, body) =>
      (collectMembers listing type body budget).andThen
        (fun methods => found.addType { bare with methods := methods.reverse })
        fun methods budget =>
          ({ found.addType { bare with methods := methods.reverse, fields := fieldsOf type } with
              constants := (constantsOf type).foldl addOnce found.constants },
            some budget)

/-- The functions so far, the last one first, and their bodies. -/
structure CollectedFree where
  bodies : List Block
  kept : List Method

def collectFree (listing : Listing) (types : List TypeDeclaration) :
    Budget → Timed CollectedFree :=
  Timed.collectEach
    (fun found method =>
      if method.returnType.isNone
          || TypeDeclaration.insideAny types listing.masked method.start
          || found.bodies.any (·.contains method.start) then found
      else { bodies := method.body.toList ++ found.bodies, kept := method :: found.kept })
    { bodies := [], kept := [] } (Method.allIn (Cursor.ofText listing.masked))

/-- What has been collected of types, in what surrounds them. -/
def Collected.within (found : Collected) (surroundings : Findings) : Findings :=
  { surroundings with classes := found.types.reverse, constants := found.constants }

def fullWithin (listing : Listing) (types : List TypeDeclaration) (budget : Budget) :
    Timed Findings :=
  let before := surroundings listing types
  (Timed.collect (collectType listing) { types := [], constants := [] } types budget).andThen
    (·.within before) fun found budget =>
      (collectFree listing types budget).map fun free =>
        { found.within before with
          functions := free.kept.reverse.map (·.signature listing [] none) }

/-- What is found within a budget, and whether the time was enough. -/
def findingsWithin (tier : Tier) (limits : Limits) (listing : Listing)
    (types : List TypeDeclaration) (budget : Budget) : Findings × Bool :=
  let (found, left) :=
    match tier with
    | .minimal => minimalWithin listing types budget
    | .partly => partialWithin limits listing types budget
    | .full => fullWithin listing types budget
  (found, left.isSome)

/-- What is found, and whether the time was enough. -/
def findings (tier : Tier) (limits : Limits) (listing : Listing)
    (types : List TypeDeclaration) : Findings × Bool :=
  findingsWithin tier limits listing types limits.budget

/-- Whether there is a declaration before which the time is looked at. -/
def hasTimedWork (tier : Tier) (limits : Limits) (listing : Listing)
    (types : List TypeDeclaration) : Bool :=
  let methods := !(Method.allIn (Cursor.ofText listing.masked)).isEmpty
  !types.isEmpty ||
    match tier with
    | .minimal => false
    | .partly => limits.partialMethodLimit != 0 && methods
    | .full => methods

/-- The text that a tier reads, and whether it leaves something out. -/
def textAt (tier : Tier) (limits : Limits) (content : List Char) : List Char × Bool :=
  match tier with
  | .minimal => Listing.firstLines limits.minimalLineLimit content
  | _ => (content, false)

def completenessOf (isCut inTime : Bool) : Completeness :=
  if !inTime then .timedOut else if isCut then .truncated else .complete

def modelAt (tier : Tier) (limits : Limits) (file : SourceFile) : SourceModel :=
  let content := file.content.toList
  let (text, isCut) := textAt tier limits content
  let listing := Listing.ofText text
  let (found, inTime) := findings tier limits listing (TypeDeclaration.topLevel listing.masked)
  { SourceModel.blank file.path .csharp file.lastModified with
    docComment := fileDocumentation content
    functions := found.functions
    classes := found.classes
    imports := found.imports
    constants := found.constants
    namespaceName := found.namespaceName
    tier := some tier
    completeness := completenessOf isCut inTime
    metrics := (Metrics.ofText .slashes content).addDecisions (decisionCount listing.masked) }

/-- The model of a file at a given tier, or at the one that its size asks
for. -/
def extract (limits : Limits) (tier : Option Tier) (file : SourceFile) : SourceModel :=
  modelAt (tier.getD (limits.tierOfSize file.content.utf8ByteSize)) limits file

end SourceAtlas.CSharp
