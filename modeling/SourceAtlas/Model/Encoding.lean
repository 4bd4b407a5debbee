import SourceAtlas.Failure
import SourceAtlas.Json.Value
import SourceAtlas.Model.SourceModel

/-!
# Models as JSON

How models and failures are written as JSON values and read back.  Records have
their fields in a fixed order; what is absent is written as null.
-/

namespace SourceAtlas

def Json.named? {α : Type} (all : List α) (name : α → String) (json : Json) : Option α :=
  json.choice?.bind fun text => all.find? (name · = text)

def Path.toJson (path : Path) : Json := .text path.text

def Path.ofJson? (json : Json) : Option Path := json.text?.map Path.mk

def Language.toJson (language : Language) : Json := .text language.name

def Language.ofJson? : Json → Option Language := Json.named? all name

def Tier.toJson (tier : Tier) : Json := .text tier.name

def Tier.ofJson? : Json → Option Tier := Json.named? all name

def Completeness.toJson (completeness : Completeness) : Json := .text completeness.name

def Completeness.ofJson? : Json → Option Completeness := Json.named? all name

def TypeKind.toJson (kind : TypeKind) : Json := .text kind.name

def TypeKind.ofJson? : Json → Option TypeKind := Json.named? all name

def Role.toJson (role : Role) : Json := .text role.name

def Role.ofJson? : Json → Option Role := Json.named? all name

namespace Metrics

def fieldNames : List String :=
  ["total_lines", "code_lines", "comment_lines", "blank_lines", "complexity"]

def toJson (metrics : Metrics) : Json :=
  .object [
    ("total_lines", .nat metrics.totalLines),
    ("code_lines", .nat metrics.codeLines),
    ("comment_lines", .nat metrics.commentLines),
    ("blank_lines", .nat metrics.blankLines),
    ("complexity", .nat metrics.complexity)]

def ofJson? (json : Json) : Option Metrics :=
  match json.record? fieldNames with
  | some [total, code, comment, blank, complexity] => do
      let totalLines ← Json.needed Json.nat? total
      let codeLines ← Json.needed Json.nat? code
      let commentLines ← Json.needed Json.nat? comment
      let blankLines ← Json.needed Json.nat? blank
      let complexity ← Json.needed Json.nat? complexity
      return { totalLines, codeLines, commentLines, blankLines, complexity }
  | _ => none

end Metrics

namespace Timestamp

def fieldNames : List String := ["secs_since_epoch", "nanos_since_epoch"]

def toJson (time : Timestamp) : Json :=
  .object [
    ("secs_since_epoch", .nat time.seconds),
    ("nanos_since_epoch", .nat time.nanoseconds)]

/-- The time of parts that stay within the range of clocks. -/
def ofParts? (seconds nanoseconds : Nat) : Option Timestamp :=
  if nanoseconds < 4294967296 && seconds + nanoseconds / 1000000000 < 9223372036854775808 then
    some (ofParts seconds nanoseconds)
  else none

/-- Whether every field of an object has a name from a list. -/
def hasOnlyKnownFields : Json → Bool
  | .object fields => fields.all fun field => fieldNames.contains field.1
  | _ => true

def ofJson? (json : Json) : Option Timestamp :=
  if hasOnlyKnownFields json then
    match json.record? fieldNames with
    | some [seconds, nanoseconds] => do
        let seconds ← Json.needed Json.nat? seconds
        let nanoseconds ← Json.needed Json.nat? nanoseconds
        ofParts? seconds nanoseconds
    | _ => none
  else none

end Timestamp

/-- Texts under texts as an object in the order of the keys. -/
def textMapToJson (map : SortedMap String String) : Json :=
  .object (map.entries.map fun entry => (entry.1, .text entry.2))

def textEntry? (entry : String × Json) : Option (String × String) :=
  entry.2.text?.map (entry.1, ·)

def textMapOfJson? (json : Json) : Option (SortedMap String String) :=
  json.object?.bind fun fields => (fields.mapM textEntry?).map SortedMap.ofList

namespace FunctionSignature

def fieldNames : List String :=
  ["name", "parameters", "return_type", "is_async", "doc_comment", "line", "decorators",
    "type_hints", "defaults"]

def toJson (function : FunctionSignature) : Json :=
  .object [
    ("name", .text function.name),
    ("parameters", .texts function.parameters),
    ("return_type", .ofOption .text function.returnType),
    ("is_async", .bool function.isAsync),
    ("doc_comment", .ofOption .text function.docComment),
    ("line", .nat function.line),
    ("decorators", .texts function.decorators),
    ("type_hints", textMapToJson function.typeHints),
    ("defaults", .texts function.defaults)]

def ofJson? (json : Json) : Option FunctionSignature :=
  match json.record? fieldNames with
  | some [name, parameters, returnType, isAsync, docComment, line, decorators, typeHints,
      defaults] => do
      let name ← Json.needed Json.text? name
      let parameters ← Json.needed (Json.list? Json.text?) parameters
      let returnType ← Json.optional Json.text? returnType
      let isAsync ← Json.needed Json.bool? isAsync
      let docComment ← Json.optional Json.text? docComment
      let line ← Json.needed Json.nat? line
      let decorators ← Json.needed (Json.list? Json.text?) decorators
      let typeHints ← Json.needed textMapOfJson? typeHints
      let defaults ← Json.needed (Json.list? Json.text?) defaults
      return { name, parameters, returnType, isAsync, docComment, line, decorators, typeHints,
               defaults }
  | _ => none

end FunctionSignature

namespace ClassSignature

def fieldNames : List String :=
  ["name", "kind", "base_types", "doc_comment", "line", "decorators", "methods", "fields"]

def toJson (signature : ClassSignature) : Json :=
  .object [
    ("name", .text signature.name),
    ("kind", signature.kind.toJson),
    ("base_types", .texts signature.baseTypes),
    ("doc_comment", .ofOption .text signature.docComment),
    ("line", .nat signature.line),
    ("decorators", .texts signature.decorators),
    ("methods", .array (signature.methods.map (·.toJson))),
    ("fields", .texts signature.fields)]

def ofJson? (json : Json) : Option ClassSignature :=
  match json.record? fieldNames with
  | some [name, kind, baseTypes, docComment, line, decorators, methods, fields] => do
      let name ← Json.needed Json.text? name
      let kind ← Json.needed TypeKind.ofJson? kind
      let baseTypes ← Json.needed (Json.list? Json.text?) baseTypes
      let docComment ← Json.optional Json.text? docComment
      let line ← Json.needed Json.nat? line
      let decorators ← Json.needed (Json.list? Json.text?) decorators
      let methods ← Json.needed (Json.list? FunctionSignature.ofJson?) methods
      let fields ← Json.needed (Json.list? Json.text?) fields
      return { name, kind, baseTypes, docComment, line, decorators, methods, fields }
  | _ => none

end ClassSignature

namespace SourceModel

def fieldNames : List String :=
  ["path", "language", "doc_comment", "functions", "classes", "imports", "constants",
    "namespace", "role", "tier", "completeness", "metrics", "last_modified"]

def toJson (model : SourceModel) : Json :=
  .object [
    ("path", model.path.toJson),
    ("language", model.language.toJson),
    ("doc_comment", .ofOption .text model.docComment),
    ("functions", .array (model.functions.map (·.toJson))),
    ("classes", .array (model.classes.map (·.toJson))),
    ("imports", .texts model.imports),
    ("constants", .texts model.constants),
    ("namespace", .ofOption .text model.namespaceName),
    ("role", .ofOption (·.toJson) model.role),
    ("tier", .ofOption (·.toJson) model.tier),
    ("completeness", model.completeness.toJson),
    ("metrics", model.metrics.toJson),
    ("last_modified", model.lastModified.toJson)]

def ofJson? (json : Json) : Option SourceModel :=
  match json.record? fieldNames with
  | some [path, language, docComment, functions, classes, imports, constants, namespaceName,
      role, tier, completeness, metrics, lastModified] => do
      let path ← Json.needed Path.ofJson? path
      let language ← Json.needed Language.ofJson? language
      let docComment ← Json.optional Json.text? docComment
      let functions ← Json.needed (Json.list? FunctionSignature.ofJson?) functions
      let classes ← Json.needed (Json.list? ClassSignature.ofJson?) classes
      let imports ← Json.needed (Json.list? Json.text?) imports
      let constants ← Json.needed (Json.list? Json.text?) constants
      let namespaceName ← Json.optional Json.text? namespaceName
      let role ← Json.optional Role.ofJson? role
      let tier ← Json.optional Tier.ofJson? tier
      let completeness ← Json.needed Completeness.ofJson? completeness
      let metrics ← Json.needed Metrics.ofJson? metrics
      let lastModified ← Json.needed Timestamp.ofJson? lastModified
      return { path, language, docComment, functions, classes, imports, constants,
               namespaceName, role, tier, completeness, metrics, lastModified }
  | _ => none

end SourceModel

namespace FailureCause

/-- The cause as an object that names its kind beside its other fields. -/
def toJson (cause : FailureCause) : Json :=
  .object (("kind", .text cause.name) ::
    match cause with
    | decode => []
    | parse line column detail =>
        [("line", .nat line), ("column", .nat column), ("detail", .text detail)]
    | io message => [("message", .text message)]
    | unsupportedExtension => [])

def tagged? : Json → Option (String × Json)
  | .object fields =>
      ((Json.lookup? fields "kind").bind Json.text?).map
        fun tag => (tag, .object (fields.filter (·.1 ≠ "kind")))
  | .array (tag :: rest) => tag.text?.map fun tag => (tag, .array rest)
  | _ => none

/-- A cause without further fields, beside which an object may hold more. -/
def plain? (cause : FailureCause) (rest : Json) : Option FailureCause :=
  match rest with
  | .object _ => some cause
  | .array [] => some cause
  | _ => none

def ofJson? (json : Json) : Option FailureCause :=
  match tagged? json with
  | some ("decode", rest) => plain? decode rest
  | some ("parse", rest) =>
      match rest.record? ["line", "column", "detail"] with
      | some [line, column, detail] => do
          let line ← Json.needed Json.nat? line
          let column ← Json.needed Json.nat? column
          let detail ← Json.needed Json.text? detail
          return parse line column detail
      | _ => none
  | some ("io", rest) =>
      match rest.record? ["message"] with
      | some [message] => (Json.needed Json.text? message).map io
      | _ => none
  | some ("unsupported_extension", rest) => plain? unsupportedExtension rest
  | _ => none

end FailureCause

namespace FileFailure

def toJson (failure : FileFailure) : Json :=
  .object [("path", failure.path.toJson), ("kind", failure.cause.toJson)]

def ofJson? (json : Json) : Option FileFailure :=
  match json.record? ["path", "kind"] with
  | some [path, cause] => do
      let path ← Json.needed Path.ofJson? path
      let cause ← Json.needed FailureCause.ofJson? cause
      return { path, cause }
  | _ => none

end FileFailure

end SourceAtlas
