import SourceAtlas.Model.Encoding
import SourceAtlas.Proofs.JsonTexts
import SourceAtlas.Proofs.SortedMaps
import Mathlib.Data.String.Basic

/-!
# Round trips

Reading back the JSON text of a model or of a failure gives the same model or failure.
Every kind of value has a lemma of its own that its decoder undoes its encoder; a record
is read from the values of its fields, so its lemma puts those of its fields together.
The numbers are those of machine words, and times those of clocks.
-/

namespace SourceAtlas

namespace Json

def IsWord (n : Nat) : Prop := n < 18446744073709551616

instance (n : Nat) : Decidable (IsWord n) :=
  inferInstanceAs (Decidable (n < 18446744073709551616))

theorem nat?_nat {n : Nat} (hn : IsWord n) : (nat n).nat? = some n := by
  have hword : (0 ≤ (n : Int) && (n : Int) < 18446744073709551616) = true := by
    rw [Bool.and_eq_true, decide_eq_true_eq, decide_eq_true_eq]
    exact ⟨Int.natCast_nonneg n, Int.ofNat_lt.mpr hn⟩
  rw [nat, nat?, if_pos hword, Int.toNat_natCast]

/-- A field that is there is read by its decoder.  Records are read through these equations,
which keep the numbers in the decoders folded. -/
theorem needed_some {α : Type} {decode : Json → Option α} {json : Json} {value : α}
    (hdecode : decode json = some value) : needed decode (some json) = some value := hdecode

theorem needed_nat {n : Nat} (hn : IsWord n) : needed nat? (some (nat n)) = some n :=
  needed_some (nat?_nat hn)

theorem needed_text (value : String) : needed text? (some (text value)) = some value := rfl

theorem needed_bool (value : Bool) : needed bool? (some (bool value)) = some value := rfl

theorem mapM_map {α β : Type} {encode : α → β} {decode : β → Option α} {items : List α}
    (hitems : ∀ item ∈ items, decode (encode item) = some item) :
    (items.map encode).mapM decode = some items := by
  induction items with
  | nil => rfl
  | cons item items ih =>
      obtain ⟨hitem, hrest⟩ := List.forall_mem_cons.mp hitems
      rw [List.map_cons, List.mapM_cons, hitem, ih hrest]
      rfl

theorem list?_array {α : Type} {encode : α → Json} {decode : Json → Option α} {items : List α}
    (hitems : ∀ item ∈ items, decode (encode item) = some item) :
    list? decode (.array (items.map encode)) = some items := by
  rw [list?, array?, Option.bind_some, mapM_map hitems]

theorem needed_texts (values : List String) :
    needed (list? text?) (some (texts values)) = some values :=
  needed_some (list?_array fun _ _ => rfl)

theorem optional_ofOption {α : Type} (encode : α → Json) {decode : Json → Option α}
    (hdecode : ∀ value, decode (encode value) = some value)
    (hencode : ∀ value, encode value ≠ .null) (option : Option α) :
    optional decode (some (ofOption encode option)) = some option := by
  cases option with
  | none => rfl
  | some value =>
      have hoption : option? decode (encode value) = (decode (encode value)).map some := by
        unfold option?
        split
        · next hnull => exact (hencode value hnull).elim
        · rfl
      rw [ofOption, optional, hoption, hdecode]
      rfl

theorem optional_ofOption_text (option : Option String) :
    optional text? (some (ofOption text option)) = some option :=
  optional_ofOption text (fun _ => rfl) (fun _ => by simp) option

end Json

theorem Language.ofJson?_toJson (language : Language) :
    ofJson? language.toJson = some language := by
  cases language <;> rfl

theorem Tier.ofJson?_toJson (tier : Tier) : ofJson? tier.toJson = some tier := by
  cases tier <;> rfl

theorem Completeness.ofJson?_toJson (completeness : Completeness) :
    ofJson? completeness.toJson = some completeness := by
  cases completeness <;> rfl

theorem TypeKind.ofJson?_toJson (kind : TypeKind) : ofJson? kind.toJson = some kind := by
  cases kind <;> rfl

theorem Role.ofJson?_toJson (role : Role) : ofJson? role.toJson = some role := by
  cases role <;> rfl

/-- Every count is a number that a machine word can hold. -/
structure Metrics.Representable (metrics : Metrics) : Prop where
  totalLines : Json.IsWord metrics.totalLines
  codeLines : Json.IsWord metrics.codeLines
  commentLines : Json.IsWord metrics.commentLines
  blankLines : Json.IsWord metrics.blankLines
  complexity : Json.IsWord metrics.complexity

theorem Metrics.ofJson?_toJson {metrics : Metrics} (hmetrics : metrics.Representable) :
    ofJson? metrics.toJson = some metrics := by
  have hrecord : metrics.toJson.record? fieldNames =
      some [some (.nat metrics.totalLines), some (.nat metrics.codeLines),
        some (.nat metrics.commentLines), some (.nat metrics.blankLines),
        some (.nat metrics.complexity)] := rfl
  unfold ofJson?
  rw [hrecord]
  simp only [Json.needed_nat hmetrics.totalLines, Json.needed_nat hmetrics.codeLines,
    Json.needed_nat hmetrics.commentLines, Json.needed_nat hmetrics.blankLines,
    Json.needed_nat hmetrics.complexity]
  rfl

/-- The seconds of a time that a clock can show. -/
def Timestamp.Representable (time : Timestamp) : Prop := time.seconds < 9223372036854775808

theorem Timestamp.ofParts?_parts {time : Timestamp} (htime : time.Representable) :
    ofParts? time.seconds time.nanoseconds = some time := by
  have hlt := time.nanoseconds_lt
  have hdiv : time.nanoseconds / 1000000000 = 0 := Nat.div_eq_of_lt hlt
  have hmod : time.nanoseconds % 1000000000 = time.nanoseconds := Nat.mod_eq_of_lt hlt
  have hrange : (time.nanoseconds < 4294967296 &&
      time.seconds + time.nanoseconds / 1000000000 < 9223372036854775808) = true := by
    rw [hdiv, Bool.and_eq_true, decide_eq_true_eq, decide_eq_true_eq]
    exact ⟨by omega, htime⟩
  rw [ofParts?, if_pos hrange, ofParts]
  simp [hdiv, hmod]

theorem Timestamp.ofJson?_toJson {time : Timestamp} (htime : time.Representable) :
    ofJson? time.toJson = some time := by
  have hlt := time.nanoseconds_lt
  have hseconds : Json.IsWord time.seconds := by
    unfold Representable at htime
    unfold Json.IsWord
    omega
  have hnanoseconds : Json.IsWord time.nanoseconds := by
    unfold Json.IsWord
    omega
  have hrecord : time.toJson.record? fieldNames =
      some [some (.nat time.seconds), some (.nat time.nanoseconds)] := rfl
  have hknown : hasOnlyKnownFields time.toJson = true := rfl
  unfold ofJson?
  rw [if_pos hknown, hrecord]
  simp only [Json.needed_nat hseconds, Json.needed_nat hnanoseconds, Option.bind_eq_bind,
    Option.bind_some, ofParts?_parts htime]

theorem textMapOfJson?_toJson (map : SortedMap String String) :
    textMapOfJson? (textMapToJson map) = some map := by
  have hentries : (map.entries.map fun entry => (entry.1, Json.text entry.2)).mapM textEntry? =
      some map.entries := Json.mapM_map fun _ _ => rfl
  rw [textMapOfJson?, textMapToJson, Json.object?, Option.bind_some, hentries, Option.map_some,
    SortedMap.ofList_entries]

def FunctionSignature.Representable (function : FunctionSignature) : Prop :=
  Json.IsWord function.line

theorem FunctionSignature.ofJson?_toJson {function : FunctionSignature}
    (hfunction : function.Representable) : ofJson? function.toJson = some function := by
  have hrecord : function.toJson.record? fieldNames =
      some [some (.text function.name), some (.texts function.parameters),
        some (.ofOption .text function.returnType), some (.bool function.isAsync),
        some (.ofOption .text function.docComment), some (.nat function.line),
        some (.texts function.decorators), some (textMapToJson function.typeHints),
        some (.texts function.defaults)] := rfl
  unfold ofJson?
  rw [hrecord]
  simp only [Json.needed_text, Json.needed_texts, Json.needed_bool, Json.optional_ofOption_text,
    Json.needed_nat hfunction, Json.needed_some (textMapOfJson?_toJson function.typeHints)]
  rfl

structure ClassSignature.Representable (signature : ClassSignature) : Prop where
  line : Json.IsWord signature.line
  methods : ∀ method ∈ signature.methods, method.Representable

theorem ClassSignature.ofJson?_toJson {signature : ClassSignature}
    (hsignature : signature.Representable) : ofJson? signature.toJson = some signature := by
  have hrecord : signature.toJson.record? fieldNames =
      some [some (.text signature.name), some signature.kind.toJson,
        some (.texts signature.baseTypes), some (.ofOption .text signature.docComment),
        some (.nat signature.line), some (.texts signature.decorators),
        some (.array (signature.methods.map (·.toJson))), some (.texts signature.fields)] := rfl
  have hmethods : Json.list? FunctionSignature.ofJson?
      (.array (signature.methods.map (·.toJson))) = some signature.methods :=
    Json.list?_array fun method hmethod =>
      FunctionSignature.ofJson?_toJson (hsignature.methods method hmethod)
  unfold ofJson?
  rw [hrecord]
  simp only [Json.needed_text, Json.needed_texts, Json.optional_ofOption_text,
    Json.needed_nat hsignature.line, Json.needed_some hmethods,
    Json.needed_some (TypeKind.ofJson?_toJson signature.kind)]
  rfl

structure SourceModel.Representable (model : SourceModel) : Prop where
  functions : ∀ function ∈ model.functions, function.Representable
  classes : ∀ signature ∈ model.classes, signature.Representable
  metrics : model.metrics.Representable
  lastModified : model.lastModified.Representable

theorem SourceModel.ofJson?_toJson {model : SourceModel} (hmodel : model.Representable) :
    ofJson? model.toJson = some model := by
  have hrecord : model.toJson.record? fieldNames =
      some [some model.path.toJson, some model.language.toJson,
        some (.ofOption .text model.docComment),
        some (.array (model.functions.map (·.toJson))),
        some (.array (model.classes.map (·.toJson))), some (.texts model.imports),
        some (.texts model.constants), some (.ofOption .text model.namespaceName),
        some (.ofOption (·.toJson) model.role), some (.ofOption (·.toJson) model.tier),
        some model.completeness.toJson, some model.metrics.toJson,
        some model.lastModified.toJson] := rfl
  have hpath : Path.ofJson? model.path.toJson = some model.path := rfl
  have hfunctions : Json.list? FunctionSignature.ofJson?
      (.array (model.functions.map (·.toJson))) = some model.functions :=
    Json.list?_array fun function hfunction =>
      FunctionSignature.ofJson?_toJson (hmodel.functions function hfunction)
  have hclasses : Json.list? ClassSignature.ofJson?
      (.array (model.classes.map (·.toJson))) = some model.classes :=
    Json.list?_array fun signature hsignature =>
      ClassSignature.ofJson?_toJson (hmodel.classes signature hsignature)
  have hrole := Json.optional_ofOption Role.toJson Role.ofJson?_toJson (fun _ => by simp [Role.toJson])
    model.role
  have htier := Json.optional_ofOption Tier.toJson Tier.ofJson?_toJson (fun _ => by simp [Tier.toJson])
    model.tier
  unfold ofJson?
  rw [hrecord]
  simp only [Json.needed_texts, Json.optional_ofOption_text, Json.needed_some hpath,
    Json.needed_some (Language.ofJson?_toJson model.language), Json.needed_some hfunctions,
    Json.needed_some hclasses, hrole, htier,
    Json.needed_some (Completeness.ofJson?_toJson model.completeness),
    Json.needed_some (Metrics.ofJson?_toJson hmodel.metrics),
    Json.needed_some (Timestamp.ofJson?_toJson hmodel.lastModified)]
  rfl

def FailureCause.Representable : FailureCause → Prop
  | parse line column _ => Json.IsWord line ∧ Json.IsWord column
  | _ => True

theorem FailureCause.ofJson?_toJson (cause : FailureCause) (hcause : cause.Representable) :
    ofJson? cause.toJson = some cause := by
  cases cause with
  | decode => rfl
  | parse line column detail =>
      have htagged : tagged? (parse line column detail).toJson =
          some ("parse", .object
            [("line", .nat line), ("column", .nat column), ("detail", .text detail)]) := rfl
      have hrecord : (Json.object
          [("line", .nat line), ("column", .nat column), ("detail", .text detail)]).record?
            ["line", "column", "detail"] =
          some [some (.nat line), some (.nat column), some (.text detail)] := rfl
      unfold ofJson?
      rw [htagged]
      simp only [hrecord, Json.needed_text, Json.needed_nat hcause.1, Json.needed_nat hcause.2]
      rfl
  | io message => rfl
  | unsupportedExtension => rfl

def FileFailure.Representable (failure : FileFailure) : Prop := failure.cause.Representable

theorem FileFailure.ofJson?_toJson {failure : FileFailure} (hfailure : failure.Representable) :
    ofJson? failure.toJson = some failure := by
  have hrecord : failure.toJson.record? ["path", "kind"] =
      some [some failure.path.toJson, some failure.cause.toJson] := rfl
  have hpath : Path.ofJson? failure.path.toJson = some failure.path := rfl
  unfold ofJson?
  rw [hrecord]
  simp only [Json.needed_some hpath,
    Json.needed_some (FailureCause.ofJson?_toJson failure.cause hfailure)]
  rfl

namespace Json

theorem areWhole_iff {items : List Json} : AreWhole items ↔ ∀ item ∈ items, item.IsWhole := by
  induction items with
  | nil => simp [AreWhole]
  | cons item items ih => simp [AreWhole, ih]

theorem fieldsAreWhole_iff {fields : List (String × Json)} :
    FieldsAreWhole fields ↔ ∀ field ∈ fields, field.2.IsWhole := by
  induction fields with
  | nil => simp [FieldsAreWhole]
  | cons field fields ih =>
      obtain ⟨name, value⟩ := field
      simp [FieldsAreWhole, ih]

theorem isWhole_array_map {α : Type} {encode : α → Json} (hencode : ∀ value, (encode value).IsWhole)
    (values : List α) : (array (values.map encode)).IsWhole := by
  refine areWhole_iff.mpr ?_
  intro item hitem
  obtain ⟨value, -, rfl⟩ := List.mem_map.mp hitem
  exact hencode value

theorem isWhole_text (value : String) : (text value).IsWhole := trivial

theorem isWhole_texts (values : List String) : (texts values).IsWhole :=
  isWhole_array_map isWhole_text values

theorem isWhole_ofOption {α : Type} (encode : α → Json)
    (hencode : ∀ value, (encode value).IsWhole) (option : Option α) :
    (ofOption encode option).IsWhole := by
  cases option with
  | none => trivial
  | some value => exact hencode value

end Json

theorem isWhole_textMapToJson (map : SortedMap String String) :
    (textMapToJson map).IsWhole := by
  refine Json.fieldsAreWhole_iff.mpr ?_
  intro field hfield
  obtain ⟨entry, -, rfl⟩ := List.mem_map.mp hfield
  trivial

theorem FunctionSignature.isWhole_toJson (function : FunctionSignature) :
    function.toJson.IsWhole :=
  ⟨trivial, Json.isWhole_texts _, Json.isWhole_ofOption .text Json.isWhole_text _, trivial,
    Json.isWhole_ofOption .text Json.isWhole_text _, trivial, Json.isWhole_texts _,
    isWhole_textMapToJson _, Json.isWhole_texts _, trivial⟩

theorem ClassSignature.isWhole_toJson (signature : ClassSignature) :
    signature.toJson.IsWhole :=
  ⟨trivial, trivial, Json.isWhole_texts _, Json.isWhole_ofOption .text Json.isWhole_text _, trivial,
    Json.isWhole_texts _, Json.isWhole_array_map FunctionSignature.isWhole_toJson _,
    Json.isWhole_texts _, trivial⟩

theorem SourceModel.isWhole_toJson (model : SourceModel) : model.toJson.IsWhole :=
  ⟨trivial, trivial, Json.isWhole_ofOption .text Json.isWhole_text _,
    Json.isWhole_array_map FunctionSignature.isWhole_toJson _,
    Json.isWhole_array_map ClassSignature.isWhole_toJson _, Json.isWhole_texts _,
    Json.isWhole_texts _, Json.isWhole_ofOption .text Json.isWhole_text _,
    Json.isWhole_ofOption Role.toJson (fun _ => trivial) _,
    Json.isWhole_ofOption Tier.toJson (fun _ => trivial) _,
    trivial, ⟨trivial, trivial, trivial, trivial, trivial, trivial⟩,
    ⟨trivial, trivial, trivial⟩, trivial⟩

theorem FailureCause.isWhole_toJson (cause : FailureCause) : cause.toJson.IsWhole := by
  cases cause with
  | decode => exact ⟨trivial, trivial⟩
  | parse line column detail => exact ⟨trivial, trivial, trivial, trivial, trivial⟩
  | io message => exact ⟨trivial, trivial, trivial⟩
  | unsupportedExtension => exact ⟨trivial, trivial⟩

theorem FileFailure.isWhole_toJson (failure : FileFailure) : failure.toJson.IsWhole :=
  ⟨trivial, failure.cause.isWhole_toJson, trivial⟩

/-- The JSON text of a model or of a failure, on one line or on many, is read as the same
model or failure. -/
theorem parse?_toJson_readBack :
    (∀ model : SourceModel, model.Representable →
      (Json.parse? model.toJson.compact).bind SourceModel.ofJson? = some model ∧
      (Json.parse? model.toJson.pretty).bind SourceModel.ofJson? = some model) ∧
    ∀ failure : FileFailure, failure.Representable →
      (Json.parse? failure.toJson.compact).bind FileFailure.ofJson? = some failure ∧
      (Json.parse? failure.toJson.pretty).bind FileFailure.ofJson? = some failure := by
  constructor
  · intro model hmodel
    rw [Json.parse?_compact model.isWhole_toJson, Json.parse?_pretty model.isWhole_toJson,
      Option.bind_some, SourceModel.ofJson?_toJson hmodel]
    exact ⟨rfl, rfl⟩
  · intro failure hfailure
    rw [Json.parse?_compact failure.isWhole_toJson, Json.parse?_pretty failure.isWhole_toJson,
      Option.bind_some, FileFailure.ofJson?_toJson hfailure]
    exact ⟨rfl, rfl⟩

/-- A model with a method that has type hints, texts that have to be escaped, the largest
numbers and a role of two words. -/
def borderModel : SourceModel :=
  { SourceModel.blank ⟨"models/ünïcode.py"⟩ .python
      { seconds := 9223372036854775807, nanoseconds := 999999999, nanoseconds_lt := by decide } with
    docComment := some "a \"quoted\" \\ line\n\u0001"
    classes := [{ ClassSignature.named "A" 18446744073709551615 with
      methods := [{ FunctionSignature.named "f" 7 with
        parameters := ["x", "*args"]
        isAsync := true
        typeHints := .ofList [("x", "int"), ("args", "str")] }] }]
    role := some .valueObject
    completeness := .timedOut }

theorem parse?_toJson_readBack_borderModel :
    borderModel.Representable ∧
      (Json.parse? borderModel.toJson.compact).bind SourceModel.ofJson? = some borderModel ∧
      FileFailure.Representable ⟨⟨"a.py"⟩, .parse 3 18446744073709551615 "missing \")\""⟩ ∧
      (Json.parse? (FileFailure.toJson
        ⟨⟨"a.py"⟩, .parse 3 18446744073709551615 "missing \")\""⟩).compact).bind
          FileFailure.ofJson? =
        some ⟨⟨"a.py"⟩, .parse 3 18446744073709551615 "missing \")\""⟩ := by
  have hmodel : borderModel.Representable := by
    constructor
    · simp [borderModel, SourceModel.blank]
    · intro signature hsignature
      obtain rfl := List.mem_singleton.mp hsignature
      constructor
      · decide
      · intro method hmethod
        obtain rfl := List.mem_singleton.mp hmethod
        show Json.IsWord 7
        decide
    · constructor <;> decide
    · show 9223372036854775807 < 9223372036854775808
      decide
  have hfailure : FileFailure.Representable
      ⟨⟨"a.py"⟩, .parse 3 18446744073709551615 "missing \")\""⟩ := by
    constructor <;> decide
  exact ⟨hmodel, (parse?_toJson_readBack.1 _ hmodel).1, hfailure,
    (parse?_toJson_readBack.2 _ hfailure).1⟩

end SourceAtlas
