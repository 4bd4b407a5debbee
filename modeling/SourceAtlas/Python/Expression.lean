import SourceAtlas.Python.Form

/-!
# Expressions of Python

The forms of expressions, from whole ones down to atoms.  A rule stands where
the forms refer to each other in cycles, and for the parts of a value that
targets are made of; everything else is a definition.  Alternatives differ in
their first tokens, so that no expression is taken twice.
-/

namespace SourceAtlas.Python

def Node.isWord (node : Node) (spelling : String) : Bool :=
  !node.label.isNamed && node.kind = spelling

def hasWord (spelling : String) (nodes : List Node) : Bool :=
  nodes.any (·.isWord spelling)

def hasClause (nodes : List Node) : Bool :=
  nodes.any (·.kind = "for_in_clause")

def parenthesizedKind (nodes : List Node) : String :=
  if hasClause nodes then "generator_expression"
  else if hasWord "," nodes || nodes.length = 2 then "tuple"
  else "parenthesized_expression"

def listKind (nodes : List Node) : String :=
  if hasClause nodes then "list_comprehension" else "list"

/-- Whether a node can stand in a dictionary. -/
def isEntry (node : Node) : Bool :=
  node.kind = "pair" || node.kind = "dictionary_splat"

def bracesKind (nodes : List Node) : String :=
  let isDictionary := nodes.any isEntry || nodes.length = 2
  if hasClause nodes then
    if isDictionary then "dictionary_comprehension" else "set_comprehension"
  else if isDictionary then "dictionary"
  else "set"

/-- Whether braces hold entries or values, not both. -/
def isUniform (nodes : List Node) : Bool :=
  let items := nodes.filter (·.label.isNamed)
  let values := items.filter (·.kind ∉ ["for_in_clause", "if_clause"])
  let isSpread := (nodes.tail.head?.any fun node =>
    node.kind = "list_splat" || node.kind = "dictionary_splat")
  (values.all isEntry || values.all (!isEntry ·)) && !(hasClause nodes && isSpread)

def argumentsKind (nodes : List Node) : String :=
  if hasClause nodes then "generator_expression" else "argument_list"

/-- The kind of a value from what stands at its end. -/
def selectionKind (nodes : List Node) : String :=
  match nodes.getLast? with
  | none => "ERROR"
  | some last =>
      if last.isWord "]" then "subscript"
      else if last.kind = "identifier" then "attribute"
      else "call"

/-- The kind that a value has where it is assigned to. -/
def patternKind (kind : String) : String :=
  match kind with
  | "tuple" | "parenthesized_expression" => "tuple_pattern"
  | "list" => "list_pattern"
  | "list_splat" => "list_splat_pattern"
  | _ => kind

/-- Kinds of values and patterns that hold several targets. -/
def targetGroups : List String :=
  ["tuple", "parenthesized_expression", "list", "list_splat", "pattern_list", "tuple_pattern",
    "list_pattern", "list_splat_pattern"]

def targetMarks : List String :=
  ["(", ")", "[", "]", ",", "*"]

mutual

/-- Whether values can be assigned to a node. -/
def Node.isTarget : Node → Bool
  | .mk label children =>
      if label.isNamed then
        label.kind ∈ ["identifier", "attribute", "subscript"]
          || (label.kind ∈ targetGroups && areTargets children)
      else label.kind ∈ targetMarks

def areTargets : List Node → Bool
  | [] => true
  | node :: nodes => node.isTarget && areTargets nodes

end

def asPattern (node : Node) : Node :=
  node.withKind (patternKind node.kind)

namespace Form

def expression : Form := rule .expression

def primary : Form := rule .primary

def binary (kind : String) (operand operator : Form) : Form :=
  chain (.around kind) operand (seq operator operand)

def comparisonOperator : Form :=
  oneOf
    [anyWord ["==", "!=", "<>", "<=", ">=", "<", ">", "in"],
      seq (word "is") (opt (word "not")),
      seq (word "not") (word "in")]

def value : Form :=
  let operation := binary "binary_operator"
  let product := operation (rule .factor) (anyWord ["*", "//", "/", "%", "@"])
  let sum := operation product (anyWord ["+", "-"])
  let shift := operation sum (anyWord ["<<", ">>"])
  let meet := operation shift (word "&")
  let differ := operation meet (word "^")
  operation differ (word "|")

def inversionForm : Form :=
  choice (node "not_operator" (seq (word "not") (rule .inversion)))
    (extend (.around "comparison_operator") value (many1 (seq comparisonOperator value)))

def disjunction : Form :=
  let conjunction := binary "boolean_operator" (rule .inversion) (word "and")
  binary "boolean_operator" conjunction (word "or")

def factorForm : Form :=
  let awaited := choice (node "await" (seq (word "await") primary)) primary
  choice (node "unary_operator" (seq (anyWord ["+", "-", "~"]) (rule .factor)))
    (extend (.around "binary_operator") awaited (seq (word "**") (rule .factor)))

def binding : Form :=
  node "named_expression" (all [token .name, word ":=", expression])

def namedExpression : Form :=
  choice binding expression

def starredValue : Form :=
  node "list_splat" (seq (word "*") value)

def expressions : Form :=
  listedOpen (choice starredValue expression)

def item : Form :=
  choice starredValue namedExpression

def moreOf (form : Form) : Form :=
  seq (many (seq (word ",") form)) (opt (word ","))

def yieldExpression : Form :=
  node "yield"
    (seq (word "yield") (choice (seq (word "from") expression) (opt expressions)))

def assignedValue : Form :=
  choice yieldExpression expressions

/-- Several targets, or one, that values are taken for one after the other. -/
def targets : Form :=
  let target := choice (node "list_splat" (seq (word "*") primary)) primary
  build
    (fun token nodes => Maker.group "pattern_list" token (nodes.map asPattern))
    (check areTargets (listedOpen target))

def clauses : Form :=
  let clause :=
    node "for_in_clause"
      (all [opt (word "async"), word "for", targets, word "in", disjunction])
  many1 (seq clause (many (node "if_clause" (seq (word "if") disjunction))))

def parenthesized : Form :=
  let starTuple := all [starredValue, word ",", opt (listedOpen item)]
  let others := seq namedExpression (choice clauses (moreOf item))
  build (.ofKind parenthesizedKind)
    (all [word "(", oneOf [yieldExpression, starTuple, others, empty], word ")"])

def list : Form :=
  let starList := seq starredValue (moreOf item)
  let others := seq namedExpression (choice clauses (moreOf item))
  build (.ofKind listKind) (all [word "[", oneOf [starList, others, empty], word "]"])

def braces : Form :=
  let mapping := node "dictionary_splat" (seq (word "**") value)
  let pair := extend (.around "pair") expression (seq (word ":") expression)
  let entry := oneOf [mapping, starredValue, binding, pair]
  build (.ofKind bracesKind)
    (check isUniform
      (all [word "\x7b", opt (seq entry (choice clauses (moreOf entry))), word "\x7d"]))

/-- Literal text of a format string, or a field in it. -/
def formatPiece : Form :=
  choice (token .formatText) (rule .interpolation)

def stringLiteral : Form :=
  choice (token .string)
    (node "string" (all [token .formatOpen, many formatPiece, token .formatClose]))

def strings : Form :=
  extend (.around "concatenated_string") stringLiteral (many1 stringLiteral)

def interpolationForm : Form :=
  let conversion := node "type_conversion" (anyWord ["!s", "!r", "!a"])
  let specification := node "format_specifier" (seq (word ":") (many formatPiece))
  node "interpolation"
    (all
      [word "\x7b", assignedValue, opt (word "="), opt conversion, opt specification,
        word "\x7d"])

def arguments : Form :=
  let argument :=
    oneOf
      [node "keyword_argument" (all [token .name, word "=", expression]),
        node "list_splat" (seq (word "*") expression),
        node "dictionary_splat" (seq (word "**") expression),
        namedExpression]
  opt (choice (seq (seq namedExpression clauses) (ahead (word ")"))) (listedOpen argument))

def slices : Form :=
  let range := all [word ":", opt expression, opt (seq (word ":") (opt expression))]
  let slice := node "slice" range
  listedOpen
    (oneOf [slice, starredValue, extend (.around "slice") namedExpression range])

def selector : Form :=
  oneOf
    [seq (word ".") (token .name),
      build (.ofKind argumentsKind) (all [word "(", arguments, word ")"]),
      all [word "[", slices, word "]"]]

def atom : Form :=
  oneOf
    [token .name, token .number, strings, anyWord ["None", "True", "False", "..."],
      parenthesized, list, braces]

def primaryForm : Form :=
  chain (.ofKind selectionKind) atom selector

end Form

/-- A parameter from its name, its type and its default value. -/
def parameterNodes : Maker := fun token nodes =>
  match nodes with
  | [] => []
  | name :: rest =>
      let named := name.withField "name" :: rest
      match hasWord ":" rest, hasWord "=" rest with
      | false, false => [name]
      | true, false => Maker.around "typed_parameter" token nodes
      | false, true => Maker.around "default_parameter" token named
      | true, true => Maker.around "typed_default_parameter" token named

namespace Form

def type (form : Form) : Form :=
  field "type" (node "type" form)

/-- The parameters of a function, where types may stand behind their names in
some form. -/
def parameterList (annotated : Form → Form) : Form :=
  let default := opt (seq (word "=") (field "value" expression))
  let sequence := node "list_splat_pattern" (seq (word "*") primary)
  let mapping := node "dictionary_splat_pattern" (seq (word "**") primary)
  let parts :=
    build
      (fun _ nodes => nodes.map asPattern)
      (check (fun nodes => nodes.all (·.kind ∈ ["tuple", "parenthesized_expression"]))
        (check areTargets parenthesized))
  let parameter :=
    oneOf
      [all [token .name, annotated expression, default],
        seq sequence (annotated (choice starredValue expression)),
        seq mapping (annotated expression),
        seq parts default]
  let marks :=
    choice (node "positional_separator" (word "/"))
      (node "keyword_separator" (word "*"))
  opt (listedOpen (choice (build parameterNodes parameter) marks))

def lambda : Form :=
  let wrapped : Maker := fun token nodes =>
    if nodes.isEmpty then [] else Maker.around "lambda_parameters" token nodes
  let parameters := build wrapped (parameterList fun _ => empty)
  node "lambda" (all [word "lambda", parameters, word ":", expression])

/-- An expression: a function without a name, or a value with a condition. -/
def expressionForm : Form :=
  choice lambda
    (extend (.around "conditional_expression") disjunction
      (all [word "if", disjunction, word "else", expression]))

end Form

end SourceAtlas.Python
