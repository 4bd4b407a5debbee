import SourceAtlas.Python.Expression

/-!
# Statements of Python

The forms of statements and patterns.  Statements of the older language that a
name starts, such as `print`, and type parameters of the newer one are accepted
as well.  Whether a statement makes sense where it stands, such as a `return`
outside functions, is not looked at.
-/

namespace SourceAtlas.Python

/-- The nodes on one side of an assignment. -/
def sideNodes (kind field : String) : Maker := fun token nodes =>
  (Maker.group kind token nodes).map (·.withField field)

def leftNodes : Maker := fun token nodes =>
  sideNodes "pattern_list" "left" token (nodes.map asPattern)

/-- An assignment of some kind from what stands before and behind its mark. -/
def assignmentNodes (kind : String) (isMark : Node → Bool) : Maker := fun token nodes =>
  let left := nodes.takeWhile (!isMark ·)
  match nodes.drop left.length with
  | [] => nodes
  | mark :: right =>
      Maker.around kind token
        (leftNodes token left ++ mark :: sideNodes "expression_list" "right" token right)

/-- An assignment with a type, and perhaps a value behind that. -/
def annotatedNodes : Maker := fun token nodes =>
  let left := nodes.takeWhile (!·.isWord ":")
  let value :=
    match nodes.drop (left.length + 2) with
    | [] => []
    | mark :: right => mark :: sideNodes "expression_list" "right" token right
  Maker.around "assignment" token
    (leftNodes token left ++ (nodes.drop left.length).take 2 ++ value)

def changeOperators : List String :=
  ["+=", "-=", "*=", "/=", "//=", "%=", "@=", "&=", "|=", "^=", ">>=", "<<=", "**="]

/-- Whether what is assigned to may be so, if the nodes are an assignment. -/
def assignsToTargets (nodes : List Node) : Bool :=
  nodes.all fun node =>
    node.kind ∉ ["assignment", "augmented_assignment"] || (node.childAs? "left").all (·.isTarget)

namespace Form

def assigned (first : Form) : Form :=
  check assignsToTargets
    (extend (assignmentNodes "assignment" (·.isWord "=")) first
      (seq (word "=") (rule .assigned)))

def assignedForm : Form :=
  assigned assignedValue

def statementEnd : Form :=
  ahead (choice (word ";") (token .newline))

def expressionStatement : Form :=
  let isOperator (node : Node) := changeOperators.any node.isWord
  let changed :=
    extend (assignmentNodes "augmented_assignment" isOperator) assignedValue
      (seq (anyWord changeOperators) assignedValue)
  let annotated :=
    extend annotatedNodes changed
      (all [word ":", type expression, opt (seq (word "=") assignedValue)])
  node "expression_statement" (seq (assigned annotated) statementEnd)

def dottedName : Form :=
  node "dotted_name" (seq (token .name) (many (seq (word ".") (token .name))))

/-- An imported name, and what it is called in the file. -/
def imported (name : Form) : Form :=
  let aliased : Maker := fun token nodes =>
    Maker.around "aliased_import" token (nodes.map fun node =>
      if node.kind = "dotted_name" then node.withField "name" else node)
  field "name" (extend aliased name (seq (word "as") (token .name)))

def importStatement : Form :=
  node "import_statement" (seq (word "import") (listed (imported dottedName)))

/-- The dots in front of the name of a module, each a node of its own. -/
def dotNodes : Maker := fun token nodes =>
  let dots := nodes.flatMap fun node =>
    (List.range (node.label.stop - node.label.start)).map fun index =>
      let position :=
        { node.label.position with column := node.label.position.column + index }
      let start := node.label.start + index
      .mk { node.label with kind := ".", isNamed := false, position, start, stop := start + 1 } []
  Maker.around "import_prefix" token dots

/-- An import of names from a module, which may be given by dots alone. -/
def fromImport : Form :=
  let dots := build dotNodes (many1 (anyWord [".", "..."]))
  let module := choice dottedName (node "relative_import" (seq dots (opt dottedName)))
  let name := imported (node "dotted_name" (token .name))
  let names :=
    oneOf
      [all [word "(", listedOpen name, word ")"], listed name,
        node "wildcard_import" (word "*")]
  let future := node "future_import_statement"
    (all [word "from", word "__future__", word "import", names])
  choice future
    (node "import_from_statement"
      (all [word "from", field "module_name" module, word "import", names]))

def keywordStatements : Form :=
  oneOf
    [node "pass_statement" (word "pass"), node "break_statement" (word "break"),
      node "continue_statement" (word "continue"),
      node "return_statement" (seq (word "return") (opt expressions)),
      node "raise_statement"
        (all [word "raise", opt expressions, opt (seq (word "from") expression)]),
      node "global_statement" (seq (word "global") (listed (token .name))),
      node "nonlocal_statement" (seq (word "nonlocal") (listed (token .name))),
      node "delete_statement" (seq (word "del") expressions),
      node "assert_statement"
        (all [word "assert", expression, opt (seq (word ",") expression)])]

/-- Statements that a name starts, and which are therefore tried last. -/
def nameStatements : Form :=
  let values := listedOpen expression
  let executed := choice strings (token .name)
  oneOf
    [node "print_statement" (seq (word "print") (choice (seq (word ">>") values) values)),
      node "exec_statement" (all [word "exec", executed, opt (seq (word "in") values)])]

def typeParameters : Form :=
  let parameter :=
    seq (oneOf [token .name, seq (anyWord ["*", "**"]) (token .name)])
      (opt (seq (word ":") expression))
  node "type_parameter" (all [word "[", listedOpen parameter, word "]"])

def typeAlias : Form :=
  node "type_alias_statement"
    (all [word "type", token .name, opt typeParameters, word "=", expression])

def simpleStatement : Form :=
  oneOf
    [importStatement, fromImport, keywordStatements, expressionStatement, nameStatements,
      typeAlias]

def simpleLine : Form :=
  all
    [simpleStatement, many (seq (word ";") simpleStatement), opt (word ";"), token .newline]

def pattern : Form := rule .pattern

def starPattern : Form :=
  node "splat_pattern" (seq (word "*") (token .name))

def patterns : Form :=
  listedOpen (choice starPattern pattern)

def signedNumber : Form :=
  all
    [opt (word "-"), token .number, opt (seq (anyWord ["+", "-"]) (token .number))]

def literalPattern : Form :=
  oneOf [signedNumber, strings, anyWord ["None", "True", "False"]]

/-- What stands between the braces of a pattern of a mapping. -/
def mappingPatterns : Form :=
  let key := choice literalPattern dottedName
  listedOpen
    (choice (seq (word "**") (token .name)) (all [key, word ":", pattern]))

/-- What stands between the parentheses of a pattern of a class. -/
def classPatterns : Form :=
  listedOpen (choice (all [token .name, word "=", pattern]) pattern)

def closedPattern : Form :=
  let classPart := all [word "(", opt classPatterns, word ")"]
  oneOf
    [literalPattern, seq dottedName (opt classPart),
      all [word "(", opt patterns, word ")"],
      all [word "[", opt patterns, word "]"],
      all [word "\x7b", opt mappingPatterns, word "\x7d"]]

def patternForm : Form :=
  let alternative := seq closedPattern (many (seq (word "|") closedPattern))
  let renamed := opt (seq (word "as") (token .name))
  node "case_pattern" (seq alternative renamed)

def block : Form := rule .block

def body : Form := seq (word ":") (field "body" block)

/-- Statements on the same line, or indented ones on lines of their own. -/
def blockForm : Form :=
  node "block"
    (choice
      (all [token .newline, token .indent, many1 (rule .statement), token .dedent])
      simpleLine)

def elseClause : Form :=
  node "else_clause" (seq (word "else") body)

def ifStatement : Form :=
  let elifClause := node "elif_clause" (all [word "elif", namedExpression, body])
  node "if_statement"
    (all [word "if", namedExpression, body, many elifClause, opt elseClause])

def whileStatement : Form :=
  node "while_statement" (all [word "while", namedExpression, body, opt elseClause])

def forStatement : Form :=
  node "for_statement"
    (all
      [opt (word "async"), word "for", targets, word "in", expressions, body,
        opt elseClause])

/-- Whether a clause for a group is spelled without a gap before its star. -/
def isGroupClause : List Node → Bool
  | keyword :: star :: _ => keyword.label.stop = star.label.start
  | _ => false

def tryStatement : Form :=
  let finallyClause := node "finally_clause" (seq (word "finally") body)
  let caught := seq expression (opt (seq (choice (word "as") (word ",")) expression))
  let groupMark := check isGroupClause (seq (word "except") (word "*"))
  let exceptGroup := node "except_group_clause" (all [groupMark, caught, body])
  let spacedGroup := node "except_clause" (all [word "except", word "*", caught, body])
  let exceptClause := node "except_clause" (all [word "except", opt caught, body])
  let rest := seq (opt elseClause) (opt finallyClause)
  let handled :=
    seq (choice (many1 (choice exceptGroup spacedGroup)) (many1 exceptClause)) rest
  node "try_statement" (all [word "try", body, choice finallyClause handled])

def withStatement : Form :=
  let context :=
    node "with_item"
      (extend (.around "as_pattern") expression (seq (word "as") expression))
  let grouped := all [word "(", listedOpen context, word ")", ahead (word ":")]
  node "with_statement"
    (all
      [opt (word "async"), word "with", node "with_clause" (choice grouped (listed context)),
        body])

/-- A statement that chooses by patterns.  Its words are names elsewhere. -/
def matchStatement : Form :=
  let guard := opt (node "if_clause" (seq (word "if") namedExpression))
  let case := node "case_clause" (all [word "case", patterns, guard, body])
  node "match_statement"
    (all
      [word "match", listedOpen item, word ":", token .newline, token .indent,
        field "body" (node "block" (many1 case)), token .dedent])

def functionDefinition : Form :=
  let parameters :=
    parameterList fun hint => opt (seq (word ":") (type hint))
  let result := seq (word "->") (field "return_type" (node "type" expression))
  node "function_definition"
    (all
      [opt (word "async"), word "def", field "name" (token .name), opt typeParameters,
        field "parameters" (node "parameters" (all [word "(", parameters, word ")"])),
        opt result, body])

def classDefinition : Form :=
  let bases := node "argument_list" (all [word "(", check (!hasClause ·) arguments, word ")"])
  node "class_definition"
    (all
      [word "class", field "name" (token .name), opt typeParameters,
        opt (field "superclasses" bases), body])

def decorated : Form :=
  let decorator := node "decorator" (all [word "@", namedExpression, token .newline])
  let definition := field "definition" (choice functionDefinition classDefinition)
  node "decorated_definition" (seq (many1 decorator) definition)

def statementForm : Form :=
  oneOf
    [ifStatement, whileStatement, forStatement, tryStatement, withStatement,
      functionDefinition, classDefinition, decorated, matchStatement, simpleLine]

def moduleForm : Form :=
  node "module" (seq (many (rule .statement)) (token .stop))

end Form

def grammar : Rule → Form
  | .statement => .statementForm
  | .block => .blockForm
  | .assigned => .assignedForm
  | .expression => .expressionForm
  | .inversion => .inversionForm
  | .factor => .factorForm
  | .primary => .primaryForm
  | .interpolation => .interpolationForm
  | .pattern => .patternForm

/-- The tree of a text that has been cut into tokens, if it follows the grammar. -/
def treeOf? (tokens : List Token) : Option Node :=
  match Form.moduleForm.take (takeRule grammar (nestingBound tokens)) tokens with
  | some ([root], []) => some root
  | _ => none

end SourceAtlas.Python
