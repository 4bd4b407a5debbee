import SourceAtlas.Text.Pattern

/-!
# Patterns of C# declarations

The shapes by which declarations are recognized in masked text.  They say how
a declaration begins; where it ends is a matter of counting brackets.
-/

namespace SourceAtlas.CSharp

open Text Text.Pattern

/-- The parts of a declaration that are wanted back. -/
inductive Mark
  | modifiers
  | keyword
  /-- The type of a property or the result type of a method. -/
  | type
  | name
  deriving DecidableEq, Repr

abbrev Shape := Pattern Mark

/-- Words that never name a declaration or a type.  Some of them can stand
before a parenthesis. -/
def keywords : List String :=
  ["as", "await", "base", "case", "catch", "checked", "class", "default", "delegate", "do",
    "else", "enum", "event", "finally", "fixed", "for", "foreach", "get", "goto", "if", "in",
    "init", "interface", "is", "lock", "nameof", "namespace", "new", "operator", "out", "record",
    "ref", "return", "set", "sizeof", "stackalloc", "struct", "switch", "this", "throw", "try",
    "typeof", "unchecked", "using", "var", "when", "where", "while", "with", "yield"]

def isKeyword (word : String) : Bool :=
  keywords.contains word

def opensName (c : Char) : Bool :=
  isAsciiLetter c || c = '_'

def inDottedName (c : Char) : Bool :=
  isWord c || c = '.'

def inTypeArguments (c : Char) : Bool :=
  !(c = ';' || c = '{' || c = '}' || c = '(' || c = ')' || c = '=')

def inTuple (c : Char) : Bool :=
  !(c = ';' || c = '{' || c = '}' || c = '(' || c = ')')

def simpleName : Shape := one opensName ++ run isWord

def dottedName : Shape := one opensName ++ run inDottedName

/-- Type arguments in angle brackets, up to the nearest closing one that lets
the rest fit. -/
def typeArguments : Shape := char '<' ++ through inTypeArguments '>'

def arrayBrackets : Shape :=
  copies (char '[' ++ run (fun c => isBlank c || c = ',') ++ char ']')

def namedType : Shape :=
  dottedName ++ maybe typeArguments ++ arrayBrackets ++ maybe (char '?')

def tupleType : Shape :=
  char '(' ++ run inTuple ++ char ')' ++ maybe (char '?')

def declarationEdge : Shape :=
  windowStart <|> one fun c => isBlank c || c = '{' || c = '}' || c = ';' || c = ']'

def typeShape : Shape :=
  declarationEdge
    ++ part .modifiers (copies (anyWord "public" ["private", "protected", "internal", "static",
        "abstract", "sealed", "partial", "readonly", "unsafe", "new", "file", "ref"] ++ gap))
    ++ part .keyword (anyWord "class" ["interface", "struct", "enum"]
        <|> literal "record" ++ maybe (gap ++ anyWord "class" ["struct"]))
    ++ gap ++ part .name simpleName

/-- A method or constructor up to the parenthesis that opens its parameters. -/
def methodShape : Shape :=
  declarationEdge
    ++ part .modifiers (copies (anyWord "public" ["private", "protected", "internal", "static",
        "virtual", "override", "abstract", "sealed", "async", "extern", "unsafe", "new",
        "partial", "readonly"] ++ gap))
    ++ maybe (part .type (tupleType <|> namedType) ++ gap)
    ++ part .name simpleName
    ++ blanks ++ maybe typeArguments ++ blanks ++ char '('

def propertyShape : Shape :=
  declarationEdge
    ++ copies (anyWord "public" ["private", "protected", "internal", "static", "virtual",
        "override", "abstract", "sealed", "new", "required", "readonly"] ++ gap)
    ++ part .type namedType ++ gap ++ part .name simpleName
    ++ blanks ++ char '{' ++ blanks
    ++ copies (anyWord "public" ["private", "protected", "internal"] ++ gap)
    ++ anyWord "get" ["set", "init"] ++ wordEdge

def constShape : Shape :=
  wordEdge ++ literal "const" ++ gap
    ++ dottedName ++ maybe typeArguments ++ maybe (char '?') ++ gap
    ++ part .name simpleName ++ blanks ++ char '='

/-- A static read-only field up to its value or its end. -/
def staticReadonlyShape : Shape :=
  wordEdge
    ++ (literal "static" ++ gap ++ literal "readonly"
        <|> literal "readonly" ++ gap ++ literal "static")
    ++ gap ++ namedType ++ gap
    ++ part .name simpleName ++ blanks ++ oneOf "=;"

def isInlineBlank (c : Char) : Bool :=
  c = ' ' || c = '\t'

def usingShape : Shape :=
  lineStart ++ run isInlineBlank
    ++ maybe (literal "global" ++ runOf isInlineBlank)
    ++ literal "using" ++ runOf isInlineBlank
    ++ maybe (literal "static" ++ runOf isInlineBlank)
    ++ dottedName
    ++ maybe (run isInlineBlank ++ char '=' ++ run isInlineBlank ++ one opensName
        ++ run fun c => inDottedName c || c = '<' || c = '>' || c = ',' || c = ' ')
    ++ run isInlineBlank ++ char ';'

def namespaceShape : Shape :=
  wordEdge ++ literal "namespace" ++ gap ++ part .name dottedName

def whereShape : Shape :=
  wordEdge ++ literal "where" ++ wordEdge

def tagShape : Shape :=
  char '<' ++ runOf (· ≠ '>') ++ char '>'

def decisionShape : Shape :=
  wordEdge ++ anyWord "if" ["while", "for", "foreach", "case", "catch"] ++ wordEdge
    <|> literal "&&"
    <|> literal "||"
    <|> literal "??"
    <|> one isBlank ++ char '?' ++ one isBlank

/-- The number of points in masked text at which control flow divides. -/
def decisionCount (masked : List Char) : Nat :=
  (decisionShape.findAll (Cursor.ofText masked)).length

end SourceAtlas.CSharp
