import SourceAtlas.Failure
import SourceAtlas.Model.SourceModel
import SourceAtlas.Python.Outline

/-!
# Models of Python files

A Python file is read with a grammar, by a parser that gives a syntax tree for
the text.  A text that does not follow the grammar has no model at all; its
failure tells of the first fault in the tree.
-/

namespace SourceAtlas.Python

open Text

def quotedLength : Nat := 40

def describe (source : String) (fault : Node) : String :=
  if fault.label.isMissing then "missing " ++ fault.kind
  else
    let quoted := trim (((lines (fault.text source).toList).headD []).take quotedLength)
    if quoted.isEmpty then "invalid syntax"
    else "invalid syntax near " ++ "`" ++ String.ofList quoted ++ "`"

def failureAt (source : String) (fault : Node) : FailureCause :=
  .parse (fault.label.position.row + 1) (fault.label.position.column + 1)
    (describe source fault)

/-- Whether a name is spelled as constants are: with a letter, and with no small
one. -/
def isConstantName (name : String) : Bool :=
  name.toList.any isLetter && !name.toList.any isSmall

def modelOf (file : SourceFile) (root : Node) : SourceModel :=
  let outline := root.outline file.content .file []
  let metrics := Metrics.ofText .hash file.content.toList
  { SourceModel.blank file.path .python file.lastModified with
    docComment := blockDocstring file.content root
    functions := outline.functions
    classes := outline.classes
    imports := outline.imports
    constants := (outline.names.filter isConstantName).foldl addOnce []
    metrics := metrics.addDecisions outline.decisions }

/-- A parser of texts.  It may give up on a text altogether. -/
abbrev Parser := String → Option Node

def extract (parser : Parser) (file : SourceFile) : Except FailureCause SourceModel :=
  match parser file.content with
  | none => .error (.parse 1 1 "parser produced no tree")
  | some root =>
      match root.firstFault? with
      | some fault => .error (failureAt file.content fault)
      | none => .ok (modelOf file root)

end SourceAtlas.Python
