import SourceAtlas.Proofs.LineNumbers
import SourceAtlas.Proofs.MaskedStructure

/-!
# Well-formed models

What a reader of models may rely on, whichever language and tier a model comes from.  Counts
of lines add up, names that are recorded once stand once, line numbers rise along the file
and exist in it, and what is recorded of parameters belongs to parameters.
-/

namespace SourceAtlas

open Text

structure FunctionSignature.WellFormed (function : FunctionSignature) : Prop where
  hints : ∀ entry ∈ function.typeHints.entries,
    ∃ parameter ∈ function.parameters, entry.1 = bareName parameter
  defaults : function.defaults.length ≤ function.parameters.length

/-- A signature of a class in a file with so many lines. -/
structure ClassSignature.WellFormed (total : Nat) (signature : ClassSignature) : Prop where
  fields : signature.fields.Nodup
  methodLines : LinesWithin total (signature.methods.map (·.line))
  methods : ∀ method ∈ signature.methods, method.WellFormed

structure SourceModel.WellFormed (model : SourceModel) : Prop where
  totalLines :
    model.metrics.totalLines =
      model.metrics.codeLines + model.metrics.commentLines + model.metrics.blankLines
  constants : model.constants.Nodup
  classLines : LinesWithin model.metrics.totalLines (model.classes.map (·.line))
  functionLines : LinesWithin model.metrics.totalLines (model.functions.map (·.line))
  classes : ∀ signature ∈ model.classes, signature.WellFormed model.metrics.totalLines
  functions : ∀ function ∈ model.functions, function.WellFormed
  tier : model.tier.isSome = true ↔ model.language = .csharp
  truncated : model.completeness = .truncated → model.tier = some .minimal
  python : model.language = .python → model.completeness = .complete

namespace Metrics

/-- Every line counts as exactly one of code, comment and blank. -/
def IsAccounted (metrics : Metrics) : Prop :=
  metrics.totalLines = metrics.codeLines + metrics.commentLines + metrics.blankLines

theorem IsAccounted.addLine {metrics : Metrics} (haccounted : metrics.IsAccounted)
    (kind : LineClass) : (metrics.addLine kind).IsAccounted := by
  unfold IsAccounted at haccounted ⊢
  cases kind with
  | blank | comment | code =>
      simp only [Metrics.addLine]
      omega

theorem IsAccounted.countLines {metrics : Metrics} (haccounted : metrics.IsAccounted)
    (style : CommentStyle) (inBlock : Bool) (lines : List (List Char)) :
    (countLines style metrics inBlock lines).IsAccounted := by
  induction lines generalizing metrics inBlock with
  | nil => exact haccounted
  | cons line lines ih => exact ih (haccounted.addLine _) _

theorem isAccounted_ofText (style : CommentStyle) (text : List Char) :
    (ofText style text).IsAccounted := by
  have hzero : { zero with complexity := 1 }.IsAccounted := rfl
  exact hzero.countLines style false (lines text)

theorem totalLines_ofText_eq_lineCount (style : CommentStyle) (text : List Char) :
    (ofText style text).totalLines = lineCount text := by
  rw [ofText_totalLines, length_lines]

end Metrics

theorem nodup_addOnce {names : List String} (hnames : names.Nodup) (name : String) :
    (addOnce names name).Nodup := by
  unfold addOnce
  split
  · exact hnames
  · next hnew =>
      have hfresh : name ∉ names := by simpa using hnew
      rw [List.nodup_append]
      refine ⟨hnames, by simp, ?_⟩
      intro old hold new hadded heq
      rw [List.mem_singleton.mp hadded] at heq
      exact hfresh (heq ▸ hold)

theorem nodup_foldl_addOnce (names : List String) : (names.foldl addOnce []).Nodup := by
  have hfold : ∀ start : List String, start.Nodup → (names.foldl addOnce start).Nodup := by
    induction names with
    | nil => exact fun _ hstart => hstart
    | cons name names ih => exact fun start hstart => ih _ (nodup_addOnce hstart name)
  exact hfold [] List.nodup_nil

theorem FunctionSignature.wellFormed_of_bare {function : FunctionSignature}
    (hhints : function.typeHints = .empty) (hdefaults : function.defaults = []) :
    function.WellFormed where
  hints := by simp [hhints, SortedMap.empty]
  defaults := by simp [hdefaults]

end SourceAtlas
