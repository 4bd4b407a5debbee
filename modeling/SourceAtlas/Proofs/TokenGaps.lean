import Mathlib.Data.String.Basic
import SourceAtlas.Proofs.DefinitionLines

/-!
# Gaps between tokens

The text of a node is all that stands between the start of its first token and the end of its
last one.  If the node has several tokens, what stands between these belongs to its text, be
it white space, a comment or the end of a continued line.  So the text of a node is what its
tokens spell exactly if no gap stands between them.
-/

namespace SourceAtlas.Python

open Text

def textBetween (source : String) (start stop : Nat) : String :=
  String.Pos.Raw.extract source ⟨start⟩ ⟨stop⟩

variable {source : String} {start stop offset final : Nat}

theorem textBetween_append_list {front piece rest : List Char}
    (hsource : source.toList = front ++ (piece ++ rest)) :
    textBetween source (byteWidth front) (byteWidth front + byteWidth piece) =
      String.ofList piece := by
  have hwidth : ∀ text : List Char, String.utf8Len text = byteWidth text := by
    intro text
    rw [← String.utf8ByteSize_ofList, utf8ByteSize_ofList]
  have hextract := String.extract_of_valid front piece rest
  rw [hwidth, hwidth, List.append_assoc, ← hsource, String.ofList_toList] at hextract
  exact hextract

theorem textBetween_self (hboundary : IsBoundary source.toList offset) :
    textBetween source offset offset = "" := by
  obtain ⟨front, rest, hsource, rfl⟩ := isBoundary_iff.mp hboundary
  have hempty : source.toList = front ++ ([] ++ rest) := hsource
  exact textBetween_append_list hempty

/-- What two cuts give one behind the other is what both give together. -/
theorem textBetween_append {middle : Nat} (hfirst : IsCut source.toList start middle)
    (hsecond : IsCut source.toList middle stop) :
    textBetween source start stop =
      textBetween source start middle ++ textBetween source middle stop := by
  obtain ⟨front, piece, rest, hsource, rfl, rfl⟩ := hfirst.exists_parts
  obtain ⟨upTo, more, behind, hagain, hmiddle, rfl⟩ := hsecond.exists_parts
  have hrest : front ++ piece = upTo ∧ rest = more ++ behind := by
    have hdrop := dropBytes_byteWidth upTo (more ++ behind)
    rw [← byteWidth_append] at hmiddle
    rw [← hagain, ← hmiddle, hsource, ← List.append_assoc, dropBytes_byteWidth] at hdrop
    rw [hsource, hdrop, ← List.append_assoc] at hagain
    exact ⟨List.append_cancel_right hagain, hdrop⟩
  obtain ⟨rfl, rfl⟩ := hrest
  have hwhole : source.toList = front ++ ((piece ++ more) ++ behind) := by simp [hsource]
  have htext := textBetween_append_list hwhole
  rw [byteWidth_append, ← Nat.add_assoc, String.ofList_append] at htext
  rw [byteWidth_append, htext, textBetween_append_list hsource, ← byteWidth_append,
    textBetween_append_list hagain]

/-- Nodes that may stand between any two tokens. -/
def extraKinds : List String := ["comment", "line_continuation"]

def Node.isExtra (node : Node) : Bool :=
  node.kind ∈ extraKinds

/-- The nodes without anything inside, in the order of the text. -/
def Node.tokens (node : Node) : List Node :=
  node.parts.filter fun part => part.children.isEmpty && !part.isExtra

/-- The tokens stand one behind the other between two offsets, up to the second one. -/
def Spans (source : String) : Nat → List Node → Nat → Prop
  | offset, [], final => IsCut source.toList offset final ∧ offset = final
  | offset, token :: tokens, final =>
      IsCut source.toList offset token.label.start ∧
        IsCut source.toList token.label.start token.label.stop ∧
          Spans source token.label.stop tokens final

instance decidableSpans (source : String) :
    (offset : Nat) → (tokens : List Node) → (final : Nat) →
      Decidable (Spans source offset tokens final)
  | offset, [], final =>
      inferInstanceAs (Decidable (IsCut source.toList offset final ∧ offset = final))
  | offset, token :: tokens, final =>
      have := decidableSpans source token.label.stop tokens final
      inferInstanceAs (Decidable (IsCut source.toList offset token.label.start ∧
        IsCut source.toList token.label.start token.label.stop ∧
          Spans source token.label.stop tokens final))

/-- The node begins with its first token and ends with its last one. -/
@[mk_iff]
structure Node.IsSpelled (source : String) (node : Node) : Prop where
  opens : node.tokens.head?.map (·.label.start) = some node.label.start
  spans : Spans source node.label.start node.tokens node.label.stop

instance (source : String) (node : Node) : Decidable (node.IsSpelled source) :=
  decidable_of_iff' _ (Node.isSpelled_iff source node)

/-- What stands in front of each token, behind an offset or the token before. -/
def gapsFrom (source : String) (offset : Nat) : List Node → List String
  | [] => []
  | token :: tokens =>
      textBetween source offset token.label.start :: gapsFrom source token.label.stop tokens

/-- What stands in front of each token of a node; nothing stands in front of the first. -/
def Node.gaps (source : String) (node : Node) : List String :=
  gapsFrom source node.label.start node.tokens

def Node.IsTight (source : String) (node : Node) : Prop :=
  ∀ gap ∈ node.gaps source, gap = ""

instance (source : String) (node : Node) : Decidable (node.IsTight source) :=
  inferInstanceAs (Decidable (∀ gap ∈ node.gaps source, gap = ""))

/-- What the tokens of a node spell without gaps. -/
def Node.joined (source : String) (node : Node) : String :=
  String.join (node.tokens.map (·.text source))

variable {tokens : List Node} {node : Node}

theorem isCut_of_spans (hspans : Spans source offset tokens final) :
    IsCut source.toList offset final := by
  induction tokens generalizing offset with
  | nil => exact hspans.1
  | cons token tokens ih =>
      obtain ⟨hgap, htoken, hrest⟩ := hspans
      have hbehind := ih hrest
      exact ⟨hgap.atStart, hbehind.atStop,
        (hgap.ordered.trans htoken.ordered).trans hbehind.ordered⟩

/-- Up to the end of a token there is a gap, the token and what stands behind. -/
theorem textBetween_cons {token : Node} (hspans : Spans source offset (token :: tokens) final) :
    textBetween source offset final =
      textBetween source offset token.label.start ++
        (token.text source ++ textBetween source token.label.stop final) := by
  obtain ⟨hgap, htoken, hrest⟩ := hspans
  have hbehind := isCut_of_spans hrest
  have hinside : IsCut source.toList token.label.start final :=
    ⟨htoken.atStart, hbehind.atStop, htoken.ordered.trans hbehind.ordered⟩
  rw [textBetween_append hgap hinside, textBetween_append htoken hbehind]
  rfl

theorem textBetween_nil (hspans : Spans source offset [] final) :
    textBetween source offset final = "" := by
  obtain ⟨hcut, rfl⟩ := hspans
  exact textBetween_self hcut.atStart

/-- A character of the text stands in a gap or in a token. -/
theorem mem_textBetween_iff (hspans : Spans source offset tokens final) {c : Char} :
    c ∈ (textBetween source offset final).toList ↔
      (∃ gap ∈ gapsFrom source offset tokens, c ∈ gap.toList) ∨
        ∃ token ∈ tokens, c ∈ (token.text source).toList := by
  induction tokens generalizing offset with
  | nil => simp [textBetween_nil hspans, gapsFrom]
  | cons token tokens ih =>
      rw [textBetween_cons hspans, String.toList_append, String.toList_append, List.mem_append,
        List.mem_append, ih hspans.2.2, gapsFrom]
      simp only [List.mem_cons, exists_eq_or_imp]
      simp only [or_assoc, or_left_comm]

theorem length_join_le (hspans : Spans source offset tokens final) :
    (String.join (tokens.map (·.text source))).length ≤
      (textBetween source offset final).length := by
  induction tokens generalizing offset with
  | nil => exact Nat.zero_le _
  | cons token tokens ih =>
      have hrest := ih hspans.2.2
      rw [textBetween_cons hspans, List.map_cons, String.join_cons, String.length_append,
        String.length_append, String.length_append]
      omega

/-- Without gaps nothing is left of the text but the tokens, and gaps make it longer. -/
theorem forall_gap_eq_empty_iff (hspans : Spans source offset tokens final) :
    (∀ gap ∈ gapsFrom source offset tokens, gap = "") ↔
      (textBetween source offset final).length =
        (String.join (tokens.map (·.text source))).length := by
  induction tokens generalizing offset with
  | nil => simp [textBetween_nil hspans, gapsFrom]
  | cons token tokens ih =>
      have hrest := length_join_le hspans.2.2
      rw [textBetween_cons hspans, gapsFrom, List.forall_mem_cons, ih hspans.2.2, List.map_cons,
        String.join_cons, String.length_append, String.length_append, String.length_append,
        ← String.length_eq_zero_iff]
      omega

theorem textBetween_eq_join (hspans : Spans source offset tokens final)
    (htight : ∀ gap ∈ gapsFrom source offset tokens, gap = "") :
    textBetween source offset final = String.join (tokens.map (·.text source)) := by
  induction tokens generalizing offset with
  | nil => simp [textBetween_nil hspans]
  | cons token tokens ih =>
      rw [gapsFrom, List.forall_mem_cons] at htight
      rw [textBetween_cons hspans, htight.1, ih hspans.2.2 htight.2, List.map_cons,
        String.join_cons, String.empty_append]

namespace Node.IsSpelled

theorem exists_cons (hspelled : node.IsSpelled source) :
    ∃ token tokens, node.tokens = token :: tokens ∧ token.label.start = node.label.start := by
  have hopens := hspelled.opens
  cases htokens : node.tokens with
  | nil =>
      rw [htokens] at hopens
      contradiction
  | cons token tokens =>
      rw [htokens] at hopens
      exact ⟨token, tokens, rfl, Option.some.inj hopens⟩

theorem mem_text_iff (hspelled : node.IsSpelled source) {c : Char} :
    c ∈ (node.text source).toList ↔
      (∃ gap ∈ node.gaps source, c ∈ gap.toList) ∨
        ∃ token ∈ node.tokens, c ∈ (token.text source).toList :=
  mem_textBetween_iff hspelled.spans

theorem text_eq_joined (hspelled : node.IsSpelled source) (htight : node.IsTight source) :
    node.text source = node.joined source :=
  textBetween_eq_join hspelled.spans htight

theorem length_joined_le (hspelled : node.IsSpelled source) :
    (node.joined source).length ≤ (node.text source).length :=
  length_join_le hspelled.spans

theorem isTight_iff (hspelled : node.IsSpelled source) :
    node.IsTight source ↔ (node.text source).length = (node.joined source).length :=
  forall_gap_eq_empty_iff hspelled.spans

end Node.IsSpelled

end SourceAtlas.Python
