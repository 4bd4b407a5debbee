import SourceAtlas.CSharp.Listing
import SourceAtlas.Proofs.OutermostTypes

/-!
# The root scope

Namespaces are meant to count as root scope, so what lies in no header and in no
body of a type should count as outside all types.  The balance that decides on it
begins where the nearest type begins and goes on after that type has ended, so
braces of namespaces that open later count as if they belonged to the type.  The
theorem says for every text which declarations and offsets are affected.
-/

namespace SourceAtlas.CSharp.TypeDeclaration

open Text

variable {masked : List Char}

namespace StandsIn

variable {declaration later : TypeDeclaration}

/-- Up to the end of its header a declaration encloses nothing. -/
theorem height_le_start (hstands : declaration.StandsIn masked) {offset : Nat}
    (hfrom : declaration.start ≤ offset) (hto : offset ≤ declaration.headerStop) :
    height masked offset ≤ height masked declaration.start := by
  by_cases hname : offset ≤ declaration.headerStart
  · exact Int.le_of_eq (hstands.signature offset hfrom hname)
  · exact hstands.header offset (by omega) hto

/-- Past a declaration that ends, the text is as high as behind its header. -/
theorem height_past (hstands : declaration.StandsIn masked)
    (hends : ∀ block ∈ declaration.block?, block.terminated = true) :
    height masked declaration.past =
      height masked declaration.start - declaration.header.count '}' := by
  have hheader := hstands.behindHeader
  unfold past
  split
  · next block hblock =>
      obtain ⟨-, -, hpast⟩ := (hstands.block block hblock).closed (hends block hblock)
      rw [Block.past, hends block hblock, if_pos rfl, hpast, hstands.opener block hblock, hheader]
  · exact hheader

/-- Whether a later declaration outside header and body is taken for a part of the
declaration depends on the braces since its end. -/
theorem nests_eq_false_iff (hstands : declaration.StandsIn masked) (hlater : later.StandsIn masked)
    (horder : declaration.headerStart ≤ later.start)
    (hheader : declaration.headerContains later.start = false)
    (hbody : ∀ block ∈ declaration.block?, block.contains later.start = false) :
    declaration.nests masked later.start = false ↔
      balance masked declaration.past later.start ≤ declaration.header.count '}' := by
  have hpast := hstands.past_le hlater horder hheader hbody
  have hstart := hstands.start_le_past
  have hends : ∀ block ∈ declaration.block?, block.terminated = true := by
    intro block hblock
    by_contra hopen
    rw [Bool.not_eq_true] at hopen
    have hcloser := (hstands.block block hblock).unclosed hopen
    have hle := closer_le_past hblock
    have hlaterStart := hlater.start_lt
    have hlaterStop := hlater.headerStop_le
    have hlaterHeader := headerStart_le later
    omega
  have hheight := hstands.height_past hends
  have henclosing : declaration.enclosing masked later.start = false ↔
      ¬height masked declaration.start < height masked later.start := by
    rw [← Bool.not_eq_true, enclosing_iff (by omega)]
  rw [nests, hheader, Bool.false_or, henclosing, balance_eq_sub masked hpast]
  omega

/-- An offset outside the body is enclosed by the declaration in two cases: where the
body ends, and when braces opened since outnumber those closed. -/
theorem enclosing_iff_of_not_contains (hstands : declaration.StandsIn masked) {offset : Nat}
    (hstart : declaration.start < offset)
    (hbody : ∀ block ∈ declaration.block?, block.contains offset = false) :
    declaration.enclosing masked offset = true ↔
      (declaration.past ≤ offset ∧
        (declaration.header.count '}' : Int) < balance masked declaration.past offset) ∨
      ∃ block ∈ declaration.block?, block.closer = min offset (byteWidth masked) ∧
        (declaration.header.count '}' : Int) < balance masked block.opener block.closer := by
  have hheader := hstands.behindHeader
  have hbefore : offset ≤ declaration.headerStop →
      height masked offset ≤ height masked declaration.start := fun hle =>
    hstands.height_le_start (Nat.le_of_lt hstart) hle
  rw [enclosing_iff (Nat.le_of_lt hstart)]
  cases hblock : declaration.block? with
  | none =>
      have hpast : declaration.past = declaration.headerStop := by simp [past, hblock]
      simp only [Option.mem_def, reduceCtorEq, false_and, exists_false, or_false]
      rw [hpast]
      by_cases hle : declaration.headerStop ≤ offset
      · rw [balance_eq_sub masked hle]
        omega
      · have hlow := hbefore (by omega)
        omega
  | some block =>
      have hopener := hstands.opener block hblock
      have hblockStands := hstands.block block hblock
      have hopens := hblockStands.opener_lt
      have hcontains := hbody block hblock
      rw [hopener] at hopens
      simp only [Block.contains, Bool.and_eq_false_iff, decide_eq_false_iff_not] at hcontains
      simp only [Option.mem_def, Option.some.injEq, exists_eq_left']
      rw [hopener, balance_eq_sub masked (Nat.le_of_lt hopens)]
      by_cases hle : offset ≤ declaration.headerStop
      · have hlow := hbefore hle
        have hpast := closer_le_past hblock
        omega
      · have hcloser : block.closer ≤ offset := by omega
        cases hterminated : block.terminated with
        | true =>
            obtain ⟨hwidth, hlast, hfall⟩ := hblockStands.closed hterminated
            have hpast : declaration.past = block.closer + 1 := by
              simp [past, hblock, Block.past, hterminated]
            rw [hopener] at hlast hfall
            rw [hpast]
            by_cases hend : offset = block.closer
            · rw [hend]
              omega
            · rw [balance_eq_sub masked (by omega)]
              omega
        | false =>
            have hwidth := hblockStands.unclosed hterminated
            have hpast : declaration.past = block.closer := by
              simp [past, hblock, Block.past, hterminated]
            have hend : height masked offset = height masked (byteWidth masked) :=
              height_of_byteWidth_le (by omega)
            rw [hpast, balance_eq_sub masked hcloser, hend, hwidth]
            omega

end StandsIn

/-- The offset lies in no header and no body of a reported type before it. -/
def AtRoot (masked : List Char) (offset : Nat) : Prop :=
  ∀ type ∈ topLevel masked, type.start < offset →
    type.headerContains offset = false ∧ ∀ block ∈ type.block?, block.contains offset = false

instance (masked : List Char) (offset : Nat) : Decidable (AtRoot masked offset) :=
  inferInstanceAs (Decidable (∀ type ∈ topLevel masked, type.start < offset →
    type.headerContains offset = false ∧ ∀ block ∈ type.block?, block.contains offset = false))

/-- The offset lies in the body of a reported type. -/
def InBody (masked : List Char) (offset : Nat) : Prop :=
  ∃ type ∈ topLevel masked, ∃ block ∈ type.block?, block.contains offset = true

instance (masked : List Char) (offset : Nat) : Decidable (InBody masked offset) :=
  inferInstanceAs (Decidable (∃ type ∈ topLevel masked, ∃ block ∈ type.block?,
    block.contains offset = true))

/-- A declaration at root scope is reported exactly if braces opened since the end of
the nearest reported type do not outnumber those closed by more than its header
closes.  An offset outside all bodies counts as inside a type exactly if they do, or
if the body of the nearest type ends there. -/
theorem root_scope_iff (masked : List Char) :
    (∀ declaration ∈ candidates masked, AtRoot masked declaration.start →
      (declaration ∈ topLevel masked ↔
        ∀ nearest ∈ (preceding (topLevel masked) declaration.start).head?,
          balance masked nearest.past declaration.start ≤ nearest.header.count '}')) ∧
    ∀ offset, ¬InBody masked offset →
      (insideAny (topLevel masked) masked offset = true ↔
        ∃ nearest ∈ (preceding (topLevel masked) offset).head?,
          (nearest.past ≤ offset ∧
            (nearest.header.count '}' : Int) < balance masked nearest.past offset) ∨
          ∃ block ∈ nearest.block?, block.closer = min offset (byteWidth masked) ∧
            (nearest.header.count '}' : Int) <
              balance masked block.opener block.closer) := by
  have hnearest : ∀ offset, ∀ nearest ∈ (preceding (topLevel masked) offset).head?,
      nearest ∈ topLevel masked ∧ nearest.start < offset := fun offset nearest hhead =>
    mem_preceding.mp (List.mem_of_mem_head? hhead)
  constructor
  · intro declaration hdeclaration hroot
    rw [mem_topLevel_iff hdeclaration]
    apply forall₂_congr
    intro nearest hhead
    obtain ⟨hmem, hlt⟩ := hnearest declaration.start nearest hhead
    obtain ⟨hheader, hbody⟩ := hroot nearest hmem hlt
    have horder :=
      headerStart_le_of_start_lt (mem_candidates_of_mem_topLevel hmem) hdeclaration hlt
    exact (standsIn_of_mem_topLevel hmem).nests_eq_false_iff
      (standsIn_of_mem_candidates hdeclaration) horder hheader hbody
  · intro offset houtside
    rw [insideAny_eq, Option.any_eq_true]
    apply exists_congr
    intro nearest
    apply and_congr_right
    intro hhead
    obtain ⟨hmem, hlt⟩ := hnearest offset nearest hhead
    apply (standsIn_of_mem_topLevel hmem).enclosing_iff_of_not_contains hlt
    intro block hblock
    by_contra hcontains
    rw [Bool.not_eq_false] at hcontains
    exact houtside ⟨nearest, hmem, block, hblock, hcontains⟩

/-- A class, and behind it a namespace with a second one. -/
def namespaceBehindClass : List Char :=
  mask "class A { } namespace N { class B { } }".toList

/-- The second class stands at root scope, so the braces before it decide on it. -/
theorem root_scope_iff_namespaceBehindClass :
    ∃ declaration ∈ candidates namespaceBehindClass,
      declaration.name = "B" ∧ AtRoot namespaceBehindClass declaration.start ∧
      (declaration ∈ topLevel namespaceBehindClass ↔
        ∀ nearest ∈ (preceding (topLevel namespaceBehindClass) declaration.start).head?,
          balance namespaceBehindClass nearest.past declaration.start ≤
            nearest.header.count '}') := by
  have hroot : ∃ declaration ∈ candidates namespaceBehindClass,
      declaration.name = "B" ∧ AtRoot namespaceBehindClass declaration.start := by
    decide +kernel
  obtain ⟨declaration, hmem, hname, hdeclaration⟩ := hroot
  exact ⟨declaration, hmem, hname, hdeclaration,
    (root_scope_iff namespaceBehindClass).1 declaration hmem hdeclaration⟩

/-- The namespace does not count as root scope: the second class is dropped, and the
place before it counts as inside a type. -/
theorem not_root_scope_namespaceBehindClass :
    ¬(∀ declaration ∈ candidates namespaceBehindClass,
        AtRoot namespaceBehindClass declaration.start →
        declaration ∈ topLevel namespaceBehindClass) ∧
      ¬(∀ offset,
        insideAny (topLevel namespaceBehindClass) namespaceBehindClass offset = true →
        InBody namespaceBehindClass offset) := by
  constructor
  · intro hreported
    have hnames : ¬∀ declaration ∈ candidates namespaceBehindClass,
        AtRoot namespaceBehindClass declaration.start →
        declaration.name ∈ (topLevel namespaceBehindClass).map (·.name) := by
      decide +kernel
    apply hnames
    intro declaration hmem hroot
    exact List.mem_map_of_mem (hreported declaration hmem hroot)
  · intro hinside
    have hbefore : insideAny (topLevel namespaceBehindClass) namespaceBehindClass 25 = true := by
      decide +kernel
    have houtside : ¬InBody namespaceBehindClass 25 := by
      decide +kernel
    exact houtside (hinside 25 hbefore)

end SourceAtlas.CSharp.TypeDeclaration
