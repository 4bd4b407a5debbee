import Mathlib.Order.Bounds.Basic

/-!
# Matching delimiters

The delimiter that closes another one is the first at which as many have been closed as
opened.  The search for it is stated over bytes, of which any two can be delimiters, and
with a counter that must not fall below zero.  It never does, because the search begins
with a delimiter that opens and ends with the one that closes it.
-/

namespace SourceAtlas.Text

/-- Opening minus closing delimiters. -/
def tally (opener closer : UInt8) (bytes : List UInt8) : Int :=
  (bytes.count opener : Int) - bytes.count closer

/-- The bytes from one offset up to another. -/
def bytesBetween (bytes : List UInt8) (start stop : Nat) : List UInt8 :=
  (bytes.take stop).drop start

/-- What the search for a closing delimiter comes to. -/
inductive Search
  | found (offset : Nat)
  | absent
  /-- The number of open delimiters would fall below zero. -/
  | underflow
  deriving DecidableEq, Repr

namespace Search

def offset? : Search → Option Nat
  | found offset => some offset
  | _ => none

/-- Runs over bytes with a number of open delimiters. -/
def loop (opener closer : UInt8) : Nat → Nat → List UInt8 → Search
  | _, _, [] => absent
  | depth, offset, b :: bytes =>
      if b = opener then loop opener closer (depth + 1) (offset + 1) bytes
      else if b = closer then
        if depth = 0 then underflow
        else if depth = 1 then found offset
        else loop opener closer (depth - 1) (offset + 1) bytes
      else loop opener closer depth (offset + 1) bytes

/-- Searches for the delimiter that closes the one at an offset. -/
def inBytes (bytes : List UInt8) (start : Nat) (opener closer : UInt8) : Search :=
  if bytes[start]? = some opener then loop opener closer 0 start (bytes.drop start)
  else absent

end Search

variable {opener closer : UInt8} {bytes inside : List UInt8} {depth start : Nat}

@[simp] theorem tally_nil : tally opener closer [] = 0 := by
  simp [tally]

@[simp] theorem tally_append (first second : List UInt8) :
    tally opener closer (first ++ second) =
      tally opener closer first + tally opener closer second := by
  simp only [tally, List.count_append]
  omega

theorem tally_opener (hne : opener ≠ closer) : tally opener closer [opener] = 1 := by
  simp [tally, hne]

theorem tally_closer (hne : opener ≠ closer) : tally opener closer [closer] = -1 := by
  simp [tally, hne.symm]

theorem tally_eq_zero (hbytes : ∀ b ∈ bytes, b ≠ opener ∧ b ≠ closer) :
    tally opener closer bytes = 0 := by
  have hopener : opener ∉ bytes := fun hmem => (hbytes opener hmem).1 rfl
  have hcloser : closer ∉ bytes := fun hmem => (hbytes closer hmem).2 rfl
  simp [tally, List.count_eq_zero_of_not_mem hopener, List.count_eq_zero_of_not_mem hcloser]

/-- The end of a walk from a number of open delimiters: some are open all the way, and
either a closing one closes the last of them or the bytes end. -/
inductive Search.Ends (opener closer : UInt8) (depth offset : Nat) (bytes : List UInt8) :
    Search → Prop
  | found {inside rest : List UInt8} (hbytes : bytes = inside ++ closer :: rest)
      (hlast : depth + tally opener closer inside = 1)
      (hinside : ∀ front, front <+: inside → 1 ≤ depth + tally opener closer front) :
      Ends opener closer depth offset bytes (.found (offset + inside.length))
  | absent (hinside : ∀ front, front <+: bytes → 1 ≤ depth + tally opener closer front) :
      Ends opener closer depth offset bytes .absent

namespace Search

/-- One byte before a walk that ends. -/
theorem Ends.cons {b : UInt8} {next offset : Nat} {result : Search} (hdepth : 1 ≤ depth)
    (hnext : (next : Int) = depth + tally opener closer [b])
    (hends : Ends opener closer next (offset + 1) bytes result) :
    Ends opener closer depth offset (b :: bytes) result := by
  have htally : ∀ front, tally opener closer (b :: front) =
      tally opener closer [b] + tally opener closer front := fun front => tally_append [b] front
  have hfronts : ∀ {inside : List UInt8},
      (∀ front, front <+: inside → 1 ≤ next + tally opener closer front) →
      ∀ front, front <+: b :: inside → 1 ≤ depth + tally opener closer front := by
    intro inside hinside front hfront
    rcases List.prefix_cons_iff.mp hfront with rfl | ⟨later, rfl, hlater⟩
    · rw [tally_nil]
      omega
    · have hle := hinside later hlater
      rw [htally]
      omega
  cases hends with
  | @found inside rest hbytes hlast hinside =>
      have hoffset : offset + 1 + inside.length = offset + (b :: inside).length := by
        rw [List.length_cons]
        omega
      rw [hoffset]
      refine .found (by rw [hbytes]; rfl) ?_ (hfronts hinside)
      rw [htally]
      omega
  | absent hinside => exact .absent (hfronts hinside)

/-- From at least one open delimiter on, no closing one comes too early. -/
theorem ends_loop (hne : opener ≠ closer) (hdepth : 1 ≤ depth) (offset : Nat)
    (bytes : List UInt8) :
    Ends opener closer depth offset bytes (loop opener closer depth offset bytes) := by
  induction bytes generalizing depth offset with
  | nil =>
      refine .absent fun front hfront => ?_
      rw [List.prefix_nil.mp hfront, tally_nil]
      omega
  | cons b bytes ih =>
      rw [loop]
      by_cases hopener : b = opener
      · rw [if_pos hopener]
        refine Ends.cons hdepth ?_ (ih (by omega) (offset + 1))
        rw [hopener, tally_opener hne]
        omega
      · rw [if_neg hopener]
        by_cases hcloser : b = closer
        · rw [if_pos hcloser, if_neg (by omega)]
          by_cases hlast : depth = 1
          · have hinside : ∀ front, front <+: [] →
                1 ≤ (depth : Int) + tally opener closer front := by
              intro front hfront
              rw [List.prefix_nil.mp hfront, tally_nil]
              omega
            rw [if_pos hlast]
            exact .found (by rw [hcloser, List.nil_append]) (by rw [tally_nil]; omega) hinside
          · rw [if_neg hlast]
            refine Ends.cons hdepth ?_ (ih (by omega) (offset + 1))
            rw [hcloser, tally_closer hne]
            omega
        · rw [if_neg hcloser]
          refine Ends.cons hdepth ?_ (ih hdepth (offset + 1))
          rw [tally_eq_zero (by simp [hopener, hcloser])]
          omega

/-- A search begins behind its opening delimiter, with that one open. -/
theorem inBytes_eq (hstart : bytes[start]? = some opener) :
    inBytes bytes start opener closer =
      loop opener closer 1 (start + 1) (bytes.drop (start + 1)) := by
  obtain ⟨hlt, hopener⟩ := List.getElem?_eq_some_iff.mp hstart
  rw [inBytes, if_pos hstart, List.drop_eq_getElem_cons hlt, hopener, loop, if_pos rfl]

theorem inBytes_eq_absent (hstart : bytes[start]? ≠ some opener) :
    inBytes bytes start opener closer = absent :=
  if_neg hstart

/-- Behind an opening delimiter the bytes from it on are one more than those behind it. -/
theorem tally_bytesBetween (hne : opener ≠ closer) (hstart : bytes[start]? = some opener)
    (count : Nat) :
    tally opener closer (bytesBetween bytes start (start + 1 + count)) =
      1 + tally opener closer ((bytes.drop (start + 1)).take count) := by
  obtain ⟨hlt, hopener⟩ := List.getElem?_eq_some_iff.mp hstart
  have hbetween : bytesBetween bytes start (start + 1 + count) =
      [opener] ++ (bytes.drop (start + 1)).take count := by
    rw [bytesBetween, List.drop_take, List.drop_eq_getElem_cons hlt, hopener]
    have hcount : start + 1 + count - start = count + 1 := by omega
    rw [hcount, List.take_succ_cons]
    rfl
  rw [hbetween, tally_append, tally_opener hne]

/-- Past a delimiter that is open, up to where the search for its closing one ends, more
are opened than closed. -/
theorem one_le_tally (hne : opener ≠ closer) (hstart : bytes[start]? = some opener)
    {stop : Nat} (hstop : start < stop)
    (hend : ∀ found, inBytes bytes start opener closer = .found found → stop ≤ found) :
    1 ≤ tally opener closer (bytesBetween bytes start stop) := by
  obtain ⟨count, rfl⟩ := Nat.exists_eq_add_of_le (Nat.succ_le_of_lt hstop)
  have hends := ends_loop hne (Nat.le_refl 1) (start + 1) (bytes.drop (start + 1))
  rw [← inBytes_eq hstart] at hends
  rw [Nat.succ_eq_add_one, tally_bytesBetween hne hstart]
  cases hresult : inBytes bytes start opener closer with
  | found found =>
      rw [hresult] at hends
      cases hends with
      | @found inside rest hbytes hlast hinside =>
          have hle := hend _ hresult
          have hcount : count ≤ inside.length := by omega
          rw [hbytes, List.take_append_of_le_length hcount]
          have hinside := hinside _ (List.take_prefix count inside)
          omega
  | absent =>
      rw [hresult] at hends
      cases hends with
      | absent hinside =>
          have hinside := hinside _ (List.take_prefix count _)
          omega
  | underflow =>
      rw [hresult] at hends
      cases hends

/-- The offsets behind a delimiter at which as many are closed as opened. -/
def balancedAt (bytes : List UInt8) (start : Nat) (opener closer : UInt8) : Set Nat :=
  {offset | start < offset ∧ offset < bytes.length ∧
    tally opener closer (bytesBetween bytes start (offset + 1)) = 0}

theorem isLeast_of_found (hne : opener ≠ closer) {found : Nat}
    (hfound : inBytes bytes start opener closer = .found found) :
    bytes[start]? = some opener ∧ IsLeast (balancedAt bytes start opener closer) found := by
  by_cases hstart : bytes[start]? = some opener
  · refine ⟨hstart, ?_, ?_⟩
    · have hends := ends_loop hne (Nat.le_refl 1) (start + 1) (bytes.drop (start + 1))
      rw [← inBytes_eq hstart, hfound] at hends
      cases hends with
      | @found inside rest hbytes hlast hinside =>
          have hlength : inside.length + 1 ≤ bytes.length - (start + 1) := by
            rw [← List.length_drop, hbytes, List.length_append, List.length_cons]
            omega
          have htake : (inside ++ closer :: rest).take (inside.length + 1) =
              inside ++ [closer] :=
            List.take_length_add_append 1
          refine ⟨by omega, by omega, ?_⟩
          rw [Nat.add_assoc (start + 1), tally_bytesBetween hne hstart, hbytes, htake,
            tally_append, tally_closer hne]
          omega
    · rintro offset ⟨hlt, -, hzero⟩
      by_contra hbefore
      have hopen : 1 ≤ tally opener closer (bytesBetween bytes start (offset + 1)) := by
        refine one_le_tally hne hstart (by omega) fun other hother => ?_
        rw [hfound] at hother
        cases hother
        omega
      omega
  · rw [inBytes_eq_absent hstart] at hfound
    contradiction

theorem inBytes_ne_underflow (hne : opener ≠ closer) (bytes : List UInt8) (start : Nat) :
    inBytes bytes start opener closer ≠ .underflow := by
  intro hresult
  by_cases hstart : bytes[start]? = some opener
  · have hends := ends_loop hne (Nat.le_refl 1) (start + 1) (bytes.drop (start + 1))
    rw [← inBytes_eq hstart, hresult] at hends
    cases hends
  · rw [inBytes_eq_absent hstart] at hresult
    contradiction

/-- A search finds the first offset at which as many delimiters are closed as opened. -/
theorem inBytes_eq_found_iff (hne : opener ≠ closer) (bytes : List UInt8) (start found : Nat) :
    inBytes bytes start opener closer = .found found ↔
      bytes[start]? = some opener ∧ IsLeast (balancedAt bytes start opener closer) found := by
  refine ⟨isLeast_of_found hne, ?_⟩
  rintro ⟨hstart, hleast⟩
  cases hresult : inBytes bytes start opener closer with
  | found other => rw [(isLeast_of_found hne hresult).2.unique hleast]
  | absent =>
      obtain ⟨hlt, -, hzero⟩ := hleast.1
      have hopen : 1 ≤ tally opener closer (bytesBetween bytes start (found + 1)) := by
        refine one_le_tally hne hstart (by omega) fun other hother => ?_
        rw [hresult] at hother
        contradiction
      omega
  | underflow => exact absurd hresult (inBytes_ne_underflow hne bytes start)

end Search

end SourceAtlas.Text
