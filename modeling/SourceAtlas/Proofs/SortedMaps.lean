import SourceAtlas.SortedMap
import Mathlib.Algebra.Order.Ring.Nat

/-!
# Entries of sorted maps

A map is looked at through its entries.  A key that lies strictly below or
above all others adds one entry and disturbs none.  Where keys of which neither
is below the other are the same key, looking up after an update sees the change
at that key and nothing elsewhere, and a counter that is raised raises the sum
of all counters by one.
-/

namespace SourceAtlas.SortedMap

variable {κ ν : Type} [LT κ] [DecidableLT κ]

theorem insertEntry_perm_of_apart {key : κ} {value : ν} {entries : List (κ × ν)}
    (hapart : ∀ entry ∈ entries, entry.1 < key ∨ key < entry.1) :
    (insertEntry key value entries).Perm ((key, value) :: entries) := by
  induction entries with
  | nil => exact List.Perm.refl _
  | cons first entries ih =>
      have hrest := ih fun entry hmem => hapart entry (List.mem_cons_of_mem _ hmem)
      unfold insertEntry
      split
      · exact List.Perm.refl _
      · next hbelow =>
        have habove : first.1 < key :=
          (hapart first List.mem_cons_self).resolve_right hbelow
        rw [if_pos habove]
        exact (hrest.cons first).trans (List.Perm.swap _ _ _)

section Insert

variable [Trans (· < · : κ → κ → Prop) (· < · : κ → κ → Prop) (· < · : κ → κ → Prop)]

theorem entries_insert_perm_of_apart {map : SortedMap κ ν} {key : κ} {value : ν}
    (hapart : ∀ entry ∈ map.entries, entry.1 < key ∨ key < entry.1) :
    (map.insert key value).entries.Perm ((key, value) :: map.entries) :=
  insertEntry_perm_of_apart hapart

end Insert

/-- The value of a key among entries. -/
def lookup (key : κ) (entries : List (κ × ν)) : Option ν :=
  (entries.find? fun entry => !(key < entry.1) && !(entry.1 < key)).map (·.2)

theorem get?_eq_lookup (map : SortedMap κ ν) (key : κ) :
    map.get? key = lookup key map.entries := rfl

@[simp] theorem lookup_nil (key : κ) : lookup key ([] : List (κ × ν)) = none := rfl

theorem lookup_cons_of_apart {key : κ} {first : κ × ν} {entries : List (κ × ν)}
    (hapart : key < first.1 ∨ first.1 < key) :
    lookup key (first :: entries) = lookup key entries := by
  unfold lookup
  rw [List.find?_cons_of_neg]
  rcases hapart with hbelow | habove
  · simp [hbelow]
  · simp [habove]

theorem lookup_eq_none_of_apart {key : κ} {entries : List (κ × ν)}
    (hapart : ∀ entry ∈ entries, key < entry.1 ∨ entry.1 < key) :
    lookup key entries = none := by
  induction entries with
  | nil => rfl
  | cons first entries ih =>
      rw [lookup_cons_of_apart (hapart first List.mem_cons_self)]
      exact ih fun entry hmem => hapart entry (List.mem_cons_of_mem _ hmem)

theorem lookup_cons_self [Std.Irrefl (· < · : κ → κ → Prop)] {key : κ} {value : ν}
    {entries : List (κ × ν)} :
    lookup key ((key, value) :: entries) = some value := by
  have hirrefl : ¬ key < key := Std.Irrefl.irrefl key
  unfold lookup
  rw [List.find?_cons_of_pos]
  · rfl
  · simp [hirrefl]

private theorem apart_of_ne [Std.Trichotomous (· < · : κ → κ → Prop)] {first second : κ}
    (hne : first ≠ second) : first < second ∨ second < first := by
  by_cases hbelow : first < second
  · exact Or.inl hbelow
  · by_cases habove : second < first
    · exact Or.inr habove
    · exact (hne (Std.Trichotomous.trichotomous _ _ hbelow habove)).elim

section Linear

variable [Std.Irrefl (· < · : κ → κ → Prop)] [Std.Trichotomous (· < · : κ → κ → Prop)]

theorem lookup_insertEntry_self (key : κ) (value : ν) (entries : List (κ × ν)) :
    lookup key (insertEntry key value entries) = some value := by
  induction entries with
  | nil => exact lookup_cons_self
  | cons first entries ih =>
      unfold insertEntry
      split
      · exact lookup_cons_self
      · next hbelow =>
        split
        · next habove =>
          rw [lookup_cons_of_apart (Or.inr habove)]
          exact ih
        · next habove =>
          have heq : key = first.1 := Std.Trichotomous.trichotomous _ _ hbelow habove
          rw [← heq]
          exact lookup_cons_self

theorem lookup_insertEntry_of_ne {key other : κ} (hne : other ≠ key) (value : ν)
    (entries : List (κ × ν)) :
    lookup other (insertEntry key value entries) = lookup other entries := by
  induction entries with
  | nil => exact lookup_cons_of_apart (apart_of_ne hne)
  | cons first entries ih =>
      unfold insertEntry
      split
      · exact lookup_cons_of_apart (apart_of_ne hne)
      · next hbelow =>
        split
        · next habove =>
          rcases Classical.em (other = first.1) with heq | hfirst
          · obtain ⟨firstKey, firstValue⟩ := first
            subst heq
            rw [lookup_cons_self, lookup_cons_self]
          · rw [lookup_cons_of_apart (apart_of_ne hfirst), ih,
              lookup_cons_of_apart (apart_of_ne hfirst)]
        · next habove =>
          have heq : key = first.1 := Std.Trichotomous.trichotomous _ _ hbelow habove
          have hapart : other < first.1 ∨ first.1 < other := by
            rw [← heq]
            exact apart_of_ne hne
          calc
            lookup other ((first.1, value) :: entries) = lookup other entries :=
              lookup_cons_of_apart hapart
            _ = lookup other (first :: entries) := (lookup_cons_of_apart hapart).symm

theorem lookup_eq_some_iff {entries : List (κ × ν)}
    (hascending : entries.Pairwise (·.1 < ·.1)) {key : κ} {value : ν} :
    lookup key entries = some value ↔ (key, value) ∈ entries := by
  induction entries with
  | nil => simp
  | cons first entries ih =>
      obtain ⟨hfirst, hrest⟩ := List.pairwise_cons.mp hascending
      rw [List.mem_cons]
      rcases Classical.em (key = first.1) with rfl | hne
      · have habsent : (first.1, value) ∉ entries := fun hmem =>
          Std.Irrefl.irrefl (r := (· < ·)) first.1 (hfirst (first.1, value) hmem)
        rw [lookup_cons_self, or_iff_left habsent, Option.some.injEq, Prod.ext_iff]
        simp [eq_comm]
      · have hother : (key, value) ≠ first := fun heq => hne (congrArg Prod.fst heq)
        rw [lookup_cons_of_apart (apart_of_ne hne), ih hrest, or_iff_right hother]

theorem get?_eq_some_iff {map : SortedMap κ ν} {key : κ} {value : ν} :
    map.get? key = some value ↔ (key, value) ∈ map.entries :=
  lookup_eq_some_iff map.ascending

variable [Trans (· < · : κ → κ → Prop) (· < · : κ → κ → Prop) (· < · : κ → κ → Prop)]

theorem get?_update_self (map : SortedMap κ ν) (key : κ) (first : ν) (change : ν → ν) :
    (map.update key first change).get? key = some (change ((map.get? key).getD first)) :=
  lookup_insertEntry_self key _ map.entries

theorem get?_update_of_ne (map : SortedMap κ ν) {key other : κ} (hne : other ≠ key)
    (first : ν) (change : ν → ν) :
    (map.update key first change).get? other = map.get? other :=
  lookup_insertEntry_of_ne hne _ map.entries

end Linear

section Ascending

variable [Std.Irrefl (· < · : κ → κ → Prop)]
  [Trans (· < · : κ → κ → Prop) (· < · : κ → κ → Prop) (· < · : κ → κ → Prop)]

theorem insertEntry_of_forall_lt {key : κ} {entries : List (κ × ν)}
    (hbelow : ∀ entry ∈ entries, entry.1 < key) (value : ν) :
    insertEntry key value entries = entries ++ [(key, value)] := by
  induction entries with
  | nil => rfl
  | cons first entries ih =>
      obtain ⟨hfirst, hrest⟩ := List.forall_mem_cons.mp hbelow
      have hnot : ¬ key < first.1 := fun hlt =>
        Std.Irrefl.irrefl (r := (· < ·)) key (Trans.trans hlt hfirst)
      rw [insertEntry, if_neg hnot, if_pos hfirst, ih hrest, List.cons_append]

theorem entries_foldl_insert {entries : List (κ × ν)} (map : SortedMap κ ν)
    (hascending : (map.entries ++ entries).Pairwise (·.1 < ·.1)) :
    (entries.foldl (fun map entry => map.insert entry.1 entry.2) map).entries =
      map.entries ++ entries := by
  induction entries generalizing map with
  | nil => simp
  | cons entry entries ih =>
      have hlast : (map.insert entry.1 entry.2).entries = map.entries ++ [entry] :=
        insertEntry_of_forall_lt (fun old hold =>
          (List.pairwise_append.mp hascending).2.2 old hold entry List.mem_cons_self) entry.2
      rw [List.foldl_cons, ih _ (by simpa [hlast] using hascending), hlast, List.append_assoc]
      rfl

/-- A map is made again from its entries. -/
theorem ofList_entries (map : SortedMap κ ν) : ofList map.entries = map :=
  SortedMap.ext (entries_foldl_insert empty map.ascending)

end Ascending

/-- The sum of the counters of a map. -/
def total {κ : Type} [LT κ] (map : SortedMap κ Nat) : Nat :=
  (map.entries.map (·.2)).sum

@[simp] theorem total_empty {κ : Type} [LT κ] : (empty : SortedMap κ Nat).total = 0 := rfl

section Counters

variable [Std.Irrefl (· < · : κ → κ → Prop)] [Std.Trichotomous (· < · : κ → κ → Prop)]
  [Trans (· < · : κ → κ → Prop) (· < · : κ → κ → Prop) (· < · : κ → κ → Prop)]

private theorem sum_insertEntry_succ {key : κ} {entries : List (κ × Nat)}
    (hascending : entries.Pairwise (·.1 < ·.1)) :
    ((insertEntry key ((lookup key entries).getD 0 + 1) entries).map (·.2)).sum =
      (entries.map (·.2)).sum + 1 := by
  induction entries with
  | nil => simp [insertEntry]
  | cons first entries ih =>
      obtain ⟨hfirst, hrest⟩ := List.pairwise_cons.mp hascending
      unfold insertEntry
      split
      · next hbelow =>
        have hnone : lookup key (first :: entries) = none := by
          apply lookup_eq_none_of_apart
          intro entry hmem
          rcases List.mem_cons.mp hmem with heq | hold
          · rw [heq]
            exact Or.inl hbelow
          · exact Or.inl (Trans.trans hbelow (hfirst entry hold))
        simp only [hnone, Option.getD_none, List.map_cons, List.sum_cons]
        omega
      · next hbelow =>
        split
        · next habove =>
          have hsum := ih hrest
          rw [lookup_cons_of_apart (Or.inr habove)]
          simp only [List.map_cons, List.sum_cons]
          omega
        · next habove =>
          have heq : key = first.1 := Std.Trichotomous.trichotomous _ _ hbelow habove
          have hlookup : lookup key (first :: entries) = some first.2 := by
            rw [heq]
            exact lookup_cons_self
          simp only [hlookup, Option.getD_some, List.map_cons, List.sum_cons]
          omega

theorem total_update_succ (map : SortedMap κ Nat) (key : κ) :
    (map.update key 0 (· + 1)).total = map.total + 1 :=
  sum_insertEntry_succ map.ascending

end Counters

end SourceAtlas.SortedMap
