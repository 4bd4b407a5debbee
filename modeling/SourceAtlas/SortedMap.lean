/-!
# Sorted maps

A map kept as the list of its entries in ascending order of their keys.  Two
keys of which neither is below the other count as the same key; a later value
for such a key replaces the earlier one and leaves the key as it was.
-/

namespace SourceAtlas

instance transStringLt : Trans (· < · : String → String → Prop) (· < · : String → String → Prop)
    (· < · : String → String → Prop) :=
  ⟨String.lt_trans⟩

/-- A map whose entries ascend. -/
structure SortedMap (κ : Type) (ν : Type) [LT κ] where
  entries : List (κ × ν)
  ascending : entries.Pairwise (·.1 < ·.1)

namespace SortedMap

variable {κ ν : Type} [LT κ] [DecidableLT κ]

def insertEntry (key : κ) (value : ν) : List (κ × ν) → List (κ × ν)
  | [] => [(key, value)]
  | entry :: entries =>
      if key < entry.1 then (key, value) :: entry :: entries
      else if entry.1 < key then entry :: insertEntry key value entries
      else (entry.1, value) :: entries

theorem key_of_mem_insertEntry {key : κ} {value : ν} {entries : List (κ × ν)}
    {entry : κ × ν} (hmem : entry ∈ insertEntry key value entries) :
    entry.1 = key ∨ ∃ old ∈ entries, old.1 = entry.1 := by
  induction entries with
  | nil =>
      simp only [insertEntry, List.mem_singleton] at hmem
      simp [hmem]
  | cons first entries ih =>
      unfold insertEntry at hmem
      split at hmem
      · rcases List.mem_cons.mp hmem with heq | hold
        · simp [heq]
        · exact Or.inr ⟨entry, hold, rfl⟩
      · split at hmem
        · rcases List.mem_cons.mp hmem with heq | hrest
          · exact Or.inr ⟨first, by simp, by rw [heq]⟩
          · rcases ih hrest with hkey | ⟨old, hold, hkey⟩
            · exact Or.inl hkey
            · exact Or.inr ⟨old, List.mem_cons_of_mem _ hold, hkey⟩
        · rcases List.mem_cons.mp hmem with heq | hrest
          · exact Or.inr ⟨first, by simp, by rw [heq]⟩
          · exact Or.inr ⟨entry, List.mem_cons_of_mem _ hrest, rfl⟩

theorem pairwise_insertEntry
    [Trans (· < · : κ → κ → Prop) (· < · : κ → κ → Prop) (· < · : κ → κ → Prop)]
    (key : κ) (value : ν) {entries : List (κ × ν)}
    (hascending : entries.Pairwise (·.1 < ·.1)) :
    (insertEntry key value entries).Pairwise (·.1 < ·.1) := by
  induction entries with
  | nil => simp [insertEntry]
  | cons first entries ih =>
      obtain ⟨hfirst, hrest⟩ := List.pairwise_cons.mp hascending
      unfold insertEntry
      split
      · next hbelow =>
        refine List.pairwise_cons.mpr ⟨?_, hascending⟩
        intro entry hmem
        rcases List.mem_cons.mp hmem with heq | hold
        · rw [heq]
          exact hbelow
        · exact Trans.trans hbelow (hfirst entry hold)
      · split
        · next habove =>
          refine List.pairwise_cons.mpr ⟨?_, ih hrest⟩
          intro entry hmem
          rcases key_of_mem_insertEntry hmem with hkey | ⟨old, hold, hkey⟩
          · rw [hkey]
            exact habove
          · rw [← hkey]
            exact hfirst old hold
        · exact List.pairwise_cons.mpr ⟨hfirst, hrest⟩

def empty : SortedMap κ ν :=
  { entries := [], ascending := List.Pairwise.nil }

def insert [Trans (· < · : κ → κ → Prop) (· < · : κ → κ → Prop) (· < · : κ → κ → Prop)]
    (map : SortedMap κ ν) (key : κ) (value : ν) : SortedMap κ ν :=
  { entries := insertEntry key value map.entries
    ascending := pairwise_insertEntry key value map.ascending }

def ofList [Trans (· < · : κ → κ → Prop) (· < · : κ → κ → Prop) (· < · : κ → κ → Prop)]
    (entries : List (κ × ν)) : SortedMap κ ν :=
  entries.foldl (fun map entry => map.insert entry.1 entry.2) empty

def get? (map : SortedMap κ ν) (key : κ) : Option ν :=
  (map.entries.find? fun entry => !(key < entry.1) && !(entry.1 < key)).map (·.2)

/-- The map with the value of a key changed, starting from a first value. -/
def update [Trans (· < · : κ → κ → Prop) (· < · : κ → κ → Prop) (· < · : κ → κ → Prop)]
    (map : SortedMap κ ν) (key : κ) (first : ν) (change : ν → ν) : SortedMap κ ν :=
  map.insert key (change ((map.get? key).getD first))

def isEmpty (map : SortedMap κ ν) : Bool :=
  map.entries.isEmpty

end SortedMap

variable {κ ν : Type} [LT κ]

@[ext] theorem SortedMap.ext {first second : SortedMap κ ν}
    (hentries : first.entries = second.entries) : first = second := by
  cases first
  cases second
  cases hentries
  rfl

instance [DecidableEq κ] [DecidableEq ν] : DecidableEq (SortedMap κ ν) := fun first second =>
  if heq : first.entries = second.entries then
    isTrue (SortedMap.ext heq)
  else
    isFalse fun hsame => heq (by rw [hsame])

instance : Inhabited (SortedMap κ ν) :=
  ⟨{ entries := [], ascending := List.Pairwise.nil }⟩

end SourceAtlas
