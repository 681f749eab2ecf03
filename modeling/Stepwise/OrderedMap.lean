import Stepwise.Text.Basic

/-!
# Ordered maps

A map from texts that lists its entries in the order in which their keys were first
inserted. Inserting a key again replaces its value in place.

## Main definitions

* `Stepwise.OrderedMap` — the entries in order; `keys`, `values`, `size`, `get?`.
* `Stepwise.OrderedMap.insert` — inserting a key, with the replaced value as the answer.

## Main results

* `Stepwise.OrderedMap.insert_fst` — the replaced value is the one that the key had.
* `Stepwise.OrderedMap.get?_insert_self`, `get?_insert_of_ne`, `keys_insert` — the map
  after an insertion.
-/

namespace Stepwise

/-- The entries in the order in which their keys were first inserted. -/
structure OrderedMap (α : Type) where
  entries : List (Text × α) := []
  deriving Inhabited

namespace OrderedMap

variable {α : Type}

/-- The value of a key. -/
def get? (map : OrderedMap α) (key : Text) : Option α :=
  (map.entries.find? fun entry => entry.1 == key).map Prod.snd

/-- Puts a value in the place of the one with its key, or at the end, and gives back the
one that stood there. -/
def exchange (key : Text) (value : α) : List (Text × α) → Option α × List (Text × α)
  | [] => (none, [(key, value)])
  | (other, old) :: entries =>
    if other = key then (some old, (key, value) :: entries)
    else
      let (replaced, entries) := exchange key value entries
      (replaced, (other, old) :: entries)

/-- Inserts a key and gives back the value that it had before. -/
def insert (map : OrderedMap α) (key : Text) (value : α) : Option α × OrderedMap α :=
  let (replaced, entries) := exchange key value map.entries
  (replaced, ⟨entries⟩)

/-- Forgets all entries. -/
def clear (map : OrderedMap α) : OrderedMap α :=
  { map with entries := [] }

/-- The keys in order. -/
def keys (map : OrderedMap α) : List Text :=
  map.entries.map Prod.fst

/-- The values in the order of their keys. -/
def values (map : OrderedMap α) : List α :=
  map.entries.map Prod.snd

/-- The number of entries. -/
def size (map : OrderedMap α) : Nat :=
  map.entries.length

/-! ### Insertions -/

theorem exchange_cons_self (key : Text) (value old : α) (entries : List (Text × α)) :
    exchange key value ((key, old) :: entries) = (some old, (key, value) :: entries) := by
  simp [exchange]

theorem exchange_cons_of_ne {key other : Text} (h : other ≠ key) (value old : α)
    (entries : List (Text × α)) :
    exchange key value ((other, old) :: entries) =
      ((exchange key value entries).1, (other, old) :: (exchange key value entries).2) := by
  simp [exchange, h]

/-- The replaced value is the one that the key had. -/
theorem insert_fst (map : OrderedMap α) (key : Text) (value : α) :
    (map.insert key value).1 = map.get? key := by
  obtain ⟨entries⟩ := map
  simp only [insert, get?]
  induction entries with
  | nil => rfl
  | cons entry entries ih =>
    obtain ⟨other, old⟩ := entry
    by_cases h : other = key
    · subst h
      simp [exchange_cons_self]
    · rw [exchange_cons_of_ne h, List.find?_cons_of_neg (by simpa using h)]
      exact ih

/-- A key just inserted has the value that was inserted. -/
theorem get?_insert_self (map : OrderedMap α) (key : Text) (value : α) :
    (map.insert key value).2.get? key = some value := by
  obtain ⟨entries⟩ := map
  simp only [insert, get?]
  induction entries with
  | nil => simp [exchange]
  | cons entry entries ih =>
    obtain ⟨other, old⟩ := entry
    by_cases h : other = key
    · subst h
      simp [exchange_cons_self]
    · rw [exchange_cons_of_ne h, List.find?_cons_of_neg (by simpa using h)]
      exact ih

/-- Inserting a key leaves the values of the other keys alone. -/
theorem get?_insert_of_ne (map : OrderedMap α) {key other : Text} (value : α)
    (h : other ≠ key) : (map.insert key value).2.get? other = map.get? other := by
  obtain ⟨entries⟩ := map
  simp only [insert, get?]
  induction entries with
  | nil => simp [exchange, Ne.symm h]
  | cons entry entries ih =>
    obtain ⟨first, old⟩ := entry
    by_cases hfirst : first = key
    · subst hfirst
      simp [exchange_cons_self, Ne.symm h]
    · rw [exchange_cons_of_ne hfirst]
      by_cases hother : first = other
      · simp [hother]
      · rw [List.find?_cons_of_neg (by simpa using hother),
          List.find?_cons_of_neg (by simpa using hother)]
        exact ih

theorem map_fst_exchange (key : Text) (value : α) (entries : List (Text × α)) :
    (exchange key value entries).2.map Prod.fst =
      if key ∈ entries.map Prod.fst then entries.map Prod.fst
      else entries.map Prod.fst ++ [key] := by
  induction entries with
  | nil => simp [exchange]
  | cons entry entries ih =>
    obtain ⟨other, old⟩ := entry
    by_cases h : other = key
    · subst h
      simp [exchange_cons_self]
    · have h' : ¬ key = other := fun heq => h heq.symm
      simp only [exchange_cons_of_ne h, List.map_cons, ih, List.mem_cons, h', false_or]
      split <;> simp

/-- An insertion keeps the keys and their order, and a new key comes last. -/
theorem keys_insert (map : OrderedMap α) (key : Text) (value : α) :
    (map.insert key value).2.keys =
      if key ∈ map.keys then map.keys else map.keys ++ [key] :=
  map_fst_exchange key value map.entries

/-- The entries after an insertion are the new one and some of the old ones. -/
theorem mem_of_mem_insert {map : OrderedMap α} {key : Text} {value : α} {entry : Text × α}
    (h : entry ∈ (map.insert key value).2.entries) :
    entry = (key, value) ∨ entry ∈ map.entries := by
  obtain ⟨entries⟩ := map
  simp only [insert] at h
  induction entries with
  | nil => exact .inl (List.mem_singleton.1 h)
  | cons first entries ih =>
    obtain ⟨other, old⟩ := first
    by_cases hother : other = key
    · subst hother
      rw [exchange_cons_self] at h
      exact (List.mem_cons.1 h).imp_right (List.mem_cons_of_mem _)
    · rw [exchange_cons_of_ne hother] at h
      rcases List.mem_cons.1 h with rfl | h
      · exact .inr List.mem_cons_self
      · exact (ih h).imp_right (List.mem_cons_of_mem _)

/-! ### Entries -/

theorem mem_entries_of_get? {map : OrderedMap α} {key : Text} {value : α}
    (h : map.get? key = some value) : (key, value) ∈ map.entries := by
  obtain ⟨⟨other, _⟩, hfind, rfl⟩ := Option.map_eq_some_iff.1 h
  have hkey : other = key := by simpa using List.find?_some hfind
  exact hkey ▸ List.mem_of_find?_eq_some hfind

/-- Among distinct keys, each entry is the one found by its key. -/
theorem get?_of_mem {map : OrderedMap α} (hnodup : map.keys.Nodup) {key : Text} {value : α}
    (hmem : (key, value) ∈ map.entries) : map.get? key = some value := by
  obtain ⟨entries⟩ := map
  simp only [keys] at hnodup
  simp only [get?]
  induction entries with
  | nil => cases hmem
  | cons entry entries ih =>
    rw [List.map_cons, List.nodup_cons] at hnodup
    rcases List.mem_cons.1 hmem with rfl | hmem
    · simp
    · have hne : entry.1 ≠ key := by
        rintro rfl
        exact hnodup.1 (List.mem_map.2 ⟨_, hmem, rfl⟩)
      rw [List.find?_cons_of_neg (by simpa using hne)]
      exact ih hnodup.2 hmem

end OrderedMap

end Stepwise
