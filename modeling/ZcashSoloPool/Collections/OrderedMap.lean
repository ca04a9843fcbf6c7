import Mathlib.Data.List.Nodup

/-!
# Insertion-ordered maps

Finite maps that remember the order in which their keys were first inserted.
Setting a key that is present keeps its place; a new key goes to the end; the
oldest key is the first one.  That keys are not repeated is part of the
structure, so that looking a key up and being listed are the same thing.
-/

namespace ZcashSoloPool.Collections

universe u v

/-- A map as the list of its entries, oldest key first. -/
structure OrderedMap (K : Type u) (V : Type v) where
  entries : List (K × V)
  nodup : (entries.map Prod.fst).Nodup

namespace OrderedMap

variable {K : Type u} {V : Type v}

/-- The map without entries. -/
def empty : OrderedMap K V :=
  ⟨[], List.nodup_nil⟩

/-- Number of entries. -/
def size (map : OrderedMap K V) : Nat :=
  map.entries.length

/-- The entries that pass a test, in order. -/
def filter (test : K → V → Bool) (map : OrderedMap K V) : OrderedMap K V where
  entries := map.entries.filter fun entry => test entry.1 entry.2
  nodup := map.nodup.sublist (List.filter_sublist.map Prod.fst)

/-- Remove the entry that was inserted first. -/
def deleteOldest (map : OrderedMap K V) : OrderedMap K V where
  entries := map.entries.tail
  nodup := map.nodup.sublist ((List.tail_sublist map.entries).map Prod.fst)

/-- A map that has grown beyond a limit loses its oldest entry. -/
def trim (limit : Nat) (map : OrderedMap K V) : OrderedMap K V :=
  if map.size > limit then map.deleteOldest else map

variable [DecidableEq K]

/-- Remove a key. -/
def delete (map : OrderedMap K V) (key : K) : OrderedMap K V :=
  map.filter fun other _ => decide (other ≠ key)

/-- Value of a key. -/
def get? (map : OrderedMap K V) (key : K) : Option V :=
  (map.entries.find? fun entry => entry.1 = key).map Prod.snd

/-- Entries after a key that is present has got a new value. -/
def replace (entries : List (K × V)) (key : K) (value : V) : List (K × V) :=
  entries.map fun entry => if entry.1 = key then (key, value) else entry

theorem map_fst_replace (entries : List (K × V)) (key : K) (value : V) :
    (replace entries key value).map Prod.fst = entries.map Prod.fst := by
  rw [replace, List.map_map]
  apply List.map_congr_left
  intro entry _
  by_cases same : entry.1 = key <;> simp [same]

/-- Bind a key to a value. -/
def set (map : OrderedMap K V) (key : K) (value : V) : OrderedMap K V :=
  if member : key ∈ map.entries.map Prod.fst then
    ⟨replace map.entries key value, by rw [map_fst_replace]; exact map.nodup⟩
  else
    ⟨map.entries ++ [(key, value)], by
      rw [List.map_append, List.map_singleton, ← List.concat_eq_append]
      exact map.nodup.concat member⟩

/-! ## Lookup -/

/-- Looking a key up finds the entry that is listed. -/
theorem get?_eq_some_iff {map : OrderedMap K V} {key : K} {value : V} :
    map.get? key = some value ↔ (key, value) ∈ map.entries := by
  constructor
  · intro found
    obtain ⟨entry, foundEntry, rfl⟩ := Option.map_eq_some_iff.mp found
    have keyEq : entry.1 = key := by simpa using List.find?_some foundEntry
    rw [← keyEq]
    exact List.mem_of_find?_eq_some foundEntry
  · intro member
    rw [get?, Option.map_eq_some_iff]
    cases found : map.entries.find? fun entry => entry.1 = key with
    | none =>
        have absent := List.find?_eq_none.mp found (key, value) member
        simp at absent
    | some entry =>
        have keyEq : entry.1 = key := by simpa using List.find?_some found
        have entryMember := List.mem_of_find?_eq_some found
        have same := List.inj_on_of_nodup_map map.nodup entryMember member keyEq
        exact ⟨entry, rfl, by rw [same]⟩

theorem get?_eq_none_iff {map : OrderedMap K V} {key : K} :
    map.get? key = none ↔ ∀ value, (key, value) ∉ map.entries := by
  constructor
  · intro missing value member
    rw [get?_eq_some_iff.mpr member] at missing
    contradiction
  · intro absent
    cases found : map.get? key with
    | none => rfl
    | some value => exact absurd (get?_eq_some_iff.mp found) (absent value)

@[simp]
theorem get?_empty (key : K) : (empty : OrderedMap K V).get? key = none :=
  rfl

/-! ## Insertion -/

/-- A fresh key goes to the end. -/
theorem entries_set_of_not_mem {map : OrderedMap K V} {key : K} (value : V)
    (fresh : key ∉ map.entries.map Prod.fst) :
    (map.set key value).entries = map.entries ++ [(key, value)] := by
  rw [set, dif_neg fresh]

theorem mem_entries_set {map : OrderedMap K V} {key other : K} {value otherValue : V} :
    (other, otherValue) ∈ (map.set key value).entries ↔
      (other = key ∧ otherValue = value) ∨ (other ≠ key ∧ (other, otherValue) ∈ map.entries) := by
  by_cases member : key ∈ map.entries.map Prod.fst
  · rw [set, dif_pos member]
    simp only [replace, List.mem_map]
    constructor
    · rintro ⟨entry, entryMember, entryEq⟩
      split at entryEq
      · obtain ⟨rfl, rfl⟩ := Prod.mk.inj entryEq
        exact Or.inl ⟨rfl, rfl⟩
      · next different =>
          subst entryEq
          exact Or.inr ⟨different, entryMember⟩
    · rintro (⟨rfl, rfl⟩ | ⟨different, entryMember⟩)
      · rcases List.mem_map.mp member with ⟨entry, entryMember, keyEq⟩
        exact ⟨entry, entryMember, by rw [if_pos keyEq]⟩
      · exact ⟨(other, otherValue), entryMember, by rw [if_neg different]⟩
  · rw [entries_set_of_not_mem value member, List.mem_append, List.mem_singleton, Prod.mk.injEq]
    constructor
    · rintro (entryMember | same)
      · refine Or.inr ⟨?_, entryMember⟩
        rintro rfl
        exact member (List.mem_map.mpr ⟨_, entryMember, rfl⟩)
      · exact Or.inl same
    · rintro (same | ⟨-, entryMember⟩)
      · exact Or.inr same
      · exact Or.inl entryMember

@[simp]
theorem get?_set_self (map : OrderedMap K V) (key : K) (value : V) :
    (map.set key value).get? key = some value :=
  get?_eq_some_iff.mpr (mem_entries_set.mpr (Or.inl ⟨rfl, rfl⟩))

theorem get?_set_of_ne {map : OrderedMap K V} {key other : K} (different : other ≠ key)
    (value : V) : (map.set key value).get? other = map.get? other := by
  ext otherValue
  rw [get?_eq_some_iff, get?_eq_some_iff, mem_entries_set]
  simp [different]

theorem size_set_of_mem {map : OrderedMap K V} {key : K} (value : V)
    (known : key ∈ map.entries.map Prod.fst) : (map.set key value).size = map.size := by
  rw [set, dif_pos known]
  exact List.length_map _

theorem size_set_le (map : OrderedMap K V) (key : K) (value : V) :
    (map.set key value).size ≤ map.size + 1 := by
  unfold set size
  split
  · simp [replace]
  · simp

/-! ## Removal -/

theorem get?_filter_eq_some_iff {map : OrderedMap K V} {test : K → V → Bool} {key : K} {value : V} :
    (map.filter test).get? key = some value ↔
      map.get? key = some value ∧ test key value = true := by
  rw [get?_eq_some_iff, get?_eq_some_iff, filter, List.mem_filter]

@[simp]
theorem get?_delete_self (map : OrderedMap K V) (key : K) : (map.delete key).get? key = none := by
  cases found : (map.delete key).get? key with
  | none => rfl
  | some value => simpa using (get?_filter_eq_some_iff.mp found).2

theorem get?_delete_of_ne {map : OrderedMap K V} {key other : K} (different : other ≠ key) :
    (map.delete key).get? other = map.get? other := by
  ext value
  rw [delete, get?_filter_eq_some_iff]
  simp [different]

omit [DecidableEq K] in
theorem size_filter_le (map : OrderedMap K V) (test : K → V → Bool) :
    (map.filter test).size ≤ map.size :=
  List.length_filter_le _ _

theorem get?_deleteOldest_eq_some {map : OrderedMap K V} {key : K} {value : V}
    (found : map.deleteOldest.get? key = some value) : map.get? key = some value :=
  get?_eq_some_iff.mpr (List.mem_of_mem_tail (get?_eq_some_iff.mp found))

omit [DecidableEq K] in
theorem size_deleteOldest (map : OrderedMap K V) : map.deleteOldest.size = map.size - 1 :=
  List.length_tail

/-- An entry at the end of at least two survives the removal of the oldest. -/
theorem get?_deleteOldest_of_last {map : OrderedMap K V} {key : K} {value : V}
    {front : List (K × V)} (last : map.entries = front ++ [(key, value)]) (more : 1 < map.size) :
    map.deleteOldest.get? key = some value := by
  apply get?_eq_some_iff.mpr
  change (key, value) ∈ map.entries.tail
  rw [last]
  cases front with
  | nil =>
      rw [size, last] at more
      simp at more
  | cons entry rest => simp

/-! ## Bounded maps -/

omit [DecidableEq K] in
theorem size_trim_le {map : OrderedMap K V} {limit : Nat} (grown : map.size ≤ limit + 1) :
    (map.trim limit).size ≤ limit := by
  unfold trim
  split
  · rw [size_deleteOldest]
    omega
  · next few => exact Nat.le_of_not_lt few

/-- The entry at the end survives. -/
theorem get?_trim_of_last {map : OrderedMap K V} {limit : Nat} (positive : 0 < limit) {key : K}
    {value : V} {front : List (K × V)} (last : map.entries = front ++ [(key, value)]) :
    (map.trim limit).get? key = some value := by
  unfold trim
  split
  · exact get?_deleteOldest_of_last last (by omega)
  · apply get?_eq_some_iff.mpr
    rw [last]
    exact List.mem_append_right _ List.mem_cons_self

/-- A fresh key stands at the end, also after a filter that it passes. -/
theorem exists_entries_filter_set {map : OrderedMap K V} {key : K}
    (fresh : key ∉ map.entries.map Prod.fst) (value : V) (test : K → V → Bool)
    (passes : test key value = true) :
    ∃ front, ((map.set key value).filter test).entries = front ++ [(key, value)] := by
  change ∃ front, List.filter _ (map.set key value).entries = front ++ [(key, value)]
  rw [entries_set_of_not_mem value fresh, List.filter_append]
  exact ⟨_, congrArg _ (by simp [passes])⟩

end OrderedMap

end ZcashSoloPool.Collections
