import ZcashSoloPool.Collections.OrderedMap
import Mathlib.Data.List.Basic

/-!
# A map and the count of its values by label

A second map that holds, for every label, how many values of a map carry it.
Labels that no value carries are absent from it.  The rules say how the second
map follows the insertion of a new key and the removal of a known one.
-/

namespace ZcashSoloPool.Collections.OrderedMap

universe u v w

variable {K : Type u} {V : Type v} {L : Type w} [DecidableEq L]

/-- How many values carry a label. -/
def population (label : V → L) (map : OrderedMap K V) (l : L) : Nat :=
  map.entries.countP fun entry => decide (label entry.2 = l)

/-- What stands in the second map for a number. -/
def stored (number : Nat) : Option Nat :=
  if number = 0 then none else some number

/-- The second map holds the numbers of the first. -/
def Census (label : V → L) (map : OrderedMap K V) (index : OrderedMap L Nat) : Prop :=
  ∀ l, index.get? l = stored (population label map l)

theorem census_empty (label : V → L) : Census label (empty : OrderedMap K V) empty :=
  fun _ => rfl

/-! ## Numbers -/

variable [DecidableEq K]

theorem population_set {label : V → L} {map : OrderedMap K V} {key : K} (value : V)
    (fresh : map.get? key = none) (l : L) :
    population label (map.set key value) l =
      population label map l + if label value = l then 1 else 0 := by
  have absent : key ∉ map.entries.map Prod.fst := by
    intro member
    obtain ⟨⟨_, old⟩, entry, rfl⟩ := List.mem_map.mp member
    exact get?_eq_none_iff.mp fresh old entry
  rw [population, entries_set_of_not_mem value absent, List.countP_append, List.countP_singleton,
    ← population]
  simp only [decide_eq_true_eq]

/-- Of entries with different keys the removed key takes one with it. -/
theorem countP_filter_add {entries : List (K × V)} (nodup : (entries.map Prod.fst).Nodup) {key : K}
    {value : V} (member : (key, value) ∈ entries) (test : K × V → Bool) :
    (entries.filter fun entry => decide (entry.1 ≠ key)).countP test +
        (if test (key, value) = true then 1 else 0) = entries.countP test := by
  induction entries with
  | nil => contradiction
  | cons entry rest ih =>
      obtain ⟨absent, nodupRest⟩ := List.nodup_cons.mp nodup
      rcases List.mem_cons.mp member with rfl | later
      · have kept : (rest.filter fun entry => decide (entry.1 ≠ key)) = rest := by
          apply List.filter_eq_self.mpr
          intro other otherMember
          apply decide_eq_true
          rintro rfl
          exact absent (List.mem_map.mpr ⟨other, otherMember, rfl⟩)
        rw [List.filter_cons_of_neg (by simp), kept, List.countP_cons]
      · have different : entry.1 ≠ key := by
          intro same
          apply absent
          rw [same]
          exact List.mem_map_of_mem later
        rw [List.filter_cons_of_pos (by simpa using different), List.countP_cons, List.countP_cons,
          ← ih nodupRest later]
        omega

theorem population_delete (label : V → L) {map : OrderedMap K V} {key : K} {value : V}
    (found : map.get? key = some value) (l : L) :
    population label (map.delete key) l + (if label value = l then 1 else 0) =
      population label map l := by
  have counted := countP_filter_add map.nodup (get?_eq_some_iff.mp found)
    fun entry => decide (label entry.2 = l)
  simp only [decide_eq_true_eq] at counted
  exact counted

/-! ## Keeping the census -/

variable {label : V → L} {map : OrderedMap K V} {index : OrderedMap L Nat}

omit [DecidableEq K] in
/-- The number that is read from the second map. -/
theorem Census.getD_get? (census : Census label map index) (l : L) :
    (index.get? l).getD 0 = population label map l := by
  rw [census l, stored]
  split
  · next none => exact none.symm
  · rfl

/-- A value under a new key counts for its label. -/
theorem Census.set (census : Census label map index) {key : K} (value : V)
    (fresh : map.get? key = none) :
    Census label (map.set key value)
      (index.set (label value) (population label map (label value) + 1)) := by
  intro l
  rw [population_set value fresh]
  by_cases same : label value = l
  · subst same
    rw [get?_set_self, if_pos rfl]
    rfl
  · rw [get?_set_of_ne (Ne.symm same), census l, if_neg same, Nat.add_zero]

/-- The last value of a label leaves nothing behind. -/
theorem Census.delete_last (census : Census label map index) {key : K} {value : V}
    (found : map.get? key = some value) (last : population label map (label value) ≤ 1) :
    Census label (map.delete key) (index.delete (label value)) := by
  intro l
  have counted := population_delete label found l
  by_cases same : label value = l
  · subst same
    rw [if_pos rfl] at counted
    have none : population label (map.delete key) (label value) = 0 := by omega
    rw [get?_delete_self, none]
    rfl
  · rw [if_neg same, Nat.add_zero] at counted
    rw [get?_delete_of_ne (Ne.symm same), census l, counted]

/-- Any other removal lowers the number. -/
theorem Census.delete (census : Census label map index) {key : K} {value : V}
    (found : map.get? key = some value) (more : 1 < population label map (label value)) :
    Census label (map.delete key)
      (index.set (label value) (population label map (label value) - 1)) := by
  intro l
  have counted := population_delete label found l
  by_cases same : label value = l
  · subst same
    rw [if_pos rfl] at counted
    rw [get?_set_self, ← counted, Nat.add_sub_cancel, stored, if_neg (by omega)]
  · rw [if_neg same, Nat.add_zero] at counted
    rw [get?_set_of_ne (Ne.symm same), census l, counted]

end ZcashSoloPool.Collections.OrderedMap
