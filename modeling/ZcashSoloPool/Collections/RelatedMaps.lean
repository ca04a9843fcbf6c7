import ZcashSoloPool.Collections.OrderedMap
import Mathlib.Data.List.Forall2

/-!
# Related maps

Two maps with the same keys in the same order and related values.  What goes by
the keys and by the order, and tests that agree on related values, keep two maps
related.
-/

namespace ZcashSoloPool.Collections.OrderedMap

universe u v w

variable {K : Type u} {V : Type v} {W : Type w} {R : V → W → Prop}
  {left : OrderedMap K V} {right : OrderedMap K W}

/-- Entries of one key with related values. -/
def RelatedEntry (R : V → W → Prop) (first : K × V) (second : K × W) : Prop :=
  first.1 = second.1 ∧ R first.2 second.2

/-- Entry by entry the same key and related values. -/
def Related (R : V → W → Prop) (left : OrderedMap K V) (right : OrderedMap K W) : Prop :=
  List.Forall₂ (RelatedEntry R) left.entries right.entries

theorem related_empty : Related R (empty : OrderedMap K V) (empty : OrderedMap K W) :=
  List.Forall₂.nil

theorem Related.size (related : Related R left right) : left.size = right.size :=
  List.Forall₂.length_eq related

theorem Related.keys (related : Related R left right) :
    left.entries.map Prod.fst = right.entries.map Prod.fst := by
  rw [← List.forall₂_eq_eq_eq, List.forall₂_map_left_iff, List.forall₂_map_right_iff]
  exact List.Forall₂.imp (fun _ _ entry => entry.1) related

/-- Tests that agree on the related values of a key. -/
theorem Related.filter (related : Related R left right) {test : K → V → Bool}
    {otherTest : K → W → Bool}
    (agree : ∀ key value other, R value other → test key value = otherTest key other) :
    Related R (left.filter test) (right.filter otherTest) := by
  refine List.rel_filter ?_ related
  rintro ⟨key, value⟩ ⟨_, other⟩ ⟨rfl, valueRelated⟩
  exact iff_of_eq (congrArg (· = true) (agree key value other valueRelated))

theorem Related.deleteOldest (related : Related R left right) :
    Related R left.deleteOldest right.deleteOldest := by
  change List.Forall₂ _ left.entries.tail right.entries.tail
  rw [← List.drop_one, ← List.drop_one]
  exact List.forall₂_drop 1 related

theorem Related.trim (related : Related R left right) (limit : Nat) :
    Related R (left.trim limit) (right.trim limit) := by
  unfold OrderedMap.trim
  rw [related.size]
  split
  · exact related.deleteOldest
  · exact related

variable [DecidableEq K]

theorem Related.set (related : Related R left right) (key : K) {value : V} {other : W}
    (valueRelated : R value other) : Related R (left.set key value) (right.set key other) := by
  by_cases member : key ∈ left.entries.map Prod.fst
  · have otherMember : key ∈ right.entries.map Prod.fst := related.keys ▸ member
    rw [OrderedMap.set, dif_pos member, OrderedMap.set, dif_pos otherMember]
    refine List.rel_map ?_ related
    rintro ⟨first, _⟩ ⟨_, _⟩ ⟨rfl, entryRelated⟩
    by_cases same : first = key
    · simpa only [if_pos same] using ⟨rfl, valueRelated⟩
    · simpa only [if_neg same] using ⟨rfl, entryRelated⟩
  · have otherFresh : key ∉ right.entries.map Prod.fst := related.keys ▸ member
    rw [Related, entries_set_of_not_mem value member, entries_set_of_not_mem other otherFresh]
    exact List.rel_append related (List.Forall₂.cons ⟨rfl, valueRelated⟩ List.Forall₂.nil)

/-- A key that is found in one of two related maps is found in the other. -/
theorem Related.exists_get? (related : Related R left right) {key : K} {value : V}
    (found : left.get? key = some value) :
    ∃ other, right.get? key = some other ∧ R value other := by
  have listed := get?_eq_some_iff.mp found
  obtain ⟨index, bound, entry⟩ := List.mem_iff_getElem.mp listed
  have otherBound : index < right.entries.length := lt_of_lt_of_eq bound related.size
  have pair := List.Forall₂.get related bound otherBound
  rw [List.get_eq_getElem, List.get_eq_getElem, entry] at pair
  have same : key = right.entries[index].1 := pair.1
  refine ⟨right.entries[index].2, get?_eq_some_iff.mpr ?_, pair.2⟩
  rw [same]
  exact List.getElem_mem otherBound

end ZcashSoloPool.Collections.OrderedMap
