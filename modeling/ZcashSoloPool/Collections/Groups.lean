import ZcashSoloPool.Collections.OrderedMap
import Mathlib.Data.List.Induction

/-!
# Grouping a list by a key

The places of the elements of a list are collected by the keys of the elements;
an element without a key is left out.  Every place stands in the group of its
own key and nowhere else, so that updating the elements group by group updates
each of them once.
-/

namespace ZcashSoloPool.Collections

universe u v

variable {Item : Type u} {K : Type v}

/-- The key of a place in a list with one more element. -/
theorem bind_getElem?_append (key : Item → Option K) (items : List Item) (last : Item) (own : K)
    (place : Nat) :
    (items ++ [last])[place]?.bind key = some own ↔
      items[place]?.bind key = some own ∨ place = items.length ∧ key last = some own := by
  rcases Nat.lt_trichotomy place items.length with before | rfl | behind
  · rw [List.getElem?_append_left before]
    have other : place ≠ items.length := Nat.ne_of_lt before
    simp [other]
  · simp
  · rw [List.getElem?_eq_none (by simp; omega), List.getElem?_eq_none (Nat.le_of_lt behind)]
    have other : place ≠ items.length := Nat.ne_of_gt behind
    simp [other]

variable [DecidableEq K]

/-- Put a place into the group of its key. -/
def OrderedMap.push (groups : OrderedMap K (List Nat)) (key : Option K) (place : Nat) :
    OrderedMap K (List Nat) :=
  match key with
  | none => groups
  | some own => groups.set own ((groups.get? own).getD [] ++ [place])

/-- The places of a list by the keys of its elements, in the order in which the
keys occur first. -/
def groupPlaces (key : Item → Option K) (items : List Item) : OrderedMap K (List Nat) :=
  items.zipIdx.foldl (fun groups entry => groups.push (key entry.1) entry.2) .empty

/-- The groups hold the places of a list by the keys of its elements. -/
structure GroupsOf (key : Item → Option K) (items : List Item)
    (groups : OrderedMap K (List Nat)) : Prop where
  nodup : ∀ own places, groups.get? own = some places → places.Nodup
  mem_iff : ∀ own places, groups.get? own = some places → ∀ place,
    place ∈ places ↔ items[place]?.bind key = some own
  absent : ∀ own, groups.get? own = none → ∀ place : Nat, items[place]?.bind key ≠ some own

theorem groupPlaces_append (key : Item → Option K) (items : List Item) (last : Item) :
    groupPlaces key (items ++ [last]) = (groupPlaces key items).push (key last) items.length := by
  simp [groupPlaces, List.zipIdx_append]

/-- A new place keeps the groups in order. -/
theorem GroupsOf.push {key : Item → Option K} {items : List Item}
    {groups : OrderedMap K (List Nat)} (correct : GroupsOf key items groups) (last : Item) :
    GroupsOf key (items ++ [last]) (groups.push (key last) items.length) := by
  have fresh : ∀ own, items[items.length]?.bind key ≠ some own := by simp
  cases isKey : key last with
  | none =>
      constructor
      · exact correct.nodup
      · intro own places there place
        rw [bind_getElem?_append, correct.mem_iff own places there]
        simp [isKey]
      · intro own there place
        rw [ne_eq, bind_getElem?_append, isKey]
        simpa using correct.absent own there place
  | some own =>
      simp only [OrderedMap.push]
      -- The group as it was: it has the earlier places of the key, and not the new one.
      have former : ((groups.get? own).getD []).Nodup ∧
          ∀ place, place ∈ (groups.get? own).getD [] ↔ items[place]?.bind key = some own := by
        cases there : groups.get? own with
        | none => exact ⟨List.nodup_nil, fun place =>
            ⟨fun member => (List.not_mem_nil member).elim,
              fun found => absurd found (correct.absent own there place)⟩⟩
        | some places => exact ⟨correct.nodup own places there, correct.mem_iff own places there⟩
      constructor
      · intro other places there
        by_cases same : other = own
        · subst same
          rw [OrderedMap.get?_set_self, Option.some.injEq] at there
          rw [← there, ← List.concat_eq_append]
          exact former.1.concat fun member => fresh other ((former.2 _).mp member)
        · rw [OrderedMap.get?_set_of_ne same] at there
          exact correct.nodup other places there
      · intro other places there place
        rw [bind_getElem?_append, isKey, Option.some.injEq]
        by_cases same : other = own
        · subst same
          rw [OrderedMap.get?_set_self, Option.some.injEq] at there
          rw [← there, List.mem_append, former.2 place, List.mem_singleton]
          simp
        · rw [OrderedMap.get?_set_of_ne same] at there
          rw [correct.mem_iff other places there place]
          simp [Ne.symm same]
      · intro other there place
        by_cases same : other = own
        · rw [same, OrderedMap.get?_set_self] at there
          contradiction
        · rw [OrderedMap.get?_set_of_ne same] at there
          rw [ne_eq, bind_getElem?_append, isKey, Option.some.injEq, not_or]
          exact ⟨correct.absent other there place, fun isLast => same isLast.2.symm⟩

/-- Every place stands in the group of its key and nowhere else. -/
theorem groupsOf_groupPlaces (key : Item → Option K) (items : List Item) :
    GroupsOf key items (groupPlaces key items) := by
  induction items using List.reverseRecOn with
  | nil => exact ⟨by simp [groupPlaces], by simp [groupPlaces], by simp⟩
  | append_singleton items last ih =>
      rw [groupPlaces_append]
      exact ih.push last

/-! ## Updating group by group -/

/-- Update the elements at some places. -/
def updateAt (update : Item → Item) (places : List Nat) (items : List Item) : List Item :=
  places.foldl (fun items place => items.modify place update) items

@[simp]
theorem length_updateAt (update : Item → Item) (places : List Nat) (items : List Item) :
    (updateAt update places items).length = items.length := by
  induction places generalizing items with
  | nil => rfl
  | cons first rest ih => exact (ih _).trans (List.length_modify ..)

/-- Places that are not repeated are updated once, and the others stay. -/
theorem getElem?_updateAt (update : Item → Item) {places : List Nat} (nodup : places.Nodup)
    (items : List Item) (place : Nat) :
    (updateAt update places items)[place]? =
      if place ∈ places then items[place]?.map update else items[place]? := by
  induction places generalizing items with
  | nil => rfl
  | cons first rest ih =>
      obtain ⟨notRest, nodupRest⟩ := List.nodup_cons.mp nodup
      change (updateAt update rest (items.modify first update))[place]? = _
      rw [ih nodupRest, List.getElem?_modify]
      by_cases same : first = place
      · subst same
        simp [notRest]
      · simp [same, Ne.symm same]

end ZcashSoloPool.Collections
