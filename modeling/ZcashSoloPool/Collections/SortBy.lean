import Mathlib.Algebra.Order.Ring.Rat
import Mathlib.Data.List.Basic
import Mathlib.Tactic.Linarith

/-!
# Sorting with a comparison function

A comparison function tells the order of two items by the sign of a number.
Functions that are consistent can be combined, and a list that is sorted with one
has its first items in front.
-/

namespace ZcashSoloPool.Collections

universe u v

variable {α : Type u} {β : Type v}

/-- What a sort needs of a comparison function. -/
structure Consistent (compare : α → α → ℚ) : Prop where
  flip : ∀ a b, compare a b ≤ 0 ↔ 0 ≤ compare b a
  trans : ∀ a b c, compare a b ≤ 0 → compare b c ≤ 0 → compare a c ≤ 0

/-- A stable sort. -/
def sortBy (compare : α → α → ℚ) (items : List α) : List α :=
  items.mergeSort fun a b => decide (compare a b ≤ 0)

/-! ## Comparison functions -/

/-- The second function decides where the first one does not. -/
def thenBy (first second : α → α → ℚ) (a b : α) : ℚ :=
  if first a b ≠ 0 then first a b else second a b

theorem le_of_thenBy {first second : α → α → ℚ} {a b : α} (le : thenBy first second a b ≤ 0) :
    first a b ≤ 0 := by
  unfold thenBy at le
  split at le
  · exact le
  · next same => exact (not_not.mp same).le

theorem second_le_of_thenBy {first second : α → α → ℚ} {a b : α}
    (le : thenBy first second a b ≤ 0) (same : first a b = 0) : second a b ≤ 0 := by
  rw [thenBy, if_neg (not_not.mpr same)] at le
  exact le

theorem thenBy_eq_zero {first second : α → α → ℚ} {a b : α} (isFirst : first a b = 0)
    (isSecond : second a b = 0) : thenBy first second a b = 0 := by
  rw [thenBy, if_neg (not_not.mpr isFirst), isSecond]

/-- Items with a value come before those without one. -/
def missingLast (compare : α → α → ℚ) : Option α → Option α → ℚ
  | none, none => 0
  | none, some _ => 1
  | some _, none => -1
  | some a, some b => compare a b

namespace Consistent

variable {compare first second : α → α → ℚ}

theorem eq_iff (consistent : Consistent compare) (a b : α) : compare a b = 0 ↔ compare b a = 0 := by
  rw [le_antisymm_iff, le_antisymm_iff, consistent.flip a b, ← consistent.flip b a]
  exact and_comm

theorem total (consistent : Consistent compare) (a b : α) : compare a b ≤ 0 ∨ compare b a ≤ 0 := by
  rw [consistent.flip b a]
  exact le_total _ _

theorem trans_decide (consistent : Consistent compare) (a b c : α) :
    decide (compare a b ≤ 0) → decide (compare b c ≤ 0) → decide (compare a c ≤ 0) := by
  simpa using consistent.trans a b c

theorem total_decide (consistent : Consistent compare) (a b : α) :
    decide (compare a b ≤ 0) || decide (compare b a ≤ 0) := by
  simpa using consistent.total a b

theorem sub : Consistent fun a b : ℚ => a - b where
  flip a b := by
    constructor <;> intro order <;> linarith
  trans a b c low high := by linarith

theorem comap (consistent : Consistent compare) (f : β → α) :
    Consistent fun a b => compare (f a) (f b) where
  flip a b := consistent.flip (f a) (f b)
  trans a b c := consistent.trans (f a) (f b) (f c)

theorem neg (consistent : Consistent compare) : Consistent fun a b => compare a b * -1 where
  flip a b := by
    have order := consistent.flip b a
    constructor
    · intro le
      have := order.mpr (by linarith)
      linarith
    · intro le
      have := order.mp (by linarith)
      linarith
  trans a b c low high := by
    have first := (consistent.flip b a).mpr (by linarith)
    have second := (consistent.flip c b).mpr (by linarith)
    have both := (consistent.flip c a).mp (consistent.trans c b a second first)
    linarith

theorem missingLast (consistent : Consistent compare) :
    Consistent (Collections.missingLast compare) where
  flip a b := by
    cases a with
    | none => cases b <;> simp [Collections.missingLast]
    | some a =>
        cases b with
        | none => simp [Collections.missingLast]
        | some b => exact consistent.flip a b
  trans a b c low high := by
    cases a with
    | none =>
        cases b with
        | none => exact high
        | some b => norm_num [Collections.missingLast] at low
    | some a =>
        cases b with
        | none =>
            cases c with
            | none => exact low
            | some c => norm_num [Collections.missingLast] at high
        | some b =>
            cases c with
            | none => norm_num [Collections.missingLast]
            | some c => exact consistent.trans a b c low high

theorem thenBy (isFirst : Consistent first) (isSecond : Consistent second) :
    Consistent (Collections.thenBy first second) := by
  constructor
  · intro a b
    unfold Collections.thenBy
    by_cases same : first a b = 0
    · rw [if_neg (not_not.mpr same), if_neg (not_not.mpr ((isFirst.eq_iff a b).mp same))]
      exact isSecond.flip a b
    · rw [if_pos same, if_pos (mt (isFirst.eq_iff a b).mpr same)]
      exact isFirst.flip a b
  · intro a b c low high
    have split : ∀ a b, Collections.thenBy first second a b ≤ 0 ↔
        first a b < 0 ∨ first a b = 0 ∧ second a b ≤ 0 := by
      intro a b
      unfold Collections.thenBy
      by_cases same : first a b = 0
      · simp [same]
      · rw [if_pos same]
        simp [same, lt_iff_le_and_ne]
    rw [split] at low high ⊢
    have before : ∀ {a b c}, first a b < 0 → first b c ≤ 0 → first a c < 0 := by
      intro a b c less le
      rw [← not_le]
      intro back
      have around := isFirst.trans b c a le ((isFirst.flip c a).mpr back)
      exact absurd ((isFirst.flip b a).mp around) (not_le.mpr less)
    have after : ∀ {a b c}, first a b ≤ 0 → first b c < 0 → first a c < 0 := by
      intro a b c le less
      rw [← not_le]
      intro back
      have around := isFirst.trans c a b ((isFirst.flip c a).mpr back) le
      exact absurd ((isFirst.flip c b).mp around) (not_le.mpr less)
    rcases low with less | ⟨same, le⟩
    · exact Or.inl (before less (high.elim le_of_lt fun equal => equal.1.le))
    · rcases high with less | ⟨equal, le'⟩
      · exact Or.inl (after same.le less)
      · have sum := isFirst.trans a b c same.le equal.le
        rcases sum.lt_or_eq with less | zero
        · exact Or.inl less
        · exact Or.inr ⟨zero, isSecond.trans a b c le le'⟩

end Consistent

section ThreeWay

variable [LinearOrder α]

/-- The comparison function of an order. -/
def threeWay (a b : α) : ℚ :=
  if a < b then -1 else if b < a then 1 else 0

theorem threeWay_le_iff (a b : α) : threeWay a b ≤ 0 ↔ a ≤ b := by
  unfold threeWay
  rcases lt_trichotomy a b with less | rfl | greater
  · norm_num [less, less.le]
  · simp
  · norm_num [greater, greater.not_gt, greater.not_ge]

theorem le_threeWay_iff (a b : α) : 0 ≤ threeWay a b ↔ b ≤ a := by
  unfold threeWay
  rcases lt_trichotomy a b with less | rfl | greater
  · norm_num [less, less.not_ge]
  · simp
  · norm_num [greater, greater.not_gt, greater.le]

theorem consistent_threeWay : Consistent fun a b : α => threeWay a b where
  flip a b := (threeWay_le_iff a b).trans (le_threeWay_iff b a).symm
  trans a b c low high := (threeWay_le_iff a c).mpr
    (((threeWay_le_iff a b).mp low).trans ((threeWay_le_iff b c).mp high))

end ThreeWay

/-! ## Sorted lists -/

theorem perm_sortBy (compare : α → α → ℚ) (items : List α) : (sortBy compare items).Perm items :=
  List.mergeSort_perm items _

theorem pairwise_sortBy {compare : α → α → ℚ} (consistent : Consistent compare) (items : List α) :
    (sortBy compare items).Pairwise fun a b => compare a b ≤ 0 := by
  have sorted := List.pairwise_mergeSort consistent.trans_decide consistent.total_decide items
  exact sorted.imp fun le => of_decide_eq_true le

/-- Items with their places in a list, sorted with the places where the items
compare equal. -/
def sortPlaced (compare : α → α → ℚ) (items : List α) : List (α × Nat) :=
  items.zipIdx.mergeSort (List.zipIdxLE fun a b => decide (compare a b ≤ 0))

theorem map_fst_sortPlaced (compare : α → α → ℚ) (items : List α) :
    (sortPlaced compare items).map Prod.fst = sortBy compare items :=
  List.mergeSort_zipIdx

theorem getElem_of_mem_sortPlaced {compare : α → α → ℚ} {items : List α} {placed : α × Nat}
    (member : placed ∈ sortPlaced compare items) :
    ∃ inside : placed.2 < items.length, items[placed.2] = placed.1 := by
  have perm := List.mergeSort_perm items.zipIdx (List.zipIdxLE fun a b => decide (compare a b ≤ 0))
  exact List.getElem?_eq_some_iff.mp
    (List.mk_mem_zipIdx_iff_getElem?.mp (perm.mem_iff.mp member))

theorem pairwise_sortPlaced {compare : α → α → ℚ} (consistent : Consistent compare)
    (items : List α) :
    (sortPlaced compare items).Pairwise fun p q => compare p.1 q.1 = 0 → p.2 < q.2 := by
  let le (a b : α) : Bool := decide (compare a b ≤ 0)
  have sorted : (sortPlaced compare items).Pairwise fun p q => List.zipIdxLE le p q = true :=
    List.pairwise_mergeSort (List.zipIdxLE_trans consistent.trans_decide)
      (List.zipIdxLE_total consistent.total_decide) items.zipIdx
  have distinct : (sortPlaced compare items).Pairwise fun p q => p.2 ≠ q.2 := by
    have perm : (sortPlaced compare items).Perm items.zipIdx := List.mergeSort_perm _ _
    rw [← List.pairwise_map, ← List.nodup_iff_pairwise_ne, (perm.map Prod.snd).nodup_iff,
      List.zipIdx_map_snd]
    exact List.nodup_range'
  refine (sorted.and distinct).imp fun {p q} both same => ?_
  have low : le p.1 q.1 = true := decide_eq_true same.le
  have high : le q.1 p.1 = true := decide_eq_true ((consistent.eq_iff p.1 q.1).mp same).le
  have order := both.1
  rw [List.zipIdxLE, if_pos low, if_pos high] at order
  exact lt_of_le_of_ne (of_decide_eq_true order) both.2

/-- Items that compare equal keep their order. -/
theorem stable_sortBy {compare : α → α → ℚ} (consistent : Consistent compare) {items : List α}
    {before : α → α → Prop} (inOrder : items.Pairwise before) :
    (sortBy compare items).Pairwise fun a b => compare a b = 0 → before a b := by
  rw [← map_fst_sortPlaced, List.pairwise_map]
  have sorted := pairwise_sortPlaced consistent items
  refine sorted.imp_of_mem fun {p q} memberP memberQ order same => ?_
  obtain ⟨_, isP⟩ := getElem_of_mem_sortPlaced memberP
  obtain ⟨inside, isQ⟩ := getElem_of_mem_sortPlaced memberQ
  rw [← isP, ← isQ]
  exact List.pairwise_iff_getElem.mp inOrder p.2 q.2 _ inside (order same)

/-- Sorting values of items is sorting the items by their values. -/
theorem sortBy_map (compare : β → β → ℚ) (f : α → β) (items : List α) :
    sortBy compare (items.map f) = (sortBy (fun a b => compare (f a) (f b)) items).map f := by
  symm
  apply List.map_mergeSort
  intros
  rfl

/-- The first items are in order, and no other one belongs in front of them. -/
theorem pairwise_take_sortBy {compare : α → α → ℚ} (consistent : Consistent compare)
    (items : List α) (n : Nat) :
    ((sortBy compare items).take n).Pairwise (fun a b => compare a b ≤ 0) ∧
      ∀ a ∈ (sortBy compare items).take n, ∀ b ∈ (sortBy compare items).drop n,
        compare a b ≤ 0 := by
  have sorted := pairwise_sortBy consistent items
  rw [← List.take_append_drop n (sortBy compare items), List.pairwise_append] at sorted
  exact ⟨sorted.1, sorted.2.2⟩

end ZcashSoloPool.Collections
