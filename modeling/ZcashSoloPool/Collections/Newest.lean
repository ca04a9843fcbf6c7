import Mathlib.Data.List.Sort
import Mathlib.Data.List.Nodup
import Mathlib.Data.List.Count

/-!
# The last items of an order

Items sorted with the last one first, and cut after a number of them.  An item is
cut off exactly if that many items are behind it in the order, and what is kept
shows it.
-/

namespace ZcashSoloPool.Collections

universe u

variable {α : Type u} [LinearOrder α]

/-- The items with the last one first. -/
def lastFirst (items : List α) : List α :=
  (items.mergeSort fun a b => decide (a ≤ b)).reverse

theorem perm_lastFirst (items : List α) : (lastFirst items).Perm items :=
  (List.reverse_perm _).trans (List.mergeSort_perm items _)

theorem pairwise_lastFirst {items : List α} (nodup : items.Nodup) :
    (lastFirst items).Pairwise fun a b => b < a := by
  have sorted : (items.mergeSort fun a b => decide (a ≤ b)).Pairwise fun a b =>
      decide (a ≤ b) = true :=
    List.pairwise_mergeSort (by simpa using fun a b c => le_trans) (by simpa using le_total) items
  have distinct : (items.mergeSort fun a b => decide (a ≤ b)).Nodup :=
    (List.mergeSort_perm items _).nodup_iff.mpr nodup
  rw [lastFirst, List.pairwise_reverse]
  refine (sorted.and distinct).imp ?_
  rintro a b ⟨le, ne⟩
  exact lt_of_le_of_ne (of_decide_eq_true le) ne

/-- The number of items greater than a bound. -/
def countGreater (bound : α) (items : List α) : Nat :=
  items.countP fun item => decide (bound < item)

theorem countGreater_perm (bound : α) {items others : List α} (perm : items.Perm others) :
    countGreater bound items = countGreater bound others :=
  perm.countP_eq _

theorem countGreater_append (bound : α) (items others : List α) :
    countGreater bound (items ++ others) = countGreater bound items + countGreater bound others :=
  List.countP_append

theorem countGreater_cons (bound first : α) (rest : List α) :
    countGreater bound (first :: rest) =
      countGreater bound rest + if bound < first then 1 else 0 := by
  simp [countGreater, List.countP_cons]

/-- In a falling list the items greater than a bound are in front. -/
theorem countGreater_take {items : List α} (falling : items.Pairwise fun a b => b < a) {bound : α}
    {n : Nat} (many : n ≤ countGreater bound items) : n ≤ countGreater bound (items.take n) := by
  induction items generalizing n with
  | nil => exact many.trans (Nat.zero_le _)
  | cons first rest ih =>
      cases n with
      | zero => exact Nat.zero_le _
      | succ n =>
          obtain ⟨below, falling⟩ := List.pairwise_cons.mp falling
          rw [List.take_succ_cons, countGreater_cons]
          rw [countGreater_cons] at many
          by_cases greater : bound < first
          · rw [if_pos greater] at many ⊢
            exact Nat.succ_le_succ (ih falling (Nat.le_of_succ_le_succ many))
          · have none : countGreater bound rest = 0 := by
              rw [countGreater, List.countP_eq_zero]
              intro item member
              have less := below item member
              simp only [decide_eq_true_eq, not_lt]
              exact less.le.trans (not_lt.mp greater)
            rw [if_neg greater, none] at many
            contradiction

/-- An item that is cut off has as many greater items in front. -/
theorem countGreater_of_mem_drop {items : List α} (falling : items.Pairwise fun a b => b < a)
    {item : α} {n : Nat} (dropped : item ∈ items.drop n) : n ≤ countGreater item items := by
  induction items generalizing n with
  | nil => simp at dropped
  | cons first rest ih =>
      cases n with
      | zero => exact Nat.zero_le _
      | succ n =>
          obtain ⟨below, falling⟩ := List.pairwise_cons.mp falling
          rw [List.drop_succ_cons] at dropped
          have less := below item (List.mem_of_mem_drop dropped)
          rw [countGreater_cons, if_pos less]
          exact Nat.succ_le_succ (ih falling dropped)

/-! ## What is kept -/

/-- The items that are not cut off, in their order. -/
def keepGreatest (n : Nat) (items : List α) : List α :=
  items.filter fun item => decide (item ∉ (lastFirst items).drop n)

theorem perm_keepGreatest {items : List α} (nodup : items.Nodup) (n : Nat) :
    (keepGreatest n items).Perm ((lastFirst items).take n) := by
  have distinct : (lastFirst items).Nodup := (perm_lastFirst items).nodup_iff.mpr nodup
  rw [← List.take_append_drop n (lastFirst items)] at distinct
  have disjoint := List.disjoint_of_nodup_append distinct
  have front : ((lastFirst items).take n).filter (fun item =>
      decide (item ∉ (lastFirst items).drop n)) = (lastFirst items).take n := by
    rw [List.filter_eq_self]
    intro item member
    exact decide_eq_true (disjoint member)
  have back : ((lastFirst items).drop n).filter (fun item =>
      decide (item ∉ (lastFirst items).drop n)) = [] := by
    rw [List.filter_eq_nil_iff]
    intro item member
    simpa using member
  have cut : ((lastFirst items).filter fun item => decide (item ∉ (lastFirst items).drop n)) =
      (lastFirst items).take n := by
    calc (lastFirst items).filter (fun item => decide (item ∉ (lastFirst items).drop n))
        = ((lastFirst items).take n ++ (lastFirst items).drop n).filter
            (fun item => decide (item ∉ (lastFirst items).drop n)) := by
          rw [List.take_append_drop]
      _ = (lastFirst items).take n := by
          rw [List.filter_append, front, back, List.append_nil]
  rw [← cut]
  exact ((perm_lastFirst items).filter _).symm

/-- At most so many are kept. -/
theorem length_keepGreatest_le {items : List α} (nodup : items.Nodup) (n : Nat) :
    (keepGreatest n items).length ≤ n := by
  rw [(perm_keepGreatest nodup n).length_eq, List.length_take]
  exact Nat.min_le_left _ _

/-- Where enough items are greater than a bound, enough of those kept are. -/
theorem countGreater_keepGreatest {items : List α} (nodup : items.Nodup) {bound : α} {n : Nat}
    (many : n ≤ countGreater bound items) : n ≤ countGreater bound (keepGreatest n items) := by
  rw [countGreater_perm bound (perm_keepGreatest nodup n)]
  apply countGreater_take (pairwise_lastFirst nodup)
  rw [countGreater_perm bound (perm_lastFirst items)]
  exact many

/-- What is cut off has so many greater items among those kept. -/
theorem countGreater_of_not_mem_keepGreatest {items : List α} (nodup : items.Nodup) {item : α}
    {n : Nat} (member : item ∈ items) (cut : item ∉ keepGreatest n items) :
    n ≤ countGreater item (keepGreatest n items) := by
  apply countGreater_keepGreatest nodup
  rw [← countGreater_perm item (perm_lastFirst items)]
  apply countGreater_of_mem_drop (pairwise_lastFirst nodup)
  by_contra kept
  exact cut (List.mem_filter.mpr ⟨member, decide_eq_true kept⟩)

end ZcashSoloPool.Collections
