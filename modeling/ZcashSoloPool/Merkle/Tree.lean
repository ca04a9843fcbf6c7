import Mathlib.Data.Nat.Log

/-!
# Merkle trees over lists

A tree node is named by its height and its position at that height.  Its right
child is its left child again where the level below has no further node.  The
procedure that pairs up a whole level at a time, until one node is left,
computes the node at the top.
-/

namespace ZcashSoloPool.Merkle

universe u

variable {α : Type u} (combine : α → α → α)

/-- The node at a height and a position, if the leaves reach that far. -/
def node (leaves : List α) : Nat → Nat → Option α
  | 0, position => leaves[position]?
  | height + 1, position => do
      let left ← node leaves height (2 * position)
      pure (combine left ((node leaves height (2 * position + 1)).getD left))

/-- The node above all leaves. -/
def root (leaves : List α) : Option α :=
  node combine leaves (Nat.clog 2 leaves.length) 0

variable {combine} in
/-- What holds of the leaves and is kept by pairing holds of every node. -/
theorem node_of_forall {P : α → Prop} {leaves : List α} (leafHolds : ∀ leaf ∈ leaves, P leaf)
    (kept : ∀ left right, P left → P right → P (combine left right)) {height position : Nat}
    {top : α} (found : node combine leaves height position = some top) : P top := by
  induction height generalizing position top with
  | zero => exact leafHolds top (List.mem_of_getElem? found)
  | succ height ih =>
      rcases Option.bind_eq_some_iff.mp found with ⟨left, leftEq, paired⟩
      cases paired
      have leftHolds := ih leftEq
      cases right : node combine leaves height (2 * position + 1) with
      | none => exact kept left left leftHolds leftHolds
      | some other => exact kept left other leftHolds (ih right)

/-- The level above a level. -/
def pairLayer : List α → List α
  | left :: right :: rest => combine left right :: pairLayer rest
  | [left] => [combine left left]
  | [] => []

/-- Pair up levels while more than one node is left; the first argument bounds
the number of levels. -/
def reduce : Nat → List α → List α
  | 0, layer => layer
  | fuel + 1, layer => if layer.length > 1 then reduce fuel (pairLayer combine layer) else layer

theorem length_pairLayer (layer : List α) :
    (pairLayer combine layer).length = (layer.length + 1) / 2 := by
  induction layer using pairLayer.induct with
  | case1 left right rest ih =>
      simp only [pairLayer, List.length_cons, ih]
      omega
  | case2 left => simp [pairLayer]
  | case3 => simp [pairLayer]

/-- A node of the level above is paired from two neighbours. -/
theorem getElem?_pairLayer (layer : List α) (position : Nat) :
    (pairLayer combine layer)[position]? =
      (layer[2 * position]?).map fun left =>
        combine left ((layer[2 * position + 1]?).getD left) := by
  induction layer using pairLayer.induct generalizing position with
  | case1 left right rest ih =>
      cases position with
      | zero => rfl
      | succ position =>
          have twice : 2 * (position + 1) = 2 * position + 1 + 1 := by omega
          rw [pairLayer, List.getElem?_cons_succ, ih, twice]
          simp only [List.getElem?_cons_succ]
  | case2 left =>
      cases position with
      | zero => rfl
      | succ position =>
          rw [show 2 * (position + 1) = 2 * position + 1 + 1 by omega]
          simp [pairLayer]
  | case3 => simp [pairLayer]

/-- The nodes over the level above are the nodes one height up. -/
theorem node_pairLayer (leaves : List α) (height position : Nat) :
    node combine (pairLayer combine leaves) height position =
      node combine leaves (height + 1) position := by
  induction height generalizing position with
  | zero =>
      rw [node, getElem?_pairLayer]
      simp only [node]
      cases leaves[2 * position]? <;> rfl
  | succ height ih =>
      rw [node, ih, ih]
      rfl

theorem root_pairLayer {leaves : List α} (more : 1 < leaves.length) :
    root combine (pairLayer combine leaves) = root combine leaves := by
  rw [root, root, length_pairLayer, node_pairLayer, Nat.clog_of_two_le (by decide) more]
  rfl

/-- Pairing up levels ends in the root of the tree. -/
theorem reduce_eq_root {fuel : Nat} {leaves : List α} (nonempty : leaves ≠ [])
    (enough : leaves.length ≤ fuel + 1) :
    ∃ top, reduce combine fuel leaves = [top] ∧ root combine leaves = some top := by
  induction fuel generalizing leaves with
  | zero =>
      obtain ⟨leaf, rfl⟩ := List.length_eq_one_iff.mp
        (Nat.le_antisymm enough (List.length_pos_iff.mpr nonempty))
      exact ⟨leaf, rfl, by simp [root, node]⟩
  | succ fuel ih =>
      rw [reduce]
      split
      · next more =>
          have length := length_pairLayer combine leaves
          have above : pairLayer combine leaves ≠ [] := by
            rw [← List.length_pos_iff, length]
            omega
          rcases ih above (by rw [length]; omega) with ⟨top, reduced, topEq⟩
          exact ⟨top, reduced, by rw [← root_pairLayer combine more, topEq]⟩
      · next few =>
          obtain ⟨leaf, rfl⟩ := List.length_eq_one_iff.mp
            (Nat.le_antisymm (Nat.le_of_not_lt few) (List.length_pos_iff.mpr nonempty))
          exact ⟨leaf, rfl, by simp [root, node]⟩

end ZcashSoloPool.Merkle
