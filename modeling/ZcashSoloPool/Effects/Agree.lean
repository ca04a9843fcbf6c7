import ZcashSoloPool.Effects.Atomic
import Mathlib.Data.List.Forall2

/-!
# Two accounts of one computation

Two computations agree up to a relation when both throw, each with an error of
its own, or both return, related values.  The rules follow a computation
statement by statement.  An action that first computes what it may throw and
then changes its state is known by that computation.
-/

namespace ZcashSoloPool.Effects

universe u v w

/-! ## Computations -/

section Computations

variable {ε α β : Type u} {δ γ κ : Type v}

/-- Both throw, or both return related values. -/
inductive Agree (R : α → γ → Prop) : Except ε α → Except δ γ → Prop
  | returned {value : α} {other : γ} (related : R value other) : Agree R (.ok value) (.ok other)
  | threw (error : ε) (otherError : δ) : Agree R (.error error) (.error otherError)

theorem Agree.of_ok {R : α → γ → Prop} {computed : Except ε α} {other : γ}
    (agree : Agree R computed (.ok other : Except δ γ)) :
    ∃ value, computed = .ok value ∧ R value other := by
  cases agree with
  | returned related => exact ⟨_, rfl, related⟩

theorem Agree.of_error {R : α → γ → Prop} {computed : Except ε α} {otherError : δ}
    (agree : Agree R computed (.error otherError : Except δ γ)) :
    ∃ error, computed = .error error := by
  cases agree with
  | threw error otherError => exact ⟨error, rfl⟩

/-- Two computations in a row. -/
theorem Agree.bind {R : α → γ → Prop} {S : β → κ → Prop} {first : Except ε α}
    {otherFirst : Except δ γ} {second : α → Except ε β} {otherSecond : γ → Except δ κ}
    (agree : Agree R first otherFirst)
    (later : ∀ value other, R value other → Agree S (second value) (otherSecond other)) :
    Agree S (first >>= second) (otherFirst >>= otherSecond) := by
  cases agree with
  | returned related => exact later _ _ related
  | threw error otherError => exact Agree.threw error otherError

/-- The same test on both sides. -/
theorem Agree.ite {R : α → γ → Prop} {test otherTest : Prop} [Decidable test] [Decidable otherTest]
    {yes no : Except ε α} {otherYes otherNo : Except δ γ} (same : test ↔ otherTest)
    (ifTrue : otherTest → Agree R yes otherYes) (ifFalse : ¬otherTest → Agree R no otherNo) :
    Agree R (if test then yes else no) (if otherTest then otherYes else otherNo) := by
  by_cases holds : otherTest
  · rw [if_pos (same.mpr holds), if_pos holds]
    exact ifTrue holds
  · rw [if_neg (mt same.mp holds), if_neg holds]
    exact ifFalse holds

/-- A loop over related elements. -/
theorem Agree.mapM {A : Type u} {C : Type v} {P : A → C → Prop} {R : α → γ → Prop}
    {f : A → Except ε α} {g : C → Except δ γ} {elements : List A} {others : List C}
    (related : List.Forall₂ P elements others)
    (each : ∀ element other, P element other → Agree R (f element) (g other)) :
    Agree (List.Forall₂ R) (elements.mapM f) (others.mapM g) := by
  induction related with
  | nil => exact Agree.returned List.Forall₂.nil
  | cons first _ ih =>
      rw [List.mapM_cons, List.mapM_cons]
      refine Agree.bind (each _ _ first) fun value other head => ?_
      refine Agree.bind ih fun values otherValues tail => ?_
      exact Agree.returned (List.Forall₂.cons head tail)

end Computations

/-! ## Actions that only throw -/

section Lifted

variable {ε σ α β : Type u}

@[simp]
theorem ok_bind (value : α) (later : α → Except ε β) : (.ok value >>= later) = later value :=
  rfl

@[simp]
theorem lift_pure (value : α) : (lift (pure value) : EStateM ε σ α) = pure value :=
  rfl

@[simp]
theorem lift_bind (first : Except ε α) (second : α → Except ε β) :
    (lift (first >>= second) : EStateM ε σ β) =
      lift first >>= fun value => lift (second value) := by
  cases first with
  | ok value => rfl
  | error error => rfl

end Lifted

end ZcashSoloPool.Effects
