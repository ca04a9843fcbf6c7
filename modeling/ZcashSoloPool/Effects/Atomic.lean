import Mathlib.Order.Defs.Unbundled

/-!
# Actions that may throw

An action reads and changes a state and returns a value or throws; what it
changed before it threw stays changed.  An action is atomic up to a relation
when a throw leaves a state related to the first one.  The rules follow the
order of the statements: a prefix that only moves the state along the relation
may throw, and from the first other change on nothing may throw any more.
-/

namespace ZcashSoloPool.Effects

universe u

variable {ε σ α β : Type u}

/-- The state in which an action ends, by a return or by a throw. -/
def final (action : EStateM ε σ α) (state : σ) : σ :=
  match action state with
  | .ok _ target => target
  | .error _ target => target

/-- However it ends, the action moves the state along the relation. -/
def Moves (R : σ → σ → Prop) (action : EStateM ε σ α) : Prop :=
  ∀ state, R state (final action state)

/-- The action leaves the state as it is. -/
abbrev Reads (action : EStateM ε σ α) : Prop :=
  Moves Eq action

/-- The action does not throw. -/
def Completes (action : EStateM ε σ α) : Prop :=
  ∀ state, ∃ value target, action state = .ok value target

/-- A throw leaves a related state. -/
def Atomic (R : σ → σ → Prop) (action : EStateM ε σ α) : Prop :=
  ∀ state error target, action state = .error error target → R state target

/-- Whatever the action returns meets the postcondition together with the state. -/
def Ensures (action : EStateM ε σ α) (Q : α → σ → Prop) : Prop :=
  ∀ state value target, action state = .ok value target → Q value target

/-! ## Two actions in a row -/

theorem bind_ok {first : EStateM ε σ α} {second : α → EStateM ε σ β} {state middle : σ} {value : α}
    (returned : first state = .ok value middle) :
    (first >>= second) state = second value middle := by
  change EStateM.bind first second state = _
  rw [EStateM.bind, returned]

theorem bind_error {first : EStateM ε σ α} {second : α → EStateM ε σ β} {state middle : σ}
    {error : ε} (threw : first state = .error error middle) :
    (first >>= second) state = .error error middle := by
  change EStateM.bind first second state = _
  rw [EStateM.bind, threw]

/-- A throw of two actions in a row is one of the first, or one of the second
after the first has returned. -/
theorem bind_eq_error {first : EStateM ε σ α} {second : α → EStateM ε σ β} {state target : σ}
    {error : ε} (threw : (first >>= second) state = .error error target) :
    first state = .error error target ∨
      ∃ value middle, first state = .ok value middle ∧
        second value middle = .error error target := by
  cases outcome : first state with
  | ok value middle =>
      rw [bind_ok outcome] at threw
      exact Or.inr ⟨value, middle, rfl, threw⟩
  | error other middle =>
      rw [bind_error outcome] at threw
      cases threw
      exact Or.inl rfl

theorem bind_eq_ok {first : EStateM ε σ α} {second : α → EStateM ε σ β} {state target : σ}
    {result : β} (returned : (first >>= second) state = .ok result target) :
    ∃ value middle, first state = .ok value middle ∧ second value middle = .ok result target := by
  cases outcome : first state with
  | ok value middle =>
      rw [bind_ok outcome] at returned
      exact ⟨value, middle, rfl, returned⟩
  | error error middle =>
      rw [bind_error outcome] at returned
      cases returned

/-! ## Single actions -/

theorem Moves.of_ok {R : σ → σ → Prop} {action : EStateM ε σ α} (moves : Moves R action)
    {state target : σ} {value : α} (returned : action state = .ok value target) :
    R state target := by
  have moved := moves state
  rwa [final, returned] at moved

theorem Moves.atomic {R : σ → σ → Prop} {action : EStateM ε σ α} (moves : Moves R action) :
    Atomic R action := by
  intro state error target threw
  have moved := moves state
  rwa [final, threw] at moved

theorem reads_pure (value : α) : Reads (pure value : EStateM ε σ α) :=
  fun _ => rfl

theorem reads_throw (error : ε) : Reads (throw error : EStateM ε σ α) :=
  fun _ => rfl

theorem reads_get : Reads (get : EStateM ε σ σ) :=
  fun _ => rfl

/-- A computation that may throw and knows no state. -/
def lift (outcome : Except ε α) : EStateM ε σ α :=
  match outcome with
  | .ok value => pure value
  | .error error => throw error

theorem reads_lift (outcome : Except ε α) : Reads (lift outcome : EStateM ε σ α) := by
  cases outcome with
  | ok value => exact reads_pure value
  | error error => exact reads_throw error

theorem completes_pure (value : α) : Completes (pure value : EStateM ε σ α) :=
  fun state => ⟨value, state, rfl⟩

theorem completes_modify (change : σ → σ) :
    Completes (modify change : EStateM ε σ PUnit) :=
  fun state => ⟨⟨⟩, change state, rfl⟩

theorem Completes.atomic {R : σ → σ → Prop} {action : EStateM ε σ α}
    (completes : Completes action) : Atomic R action := by
  intro state error target threw
  obtain ⟨value, other, returned⟩ := completes state
  rw [returned] at threw
  cases threw

/-! ## Rules for sequences -/

theorem Completes.bind {first : EStateM ε σ α} {second : α → EStateM ε σ β}
    (completes : Completes first) (later : ∀ value, Completes (second value)) :
    Completes (first >>= second) := by
  intro state
  obtain ⟨value, middle, returned⟩ := completes state
  rw [bind_ok returned]
  exact later value middle

/-- Before the first change: what has been read so far is undone by itself. -/
theorem Reads.bind_atomic {R : σ → σ → Prop} [Std.Refl R] {first : EStateM ε σ α}
    {second : α → EStateM ε σ β} (reads : Reads first)
    (later : ∀ value, Atomic R (second value)) : Atomic R (first >>= second) := by
  intro state error target threw
  rcases bind_eq_error threw with early | ⟨value, middle, returned, late⟩
  · have same : state = target := reads.atomic state error target early
    subst same
    exact Std.Refl.refl state
  · have same : state = middle := reads.of_ok returned
    subst same
    exact later value state error target late

/-- A change that an error is allowed to leave behind. -/
theorem Moves.bind_atomic {R : σ → σ → Prop} {first : EStateM ε σ α}
    {second : α → EStateM ε σ β} (moves : Moves R first)
    (later : ∀ value, Atomic Eq (second value)) : Atomic R (first >>= second) := by
  intro state error target threw
  rcases bind_eq_error threw with early | ⟨value, middle, returned, late⟩
  · exact moves.atomic state error target early
  · have same : middle = target := later value middle error target late
    subst same
    exact moves.of_ok returned

/-- What the last action ensures, the sequence ensures. -/
theorem Ensures.bind {Q : β → σ → Prop} {first : EStateM ε σ α} {second : α → EStateM ε σ β}
    (later : ∀ value, Ensures (second value) Q) : Ensures (first >>= second) Q := by
  intro state result target returned
  obtain ⟨value, middle, _, late⟩ := bind_eq_ok returned
  exact later value middle result target late

end ZcashSoloPool.Effects
