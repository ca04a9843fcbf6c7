import Mathlib.Data.Option.Basic
import Mathlib.Data.List.Basic

/-!
# Runs of labelled partial transitions

A component that reacts to events is a function from a state and an event to
the next state, undefined where the event is not enabled.  A run performs a
list of events.  Invariants, laws that every step of a run obeys, and laws that
relate two moments of a run are derived here once for all components.
-/

namespace ZcashSoloPool.Transition

universe u v

/-- One reaction; `none` where the event is not enabled. -/
abbrev Next (State : Type u) (Event : Type v) :=
  State → Event → Option State

variable {State : Type u} {Event : Type v} (next : Next State Event)

/-- Perform events in order. -/
def run : State → List Event → Option State
  | state, [] => some state
  | state, event :: rest => (next state event).bind fun target => run target rest

@[simp]
theorem run_nil (state : State) : run next state [] = some state :=
  rfl

theorem run_cons (state : State) (event : Event) (rest : List Event) :
    run next state (event :: rest) = (next state event).bind fun target => run next target rest :=
  rfl

theorem run_append (start : State) (first second : List Event) :
    run next start (first ++ second) =
      (run next start first).bind fun middle => run next middle second := by
  induction first generalizing start with
  | nil => rfl
  | cons event rest ih =>
      rw [List.cons_append, run_cons, run_cons, Option.bind_assoc]
      exact congrArg _ (funext fun target => ih target)

/-- Every step of the run obeys a law on the state before it and its event. -/
def Throughout (law : State → Event → Prop) : State → List Event → Prop
  | _, [] => True
  | state, event :: rest =>
      law state event ∧ ∀ target, next state event = some target → Throughout law target rest

instance Throughout.decidable (law : State → Event → Prop)
    [∀ state event, Decidable (law state event)] :
    ∀ state events, Decidable (Throughout next law state events)
  | _, [] => isTrue trivial
  | state, event :: rest =>
      match step : next state event with
      | none => decidable_of_iff (law state event) (by simp [Throughout, step])
      | some target =>
          have := Throughout.decidable law target rest
          decidable_of_iff (law state event ∧ Throughout next law target rest)
            (by simp [Throughout, step])

variable {next}

/-- A lawful run is lawful up to any moment and from it on. -/
theorem throughout_append {law : State → Event → Prop} {start : State} {first second : List Event} :
    Throughout next law start (first ++ second) ↔
      Throughout next law start first ∧
        ∀ middle, run next start first = some middle → Throughout next law middle second := by
  induction first generalizing start with
  | nil => simp [Throughout]
  | cons event rest ih =>
      simp only [List.cons_append, Throughout, ih, run_cons, Option.bind_eq_some_iff, and_assoc]
      refine and_congr_right fun _ => ⟨fun later => ?_, fun later target step => ?_⟩
      · exact ⟨fun target step => (later target step).1, fun middle ⟨target, step, reached⟩ =>
          (later target step).2 middle reached⟩
      · exact ⟨later.1 target step, fun middle reached => later.2 middle ⟨target, step, reached⟩⟩

/-- A run is lawful where every step is, in the state that the run before it
reaches. -/
theorem throughout_iff_forall {law : State → Event → Prop} {start : State} {events : List Event} :
    Throughout next law start events ↔ ∀ before event after middle,
      events = before ++ event :: after → run next start before = some middle →
        law middle event := by
  constructor
  · rintro obeyed before event after middle rfl reached
    exact ((throughout_append.mp obeyed).2 middle reached).1
  · intro each
    induction events generalizing start with
    | nil => exact trivial
    | cons event rest ih =>
        refine ⟨each [] event rest start rfl rfl, fun target step => ih ?_⟩
        rintro before later after middle rfl reached
        refine each (event :: before) later after middle rfl ?_
        rw [run_cons, step, Option.bind_some, reached]

/-- An invariant that lawful steps keep holds at the end of a lawful run. -/
theorem Throughout.invariant {law : State → Event → Prop} (Inv : State → Prop)
    (preserved : ∀ {state target : State} {event : Event}, Inv state → law state event →
      next state event = some target → Inv target)
    {start target : State} {events : List Event} (obeyed : Throughout next law start events)
    (initially : Inv start) (reached : run next start events = some target) : Inv target := by
  induction events generalizing start with
  | nil =>
      cases reached
      exact initially
  | cons event rest ih =>
      rcases Option.bind_eq_some_iff.mp reached with ⟨middle, first, later⟩
      exact ih (obeyed.2 middle first) (preserved initially obeyed.1 first) later

/-- An invariant that every step keeps holds at the end of every run. -/
theorem run_invariant (Inv : State → Prop)
    (preserved : ∀ {state target : State} {event : Event}, Inv state →
      next state event = some target → Inv target)
    {start target : State} {events : List Event} (initially : Inv start)
    (reached : run next start events = some target) : Inv target := by
  induction events generalizing start with
  | nil =>
      cases reached
      exact initially
  | cons event rest ih =>
      rcases Option.bind_eq_some_iff.mp reached with ⟨middle, first, later⟩
      exact ih (preserved initially first) later

/-- Two laws that agree wherever the invariant holds are obeyed by the same
runs. -/
theorem throughout_iff (Inv : State → Prop)
    (preserved : ∀ {state target : State} {event : Event}, Inv state →
      next state event = some target → Inv target)
    {left right : State → Event → Prop}
    (agree : ∀ state event, Inv state → (left state event ↔ right state event))
    {start : State} (initially : Inv start) (events : List Event) :
    Throughout next left start events ↔ Throughout next right start events := by
  induction events generalizing start with
  | nil => exact Iff.rfl
  | cons event rest ih =>
      exact and_congr (agree start event initially)
        (forall_congr' fun target => forall_congr' fun step => ih (preserved initially step))

/-- Where a bad step destroys a property for good, a run that ends with the
property had good steps only. -/
theorem throughout_of_good {good : State → Event → Prop} (Inv Good : State → Prop)
    (preserved : ∀ {state target : State} {event : Event}, Inv state →
      next state event = some target → Inv target)
    (broken : ∀ {state target : State} {event : Event}, Inv state → ¬good state event →
      next state event = some target → ¬Good target)
    (gone : ∀ {state target : State} {event : Event}, ¬Good state →
      next state event = some target → ¬Good target)
    {start target : State} {events : List Event} (inv : Inv start)
    (reached : run next start events = some target) (ending : Good target) :
    Throughout next good start events := by
  induction events generalizing start with
  | nil => exact trivial
  | cons event rest ih =>
      rcases Option.bind_eq_some_iff.mp reached with ⟨middle, first, later⟩
      refine ⟨?_, fun target step => ?_⟩
      · by_contra bad
        exact run_invariant (fun state => ¬Good state) gone (broken inv bad first) later ending
      · rw [first] at step
        cases step
        exact ih (preserved inv first) later

/-- A property that the good steps keep and that the other steps destroy for
good holds at the end of a run exactly when all its steps were good. -/
theorem iff_of_permanent {good : State → Event → Prop} (Inv Good : State → Prop)
    (preserved : ∀ {state target : State} {event : Event}, Inv state →
      next state event = some target → Inv target)
    (kept : ∀ {state target : State} {event : Event}, Inv state → Good state → good state event →
      next state event = some target → Good target)
    (broken : ∀ {state target : State} {event : Event}, Inv state → ¬good state event →
      next state event = some target → ¬Good target)
    (gone : ∀ {state target : State} {event : Event}, ¬Good state →
      next state event = some target → ¬Good target)
    {start target : State} {events : List Event} (inv : Inv start) (initially : Good start)
    (reached : run next start events = some target) :
    Good target ↔ Throughout next good start events := by
  constructor
  · exact throughout_of_good Inv Good preserved broken gone inv reached
  · intro throughout
    have both : Inv target ∧ Good target := throughout.invariant
      (fun state => Inv state ∧ Good state)
      (fun holds lawful step => ⟨preserved holds.1 step, kept holds.1 holds.2 lawful step⟩)
      ⟨inv, initially⟩ reached
    exact both.2

/-- A count that grows with each step that breaks the law is zero at the end of
exactly the lawful runs. -/
theorem count_eq_zero_iff {law : State → Event → Prop} (count : State → Nat)
    (counted : ∀ {state target : State} {event : Event}, next state event = some target →
      (law state event ∧ count target = count state) ∨
        (¬law state event ∧ count target = count state + 1))
    {start target : State} {events : List Event} (initially : count start = 0)
    (reached : run next start events = some target) :
    count target = 0 ↔ Throughout next law start events := by
  refine iff_of_permanent (fun _ => True) (fun state => count state = 0) (fun _ _ => trivial)
    ?_ ?_ ?_ trivial initially reached
  · intro state target event _ none lawful step
    rcases counted step with ⟨_, same⟩ | ⟨broken, _⟩
    · exact same.trans none
    · exact absurd lawful broken
  · intro state target event _ broken step
    rcases counted step with ⟨lawful, _⟩ | ⟨_, more⟩
    · exact absurd lawful broken
    · rw [more]
      exact Nat.succ_ne_zero _
  · intro state target event some step
    rcases counted step with ⟨_, same⟩ | ⟨_, more⟩
    · rw [same]
      exact some
    · rw [more]
      exact Nat.succ_ne_zero _

/-- Where the law of a step decides whether a good state stays good, a run passes
through good states only exactly when its steps obey the law. -/
theorem forall_reached_iff {law : State → Event → Prop} (Inv Good : State → Prop)
    (preserved : ∀ {state target : State} {event : Event}, Inv state →
      next state event = some target → Inv target)
    (decides : ∀ {state target : State} {event : Event}, Inv state → Good state →
      next state event = some target → (Good target ↔ law state event))
    {start target : State} {events : List Event} (inv : Inv start) (initially : Good start)
    (reached : run next start events = some target) :
    (∀ before after middle, events = before ++ after → run next start before = some middle →
      Good middle) ↔ Throughout next law start events := by
  induction events generalizing start with
  | nil =>
      refine iff_of_true ?_ trivial
      intro before after middle split passed
      obtain ⟨rfl, _⟩ := List.append_eq_nil_iff.mp split.symm
      cases passed
      exact initially
  | cons event rest ih =>
      rcases Option.bind_eq_some_iff.mp reached with ⟨second, first, later⟩
      have one := decides inv initially first
      constructor
      · intro everywhere
        have good : Good second := by
          apply everywhere [event] rest second rfl
          rw [run_cons, first]
          rfl
        refine ⟨one.mp good, ?_⟩
        intro other step
        cases first.symm.trans step
        apply (ih (preserved inv first) good later).mp
        rintro before after middle rfl passed
        apply everywhere (event :: before) after middle rfl
        rw [run_cons, first, Option.bind_some, passed]
      · rintro ⟨lawful, obeyed⟩
        have good := one.mpr lawful
        have others := (ih (preserved inv first) good later).mpr (obeyed second first)
        intro before after middle split passed
        cases before with
        | nil =>
            cases passed
            exact initially
        | cons head tail =>
            rw [List.cons_append, List.cons.injEq] at split
            rw [← split.1, run_cons, first, Option.bind_some] at passed
            exact others tail after middle split.2 passed

/-- A law that follows from another one wherever the invariant holds. -/
theorem Throughout.mono {assumed left right : State → Event → Prop} (Inv : State → Prop)
    (preserved : ∀ {state target : State} {event : Event}, Inv state → assumed state event →
      next state event = some target → Inv target)
    (implies : ∀ state event, Inv state → assumed state event → left state event →
      right state event)
    {start : State} {events : List Event} (obeyed : Throughout next assumed start events)
    (initially : Inv start) (throughout : Throughout next left start events) :
    Throughout next right start events := by
  induction events generalizing start with
  | nil => exact trivial
  | cons event rest ih =>
      exact ⟨implies start event initially obeyed.1 throughout.1, fun target step =>
        ih (obeyed.2 target step) (preserved initially obeyed.1 step) (throughout.2 target step)⟩

/-- Two laws together. -/
theorem Throughout.and {left right : State → Event → Prop} {start : State} {events : List Event}
    (leftObeyed : Throughout next left start events)
    (rightObeyed : Throughout next right start events) :
    Throughout next (fun state event => left state event ∧ right state event) start events := by
  induction events generalizing start with
  | nil => exact trivial
  | cons event rest ih =>
      exact ⟨⟨leftObeyed.1, rightObeyed.1⟩, fun target step =>
        ih (leftObeyed.2 target step) (rightObeyed.2 target step)⟩

/-- A law that holds of the given events in every state is obeyed by a run of
them. -/
theorem throughout_of_mem {law : State → Event → Prop} {events : List Event}
    (always : ∀ event ∈ events, ∀ state, law state event) (start : State) :
    Throughout next law start events := by
  induction events generalizing start with
  | nil => exact trivial
  | cons event rest ih =>
      exact ⟨always event List.mem_cons_self start, fun target _ =>
        ih (fun later member => always later (List.mem_cons_of_mem _ member)) target⟩

/-- A law that holds of every step is obeyed by every run. -/
theorem throughout_of_forall {law : State → Event → Prop} (always : ∀ state event, law state event)
    (start : State) (events : List Event) : Throughout next law start events :=
  throughout_of_mem (fun event _ state => always state event) start

/-! ## Reactions that are always enabled -/

/-- A reaction that every state has to every event. -/
def total (react : State → Event → State) : Next State Event :=
  fun state event => some (react state event)

theorem run_total (react : State → Event → State) (start : State) (events : List Event) :
    run (total react) start events = some (events.foldl react start) := by
  induction events generalizing start with
  | nil => rfl
  | cons event rest ih => exact ih (react start event)

/-- An invariant that every reaction keeps holds at the end of every run. -/
theorem foldl_invariant (react : State → Event → State) (Inv : State → Prop)
    (preserved : ∀ state event, Inv state → Inv (react state event)) {start : State}
    (initially : Inv start) (events : List Event) : Inv (events.foldl react start) := by
  refine run_invariant Inv (fun {state target event} inv step => ?_) initially
    (run_total react start events)
  cases step
  exact preserved state event inv

end ZcashSoloPool.Transition
