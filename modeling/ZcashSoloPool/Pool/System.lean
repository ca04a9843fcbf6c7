import ZcashSoloPool.Pool.UpdateJob
import ZcashSoloPool.WorkManager.JobTable

/-!
# The pool's job updates

The serialised updates together with the work manager they drive.  The only
caller of `generateJob` is the loop of `updateJob`: an attempt is started with
its flag, and it takes effect on the job table when the node's template
arrives.  An issued job is broadcast in the same turn.
-/

namespace ZcashSoloPool.Pool

open ZcashSoloPool.JavaScript
open ZcashSoloPool.Transition
open ZcashSoloPool.WorkManager (BlockTemplate Externals History Job generateJob)

/-- The pool: who waits for updates, and the work manager with the jobs that
were broadcast. -/
structure State where
  updates : Updates
  history : History

/-- What the event loop may do next. -/
inductive Event where
  | updateJob (requestedClean : Bool)
  /-- The template of the attempt in flight arrives, or its request fails. -/
  | answered (reply : Except String (Option BlockTemplate))
  | resume (caller : Nat)

namespace State

/-- Before the first call. -/
def initial (walletAddress poolTarget : Text) : State :=
  ⟨.initial, .initial walletAddress poolTarget⟩

/-- The flag of the attempt that was started last. -/
def forceClean (pool : State) : Bool :=
  pool.updates.attempts.getLastD false

/-- The outcome of the attempt in flight on a reply. -/
def outcome (deps : Externals) (pool : State) (reply : Except String (Option BlockTemplate)) :
    WorkManager × Except String Job :=
  generateJob deps pool.history.manager pool.forceClean reply

/-- The turn in which `generateJob` returns or throws. -/
def answered (deps : Externals) (pool : State) (reply : Except String (Option BlockTemplate))
    (worker : Nat) : State where
  updates :=
    match (pool.outcome deps reply).2 with
    | .ok _ => pool.updates.generated worker
    | .error _ => pool.updates.failed
  history := pool.history.record (pool.outcome deps reply)

/-- The event loop. -/
def next (deps : Externals) : Next State Event
  | pool, .updateJob requestedClean =>
      some { pool with updates := pool.updates.updateJob requestedClean }
  | pool, .answered reply => pool.updates.running.map fun worker => pool.answered deps reply worker
  | pool, .resume caller =>
      (Updates.next pool.updates (.resume caller)).map fun updates =>
        { pool with updates := updates }

/-- The event of the update serialiser behind an event of the pool. -/
def updateEvent (deps : Externals) (pool : State) : Event → UpdateEvent
  | .updateJob requestedClean => .updateJob requestedClean
  | .answered reply =>
      match (pool.outcome deps reply).2 with
      | .ok _ => .generated
      | .error _ => .failed
  | .resume caller => .resume caller

/-- Seen from its callers, the pool is the update serialiser. -/
theorem next_updates {deps : Externals} {pool target : State} {event : Event}
    (step : next deps pool event = some target) :
    Updates.next pool.updates (pool.updateEvent deps event) = some target.updates := by
  cases event with
  | updateJob requestedClean =>
      cases step
      rfl
  | answered reply =>
      obtain ⟨worker, running, rfl⟩ := Option.map_eq_some_iff.mp step
      simp only [updateEvent, answered]
      cases (pool.outcome deps reply).2 <;> simp [Updates.next, running]
  | resume caller =>
      obtain ⟨updates, resumed, rfl⟩ := Option.map_eq_some_iff.mp step
      exact resumed

/-- In a run of the pool whose steps lose no update, every caller that has
continued was served. -/
theorem resolved_calls_served {deps : Externals} {pool target : State} {events : List Event}
    (timely : Throughout (next deps)
      (fun pool event => LosesNothing pool.updates (pool.updateEvent deps event)) pool events)
    (initially : Kept pool.updates) (reached : run (next deps) pool events = some target) :
    NoLostUpdate target.updates := by
  have kept : Kept target.updates := by
    refine timely.invariant (fun pool => Kept pool.updates) ?_ initially reached
    intro source target event kept timely step
    exact kept.next timely (next_updates step)
  exact kept.noLostUpdate

/-- Seen from the job table, the pool makes one call of the work manager or
none. -/
theorem next_history {deps : Externals} {pool target : State} {event : Event}
    (step : next deps pool event = some target) :
    target.history = pool.history ∨
      ∃ reply, event = .answered reply ∧
        target.history = pool.history.perform deps (.generateJob pool.forceClean reply) := by
  cases event with
  | updateJob requestedClean =>
      cases step
      exact Or.inl rfl
  | answered reply =>
      obtain ⟨worker, running, rfl⟩ := Option.map_eq_some_iff.mp step
      exact Or.inr ⟨reply, rfl, rfl⟩
  | resume caller =>
      obtain ⟨updates, resumed, rfl⟩ := Option.map_eq_some_iff.mp step
      exact Or.inl rfl

/-- The job table keeps its invariant. -/
theorem invariant_next {deps : Externals} {pool target : State} {event : Event}
    (inv : pool.history.Invariant) (step : next deps pool event = some target) :
    target.history.Invariant := by
  rcases next_history step with same | ⟨reply, _, called⟩
  · rw [same]
    exact inv
  · rw [called]
    exact inv.perform _

end State

end ZcashSoloPool.Pool
