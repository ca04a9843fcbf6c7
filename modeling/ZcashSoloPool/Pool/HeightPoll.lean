import ZcashSoloPool.Pool.Announcements

/-!
# The height poll

Every two seconds the pool asks the node for its block count and forces a clean
job when the answer differs from the height of the current job.  The node
counts up to its tip, and its templates are for the block after the tip.  The
chain, the node's template on its way and the pool are one system here; next to
the pool it remembers the tip for which the template of the current job was
made.
-/

namespace ZcashSoloPool.Pool

open ZcashSoloPool.JavaScript
open ZcashSoloPool.Transition
open ZcashSoloPool.WorkManager (BlockTemplate Externals Job generateJob exists_generateJob
  accepted_of_generateJob packagesExample walletExample templateExample easiestTarget payingCoinbase
  accepted_payingCoinbase)

/-- The node's tip. -/
structure Tip where
  height : Nat
  hash : Text
  safe : height + 1 < 2 ^ 53
  deriving DecidableEq, Repr

/-- The reply of `getblockcount`. -/
def Tip.blockCount (tip : Tip) : Value :=
  .number ⟨tip.height, by have := tip.safe; omega⟩

/-- The height in the reply of `getblocktemplate`. -/
def Tip.templateHeight (tip : Tip) : Value :=
  .number ⟨tip.height + 1, by have := tip.safe; omega⟩

/-- The pool and its node. -/
structure Polled where
  pool : State
  tip : Tip
  /-- The template that is on its way, with the tip it was made for. -/
  made : Option (Tip × BlockTemplate)
  /-- The tip for which the template of the current job was made. -/
  fetched : Option Tip

/-- What may happen next.  A poll whose request fails does nothing. -/
inductive PollEvent where
  | tipChanged (tip : Tip)
  /-- A refresh, a found block or any other caller of `updateJob`. -/
  | updateJob (requestedClean : Bool)
  /-- The node makes the template that the attempt in flight has asked for. -/
  | templateMade (template : BlockTemplate)
  | templateArrived
  | templateFailed (message : String)
  | resume (caller : Nat)
  /-- The poll's request succeeds. -/
  | pollTick

namespace Polled

/-- Before the first call. -/
def initial (walletAddress poolTarget : Text) (tip : Tip) : Polled :=
  ⟨.initial walletAddress poolTarget, tip, none, none⟩

/-- A call of `updateJob`. -/
def requestUpdate (system : Polled) (requestedClean : Bool) : Polled :=
  { system with
    pool := { system.pool with updates := system.pool.updates.updateJob requestedClean } }

/-- The test `!curr || height !== curr.height` of the poll. -/
def differs (height : Value) (curr : Option Job) : Bool :=
  match curr with
  | some job => decide (height ≠ job.height)
  | none => true

/-- The body of the poll after its request. -/
def pollTick (system : Polled) : Polled :=
  if differs system.tip.blockCount system.pool.history.manager.currentJob then
    system.requestUpdate true
  else system

/-- The template arrives.  Where it becomes the current job, its tip is the one
to remember. -/
def arrive (deps : Externals) (system : Polled) (made : Tip × BlockTemplate) (target : State) :
    Polled :=
  { system with
    pool := target
    made := none
    fetched :=
      match (system.pool.outcome deps (.ok (some made.2))).2 with
      | .ok _ => some made.1
      | .error _ => system.fetched }

/-- The system of the chain, the node and the pool. -/
def next (deps : Externals) : Next Polled PollEvent
  | system, .tipChanged tip => some { system with tip := tip }
  | system, .updateJob requestedClean => some (system.requestUpdate requestedClean)
  | system, .templateMade template =>
      if system.pool.updates.running.isSome ∧ system.made = none ∧
          template.height = system.tip.templateHeight then
        some { system with made := some (system.tip, template) }
      else none
  | system, .templateArrived =>
      system.made.bind fun made =>
        (State.next deps system.pool (.answered (.ok (some made.2)))).map (system.arrive deps made)
  | system, .templateFailed message =>
      (State.next deps system.pool (.answered (.error message))).map fun pool =>
        { system with pool := pool, made := none }
  | system, .resume caller =>
      (State.next deps system.pool (.resume caller)).map fun pool => { system with pool := pool }
  | system, .pollTick => some system.pollTick

/-- What the poll is for: a tick changes nothing while the tip is the one of
the current job, and forces a clean update once the tip is higher. -/
structure ForcesOnNewTip (system : Polled) : Prop where
  quiet : system.fetched = some system.tip → system.pollTick = system
  forced : ∀ fetched, system.fetched = some fetched → fetched.height < system.tip.height →
    system.pollTick = system.requestUpdate true

/-- The law of the poll at one step. -/
def PollLaw (system : Polled) : PollEvent → Prop
  | .pollTick => system.ForcesOnNewTip
  | _ => True

/-- The poll meets a tip that is another block than the one of the current job
and not one block higher. -/
def TipFarOff (system : Polled) : PollEvent → Prop
  | .pollTick => ∀ fetched, system.fetched = some fetched →
      system.tip ≠ fetched ∧ system.tip.height ≠ fetched.height + 1
  | _ => True

/-! ## The current job and its tip -/

/-- The current job is for the block after the remembered tip, and so is the
template on its way for its own tip. -/
structure Invariant (system : Polled) : Prop where
  fetched : system.pool.history.manager.currentJob.map Job.height =
    system.fetched.map Tip.templateHeight
  made : ∀ tip template, system.made = some (tip, template) → template.height = tip.templateHeight

theorem invariant_initial (walletAddress poolTarget : Text) (tip : Tip) :
    Invariant (initial walletAddress poolTarget tip) where
  fetched := rfl
  made := fun _ _ made => nomatch made

/-- An attempt that fails leaves the current job. -/
theorem currentJob_of_error {deps : Externals} {manager : WorkManager} {cleanJobs : Bool}
    {reply : Except String (Option BlockTemplate)} {message : String}
    (failed : (generateJob deps manager cleanJobs reply).2 = .error message) :
    (generateJob deps manager cleanJobs reply).1.currentJob = manager.currentJob := by
  rcases WorkManager.generateJob_cases deps manager cleanJobs reply with
    ⟨_, outcome⟩ | ⟨_, outcome⟩ | ⟨_, job, _, _, outcome⟩
  · rw [outcome]
  · rw [outcome]
  · rw [outcome] at failed
    contradiction

/-- Every step keeps the invariant. -/
theorem Invariant.next {deps : Externals} {system target : Polled} {event : PollEvent}
    (inv : Invariant system) (step : Polled.next deps system event = some target) :
    Invariant target := by
  cases event with
  | tipChanged tip =>
      cases step
      exact ⟨inv.fetched, inv.made⟩
  | updateJob requestedClean =>
      cases step
      exact ⟨inv.fetched, inv.made⟩
  | templateMade template =>
      rw [Polled.next] at step
      split at step
      · next ready =>
          cases step
          refine ⟨inv.fetched, fun tip other made => ?_⟩
          cases made
          exact ready.2.2
      · contradiction
  | templateArrived =>
      rcases Option.bind_eq_some_iff.mp step with ⟨made, madeEq, arrived⟩
      obtain ⟨pool, answered, rfl⟩ := Option.map_eq_some_iff.mp arrived
      obtain ⟨worker, running, rfl⟩ := Option.map_eq_some_iff.mp answered
      refine ⟨?_, fun _ _ absent => absurd absent.symm (Option.some_ne_none _)⟩
      simp only [arrive, State.answered, WorkManager.History.record_manager]
      cases outcome : (system.pool.outcome deps (.ok (some made.2))).2 with
      | error message =>
          rw [State.outcome, currentJob_of_error outcome]
          exact inv.fetched
      | ok job =>
          have issued : generateJob deps system.pool.history.manager system.pool.forceClean
              (.ok (some made.2)) =
                ((system.pool.outcome deps (.ok (some made.2))).1, .ok job) := by
            rw [← outcome]
            rfl
          rcases accepted_of_generateJob issued with ⟨template, replyEq, _, height⟩
          cases replyEq
          rcases WorkManager.generateJob_eq_ok.mp issued with ⟨_, after⟩
          rw [after]
          simp only [WorkManager.issueJob, Option.map_some, height]
          rw [inv.made made.1 made.2 madeEq]
  | templateFailed message =>
      obtain ⟨pool, answered, rfl⟩ := Option.map_eq_some_iff.mp step
      obtain ⟨worker, running, rfl⟩ := Option.map_eq_some_iff.mp answered
      exact ⟨inv.fetched, fun _ _ absent => absurd absent.symm (Option.some_ne_none _)⟩
  | resume caller =>
      obtain ⟨pool, resumed, rfl⟩ := Option.map_eq_some_iff.mp step
      obtain ⟨updates, _, rfl⟩ := Option.map_eq_some_iff.mp resumed
      exact ⟨inv.fetched, inv.made⟩
  | pollTick =>
      cases step
      unfold pollTick
      split
      · exact ⟨inv.fetched, inv.made⟩
      · exact inv

/-! ## One tick -/

theorem requestUpdate_ne (system : Polled) (requestedClean : Bool) :
    system.requestUpdate requestedClean ≠ system := by
  intro same
  have calls : (system.pool.updates.updateJob requestedClean).calls.length =
      system.pool.updates.calls.length :=
    congrArg (fun system : Polled => system.pool.updates.calls.length) same
  unfold Updates.updateJob at calls
  split at calls <;> simp [Updates.join, Updates.create] at calls

/-- A tick asks for an update unless the tip is one block above the remembered
one. -/
theorem pollTick_eq {system : Polled} (inv : Invariant system) {fetched : Tip}
    (fetchedEq : system.fetched = some fetched) :
    system.pollTick =
      if system.tip.height = fetched.height + 1 then system else system.requestUpdate true := by
  have height := inv.fetched
  rw [fetchedEq, Option.map_some, Option.map_eq_some_iff] at height
  rcases height with ⟨job, current, jobHeight⟩
  have sameHeight : system.tip.blockCount = job.height ↔
      system.tip.height = fetched.height + 1 := by
    rw [jobHeight, Tip.blockCount, Tip.templateHeight, Value.number.injEq, SafeInteger.mk.injEq]
    omega
  by_cases one : system.tip.height = fetched.height + 1
  · simp [pollTick, differs, current, sameHeight.mpr one, one]
  · have different : system.tip.blockCount ≠ job.height := fun same => one (sameHeight.mp same)
    simp [pollTick, differs, current, different, one]

theorem forcesOnNewTip_iff {system : Polled} (inv : Invariant system) :
    system.ForcesOnNewTip ↔ ∀ fetched, system.fetched = some fetched →
      system.tip ≠ fetched ∧ system.tip.height ≠ fetched.height + 1 := by
  constructor
  · intro forces fetched fetchedEq
    have tick := pollTick_eq inv fetchedEq
    constructor
    · rintro rfl
      rw [if_neg (by omega)] at tick
      exact requestUpdate_ne system true (tick.symm.trans (forces.quiet fetchedEq))
    · intro one
      rw [if_pos one] at tick
      exact requestUpdate_ne system true
        ((forces.forced fetched fetchedEq (by omega)).symm.trans tick)
  · intro farOff
    refine ⟨fun fetchedEq => ?_, fun fetched fetchedEq _ => ?_⟩
    · exact absurd rfl (farOff system.tip fetchedEq).1
    · rw [pollTick_eq inv fetchedEq, if_neg (farOff fetched fetchedEq).2]

theorem pollLaw_iff_tipFarOff (system : Polled) (event : PollEvent) (inv : Invariant system) :
    system.PollLaw event ↔ system.TipFarOff event := by
  cases event with
  | pollTick => exact forcesOnNewTip_iff inv
  | _ => exact Iff.rfl

/-! ## Whole runs -/

/-- In a run every tick obeys the law of the poll exactly when every tick meets
a tip that is far off. -/
theorem throughout_pollLaw_iff (deps : Externals) (walletAddress poolTarget : Text) (tip : Tip)
    (events : List PollEvent) :
    Throughout (next deps) PollLaw (initial walletAddress poolTarget tip) events ↔
      Throughout (next deps) TipFarOff (initial walletAddress poolTarget tip) events :=
  throughout_iff Invariant (fun inv step => inv.next step)
    (fun system event inv => pollLaw_iff_tipFarOff system event inv)
    (invariant_initial walletAddress poolTarget tip) events

/-- The first tick after the first job asks for a clean update although the
node's tip has not moved. -/
theorem not_throughout_pollLaw_unchanged :
    ¬∀ events, Throughout (next packagesExample) PollLaw
      (initial walletExample easiestTarget ⟨1, List.replicate 64 '0', by decide⟩) events := by
  intro always
  let tip : Tip := ⟨1, List.replicate 64 '0', by decide⟩
  let template := templateExample ⟨2, by decide⟩ easiestTarget payingCoinbase
  let start := initial walletExample easiestTarget tip
  let asked := start.requestUpdate true
  let making : Polled := { asked with made := some (tip, template) }
  let arrived := making.arrive packagesExample (tip, template)
    (making.pool.answered packagesExample (.ok (some template)) 0)
  have ask : next packagesExample start (.updateJob true) = some asked := rfl
  have make : next packagesExample asked (.templateMade template) = some making := by
    rw [next, if_pos ⟨rfl, rfl, rfl⟩]
    rfl
  have arrive : next packagesExample making .templateArrived = some arrived := rfl
  obtain ⟨job, issued, -⟩ := exists_generateJob
    (accepted_payingCoinbase ⟨2, by decide⟩ easiestTarget start.pool.history.manager rfl) true
  have fetched : arrived.fetched = some tip := by
    have outcome : (making.pool.outcome packagesExample (.ok (some template))).2 = .ok job :=
      congrArg Prod.snd issued
    simp only [arrived, Polled.arrive, outcome]
  have obeyed := always [.updateJob true, .templateMade template, .templateArrived, .pollTick]
  have forces := (((obeyed.2 asked ask).2 making make).2 arrived arrive).1
  have inv := (((invariant_initial walletExample easiestTarget tip).next ask).next make).next arrive
  exact ((forcesOnNewTip_iff inv).mp forces tip fetched).1 rfl

end Polled

end ZcashSoloPool.Pool
