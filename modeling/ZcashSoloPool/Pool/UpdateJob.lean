import ZcashSoloPool.Transition.Run

/-!
# Serialised job updates

`updateJob` of the pool: callers share one running update.  The first caller
creates the promise whose loop awaits one `generateJob` attempt after another;
later callers raise two flags and wait for that promise.  The end of the loop
settles the promise, and only a later turn of its creator clears
`jobUpdateInFlight`, so that calls may arrive between the two.
-/

namespace ZcashSoloPool.Pool

open ZcashSoloPool.Transition

/-- A call of `updateJob`, with the promise it waits for and the number of
attempts that had been started when it was made. -/
structure Call where
  clean : Bool
  startedBefore : Nat
  awaits : Nat
  creator : Bool
  resolved : Bool
  deriving DecidableEq, Repr

/-- The fields of the pool that `updateJob` shares among its callers.
`jobUpdateInFlight` holds the number of a promise and `running` the promise
whose loop is awaiting an attempt; a promise that is not running is settled.
The attempts are listed with the flag they were started with. -/
structure Updates where
  jobUpdateInFlight : Option Nat
  jobUpdateQueued : Bool
  jobUpdateQueuedClean : Bool
  running : Option Nat
  promises : Nat
  attempts : List Bool
  calls : List Call
  deriving DecidableEq, Repr

/-- What the event loop may do next. -/
inductive UpdateEvent where
  /-- Somebody calls `updateJob`; the argument is `clean === true`. -/
  | updateJob (requestedClean : Bool)
  /-- The awaited `generateJob` returns and its job is broadcast. -/
  | generated
  /-- The awaited `generateJob` throws. -/
  | failed
  /-- The caller with this number continues after its promise has settled. -/
  | resume (caller : Nat)
  deriving DecidableEq, Repr

namespace Updates

/-- Before the first call. -/
def initial : Updates where
  jobUpdateInFlight := none
  jobUpdateQueued := false
  jobUpdateQueuedClean := false
  running := none
  promises := 0
  attempts := []
  calls := []

/-- A call that finds an update in flight. -/
def join (updates : Updates) (inFlight : Nat) (requestedClean : Bool) : Updates :=
  { updates with
    jobUpdateQueued := true
    jobUpdateQueuedClean := updates.jobUpdateQueuedClean || requestedClean
    calls := updates.calls ++
      [⟨requestedClean, updates.attempts.length, inFlight, false, false⟩] }

/-- A call that finds none: the loop runs up to its first attempt. -/
def create (updates : Updates) (requestedClean : Bool) : Updates :=
  { updates with
    jobUpdateInFlight := some updates.promises
    running := some updates.promises
    promises := updates.promises + 1
    attempts := updates.attempts ++ [requestedClean]
    calls := updates.calls ++
      [⟨requestedClean, updates.attempts.length, updates.promises, true, false⟩] }

/-- `updateJob`. -/
def updateJob (updates : Updates) (requestedClean : Bool) : Updates :=
  match updates.jobUpdateInFlight with
  | some inFlight => updates.join inFlight requestedClean
  | none => updates.create requestedClean

/-- The rest of the loop body after a job: look at the flags, clear them, and
start another attempt or end. -/
def generated (updates : Updates) (worker : Nat) : Updates :=
  { updates with
    jobUpdateQueued := false
    jobUpdateQueuedClean := false
    running := if updates.jobUpdateQueued then some worker else none
    attempts :=
      if updates.jobUpdateQueued then updates.attempts ++ [updates.jobUpdateQueuedClean]
      else updates.attempts }

/-- The break on an error; the flags stay as they are. -/
def failed (updates : Updates) : Updates :=
  { updates with running := none }

/-- A caller continues.  The creator clears its own promise. -/
def resume (updates : Updates) (caller : Nat) (call : Call) : Updates :=
  { updates with
    jobUpdateInFlight :=
      if call.creator && updates.jobUpdateInFlight == some call.awaits then none
      else updates.jobUpdateInFlight
    calls := updates.calls.set caller { call with resolved := true } }

/-- The event loop.  Attempts complete only while a loop awaits one, and a
caller continues once, after its promise has settled. -/
def next : Next Updates UpdateEvent
  | updates, .updateJob requestedClean => some (updates.updateJob requestedClean)
  | updates, .generated => updates.running.map updates.generated
  | updates, .failed => updates.running.map fun _ => updates.failed
  | updates, .resume caller =>
      match updates.calls[caller]? with
      | some call =>
          if !call.resolved && updates.running != some call.awaits then
            some (updates.resume caller call)
          else none
      | none => none

end Updates

/-! ## An update on its own -/

/-- Nobody waits for an update. -/
structure Idle (updates : Updates) : Prop where
  inFlight : updates.jobUpdateInFlight = none
  queued : updates.jobUpdateQueued = false

/-- A call that nobody joins makes one attempt with its flag, and its caller
clears the promise. -/
theorem Idle.run {updates : Updates} (idle : Idle updates) (requestedClean : Bool) :
    updates.updateJob requestedClean = updates.create requestedClean ∧
      ∃ target, Updates.next ((updates.create requestedClean).generated updates.promises)
          (.resume updates.calls.length) = some target ∧ Idle target := by
  refine ⟨by rw [Updates.updateJob, idle.inFlight],
    ((updates.create requestedClean).generated updates.promises).resume updates.calls.length
      ⟨requestedClean, updates.attempts.length, updates.promises, true, false⟩, ?_, ?_, ?_⟩
  · simp [Updates.next, Updates.generated, Updates.create, idle.queued]
  · simp [Updates.resume, Updates.generated, Updates.create]
  · simp [Updates.resume, Updates.generated]

/-! ## What a caller is owed -/

/-- An attempt was started after the call, and one that ran clean if the call
asked for it. -/
structure Served (updates : Updates) (call : Call) : Prop where
  started : updates.attempts.drop call.startedBefore ≠ []
  clean : call.clean = true → true ∈ updates.attempts.drop call.startedBefore

instance (updates : Updates) (call : Call) : Decidable (Served updates call) :=
  decidable_of_iff
    (updates.attempts.drop call.startedBefore ≠ [] ∧
      (call.clean = true → true ∈ updates.attempts.drop call.startedBefore))
    ⟨fun h => ⟨h.1, h.2⟩, fun h => ⟨h.started, h.clean⟩⟩

/-- No resolved call was lost. -/
def NoLostUpdate (updates : Updates) : Prop :=
  ∀ call ∈ updates.calls, call.resolved = true → Served updates call

instance (updates : Updates) : Decidable (NoLostUpdate updates) :=
  inferInstanceAs (Decidable (∀ call ∈ updates.calls, call.resolved = true → Served updates call))

/-- The steps that lose nothing: no attempt fails while an update is queued,
and no call arrives between the end of a loop and the clearing of its promise. -/
def LosesNothing (updates : Updates) : UpdateEvent → Prop
  | .updateJob _ => updates.jobUpdateInFlight = none ∨ updates.jobUpdateInFlight = updates.running
  | .generated => True
  | .failed => updates.jobUpdateQueued = false
  | .resume _ => True

instance (updates : Updates) : ∀ event, Decidable (LosesNothing updates event)
  | .updateJob _ => inferInstanceAs (Decidable (_ ∨ _))
  | .generated => isTrue trivial
  | .failed => inferInstanceAs (Decidable (_ = _))
  | .resume _ => isTrue trivial

/-! ## The invariant -/

/-- A call that is not served yet waits for the running loop, which will see
its flags. -/
structure Waits (updates : Updates) (call : Call) : Prop where
  unresolved : call.resolved = false
  running : updates.running = some call.awaits
  queued : updates.jobUpdateQueued = true
  queuedClean : call.clean = true → updates.jobUpdateQueuedClean = true

/-- Every call is served or will be, and only the promise in flight has a
running loop. -/
structure Kept (updates : Updates) : Prop where
  inFlight : ∀ worker, updates.running = some worker → updates.jobUpdateInFlight = some worker
  counted : ∀ call ∈ updates.calls, call.startedBefore ≤ updates.attempts.length
  servedOrWaits : ∀ call ∈ updates.calls, Served updates call ∨ Waits updates call

theorem Kept.noLostUpdate {updates : Updates} (kept : Kept updates) : NoLostUpdate updates := by
  intro call member resolved
  rcases kept.servedOrWaits call member with served | waits
  · exact served
  · rw [waits.unresolved] at resolved
    contradiction

theorem kept_initial : Kept Updates.initial where
  inFlight := by simp [Updates.initial]
  counted := by simp [Updates.initial]
  servedOrWaits := by simp [Updates.initial]

/-- More attempts serve no fewer calls. -/
theorem Served.mono {updates later : Updates} {call : Call} {more : List Bool}
    (served : Served updates call) (attempts : later.attempts = updates.attempts ++ more) :
    Served later call := by
  have sublist : (updates.attempts.drop call.startedBefore).Sublist
      (later.attempts.drop call.startedBefore) := by
    rw [attempts, List.drop_append]
    exact List.sublist_append_left _ _
  exact ⟨fun empty => served.started (List.sublist_nil.mp (empty ▸ sublist)),
    fun clean => sublist.mem (served.clean clean)⟩

theorem Served.congr {updates later : Updates} {call : Call}
    (served : Served updates call) (attempts : later.attempts = updates.attempts) :
    Served later call :=
  served.mono (by rw [attempts, List.append_nil])

/-- A new attempt serves every earlier call whose wish its flag grants. -/
theorem served_of_attempt {later : Updates} {call : Call} {earlier : List Bool} {flag : Bool}
    (attempts : later.attempts = earlier ++ [flag]) (counted : call.startedBefore ≤ earlier.length)
    (granted : call.clean = true → flag = true) : Served later call := by
  have member : flag ∈ later.attempts.drop call.startedBefore := by
    rw [attempts, List.drop_append_of_le_length counted]
    simp
  exact ⟨List.ne_nil_of_mem member, fun clean => granted clean ▸ member⟩

/-- Where no loop runs, every call is served. -/
theorem Kept.served {updates : Updates} (kept : Kept updates) (idle : updates.running = none)
    {call : Call} (member : call ∈ updates.calls) : Served updates call := by
  rcases kept.servedOrWaits call member with served | waits
  · exact served
  · rw [waits.running] at idle
    contradiction

/-! ## What each step keeps -/

theorem Kept.join {updates : Updates} {inFlight : Nat} (kept : Kept updates)
    (running : updates.running = some inFlight) (requestedClean : Bool) :
    Kept (updates.join inFlight requestedClean) where
  inFlight := kept.inFlight
  counted := by
    intro call member
    rcases List.mem_append.mp member with earlier | new
    · exact kept.counted call earlier
    · rw [List.mem_singleton.mp new]
      exact Nat.le_refl _
  servedOrWaits := by
    intro call member
    rcases List.mem_append.mp member with earlier | new
    · rcases kept.servedOrWaits call earlier with served | waits
      · exact Or.inl (served.congr rfl)
      · refine Or.inr ⟨waits.unresolved, waits.running, rfl, fun clean => ?_⟩
        simp [Updates.join, waits.queuedClean clean]
    · rw [List.mem_singleton.mp new]
      refine Or.inr ⟨rfl, running, rfl, fun clean => ?_⟩
      change (updates.jobUpdateQueuedClean || requestedClean) = true
      rw [show requestedClean = true from clean, Bool.or_true]

theorem Kept.create {updates : Updates} (kept : Kept updates) (idle : updates.running = none)
    (requestedClean : Bool) : Kept (updates.create requestedClean) where
  inFlight := fun _ running => running
  counted := by
    intro call member
    have length :
        (updates.create requestedClean).attempts.length = updates.attempts.length + 1 := by
      simp [Updates.create]
    rw [length]
    rcases List.mem_append.mp member with earlier | new
    · exact Nat.le_succ_of_le (kept.counted call earlier)
    · rw [List.mem_singleton.mp new]
      exact Nat.le_succ _
  servedOrWaits := by
    intro call member
    rcases List.mem_append.mp member with earlier | new
    · exact Or.inl ((kept.served idle earlier).mono rfl)
    · rw [List.mem_singleton.mp new]
      exact Or.inl (served_of_attempt rfl (Nat.le_refl _) id)

theorem Kept.updateJob {updates : Updates} (kept : Kept updates) {requestedClean : Bool}
    (timely : LosesNothing updates (.updateJob requestedClean)) :
    Kept (updates.updateJob requestedClean) := by
  unfold Updates.updateJob
  cases inFlightEq : updates.jobUpdateInFlight with
  | some inFlight =>
      have running : updates.running = some inFlight := by
        rcases timely with none | same
        · rw [inFlightEq] at none
          contradiction
        · rw [← same, inFlightEq]
      exact kept.join running requestedClean
  | none =>
      have idle : updates.running = none := by
        cases running : updates.running with
        | none => rfl
        | some worker =>
            have inFlight := kept.inFlight worker running
            rw [inFlightEq] at inFlight
            contradiction
      exact kept.create idle requestedClean

/-- After a job the loop serves everybody who waits, or nobody waits. -/
theorem Kept.generated {updates : Updates} {worker : Nat} (kept : Kept updates)
    (running : updates.running = some worker) : Kept (updates.generated worker) := by
  cases queued : updates.jobUpdateQueued with
  | false =>
      have allServed : ∀ call ∈ updates.calls, Served updates call := by
        intro call member
        rcases kept.servedOrWaits call member with served | waits
        · exact served
        · have := waits.queued
          rw [queued] at this
          contradiction
      have attempts : (updates.generated worker).attempts = updates.attempts := by
        simp [Updates.generated, queued]
      exact {
        inFlight := by simp [Updates.generated, queued]
        counted := fun call member => by
          rw [attempts]
          exact kept.counted call member
        servedOrWaits := fun call member =>
          Or.inl ((allServed call member).congr attempts) }
  | true =>
      have attempts : (updates.generated worker).attempts =
          updates.attempts ++ [updates.jobUpdateQueuedClean] := by
        simp [Updates.generated, queued]
      refine ⟨fun other same => ?_, fun call member => ?_, fun call member => Or.inl ?_⟩
      · have sameWorker : worker = other := by simpa [Updates.generated, queued] using same
        exact sameWorker ▸ kept.inFlight worker running
      · rw [attempts, List.length_append]
        exact Nat.le_add_right_of_le (kept.counted call member)
      · rcases kept.servedOrWaits call member with served | waits
        · exact served.mono attempts
        · exact served_of_attempt attempts (kept.counted call member) waits.queuedClean

theorem Kept.failed {updates : Updates} (kept : Kept updates)
    (unqueued : updates.jobUpdateQueued = false) : Kept updates.failed where
  inFlight := by simp [Updates.failed]
  counted := kept.counted
  servedOrWaits := by
    intro call member
    rcases kept.servedOrWaits call member with served | waits
    · exact Or.inl (served.congr rfl)
    · have := waits.queued
      rw [unqueued] at this
      contradiction

/-- A caller that continues was served: its loop is no longer running. -/
theorem Kept.resume {updates : Updates} {caller : Nat} {call : Call} (kept : Kept updates)
    (called : updates.calls[caller]? = some call) (settled : updates.running ≠ some call.awaits) :
    Kept (updates.resume caller call) := by
  have callMember : call ∈ updates.calls := List.mem_of_getElem? called
  have callServed : Served updates call := by
    rcases kept.servedOrWaits call callMember with served | waits
    · exact served
    · exact absurd waits.running settled
  refine ⟨fun worker running => ?_, fun other member => ?_, fun other member => ?_⟩
  · have inFlight := kept.inFlight worker running
    have different : worker ≠ call.awaits := by
      rintro rfl
      exact settled running
    simp [Updates.resume, inFlight, different]
  · rcases List.mem_or_eq_of_mem_set member with earlier | rfl
    · exact kept.counted other earlier
    · exact kept.counted call callMember
  · rcases List.mem_or_eq_of_mem_set member with earlier | rfl
    · rcases kept.servedOrWaits other earlier with served | waits
      · exact Or.inl (served.congr rfl)
      · exact Or.inr ⟨waits.unresolved, waits.running, waits.queued, waits.queuedClean⟩
    · exact Or.inl ⟨callServed.started, callServed.clean⟩

theorem Kept.next {updates target : Updates} {event : UpdateEvent} (kept : Kept updates)
    (timely : LosesNothing updates event) (step : Updates.next updates event = some target) :
    Kept target := by
  cases event with
  | updateJob requestedClean =>
      cases step
      exact kept.updateJob timely
  | generated =>
      obtain ⟨worker, running, rfl⟩ := Option.map_eq_some_iff.mp step
      exact kept.generated running
  | failed =>
      obtain ⟨worker, running, rfl⟩ := Option.map_eq_some_iff.mp step
      exact kept.failed timely
  | resume caller =>
      simp only [Updates.next] at step
      split at step
      · next call called =>
          split at step
          · next enabled =>
              cases step
              exact kept.resume called (by simpa using (Bool.and_eq_true_iff.mp enabled).2)
          · contradiction
      · contradiction

/-! ## Whole runs -/

/-- In a run whose steps lose nothing, every call that has resolved was
served. -/
theorem noLostUpdate_of_losesNothing {events : List UpdateEvent} {updates : Updates}
    (timely : Throughout Updates.next LosesNothing Updates.initial events)
    (reached : run Updates.next Updates.initial events = some updates) : NoLostUpdate updates :=
  have kept : Kept updates :=
    timely.invariant Kept (fun kept timely step => kept.next timely step) kept_initial reached
  kept.noLostUpdate

/-- Two callers, one of them clean, share an update and both are served. -/
theorem noLostUpdate_shared :
    ∃ updates, run Updates.next Updates.initial
        [.updateJob false, .updateJob true, .generated, .generated, .resume 0, .resume 1] =
          some updates ∧ updates.calls.length = 2 ∧ NoLostUpdate updates :=
  ⟨_, rfl, rfl, noLostUpdate_of_losesNothing
    (show Throughout Updates.next LosesNothing Updates.initial
      [.updateJob false, .updateJob true, .generated, .generated, .resume 0, .resume 1] by decide)
    rfl⟩

/-- An attempt that fails while a clean update is queued drops that update: the
second caller continues although nothing was started after its call. -/
theorem not_noLostUpdate_of_failed :
    ¬∀ events updates, run Updates.next Updates.initial events = some updates →
      NoLostUpdate updates := by
  intro noLostUpdate
  have lost := noLostUpdate [.updateJob false, .updateJob true, .failed, .resume 0, .resume 1] _ rfl
  revert lost
  decide

end ZcashSoloPool.Pool
