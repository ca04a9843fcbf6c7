import ZcashSoloPool.Pool.System
import ZcashSoloPool.Stratum.Delivery
import ZcashSoloPool.WorkManager.Payout

/-!
# Broadcasting the current job

The job updates together with the stratum server that tells the miners.  Each
`generateJob` in flight belongs to the loop of a promise; nothing here says
that there is only one.  A job reaches a client by the broadcast in the turn
that issued it, by the notify after an authorisation and by the delayed
resend, and connections come and go between turns.
-/

namespace ZcashSoloPool.Pool

open ZcashSoloPool.JavaScript
open ZcashSoloPool.Stratum
open ZcashSoloPool.Transition
open ZcashSoloPool.WorkManager (BlockTemplate Externals History Job Submission generateJob
  generateJob_cases validateShare)

/-- A loop of `updateJob` that awaits a `generateJob`. -/
structure Loop where
  promise : Nat
  forceClean : Bool
  deriving DecidableEq, Repr

/-- The pool and the stratum server.  A client is known by its place in the
list, one less than its number; `resends` holds the clients that a pending
timer was set for. -/
structure Server where
  pool : State
  loops : List Loop
  lastJob : Option Job
  clients : List Peer
  resends : List Nat

/-- What the event loop may do next.  An event that writes to sockets carries
the lengths of unsent data that the writes find. -/
inductive ServerEvent where
  | updateJob (requestedClean : Bool)
  /-- The template that a loop awaits arrives, or its request fails. -/
  | answered (loop : Nat) (reply : Except String (Option BlockTemplate))
      (writableLength : Nat → Nat)
  | resume (caller : Nat)
  | connect
  /-- A request `mining.authorize` with a user name or none. -/
  | authorize (client : Nat) (user : Option CodeUnits) (writableLength : Nat → Nat)
  /-- Any other message to a client. -/
  | send (client : Nat) (message : Message) (writableLength : Nat)
  /-- A pending resend timer fires. -/
  | resend (timer : Nat) (writableLength : Nat)
  | cleanup (client : Nat)
  | destroy (client : Nat)

namespace Server

/-- Before the first call and the first connection. -/
def initial (walletAddress poolTarget : Text) : Server where
  pool := .initial walletAddress poolTarget
  loops := []
  lastJob := none
  clients := []
  resends := []

/-- `updateJob`: a call that finds no update in flight starts a loop. -/
def updateJob (server : Server) (requestedClean : Bool) : Server :=
  { server with
    pool := { server.pool with updates := server.pool.updates.updateJob requestedClean }
    loops :=
      match server.pool.updates.jobUpdateInFlight with
      | some _ => server.loops
      | none => server.loops ++ [⟨server.pool.updates.promises, requestedClean⟩] }

/-- `broadcastJob`. -/
def broadcastJob (server : Server) (job : Job) (writableLength : Nat → Nat) : Server :=
  { server with
    lastJob := some job
    clients := server.clients.mapIdx fun client peer =>
      peer.receiveBroadcast job (writableLength client) }

/-- The turn in which a `generateJob` returns: the job is broadcast, and the
loop starts another attempt or ends. -/
def generated (server : Server) (place : Nat) (loop : Loop) (job : Job)
    (writableLength : Nat → Nat) : Server :=
  let updates := server.pool.updates
  { server.broadcastJob job writableLength with
    pool := { server.pool with updates := updates.generated loop.promise }
    loops :=
      if updates.jobUpdateQueued then
        server.loops.set place ⟨loop.promise, updates.jobUpdateQueuedClean⟩
      else server.loops.eraseIdx place }

/-- The turn in which a `generateJob` throws: the loop ends. -/
def failed (server : Server) (place : Nat) : Server :=
  { server with
    pool := { server.pool with updates := server.pool.updates.failed }
    loops := server.loops.eraseIdx place }

/-- A loop gets its answer from the work manager. -/
def answered (deps : Externals) (server : Server) (place : Nat) (loop : Loop)
    (reply : Except String (Option BlockTemplate)) (writableLength : Nat → Nat) : Server :=
  let outcome := generateJob deps server.pool.history.manager loop.forceClean reply
  let server := { server with
    pool := { server.pool with history := server.pool.history.record outcome } }
  match outcome.2 with
  | .ok job => server.generated place loop job writableLength
  | .error _ => server.failed place

/-- Change one client. -/
def withClient (server : Server) (client : Nat) (change : Peer → Peer) : Option Server :=
  server.clients[client]?.map fun peer =>
    { server with clients := server.clients.set client (change peer) }

/-- The resend timer that an authorisation sets. -/
def setTimer (settings : DeliverySettings) (client : Nat) (server : Server) : Server :=
  if server.lastJob.isSome && decide (settings.jobResendDelayMs > 0) then
    { server with resends := server.resends ++ [client] }
  else server

/-- The event loop. -/
def next (deps : Externals) (settings : DeliverySettings) : Next Server ServerEvent
  | server, .updateJob requestedClean => some (server.updateJob requestedClean)
  | server, .answered place reply writableLength =>
      server.loops[place]?.map fun loop => server.answered deps place loop reply writableLength
  | server, .resume caller =>
      match server.pool.updates.calls[caller]? with
      | some call =>
          if !call.resolved && server.loops.all fun loop => loop.promise != call.awaits then
            some { server with
              pool := { server.pool with updates := server.pool.updates.resume caller call } }
          else none
      | none => none
  | server, .connect => some { server with clients := server.clients ++ [.connected] }
  | server, .authorize client user writableLength =>
      (server.withClient client
        (Peer.authorize settings server.lastJob (client + 1) user writableLength)).map
          (setTimer settings client)
  | server, .send client message writableLength =>
      if message.job?.isNone then
        server.withClient client fun peer => peer.send message writableLength
      else none
  | server, .resend timer writableLength =>
      server.resends[timer]?.bind fun client =>
        ({ server with resends := server.resends.eraseIdx timer } : Server).withClient client
          (Peer.resend server.lastJob writableLength)
  | server, .cleanup client => server.withClient client Peer.cleanup
  | server, .destroy client => server.withClient client Peer.destroy

/-! ## The invariant -/

/-- The loops in flight are the one of the running promise, the last job is
the current one, and every client is up to date. -/
structure Steady (server : Server) : Prop where
  history : server.pool.history.Invariant
  current : server.lastJob = server.pool.history.manager.currentJob
  loops : server.loops = server.pool.updates.running.toList.map fun promise =>
    ⟨promise, server.pool.forceClean⟩
  inFlight : ∀ promise, server.pool.updates.running = some promise →
    server.pool.updates.jobUpdateInFlight = some promise
  peers : ∀ peer ∈ server.clients, peer.UpToDate server.lastJob

theorem steady_initial (walletAddress poolTarget : Text) :
    Steady (initial walletAddress poolTarget) where
  history := History.invariant_initial walletAddress poolTarget
  current := rfl
  loops := rfl
  inFlight := fun _ running => nomatch running
  peers := fun _ member => absurd member List.not_mem_nil

theorem Steady.loops_of_running {server : Server} (steady : Steady server) {promise : Nat}
    (running : server.pool.updates.running = some promise) :
    server.loops = [⟨promise, server.pool.forceClean⟩] := by
  rw [steady.loops, running]
  rfl

theorem Steady.loops_of_idle {server : Server} (steady : Steady server)
    (idle : server.pool.updates.running = none) : server.loops = [] := by
  rw [steady.loops, idle]
  rfl

/-- A loop in flight is the only one, and its promise is the running one. -/
theorem Steady.running_of_loop {server : Server} (steady : Steady server) {place : Nat}
    {loop : Loop} (found : server.loops[place]? = some loop) :
    place = 0 ∧ server.pool.updates.running = some loop.promise ∧
      loop.forceClean = server.pool.forceClean := by
  cases running : server.pool.updates.running with
  | none =>
      rw [steady.loops_of_idle running] at found
      contradiction
  | some promise =>
      rw [steady.loops_of_running running] at found
      cases place with
      | zero =>
          cases found
          exact ⟨rfl, rfl, rfl⟩
      | succ place => contradiction

/-! ## The job updates inside the server -/

/-- Seen from the job updates, a step of the server is a step of the pool, or
it leaves the pool as it is. -/
theorem next_pool {deps : Externals} {settings : DeliverySettings} {server target : Server}
    {event : ServerEvent} (steady : Steady server)
    (step : next deps settings server event = some target) :
    target.pool = server.pool ∨
      ∃ poolEvent, State.next deps server.pool poolEvent = some target.pool := by
  have changed : ∀ {client : Nat} {change : Peer → Peer} {source target : Server},
      source.withClient client change = some target → target.pool = source.pool := by
    intro client change source target step
    obtain ⟨peer, _, rfl⟩ := Option.map_eq_some_iff.mp step
    rfl
  cases event with
  | updateJob requestedClean =>
      cases step
      exact Or.inr ⟨.updateJob requestedClean, rfl⟩
  | answered place reply writableLength =>
      obtain ⟨loop, found, rfl⟩ := Option.map_eq_some_iff.mp step
      rcases steady.running_of_loop found with ⟨_, running, flag⟩
      refine Or.inr ⟨.answered reply, ?_⟩
      simp only [State.next, running, Option.map_some, Option.some.injEq, State.answered,
        State.outcome, answered, ← flag]
      cases (generateJob deps server.pool.history.manager loop.forceClean reply).2 <;> rfl
  | resume caller =>
      simp only [next] at step
      split at step
      · next call called =>
          split at step
          · next enabled =>
              cases step
              refine Or.inr ⟨.resume caller, ?_⟩
              have settled : (!call.resolved &&
                  server.pool.updates.running != some call.awaits) = true := by
                rw [Bool.and_eq_true_iff] at enabled ⊢
                refine ⟨enabled.1, bne_iff_ne.mpr fun running => ?_⟩
                have others := enabled.2
                rw [steady.loops_of_running running] at others
                simp at others
              simp only [State.next, Updates.next, called]
              rw [if_pos settled]
              rfl
          · contradiction
      · contradiction
  | connect =>
      cases step
      exact Or.inl rfl
  | authorize client user writableLength =>
      obtain ⟨authorized, found, rfl⟩ := Option.map_eq_some_iff.mp step
      refine Or.inl (Eq.trans ?_ (changed found))
      unfold setTimer
      split <;> rfl
  | send client message writableLength =>
      simp only [next] at step
      split at step
      · exact Or.inl (changed step)
      · contradiction
  | resend timer writableLength =>
      rcases Option.bind_eq_some_iff.mp step with ⟨client, _, found⟩
      have same := changed found
      exact Or.inl same
  | cleanup client => exact Or.inl (changed step)
  | destroy client => exact Or.inl (changed step)

/-! ## What each step keeps -/

/-- A change of one client that keeps it up to date. -/
theorem Steady.withClient {server target : Server} (steady : Steady server) {client : Nat}
    {change : Peer → Peer}
    (kept : ∀ peer : Peer, peer.UpToDate server.lastJob → (change peer).UpToDate server.lastJob)
    (step : server.withClient client change = some target) : Steady target := by
  obtain ⟨peer, found, rfl⟩ := Option.map_eq_some_iff.mp step
  refine ⟨steady.history, steady.current, steady.loops, steady.inFlight, fun other member => ?_⟩
  rcases List.mem_or_eq_of_mem_set member with old | rfl
  · exact steady.peers other old
  · exact kept peer (steady.peers peer (List.mem_of_getElem? found))

/-- Timers change nothing else. -/
theorem Steady.withResends {server : Server} (steady : Steady server) (resends : List Nat) :
    Steady { server with resends := resends } :=
  ⟨steady.history, steady.current, steady.loops, steady.inFlight, steady.peers⟩

theorem Steady.setTimer {server : Server} (steady : Steady server) (settings : DeliverySettings)
    (client : Nat) : Steady (server.setTimer settings client) := by
  unfold Server.setTimer
  split
  · exact steady.withResends _
  · exact steady

theorem Steady.connect {server : Server} (steady : Steady server) :
    Steady { server with clients := server.clients ++ [.connected] } := by
  refine ⟨steady.history, steady.current, steady.loops, steady.inFlight, fun peer member => ?_⟩
  rcases List.mem_append.mp member with old | new
  · exact steady.peers peer old
  · rw [List.mem_singleton.mp new]
    exact Peer.upToDate_connected _

theorem Steady.updateJob {server : Server} (steady : Steady server) (requestedClean : Bool) :
    Steady (server.updateJob requestedClean) := by
  cases inFlight : server.pool.updates.jobUpdateInFlight with
  | some promise =>
      have joined : server.updateJob requestedClean = { server with
          pool := ⟨server.pool.updates.join promise requestedClean, server.pool.history⟩ } := by
        simp only [Server.updateJob, Updates.updateJob, inFlight]
      rw [joined]
      exact ⟨steady.history, steady.current, steady.loops, steady.inFlight, steady.peers⟩
  | none =>
      have idle : server.pool.updates.running = none := by
        cases running : server.pool.updates.running with
        | none => rfl
        | some promise =>
            rw [steady.inFlight promise running] at inFlight
            contradiction
      have created : server.updateJob requestedClean = { server with
          pool := ⟨server.pool.updates.create requestedClean, server.pool.history⟩
          loops := [⟨server.pool.updates.promises, requestedClean⟩] } := by
        simp only [Server.updateJob, Updates.updateJob, inFlight, steady.loops_of_idle idle,
          List.nil_append]
      rw [created]
      refine ⟨steady.history, steady.current, ?_, fun _ running => running, steady.peers⟩
      simp [Updates.create, State.forceClean]

/-- The work manager answers with an error: the loop ends. -/
theorem Steady.failed {server : Server} (steady : Steady server) {loop : Loop}
    (found : server.loops[0]? = some loop) {history : History} (inv : history.Invariant)
    (current : history.manager.currentJob = server.pool.history.manager.currentJob) :
    Steady (Server.failed { server with pool := ⟨server.pool.updates, history⟩ } 0) where
  history := inv
  current := steady.current.trans current.symm
  loops := by
    rw [Server.failed, steady.loops_of_running (steady.running_of_loop found).2.1]
    rfl
  inFlight := fun _ running => nomatch running
  peers := steady.peers

/-- The work manager answers with a job: every client in service learns it. -/
theorem Steady.generated {server : Server} (steady : Steady server) {loop : Loop}
    (found : server.loops[0]? = some loop) {history : History} (inv : history.Invariant) {job : Job}
    (current : history.manager.currentJob = some job)
    (newer : ∀ old, server.lastJob = some old → hexNumber old.jobId ≤ hexNumber job.jobId)
    (writableLength : Nat → Nat) :
    Steady (Server.generated { server with pool := ⟨server.pool.updates, history⟩ } 0 loop job
      writableLength) := by
  rcases steady.running_of_loop found with ⟨_, running, flag⟩
  have only : server.loops = [loop] := by
    rw [steady.loops_of_running running, ← flag]
  refine ⟨inv, current.symm, ?_, ?_, fun peer member => ?_⟩
  · cases queued : server.pool.updates.jobUpdateQueued <;>
      simp [Server.generated, Server.broadcastJob, Updates.generated, State.forceClean, queued, only]
  · cases queued : server.pool.updates.jobUpdateQueued with
    | false =>
        intro promise again
        simp [Server.generated, Updates.generated, queued] at again
    | true =>
        intro promise again
        have same : loop.promise = promise := by
          simpa [Server.generated, Updates.generated, queued] using again
        exact same ▸ steady.inFlight loop.promise running
  · obtain ⟨client, bound, rfl⟩ := List.mem_mapIdx.mp member
    exact (steady.peers _ (List.getElem_mem bound)).receiveBroadcast newer _

theorem Steady.answered {deps : Externals} {server : Server} (steady : Steady server) {place : Nat}
    {loop : Loop} (found : server.loops[place]? = some loop)
    (reply : Except String (Option BlockTemplate)) (writableLength : Nat → Nat) :
    Steady (server.answered deps place loop reply writableLength) := by
  obtain ⟨rfl, _, _⟩ := steady.running_of_loop found
  have inv : (server.pool.history.perform deps (.generateJob loop.forceClean reply)).Invariant :=
    steady.history.perform (.generateJob loop.forceClean reply)
  rw [History.perform] at inv
  unfold Server.answered
  rcases generateJob_cases deps server.pool.history.manager loop.forceClean reply with
    ⟨message, refused⟩ | ⟨message, refused⟩ | ⟨template, job, _, built, issued⟩
  · rw [refused] at inv ⊢
    exact steady.failed found inv rfl
  · rw [refused] at inv ⊢
    exact steady.failed found inv rfl
  · rw [issued] at inv ⊢
    refine steady.generated found inv rfl (fun old isLast => ?_) writableLength
    rw [steady.current] at isLast
    rcases steady.history.listed _ old (steady.history.current old isLast) with ⟨member, _⟩
    rcases steady.history.numbered old member with ⟨number, bound, oldId⟩
    rw [oldId, (History.jobId_of_buildJob built).1, hexNumber_hexText, hexNumber_hexText]
    exact Nat.le_succ_of_le bound

/-- A caller continues only when its loop is over, so that the promise it
clears is not the running one. -/
theorem Steady.resume {server : Server} (steady : Steady server) {caller : Nat} {call : Call}
    (settled : (server.loops.all fun loop => loop.promise != call.awaits) = true) :
    Steady { server with
      pool := { server.pool with updates := server.pool.updates.resume caller call } } := by
  refine ⟨steady.history, steady.current, steady.loops, fun promise running => ?_, steady.peers⟩
  change server.pool.updates.running = some promise at running
  have different : promise ≠ call.awaits := by
    rintro rfl
    rw [steady.loops_of_running running] at settled
    simp at settled
  simp [Updates.resume, steady.inFlight promise running, different]

theorem Steady.next {deps : Externals} {settings : DeliverySettings} {server target : Server}
    {event : ServerEvent} (steady : Steady server)
    (step : Server.next deps settings server event = some target) : Steady target := by
  cases event with
  | updateJob requestedClean =>
      cases step
      exact steady.updateJob requestedClean
  | answered place reply writableLength =>
      obtain ⟨loop, found, rfl⟩ := Option.map_eq_some_iff.mp step
      exact steady.answered found reply writableLength
  | resume caller =>
      simp only [Server.next] at step
      split at step
      · split at step
        · next enabled =>
            cases step
            exact steady.resume (Bool.and_eq_true_iff.mp enabled).2
        · contradiction
      · contradiction
  | connect =>
      cases step
      exact steady.connect
  | authorize client user writableLength =>
      obtain ⟨authorized, found, rfl⟩ := Option.map_eq_some_iff.mp step
      have kept := steady.withClient
        (fun _ upToDate => upToDate.authorize settings (client + 1) user writableLength) found
      exact kept.setTimer settings client
  | send client message writableLength =>
      simp only [Server.next] at step
      split at step
      · next other =>
          exact steady.withClient
            (fun _ upToDate => upToDate.send (Option.isNone_iff_eq_none.mp other) writableLength) step
      · contradiction
  | resend timer writableLength =>
      rcases Option.bind_eq_some_iff.mp step with ⟨client, _, fired⟩
      exact (steady.withResends _).withClient (fun _ upToDate => upToDate.resend writableLength)
        fired
  | cleanup client => exact steady.withClient (fun _ upToDate => upToDate.cleanup) step
  | destroy client => exact steady.withClient (fun _ upToDate => upToDate.destroy) step

/-! ## What miners and pool agree on -/

/-- Miners and pool agree on the current job. -/
structure Agreement (deps : Externals) (server : Server) : Prop where
  /-- At most one `generateJob` is in flight. -/
  single : server.loops.length ≤ 1
  /-- The last job is the current one of the work manager and in its table. -/
  current : ∀ job, server.lastJob = some job →
    server.pool.history.manager.currentJob = some job ∧
      server.pool.history.manager.jobs.get? job.jobId = some job
  /-- An authorized client in service was notified of the last job last. -/
  latest : ∀ job, server.lastJob = some job → ∀ peer ∈ server.clients, peer.listed = true →
    peer.authorized = true → peer.destroyed = false → peer.notified.getLast? = some job
  /-- The job ids sent to a client do not go backwards. -/
  ordered : ∀ peer ∈ server.clients, peer.notified.Pairwise fun earlier later =>
    hexNumber earlier.jobId ≤ hexNumber later.jobId
  /-- A submission for the last job is not answered as expired or stale. -/
  accepted : ∀ job, server.lastJob = some job → ∀ (submission : Submission) (now : Nat)
    (error : String), submission.jobId = some job.jobId →
      validateShare deps server.pool.history.manager submission now = .ok (.invalid error) →
        error ≠ "Job Expired" ∧ error ≠ "Stale Job"

theorem Steady.agreement {server : Server} (steady : Steady server) (deps : Externals) :
    Agreement deps server where
  single := by
    rw [steady.loops, List.length_map]
    cases server.pool.updates.running <;> simp
  current := fun job isLast => by
    have isCurrent := steady.current.symm.trans isLast
    exact ⟨isCurrent, steady.history.current job isCurrent⟩
  latest := fun job isLast peer member => (steady.peers peer member).latest job isLast
  ordered := fun peer member => (steady.peers peer member).inOrder.ordered
  accepted := fun job isLast submission now error named refused => by
    have isCurrent := steady.current.symm.trans isLast
    have names : WorkManager.NamesCurrent server.pool.history.manager submission job :=
      ⟨by rw [named, Option.bind_some, steady.history.current job isCurrent], isCurrent⟩
    exact names.refusal refused

/-- In every run miners and pool agree on the current job. -/
theorem agreement_of_run {deps : Externals} {settings : DeliverySettings}
    {walletAddress poolTarget : Text} {events : List ServerEvent} {server : Server}
    (reached : run (next deps settings) (initial walletAddress poolTarget) events = some server) :
    Agreement deps server := by
  have steady : Steady server := run_invariant Steady (fun steady step => steady.next step)
    (steady_initial walletAddress poolTarget) reached
  exact steady.agreement deps

/-- A client that is authorized before the first job learns it by the
broadcast. -/
theorem exists_run_first_job {deps : Externals} {walletAddress poolTarget : Text} {job : Job}
    {template : BlockTemplate} {manager : WorkManager}
    (issued : generateJob deps (.initial walletAddress poolTarget) true (.ok (some template)) =
      (manager, .ok job)) :
    ∃ server, run (next deps ⟨true, 1200⟩) (initial walletAddress poolTarget)
        [.updateJob true, .connect, .authorize 0 none fun _ => 0,
          .answered 0 (.ok (some template)) fun _ => 0] = some server ∧
      server.lastJob = some job ∧ server.clients.map Peer.notified = [[job]] := by
  let asked : Server :=
    { pool := ⟨Updates.initial.create true, .initial walletAddress poolTarget⟩
      loops := [⟨0, true⟩]
      lastJob := none
      clients := [Peer.connected.authorize ⟨true, 1200⟩ none 1 none fun _ => 0]
      resends := [] }
  have outcome : asked.answered deps 0 ⟨0, true⟩ (.ok (some template)) (fun _ => 0) =
      generated { asked with pool := ⟨asked.pool.updates, ⟨manager, [job]⟩⟩ } 0 ⟨0, true⟩ job
        fun _ => 0 := by
    have sameManager : generateJob deps asked.pool.history.manager true (.ok (some template)) =
        (manager, .ok job) := issued
    simp only [answered, sameManager]
    rfl
  exact ⟨_, congrArg some outcome, rfl, rfl⟩

/-- In the run with one client and one job they agree on it. -/
theorem agreement_first_job :
    ∃ events server job, run (next WorkManager.packagesExample ⟨true, 1200⟩)
        (initial WorkManager.walletExample WorkManager.easiestTarget) events = some server ∧
      server.lastJob = some job ∧ server.clients.map Peer.notified = [[job]] ∧
      Agreement WorkManager.packagesExample server := by
  obtain ⟨job, issued, _⟩ := WorkManager.exists_generateJob
    (WorkManager.accepted_payingCoinbase ⟨2, by decide⟩ WorkManager.easiestTarget
      (.initial WorkManager.walletExample WorkManager.easiestTarget) rfl) true
  rcases exists_run_first_job issued with ⟨server, reached, isLast, notified⟩
  exact ⟨_, server, job, reached, isLast, notified, agreement_of_run reached⟩

end Server

end ZcashSoloPool.Pool
