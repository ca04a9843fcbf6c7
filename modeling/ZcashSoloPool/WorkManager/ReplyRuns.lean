import ZcashSoloPool.WorkManager.JobTable
import ZcashSoloPool.WorkManager.PlainReply

/-!
# Runs over replies

Calls of `generateJob` one after the other, with whatever the node replies to
each.  The current job stands in the table after every run.  A run over plain
replies is a history of the work manager that is given templates, state by
state, so the laws of its table hold for what the node really sends.
-/

namespace ZcashSoloPool.WorkManager.Raw

open ZcashSoloPool.JavaScript
open ZcashSoloPool.Collections
open ZcashSoloPool.Rpc
open ZcashSoloPool.Effects
open ZcashSoloPool.Transition

/-- A call of `generateJob` and the reply to it. -/
structure Call where
  cleanJobs : Bool
  reply : Except RpcError (Option Json)

namespace Manager

/-- Before the first call. -/
def initial (walletAddress : Text) : Manager where
  walletAddress := walletAddress
  currentJob := none
  table := ⟨.empty, Nat.zero_le 64⟩
  jobCounter := 0

/-- The state in which a call ends, by a return or by a throw. -/
def perform (env : Environment) (manager : Manager) (call : Call) : Manager :=
  final (generateJob env call.reply call.cleanJobs) manager

/-- The state after a list of calls. -/
def after (env : Environment) (walletAddress : Text) (calls : List Call) : Manager :=
  calls.foldl (perform env) (initial walletAddress)

end Manager

/-! ## Any replies -/

/-- The current job stands in the table under its id. -/
def CurrentListed (manager : Manager) : Prop :=
  ∀ job, manager.currentJob = some job → manager.table.jobs.get? job.jobId = some job

theorem CurrentListed.perform {manager : Manager} (listed : CurrentListed manager)
    (env : Environment) (call : Call) : CurrentListed (manager.perform env call) := by
  unfold Manager.perform final
  cases outcome : generateJob env call.reply call.cleanJobs manager with
  | ok job target =>
      have issued := ensures_generateJob env call.reply call.cleanJobs manager job target outcome
      intro current currentEq
      rw [issued.1] at currentEq
      cases currentEq
      exact issued.2
  | error error target =>
      have kept := atomic_generateJob env call.reply call.cleanJobs manager error target outcome
      intro current currentEq
      rw [kept.currentJob] at currentEq
      rw [kept.table]
      exact listed current currentEq

/-- The node cannot part the current job from the table, whatever it replies. -/
theorem currentListed_after (env : Environment) (walletAddress : Text) (calls : List Call) :
    CurrentListed (.after env walletAddress calls) := by
  have initially : CurrentListed (.initial walletAddress) := by
    intro job absent
    cases absent
  exact foldl_invariant (Manager.perform env) CurrentListed
    (fun _ call listed => listed.perform env call) initially calls

/-! ## Plain replies -/

/-- A state with the state it is read as. -/
structure ManagerShows (env : Environment) (raw : Manager) (manager : WorkManager) : Prop where
  walletAddress : raw.walletAddress = manager.walletAddress
  currentJob : Option.Rel (JobShows env) raw.currentJob manager.currentJob
  jobs : raw.table.jobs.Related (JobShows env) manager.jobs
  jobCounter : raw.jobCounter = manager.jobCounter

/-- A call whose reply is plain or an error. -/
inductive CallShows (env : Environment) : Call → ManagerCall → Prop
  | failed (cleanJobs : Bool) (error : RpcError) (message : String) :
      CallShows env ⟨cleanJobs, .error error⟩ (.generateJob cleanJobs (.error message))
  | answered {reply : Option Json} {template : Option BlockTemplate} (cleanJobs : Bool)
      (shows : ReplyShows env reply template) :
      CallShows env ⟨cleanJobs, .ok reply⟩ (.generateJob cleanJobs (.ok template))

theorem managerShows_initial (env : Environment) (walletAddress poolTarget : Text) :
    ManagerShows env (.initial walletAddress) (.initial walletAddress poolTarget) where
  walletAddress := rfl
  currentJob := Option.Rel.none
  jobs := OrderedMap.related_empty
  jobCounter := rfl

theorem ManagerShows.count {env : Environment} {raw : Manager} {manager : WorkManager}
    (shows : ManagerShows env raw manager) :
    ManagerShows env raw.count { manager with jobCounter := manager.jobCounter + 1 } :=
  ⟨shows.walletAddress, shows.currentJob, shows.jobs, congrArg (· + 1) shows.jobCounter⟩

/-- The two tables are emptied, filled, filtered and trimmed alike. -/
theorem ManagerShows.issue {env : Environment} {raw : Manager} {manager : WorkManager}
    (shows : ManagerShows env raw manager) {rawJob : Job} {job : WorkManager.Job}
    (jobShows : JobShows env rawJob job) :
    ManagerShows env (raw.issue job.cleanJobs rawJob) (issueJob manager job) where
  walletAddress := shows.walletAddress
  currentJob := Option.Rel.some jobShows
  jobs := by
    have base : (if job.cleanJobs then OrderedMap.empty else raw.table.jobs).Related (JobShows env)
        (baseJobs manager job) := by
      unfold baseJobs
      split
      · exact OrderedMap.related_empty
      · exact shows.jobs
    rw [issueJob_jobs, keptJobs]
    change OrderedMap.Related _ ((ofHeight (withJob _ _ _) rawJob).trim 64) _
    unfold ofHeight withJob
    rw [jobShows.jobId]
    refine ((base.set job.jobId jobShows).filter fun id rawOther other otherShows => ?_).trim 64
    rw [strictEq_of_plain otherShows.height jobShows.height]
  jobCounter := shows.jobCounter

/-- One call on both sides. -/
theorem ManagerShows.perform {env : Environment} {raw : Manager} {history : History}
    (shows : ManagerShows env raw history.manager) {call : Call} {managerCall : ManagerCall}
    (callShows : CallShows env call managerCall) :
    ManagerShows env (raw.perform env call) (history.perform env.deps managerCall).manager := by
  cases callShows with
  | failed cleanJobs error message => exact shows
  | @answered reply template cleanJobs replyShows =>
      have jobs := agree_buildJob history.manager.walletAddress
        (hexText (history.manager.jobCounter + 1)) cleanJobs replyShows
      rw [Manager.perform, final, generateJob_answered, shows.walletAddress, shows.jobCounter,
        History.perform, History.record_manager, WorkManager.generateJob]
      dsimp only
      cases built : WorkManager.buildJob env.deps history.manager.walletAddress
          (hexText (history.manager.jobCounter + 1)) cleanJobs template with
      | error message =>
          rw [built] at jobs
          obtain ⟨error, thrown⟩ := jobs.of_error
          rw [thrown]
          exact shows.count
      | ok job =>
          rw [built] at jobs
          obtain ⟨rawJob, returned, jobShows⟩ := jobs.of_ok
          rw [returned, ← (History.jobId_of_buildJob built).2]
          exact shows.count.issue jobShows

/-- A run over plain replies goes through the states of the history with their
templates. -/
theorem managerShows_after {env : Environment} (walletAddress poolTarget : Text)
    {calls : List Call} {managerCalls : List ManagerCall}
    (callsShow : List.Forall₂ (CallShows env) calls managerCalls) :
    ManagerShows env (.after env walletAddress calls)
      (History.after env.deps walletAddress poolTarget managerCalls).manager :=
  List.rel_foldl (R := CallShows env)
    (P := fun raw history => ManagerShows env raw (History.manager history))
    (fun _ _ shows _ _ callShows => shows.perform callShows)
    (managerShows_initial env walletAddress poolTarget) callsShow

/-- After a run over plain replies every job in the table stands under its id and
has the height of the current job. -/
theorem heights_after {env : Environment} (walletAddress : Text) {calls : List Call}
    {managerCalls : List ManagerCall} (callsShow : List.Forall₂ (CallShows env) calls managerCalls)
    {id : Text} {job : Job}
    (found : (Manager.after env walletAddress calls).table.jobs.get? id = some job) :
    job.jobId = id ∧ ∃ current, (Manager.after env walletAddress calls).currentJob = some current ∧
      strictEq job.height current.height = true := by
  have shows := managerShows_after walletAddress [] callsShow
  have inv := History.invariant_after env.deps walletAddress [] managerCalls
  obtain ⟨typed, typedFound, jobShows⟩ := shows.jobs.exists_get? found
  obtain ⟨currentTyped, currentEq, heightEq⟩ := inv.heights id typed typedFound
  have currentShows := shows.currentJob
  rw [currentEq] at currentShows
  generalize (Manager.after env walletAddress calls).currentJob = current at currentShows ⊢
  cases currentShows with
  | some shown =>
      refine ⟨jobShows.jobId.trans (inv.listed id typed typedFound).2, _, rfl, ?_⟩
      rw [strictEq_of_plain jobShows.height shown.height]
      exact decide_eq_true heightEq

end ZcashSoloPool.WorkManager.Raw
