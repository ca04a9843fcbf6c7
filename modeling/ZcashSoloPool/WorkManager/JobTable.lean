import ZcashSoloPool.WorkManager.ShareSearch
import ZcashSoloPool.Transition.Run

/-!
# The job table over whole runs

Calls of `generateJob` and `validateShare` in any order.  A history is the
state of the work manager with the jobs it has issued so far, oldest first.
The invariant of the table says what the table keeps of that list; stale and
expired shares are refused because of it.
-/

namespace ZcashSoloPool.WorkManager

open ZcashSoloPool.JavaScript
open ZcashSoloPool.Collections
open ZcashSoloPool.Transition

/-- A call of the work manager.  `generateJob` takes effect when the node has
answered, and `validateShare` is told the time. -/
inductive ManagerCall where
  | generateJob (cleanJobs : Bool) (reply : Except String (Option BlockTemplate))
  | validateShare (submission : Submission) (now : Nat)

/-- The state of the work manager with the jobs it has issued. -/
structure History where
  manager : WorkManager
  issued : List Job

namespace History

/-- Before the first call. -/
def initial (walletAddress poolTarget : Text) : History :=
  ⟨.initial walletAddress poolTarget, []⟩

/-- Note the outcome of a `generateJob`. -/
def record (history : History) : WorkManager × Except String Job → History
  | (manager, .ok job) => ⟨manager, history.issued ++ [job]⟩
  | (manager, .error _) => ⟨manager, history.issued⟩

theorem record_manager (history : History) (outcome : WorkManager × Except String Job) :
    (history.record outcome).manager = outcome.1 := by
  rcases outcome with ⟨manager, _ | _⟩ <;> rfl

/-- One call.  A validation changes nothing. -/
def perform (deps : Externals) (history : History) : ManagerCall → History
  | .generateJob cleanJobs reply =>
      history.record (generateJob deps history.manager cleanJobs reply)
  | .validateShare _ _ => history

/-- The history after a list of calls. -/
def after (deps : Externals) (walletAddress poolTarget : Text) (calls : List ManagerCall) :
    History :=
  calls.foldl (perform deps) (initial walletAddress poolTarget)

/-- What the table keeps of the issued jobs. -/
structure Invariant (history : History) : Prop where
  size : history.manager.jobs.size ≤ 64
  listed : ∀ id job, history.manager.jobs.get? id = some job →
    job ∈ history.issued ∧ job.jobId = id
  current : ∀ job, history.manager.currentJob = some job →
    history.manager.jobs.get? job.jobId = some job
  heights : ∀ id job, history.manager.jobs.get? id = some job →
    ∃ currentJob, history.manager.currentJob = some currentJob ∧ job.height = currentJob.height
  numbered : ∀ job ∈ history.issued,
    ∃ number ≤ history.manager.jobCounter, job.jobId = hexText number
  nodup : (history.issued.map Job.jobId).Nodup
  cleared : ∀ earlier job later, history.issued = earlier ++ job :: later → job.cleanJobs = true →
    ∀ old ∈ earlier, history.manager.jobs.get? old.jobId = none

theorem invariant_initial (walletAddress poolTarget : Text) :
    Invariant (initial walletAddress poolTarget) where
  size := Nat.zero_le _
  listed := fun _ _ found => nomatch found
  current := fun _ found => nomatch found
  heights := fun _ _ found => nomatch found
  numbered := by simp [initial]
  nodup := by simp [initial]
  cleared := by simp [initial]

end History

/-! ## One issue -/

/-- The table that a job is put into. -/
def baseJobs (manager : WorkManager) (job : Job) : OrderedMap Text Job :=
  if job.cleanJobs then .empty else manager.jobs

/-- The table after an issue, before the oldest job goes. -/
def keptJobs (manager : WorkManager) (job : Job) : OrderedMap Text Job :=
  ((baseJobs manager job).set job.jobId job).filter
    fun id j => decide (id = job.jobId) || decide (j.height = job.height)

theorem issueJob_jobs (manager : WorkManager) (job : Job) :
    (issueJob manager job).jobs = (keptJobs manager job).trim 64 :=
  rfl

/-- What stays in the table was there before with the new height, and no clean
job was issued; or it is the new job. -/
theorem get?_keptJobs_eq_some {manager : WorkManager} {job other : Job} {id : Text} :
    (keptJobs manager job).get? id = some other ↔
      (id = job.jobId ∧ other = job) ∨
        (id ≠ job.jobId ∧ job.cleanJobs = false ∧ manager.jobs.get? id = some other ∧
          other.height = job.height) := by
  rw [keptJobs, OrderedMap.get?_filter_eq_some_iff]
  by_cases same : id = job.jobId
  · subst same
    rw [OrderedMap.get?_set_self]
    constructor
    · rintro ⟨newJob, _⟩
      exact Or.inl ⟨rfl, (Option.some.inj newJob).symm⟩
    · rintro (⟨_, rfl⟩ | ⟨different, _⟩)
      · exact ⟨rfl, by simp⟩
      · exact absurd rfl different
  · rw [OrderedMap.get?_set_of_ne same, baseJobs]
    cases job.cleanJobs <;> simp [same]

theorem get?_issueJob {manager : WorkManager} {job other : Job} {id : Text}
    (found : (issueJob manager job).jobs.get? id = some other) :
    (keptJobs manager job).get? id = some other := by
  rw [issueJob_jobs, OrderedMap.trim] at found
  split at found
  · exact OrderedMap.get?_deleteOldest_eq_some found
  · exact found

theorem size_issueJob {manager : WorkManager} {job : Job} (small : manager.jobs.size ≤ 64) :
    (issueJob manager job).jobs.size ≤ 64 := by
  have before : (baseJobs manager job).size ≤ 64 := by
    unfold baseJobs
    split
    · exact Nat.zero_le _
    · exact small
  have added := OrderedMap.size_set_le (baseJobs manager job) job.jobId job
  rw [issueJob_jobs]
  apply OrderedMap.size_trim_le
  exact (OrderedMap.size_filter_le _ _).trans (added.trans (Nat.succ_le_succ before))

/-- A job with a fresh id is never the oldest one of a full table. -/
theorem get?_issueJob_self {manager : WorkManager} {job : Job}
    (fresh : manager.jobs.get? job.jobId = none) :
    (issueJob manager job).jobs.get? job.jobId = some job := by
  have absent : job.jobId ∉ (baseJobs manager job).entries.map Prod.fst := by
    intro member
    obtain ⟨⟨id, old⟩, entry, rfl⟩ := List.mem_map.mp member
    unfold baseJobs at entry
    split at entry
    · exact absurd entry List.not_mem_nil
    · exact OrderedMap.get?_eq_none_iff.mp fresh old entry
  obtain ⟨front, last⟩ := OrderedMap.exists_entries_filter_set absent job
    (fun id j => decide (id = job.jobId) || decide (j.height = job.height)) (by simp)
  rw [issueJob_jobs]
  exact OrderedMap.get?_trim_of_last (by decide) last

/-! ## One call -/

namespace History

/-- An issued job carries the flag of its call and the next number. -/
theorem jobId_of_buildJob {deps : Externals} {walletAddress jobId : Text} {cleanJobs : Bool}
    {reply : Option BlockTemplate} {job : Job}
    (built : buildJob deps walletAddress jobId cleanJobs reply = .ok job) :
    job.jobId = jobId ∧ job.cleanJobs = cleanJobs := by
  obtain ⟨_, _, _, _, _, _, _, _, _, _, _, _, rfl⟩ := buildJob_eq_ok.mp built
  exact ⟨rfl, rfl⟩

theorem Invariant.count {history : History} (inv : Invariant history) :
    Invariant ⟨{ history.manager with jobCounter := history.manager.jobCounter + 1 },
      history.issued⟩ where
  size := inv.size
  listed := inv.listed
  current := inv.current
  heights := inv.heights
  numbered := fun job member => by
    rcases inv.numbered job member with ⟨number, bound, idEq⟩
    exact ⟨number, Nat.le_succ_of_le bound, idEq⟩
  nodup := inv.nodup
  cleared := inv.cleared

/-- A job under the next number keeps the invariant. -/
theorem Invariant.issue {history : History} (inv : Invariant history) {job : Job}
    (idEq : job.jobId = hexText (history.manager.jobCounter + 1)) :
    Invariant ⟨issueJob { history.manager with jobCounter := history.manager.jobCounter + 1 } job,
      history.issued ++ [job]⟩ := by
  have fresh : ∀ old ∈ history.issued, old.jobId ≠ job.jobId := by
    intro old member same
    rcases inv.numbered old member with ⟨number, bound, oldEq⟩
    have := hexText_injective (oldEq.symm.trans (same.trans idEq))
    omega
  have unused : history.manager.jobs.get? job.jobId = none := by
    cases found : history.manager.jobs.get? job.jobId with
    | none => rfl
    | some old =>
        rcases inv.listed _ old found with ⟨member, same⟩
        exact absurd same (fresh old member)
  refine ⟨size_issueJob inv.size, fun id other found => ?_, fun current currentEq => ?_,
    fun id other found => ⟨job, rfl, ?_⟩, fun other member => ?_, ?_,
    fun earlier other later split clean old oldMember => ?_⟩
  · rcases get?_keptJobs_eq_some.mp (get?_issueJob found) with ⟨rfl, rfl⟩ | ⟨_, _, old, _⟩
    · exact ⟨by simp, rfl⟩
    · rcases inv.listed id other old with ⟨member, same⟩
      exact ⟨List.mem_append_left _ member, same⟩
  · cases currentEq
    exact get?_issueJob_self unused
  · rcases get?_keptJobs_eq_some.mp (get?_issueJob found) with ⟨_, rfl⟩ | ⟨_, _, _, height⟩
    · rfl
    · exact height
  · rcases List.mem_append.mp member with old | new
    · rcases inv.numbered other old with ⟨number, bound, otherEq⟩
      exact ⟨number, Nat.le_succ_of_le bound, otherEq⟩
    · rw [List.mem_singleton.mp new]
      exact ⟨_, Nat.le_refl _, idEq⟩
  · rw [List.map_append, List.map_singleton, ← List.concat_eq_append]
    refine inv.nodup.concat fun member => ?_
    rcases List.mem_map.mp member with ⟨old, oldMember, same⟩
    exact fresh old oldMember same
  · -- Either the new job is the clean one, or the clean one was issued before.
    have oldIssued : old ∈ history.issued ∧
        (job.cleanJobs = true ∨ history.manager.jobs.get? old.jobId = none) := by
      rcases List.eq_nil_or_concat later with rfl | ⟨front, last, rfl⟩
      · obtain ⟨rfl, rest⟩ := List.append_inj' split rfl
        cases rest
        exact ⟨oldMember, Or.inl clean⟩
      · rw [List.concat_eq_append, ← List.cons_append, ← List.append_assoc] at split
        rcases List.append_inj' split rfl with ⟨before, _⟩
        refine ⟨?_, Or.inr (inv.cleared earlier other front before clean old oldMember)⟩
        rw [before]
        exact List.mem_append_left _ oldMember
    cases found : (issueJob { history.manager with
        jobCounter := history.manager.jobCounter + 1 } job).jobs.get? old.jobId with
    | none => rfl
    | some kept =>
        rcases get?_keptJobs_eq_some.mp (get?_issueJob found) with
          ⟨same, _⟩ | ⟨_, notClean, stillThere, _⟩
        · exact absurd same (fresh old oldIssued.1)
        · rcases oldIssued.2 with isClean | gone
          · rw [isClean] at notClean
            contradiction
          · rw [show history.manager.jobs.get? old.jobId = some kept from stillThere] at gone
            contradiction

/-- Every call keeps the invariant. -/
theorem Invariant.perform {deps : Externals} {history : History} (inv : Invariant history)
    (call : ManagerCall) : Invariant (history.perform deps call) := by
  cases call with
  | validateShare submission now => exact inv
  | generateJob cleanJobs reply =>
      rw [History.perform]
      rcases generateJob_cases deps history.manager cleanJobs reply with
        ⟨message, failed⟩ | ⟨message, failed⟩ | ⟨template, job, _, built, issued⟩
      · rw [failed]
        exact inv
      · rw [failed]
        exact inv.count
      · rw [issued]
        exact inv.issue (jobId_of_buildJob built).1

/-- The invariant holds after every list of calls. -/
theorem invariant_after (deps : Externals) (walletAddress poolTarget : Text)
    (calls : List ManagerCall) : Invariant (after deps walletAddress poolTarget calls) :=
  foldl_invariant (perform deps) Invariant (fun _ call inv => inv.perform call)
    (invariant_initial walletAddress poolTarget) calls

end History

namespace History

theorem issued_perform {deps : Externals} {history : History}
    (issued : ∀ job ∈ history.issued, Issued deps job) (call : ManagerCall) :
    ∀ job ∈ (history.perform deps call).issued, Issued deps job := by
  cases call with
  | validateShare submission now => exact issued
  | generateJob cleanJobs reply =>
      rw [History.perform]
      rcases generateJob_cases deps history.manager cleanJobs reply with
        ⟨message, failed⟩ | ⟨message, failed⟩ | ⟨template, job, _, built, result⟩
      · rw [failed]
        exact issued
      · rw [failed]
        exact issued
      · rw [result]
        intro other member
        rcases List.mem_append.mp member with old | new
        · exact issued other old
        · rw [List.mem_singleton.mp new]
          exact ⟨_, _, _, template, built⟩

/-- Every job in the table was built by `generateJob`. -/
theorem issued_after (deps : Externals) (walletAddress poolTarget : Text) (calls : List ManagerCall)
    {id : Text} {job : Job}
    (found : (after deps walletAddress poolTarget calls).manager.jobs.get? id = some job) :
    Issued deps job := by
  have member := ((invariant_after deps walletAddress poolTarget calls).listed id job found).1
  exact foldl_invariant (perform deps) (fun history => ∀ job ∈ history.issued, Issued deps job)
    (fun _ call issued => issued_perform issued call) (by simp [initial]) calls job member

end History

/-! ## What the table guarantees -/

/-- The work manager accepts a share for the job with this id. -/
def Accepts (deps : Externals) (manager : WorkManager) (jobId : Text) : Prop :=
  ∃ submission now share, submission.jobId = some jobId ∧
    validateShare deps manager submission now = .ok (.valid share)

theorem Accepts.exists_job {deps : Externals} {manager : WorkManager} {jobId : Text}
    (accepts : Accepts deps manager jobId) : ∃ job, manager.jobs.get? jobId = some job := by
  rcases accepts with ⟨submission, now, share, idEq, accepted⟩
  rcases validateShare_eq_valid_iff.mp accepted with ⟨ctx, prepared, _⟩
  have found := prepared.job
  rw [idEq, Option.bind_some] at found
  exact ⟨ctx.job, found⟩

/-- The laws of the job table and of stale shares. -/
structure TableLaws (deps : Externals) (history : History) : Prop where
  /-- At most 64 jobs. -/
  size : history.manager.jobs.size ≤ 64
  /-- The current job is in the table under its own id. -/
  current : ∀ job, history.manager.currentJob = some job →
    history.manager.jobs.get? job.jobId = some job
  /-- Every job in the table has the height of the current job. -/
  heights : ∀ id job, history.manager.jobs.get? id = some job →
    ∃ currentJob, history.manager.currentJob = some currentJob ∧ job.height = currentJob.height
  /-- No id is issued twice. -/
  nodup : (history.issued.map Job.jobId).Nodup
  /-- A share is accepted only for an issued job of the current height. -/
  accepted : ∀ id, Accepts deps history.manager id → ∃ job ∈ history.issued, job.jobId = id ∧
    ∃ currentJob, history.manager.currentJob = some currentJob ∧ job.height = currentJob.height
  /-- After a clean job no share is accepted for a job issued before it. -/
  cleared : ∀ earlier job later, history.issued = earlier ++ job :: later → job.cleanJobs = true →
    ∀ old ∈ earlier, ¬Accepts deps history.manager old.jobId

/-- The laws hold after every list of calls. -/
theorem tableLaws_after (deps : Externals) (walletAddress poolTarget : Text)
    (calls : List ManagerCall) :
    TableLaws deps (History.after deps walletAddress poolTarget calls) := by
  have inv := History.invariant_after deps walletAddress poolTarget calls
  refine ⟨inv.size, inv.current, inv.heights, inv.nodup, fun id accepts => ?_,
    fun earlier job later split clean old member accepts => ?_⟩
  · rcases accepts.exists_job with ⟨job, found⟩
    rcases inv.listed id job found with ⟨issued, idEq⟩
    exact ⟨job, issued, idEq, inv.heights id job found⟩
  · rcases accepts.exists_job with ⟨job', found⟩
    rw [inv.cleared earlier job later split clean old member] at found
    contradiction

/-! ## Shares for the current job -/

/-- A step that does not end the function with this rejection. -/
def Avoids {α : Type} (error : String) (step : Except Halt α) : Prop :=
  step ≠ .error (.ok (.invalid error))

/-- The job that a submission names is the current one. -/
structure NamesCurrent (manager : WorkManager) (submission : Submission) (job : Job) : Prop where
  found : submission.jobId.bind manager.jobs.get? = some job
  current : manager.currentJob = some job

/-- The checks refuse no share for the current job as expired or stale. -/
theorem NamesCurrent.avoids_prepare {manager : WorkManager} {submission : Submission} {job : Job}
    (names : NamesCurrent manager submission job) (now : Nat) {error : String}
    (refusal : error ∈ ["Job Expired", "Stale Job"]) :
    Avoids error (prepare manager submission now) := by
  intro ended
  cases refusal_of_prepare ended with
  | expired unknown =>
      rw [names.found] at unknown
      contradiction
  | stale found old =>
      rw [names.found] at found
      cases found
      simp [isStale, names.current] at old
  | _ => exact absurd refusal (by decide)

/-- A rejection comes from the checks or ends a search without a hit. -/
theorem validateShare_invalid_cases {deps : Externals} {manager : WorkManager}
    {submission : Submission} {now : Nat} {error : String}
    (rejected : validateShare deps manager submission now = .ok (.invalid error)) :
    prepare manager submission now = .error (.ok (.invalid error)) ∨
      error ∈ ["Low Diff", "Invalid solution"] := by
  rcases validateShare_cases deps manager submission now with
    refused | ⟨ctx, _, ⟨candidate, _, ended⟩ | ⟨reason, listed, ended⟩⟩
  · rw [rejected] at refused
    exact Or.inl refused
  · exact absurd (ended.symm.trans rejected) (acceptShare_ne_invalid error)
  · cases ended.symm.trans rejected
    exact Or.inr listed

/-- A share for the current job is never answered as expired or stale. -/
theorem NamesCurrent.refusal {deps : Externals} {manager : WorkManager} {submission : Submission}
    {job : Job} (names : NamesCurrent manager submission job) {now : Nat} {error : String}
    (refused : validateShare deps manager submission now = .ok (.invalid error)) :
    error ≠ "Job Expired" ∧ error ≠ "Stale Job" := by
  have notListed : error ∉ ["Job Expired", "Stale Job"] := by
    intro refusal
    rcases validateShare_invalid_cases refused with ended | searched
    · exact names.avoids_prepare now refusal ended
    · clear refused
      revert refusal
      revert error
      decide
  simpa using notListed

end ZcashSoloPool.WorkManager
