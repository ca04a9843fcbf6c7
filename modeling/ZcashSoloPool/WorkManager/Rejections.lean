import ZcashSoloPool.WorkManager.JobTable

/-!
# The reasons of rejections

The texts with which `validateShare` rejects a submission.  Two of them blame a
field that is no hex; the submission and the table of jobs decide whether one of
these two is given.
-/

namespace ZcashSoloPool.WorkManager

open ZcashSoloPool.JavaScript

/-- The nonce of a submission as hex. -/
def Submission.nonceHex (submission : Submission) : Option Text :=
  normalizeHexField (.ofText? submission.nonce) true 128

/-- The solution of a submission as hex. -/
def Submission.solutionHex (submission : Submission) : Option Text :=
  normalizeHexField (.ofText? submission.solution) false 60000

/-- The submission names a known job that is not stale, with a time of four
bytes. -/
def Timely (manager : WorkManager) (submission : Submission) : Prop :=
  ∃ job, submission.jobId.bind manager.jobs.get? = some job ∧ isStale manager job = false ∧
    ∃ nTimeBE, normalizeNTime submission.nTime = some nTimeBE

/-- A timely submission whose nonce or solution is no hex. -/
def Unreadable (manager : WorkManager) (submission : Submission) : Prop :=
  Timely manager submission ∧ (submission.nonceHex = none ∨ submission.solutionHex = none)

/-- The rejections that blame an unreadable field. -/
def unreadableReasons : List String :=
  ["Nonce is not valid hex", "Solution is not valid hex"]

/-- The other rejections. -/
def otherReasons : List String :=
  ["Job Expired", "Stale Job", "Invalid nTime size", "Invalid nonce/solution layout",
    "Invalid solution", "Low Diff"]

/-- The reason that an unreadable submission is given. -/
theorem validateShare_of_unreadable (deps : Externals) {manager : WorkManager}
    {submission : Submission} (unreadable : Unreadable manager submission) (now : Nat) :
    ∃ error ∈ unreadableReasons,
      validateShare deps manager submission now = .ok (.invalid error) := by
  obtain ⟨⟨job, found, fresh, nTimeBE, nTime⟩, field⟩ := unreadable
  have prepared : ∃ error ∈ unreadableReasons,
      prepare manager submission now = .error (.ok (.invalid error)) := by
    unfold prepare
    rw [found, nTime]
    cases nonce : submission.nonceHex with
    | none =>
        refine ⟨"Nonce is not valid hex", List.mem_cons_self, ?_⟩
        rw [Submission.nonceHex] at nonce
        simp [orReject, fresh, nonce, bind, Except.bind]
    | some nonceHex =>
        have solution : submission.solutionHex = none := by
          rcases field with noNonce | noSolution
          · rw [nonce] at noNonce
            contradiction
          · exact noSolution
        refine ⟨"Solution is not valid hex", List.mem_cons_of_mem _ List.mem_cons_self, ?_⟩
        rw [Submission.nonceHex] at nonce
        rw [Submission.solutionHex] at solution
        simp [orReject, fresh, nonce, solution, bind, Except.bind]
  obtain ⟨error, listed, ended⟩ := prepared
  refine ⟨error, listed, ?_⟩
  rw [validateShare, ended]

/-- The checks reject a readable submission for one of the other reasons. -/
theorem avoids_prepare_of_readable {manager : WorkManager} {submission : Submission}
    (readable : ¬Unreadable manager submission) (now : Nat) {error : String}
    (unlisted : error ∉ otherReasons) : Avoids error (prepare manager submission now) := by
  intro ended
  cases refusal_of_prepare ended with
  | nonce found fresh timed unread =>
      exact readable ⟨⟨_, found, fresh, _, timed⟩, Or.inl unread⟩
  | solution found fresh timed unread =>
      exact readable ⟨⟨_, found, fresh, _, timed⟩, Or.inr unread⟩
  | _ => exact unlisted (by decide)

/-- A readable submission is rejected for one of the other reasons. -/
theorem mem_otherReasons_of_readable {deps : Externals} {manager : WorkManager}
    {submission : Submission} (readable : ¬Unreadable manager submission) {now : Nat}
    {error : String}
    (rejected : validateShare deps manager submission now = .ok (.invalid error)) :
    error ∈ otherReasons := by
  by_contra unlisted
  rcases validateShare_invalid_cases rejected with ended | searched
  · exact avoids_prepare_of_readable readable now unlisted ended
  · clear rejected
    revert unlisted
    revert error
    decide

/-- Which kind of reason a rejected submission is given. -/
theorem mem_unreadableReasons_iff {deps : Externals} {manager : WorkManager}
    {submission : Submission} {now : Nat} {error : String}
    (rejected : validateShare deps manager submission now = .ok (.invalid error)) :
    error ∈ unreadableReasons ↔ Unreadable manager submission := by
  constructor
  · intro blames
    by_contra readable
    have other := mem_otherReasons_of_readable readable rejected
    revert blames
    revert other
    clear rejected
    revert error
    decide
  · intro unreadable
    obtain ⟨reason, listed, given⟩ := validateShare_of_unreadable deps unreadable now
    cases rejected.symm.trans given
    exact listed

end ZcashSoloPool.WorkManager
