import ZcashSoloPool.Pool.System
import ZcashSoloPool.WorkManager.Payout

/-!
# Announced jobs and the clean flag

A job that makes the pool drop jobs of another height should be announced as
clean.  The flag is chosen when an update is requested and the height is known
only when the template arrives.
-/

namespace ZcashSoloPool.Pool

open ZcashSoloPool.JavaScript
open ZcashSoloPool.Transition
open ZcashSoloPool.WorkManager
open ZcashSoloPool.Bytes

/-- The step from one job table to the next drops a job whose height is not
that of the new job. -/
def DropsForHeight (before after : WorkManager) (job : Job) : Prop :=
  ∃ id old, before.jobs.get? id = some old ∧ after.jobs.get? id = none ∧ old.height ≠ job.height

/-- A job that drops another one for its height is announced as clean. -/
def AnnouncedClean (deps : Externals) (pool : State) : Event → Prop
  | .answered reply => ∀ after job, pool.outcome deps reply = (after, .ok job) →
      DropsForHeight pool.history.manager after job → job.cleanJobs = true
  | _ => True

/-- An accepted template that arrives for an attempt without the clean flag has
the height of the current job. -/
def KeepsHeight (deps : Externals) (pool : State) : Event → Prop
  | .answered reply => pool.forceClean = false → ∀ template, reply = .ok (some template) →
      Accepted deps pool.history.manager template → ∀ currentJob,
        pool.history.manager.currentJob = some currentJob → template.height = currentJob.height
  | _ => True

/-- At one step of a pool whose table keeps its invariant, the two laws are the
same. -/
theorem announcedClean_iff_keepsHeight (deps : Externals) (pool : State) (event : Event)
    (inv : pool.history.Invariant) :
    AnnouncedClean deps pool event ↔ KeepsHeight deps pool event := by
  cases event with
  | updateJob requestedClean => exact Iff.rfl
  | resume caller => exact Iff.rfl
  | answered reply =>
      constructor
      · intro announced notClean template replyEq accepted currentJob current
        subst replyEq
        rcases exists_generateJob accepted pool.forceClean with ⟨job, issued, height, clean, idEq⟩
        by_contra different
        have inTable := inv.current currentJob current
        have otherId : currentJob.jobId ≠ job.jobId := by
          intro same
          rcases inv.listed _ currentJob inTable with ⟨issuedMember, _⟩
          rcases inv.numbered currentJob issuedMember with ⟨number, bound, numberEq⟩
          have := hexText_injective (numberEq.symm.trans (same.trans idEq))
          omega
        let counted : WorkManager :=
          { pool.history.manager with jobCounter := pool.history.manager.jobCounter + 1 }
        have dropped : DropsForHeight pool.history.manager (issueJob counted job) job := by
          refine ⟨currentJob.jobId, currentJob, inTable, ?_, fun same => ?_⟩
          · cases found : (issueJob counted job).jobs.get? currentJob.jobId with
            | none => rfl
            | some kept =>
                rcases get?_keptJobs_eq_some.mp (get?_issueJob found) with
                  ⟨same, _⟩ | ⟨_, _, stillThere, keptHeight⟩
                · exact absurd same otherId
                · have sameJob : currentJob = kept :=
                    Option.some.inj (inTable.symm.trans stillThere)
                  subst sameJob
                  exact absurd (keptHeight.trans height).symm different
          · exact different (by rw [← height, same])
        have isClean := announced _ job issued dropped
        rw [clean, notClean] at isClean
        contradiction
      · intro keeps after job issued dropped
        obtain ⟨template, rfl, accepted, height⟩ := accepted_of_generateJob issued
        by_contra notClean
        rcases dropped with ⟨id, old, inTable, _, otherHeight⟩
        rcases inv.heights id old inTable with ⟨currentJob, current, oldHeight⟩
        have flag : pool.forceClean = false := by
          have built := (generateJob_eq_ok.mp issued).1
          rw [(History.jobId_of_buildJob built).2] at notClean
          exact Bool.eq_false_iff.mpr notClean
        have same := keeps flag template rfl accepted currentJob current
        exact otherHeight (by rw [oldHeight, ← same, height])

/-- An idle pool that asks for an update and gets an accepted template issues a
job of that height and is idle again. -/
theorem exists_run_update (deps : Externals) (pool : State) (idle : Idle pool.updates)
    (requestedClean : Bool) {template : BlockTemplate}
    (accepted : Accepted deps pool.history.manager template) :
    ∃ target, run (State.next deps) pool [.updateJob requestedClean,
        .answered (.ok (some template)), .resume pool.updates.calls.length] = some target ∧
      Idle target.updates ∧
      target.history.manager.walletAddress = pool.history.manager.walletAddress ∧
      ∃ job, target.history.manager.currentJob = some job ∧ job.height = template.height := by
  rcases idle.run requestedClean with ⟨created, resumed, resumedEq, idleAgain⟩
  rcases exists_generateJob accepted requestedClean with ⟨job, issued, height, _, _⟩
  let asked : State := { pool with updates := pool.updates.create requestedClean }
  have forceClean : asked.forceClean = requestedClean := by
    simp [asked, State.forceClean, Updates.create]
  have outcome : asked.outcome deps (.ok (some template)) =
      (issueJob { pool.history.manager with
        jobCounter := pool.history.manager.jobCounter + 1 } job, .ok job) := by
    rw [State.outcome, forceClean]
    exact issued
  refine ⟨⟨resumed, pool.history.record (asked.outcome deps (.ok (some template)))⟩, ?_, idleAgain,
    ?_, job, ?_, height⟩
  · have first : State.next deps pool (.updateJob requestedClean) = some asked := by
      rw [State.next, created]
    have second : State.next deps asked (.answered (.ok (some template))) =
        some (asked.answered deps (.ok (some template)) pool.updates.promises) := rfl
    have settled : (asked.answered deps (.ok (some template)) pool.updates.promises).updates =
        (pool.updates.create requestedClean).generated pool.updates.promises := by
      simp only [State.answered, outcome]
      rfl
    have third : State.next deps (asked.answered deps (.ok (some template)) pool.updates.promises)
        (.resume pool.updates.calls.length) =
          some ⟨resumed, pool.history.record (asked.outcome deps (.ok (some template)))⟩ := by
      rw [State.next, settled, resumedEq]
      rfl
    simp only [run_cons, first, second, third, Option.bind_some, run_nil]
  · rw [outcome]
    rfl
  · rw [outcome]
    rfl

/-- In a run of the pool every job that drops others for their height is
announced as clean, exactly when no attempt without the flag gets a template
of another height than the current job. -/
theorem throughout_announcedClean_iff (deps : Externals) (walletAddress poolTarget : Text)
    (events : List Event) :
    Throughout (State.next deps) (AnnouncedClean deps) (.initial walletAddress poolTarget) events ↔
      Throughout (State.next deps) (KeepsHeight deps) (.initial walletAddress poolTarget) events :=
  throughout_iff (fun pool => pool.history.Invariant)
    (fun inv step => State.invariant_next inv step)
    (fun pool event inv => announcedClean_iff_keepsHeight deps pool event inv)
    (History.invariant_initial walletAddress poolTarget) events

/-- A refresh without the flag that gets the template of the next height first
drops the announced job in silence. -/
theorem not_throughout_announcedClean_refresh :
    ¬∀ events, Throughout (State.next packagesExample) (AnnouncedClean packagesExample)
      (.initial walletExample easiestTarget) events := by
  intro always
  obtain ⟨pool, reached, idle, wallet, job, current, height⟩ :=
    exists_run_update packagesExample (.initial walletExample easiestTarget) ⟨rfl, rfl⟩ true
      (accepted_payingCoinbase ⟨2, by decide⟩ easiestTarget _ rfl)
  let template := templateExample ⟨3, by decide⟩ easiestTarget payingCoinbase
  have refreshed := (throughout_append.mp (always (_ ++
    [.updateJob false, .answered (.ok (some template))]))).2 pool reached
  have announced := (refreshed.2 _ rfl).1
  have inv : pool.history.Invariant := run_invariant
    (fun pool : State => pool.history.Invariant) (fun inv step => State.invariant_next inv step)
    (History.invariant_initial walletExample easiestTarget) reached
  have keeps := (announcedClean_iff_keepsHeight packagesExample
    ⟨pool.updates.updateJob false, pool.history⟩ _ inv).mp announced
  have flag : State.forceClean ⟨pool.updates.updateJob false, pool.history⟩ = false := by
    simp [State.forceClean, Updates.updateJob, idle.inFlight, Updates.create]
  have same := keeps flag template rfl
    (accepted_payingCoinbase ⟨3, by decide⟩ easiestTarget _ wallet) job current
  rw [height] at same
  exact absurd same (by decide)

end ZcashSoloPool.Pool
