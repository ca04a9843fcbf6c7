import ZcashSoloPool.Pool.Lifetime
import ZcashSoloPool.Pool.ShareAccounting

/-!
# What a restart restores

The next process reads back what the file has, but for the counts of shares,
which it does not read, and values that count as false, which it takes for
missing.
-/

namespace ZcashSoloPool.Pool

open ZcashSoloPool.JavaScript
open ZcashSoloPool.Stratum
open ZcashSoloPool.Transition
open ZcashSoloPool.WorkManager (AcceptedShare Externals)

/-! ## States of a process -/

/-- A best share is better than none. -/
def KeepsBest (desk : Desk) : Prop :=
  desk.allTimeBestShare = .none ∨ 0 < desk.allTimeBestShare.difficulty

/-- The worker and the reward of the last block count as true if there are any. -/
structure KeepsLast (ledger : Ledger) : Prop where
  worker : ∀ label, ledger.lastBlockWorker = some label → WorkerLabel.truthy label = true
  reward : ledger.lastBlockReward = .null ∨ ledger.lastBlockReward.truthy = true

/-- What every process keeps of the statistics. -/
structure Intact (running : Running) : Prop where
  best : KeepsBest running.desk
  last : KeepsLast running.desk.ledger

theorem KeepsLast.of_same {ledger target : Ledger} (keeps : KeepsLast ledger)
    (worker : target.lastBlockWorker = ledger.lastBlockWorker)
    (reward : target.lastBlockReward = ledger.lastBlockReward) : KeepsLast target where
  worker := by
    rw [worker]
    exact keeps.worker
  reward := by
    rw [reward]
    exact keeps.reward

theorem truthy_minerLabel (call : BlockCall) : WorkerLabel.truthy call.minerLabel = true := by
  unfold BlockCall.minerLabel
  split
  · next counts => exact counts
  · rfl

theorem truthy_getBlockReward (config : LedgerConfig) (blocks : Value) :
    (getBlockReward config blocks).truthy = true := by
  unfold getBlockReward
  split
  · unfold Value.or
    split
    · next counts => exact counts
    · rfl
  · rfl

/-- The ledger keeps its last block. -/
theorem KeepsLast.ledgerNext {config : LedgerConfig} {ledger target : Ledger} {event : LedgerEvent}
    (keeps : KeepsLast ledger) (step : Ledger.next config ledger event = some target) :
    KeepsLast target := by
  cases event with
  | candidate share worker minerId now =>
      cases step
      rcases Ledger.candidate_eq config ledger share worker minerId now with ⟨_, same⟩ | ⟨_, same⟩
      · rw [same]
        exact keeps.of_same rfl rfl
      · rw [same]
        unfold Ledger.forward Ledger.submitBlockCandidate
        dsimp only
        split <;> exact keeps.of_same rfl rfl
  | verdict place reply around now =>
      obtain ⟨call, _, _, rfl⟩ := Ledger.next_verdict step
      unfold Ledger.verdict
      split
      · exact keeps.of_same rfl rfl
      · split
        · constructor
          · intro label isLabel
            cases isLabel
            exact truthy_minerLabel call
          · exact Or.inr (truthy_getBlockReward config around.blocks)
        · split
          · exact keeps.of_same rfl rfl
          · exact keeps.of_same rfl rfl
  | proposal place reply =>
      obtain ⟨call, result, _, _, rfl⟩ := Ledger.next_proposal step
      exact keeps.of_same rfl rfl
  | cleanup now =>
      cases step
      exact keeps.of_same rfl rfl

theorem KeepsLast.deskNext {deps : Externals} {hostile : Nat → Bool} {config : DeskConfig}
    {desk target : Desk} {event : DeskEvent} (keeps : KeepsLast desk.ledger)
    (step : Desk.next deps hostile config desk event = some target) : KeepsLast target.ledger := by
  have projects := Desk.projects_ledger deps hostile config
  cases seen : desk.ledgerEvent event with
  | none =>
      rw [projects.stays step seen]
      exact keeps
  | some part => exact keeps.ledgerNext (projects.moves step seen)

/-- A share that is better than the best one is better than none. -/
theorem KeepsBest.credit {desk : Desk} (keeps : KeepsBest desk) (config : DeskConfig) (place : Nat)
    (handler : Handler) (miner : Miner) (share : AcceptedShare) (now : Instant) :
    KeepsBest (desk.credit config place handler miner share now) := by
  have floor : 0 ≤ desk.allTimeBestShare.difficulty := by
    rcases keeps with none | positive
    · rw [none]
      exact le_rfl
    · exact positive.le
  unfold KeepsBest Desk.credit Desk.bestShare
  dsimp only
  split
  · next better => exact Or.inr (floor.trans_lt better)
  · exact keeps

theorem KeepsBest.deskNext {deps : Externals} {hostile : Nat → Bool} {config : DeskConfig}
    {desk target : Desk} {event : DeskEvent} (keeps : KeepsBest desk)
    (step : Desk.next deps hostile config desk event = some target) : KeepsBest target := by
  cases event with
  | resume place now =>
      obtain ⟨handler, miner, _, _, _, rfl⟩ := Desk.next_resume step
      unfold Desk.resume
      split
      · exact keeps
      · exact keeps
      · exact keeps.credit config place handler miner _ now
  | submit client requestId params now =>
      obtain ⟨miner, _, rfl⟩ := Option.map_eq_some_iff.mp step
      rcases Desk.submit_cases deps hostile config desk client miner requestId params now with
        ⟨_, same⟩ | ⟨_, lost⟩ | ⟨_, _, submission, workerName, _, started⟩
      · rw [same]
        exact keeps
      · rw [lost]
        exact keeps
      · rw [started]
        exact keeps
  | generateJob cleanJobs reply =>
      cases step
      exact keeps
  | network network =>
      cases step
      exact keeps
  | connect now =>
      cases step
      exact keeps
  | checkIdleMiners now =>
      cases step
      split <;> exact keeps
  | disconnect client =>
      obtain ⟨miner, _, rfl⟩ := Option.map_eq_some_iff.mp step
      exact keeps
  | authorize client user =>
      obtain ⟨miner, _, rfl⟩ := Option.map_eq_some_iff.mp step
      exact keeps
  | authorizeThrows client =>
      obtain ⟨miner, _, rfl⟩ := Option.map_eq_some_iff.mp step
      exact keeps
  | suggestDifficulty client suggested now =>
      obtain ⟨miner, _, rfl⟩ := Option.map_eq_some_iff.mp step
      exact keeps
  | verdict call reply now =>
      obtain ⟨ledger, _, rfl⟩ := Option.map_eq_some_iff.mp step
      exact keeps
  | proposal call reply =>
      obtain ⟨ledger, _, rfl⟩ := Option.map_eq_some_iff.mp step
      exact keeps
  | cleanup now =>
      cases step
      exact keeps

/-! ## Loading -/

theorem filter_eq_self_iff {α : Type} (counts : α → Bool) (member : Option α) :
    orNull counts member = member ↔ ∀ value, member = some value → counts value = true := by
  unfold orNull
  cases member with
  | none => exact iff_of_true rfl fun value impossible => by contradiction
  | some value =>
      rw [Option.filter_some]
      constructor
      · intro same other isOther
        cases isOther
        by_contra lost
        rw [if_neg lost] at same
        contradiction
      · intro counts
        exact if_pos (counts value rfl)

theorem or_null_eq_self_iff (value : Value) :
    value.or .null = value ↔ value = .null ∨ value.truthy = true := by
  unfold Value.or
  split
  · next counts => exact iff_of_true rfl (Or.inr counts)
  · next lost =>
      constructor
      · exact fun same => Or.inl same.symm
      · rintro (same | counts)
        · exact same.symm
        · exact absurd counts lost

/-- Every process that starts keeps its statistics, whatever the file. -/
theorem intact_start (config : LifetimeConfig) (file : Option StateFile) (now : Instant) :
    Intact (Running.start config file now) := by
  cases file with
  | none =>
      constructor
      · exact Or.inl rfl
      · constructor
        · intro label impossible
          contradiction
        · exact Or.inl rfl
  | some file =>
      constructor
      · unfold KeepsBest Running.start Running.loadPersistedState
        dsimp only
        split
        · next positive => exact Or.inr positive
        · exact Or.inl rfl
      · constructor
        · intro label isLabel
          exact (Option.filter_eq_some_iff.mp isLabel).2
        · have loaded : (Running.start config (some file) now).desk.ledger.lastBlockReward =
              file.lastBlock.reward.or .null := rfl
          rw [loaded]
          unfold Value.or
          split
          · next counts => exact Or.inr counts
          · exact Or.inl rfl

/-! ## Runs -/

section Runs

variable {deps : Externals} {hostile : Nat → Bool} {config : LifetimeConfig}

theorem Intact.withDesk {running : Running} (intact : Intact running) {event : DeskEvent}
    {desk : Desk}
    (step : Desk.next deps hostile config.desk running.desk event = some desk) {after : Running}
    (same : after.desk = desk) : Intact after := by
  constructor
  · rw [same]
    exact intact.best.deskNext step
  · rw [same]
    exact intact.last.deskNext step

theorem Intact.next {running after : Running} {event : RunningEvent} (intact : Intact running)
    (step : Running.next deps hostile config running event = some after) : Intact after := by
  cases event with
  | disconnect client now =>
      rw [Running.next] at step
      split at step
      · obtain ⟨desk, moved, rfl⟩ := Option.map_eq_some_iff.mp step
        apply intact.withDesk moved
        unfold Running.dropClient
        split <;> rfl
      · contradiction
  | verdict call reply rates now =>
      obtain ⟨desk, moved, rfl⟩ := Option.map_eq_some_iff.mp step
      apply intact.withDesk moved
      split <;> rfl
  | other event =>
      rw [Running.next] at step
      split at step
      · obtain ⟨desk, moved, rfl⟩ := Option.map_eq_some_iff.mp step
        exact intact.withDesk moved rfl
      · contradiction

/-- What a turn saves on its way is kept too. -/
theorem Intact.savePoints {before after saved : Running} {event : RunningEvent}
    (intact : Intact before)
    (intactAfter : Intact after) (member : saved ∈ savePoints config before after event) :
    Intact saved := by
  rcases eq_of_mem_savePoints member with rfl | rfl
  · exact intactAfter
  · exact ⟨intactAfter.best, intact.last⟩

theorem intact_of_run {start : Instant} {events : List LifetimeEvent} {lifetime : Lifetime}
    (reached : run (Lifetime.next deps hostile config) (Lifetime.first config start) events =
      some lifetime) : Intact lifetime.running := by
  have preserved : ∀ {state target : Lifetime} {event : LifetimeEvent}, Intact state.running →
      Lifetime.next deps hostile config state event = some target → Intact target.running := by
    intro state target event intact step
    cases event with
    | running event =>
        obtain ⟨after, moved, rfl⟩ := Option.map_eq_some_iff.mp step
        exact intact.next moved
    | restart graceful now =>
        cases step
        exact intact_start config _ now
  exact run_invariant (fun lifetime => Intact lifetime.running) preserved
    (intact_start config none start) reached

end Runs

/-! ## The claim of the file -/

/-- The state of a process that is or may be saved: the one after a turn, as a
signal saves it, or one in which a turn saves. -/
def Saves (deps : Externals) (hostile : Nat → Bool) (config : LifetimeConfig) (lifetime : Lifetime)
    (saved : Running) : Prop :=
  saved = lifetime.running ∨ ∃ event after,
    Running.next deps hostile config lifetime.running event = some after ∧
      saved ∈ savePoints config lifetime.running after event

/-- The next process has every statistic that the file contains. -/
structure Restored (saved loaded : Running) : Prop where
  lastBlockAt : loaded.desk.ledger.lastBlockAt = saved.desk.ledger.lastBlockAt
  lastBlockHash : loaded.desk.ledger.lastBlockHash = saved.desk.ledger.lastBlockHash
  lastBlockDifficulty :
    loaded.desk.ledger.lastBlockDifficulty = saved.desk.ledger.lastBlockDifficulty
  lastBlockSubmitResult :
    loaded.desk.ledger.lastBlockSubmitResult = saved.desk.ledger.lastBlockSubmitResult
  lastBlockWorker : loaded.desk.ledger.lastBlockWorker = saved.desk.ledger.lastBlockWorker
  lastBlockReward : loaded.desk.ledger.lastBlockReward = saved.desk.ledger.lastBlockReward
  /-- An undefined height is not in the file. -/
  lastBlockHeight : saved.desk.ledger.lastBlockHeight ≠ .undefined →
    loaded.desk.ledger.lastBlockHeight = saved.desk.ledger.lastBlockHeight
  blocks : loaded.desk.ledger.blocks = saved.desk.ledger.blocks
  blockCandidates : loaded.desk.ledger.blockCandidates = saved.desk.ledger.blockCandidates
  blockSubmitsRejected :
    loaded.desk.ledger.blockSubmitsRejected = saved.desk.ledger.blockSubmitsRejected
  shares : loaded.desk.shares = saved.desk.shares
  rejectedShares : loaded.desk.rejectedShares = saved.desk.rejectedShares
  allTimeBestShare : loaded.desk.allTimeBestShare = saved.desk.allTimeBestShare
  blockHistory : loaded.desk.ledger.blockHistory = saved.desk.ledger.blockHistory
  displays : loaded.displays = saved.displays

/-- No share was counted, and nothing of the last block counts as false without
being missing. -/
structure NothingLost (saved : Running) : Prop where
  shares : saved.desk.shares = 0
  rejectedShares : saved.desk.rejectedShares = 0
  hash : saved.desk.ledger.lastBlockHash ≠ some []
  difficulty : saved.desk.ledger.lastBlockDifficulty ≠ some 0
  submitResult : saved.desk.ledger.lastBlockSubmitResult ≠ some []
  height : isNullish saved.desk.ledger.lastBlockHeight = true ∨
    saved.desk.ledger.lastBlockHeight.truthy = true

theorem orNull_nonempty_iff (text : Option Text) :
    orNull (fun text => !text.isEmpty) text = text ↔ text ≠ some [] := by
  rw [filter_eq_self_iff]
  constructor
  · intro counts empty
    exact Bool.false_ne_true (counts [] empty)
  · intro nonempty value isValue
    rw [Bool.not_eq_true', List.isEmpty_eq_false_iff]
    intro empty
    rw [empty] at isValue
    exact nonempty isValue

theorem orNull_nonzero_iff (difficulty : Option ℚ) :
    orNull (fun difficulty => difficulty != 0) difficulty = difficulty ↔ difficulty ≠ some 0 := by
  rw [filter_eq_self_iff]
  constructor
  · intro counts zero
    exact absurd (counts 0 zero) (by decide)
  · intro nonzero value isValue
    rw [bne_iff_ne]
    intro zero
    rw [zero] at isValue
    exact nonzero isValue

theorem or_null_height_iff (height : Value) :
    (height ≠ .undefined → height.or .null = height) ↔
      isNullish height = true ∨ height.truthy = true := by
  rw [or_null_eq_self_iff]
  cases height with
  | undefined => exact iff_of_true (fun present => absurd rfl present) (Or.inl rfl)
  | null => exact iff_of_true (fun _ => Or.inl rfl) (Or.inl rfl)
  | _ => simp [isNullish]

theorem start_best {saved : Running} (keeps : KeepsBest saved.desk) (config : LifetimeConfig)
    (now : Instant) :
    (Running.start config (some (savePersistedState saved)) now).desk.allTimeBestShare =
      saved.desk.allTimeBestShare := by
  unfold Running.start Running.loadPersistedState savePersistedState
  dsimp only
  split
  · rfl
  · next worthless =>
      rcases keeps with none | positive
      · exact none.symm
      · exact absurd positive worthless

/-- A restart restores what was saved exactly when nothing is lost. -/
theorem restored_iff {saved : Running} (intact : Intact saved) (config : LifetimeConfig)
    (now : Instant) :
    Restored saved (Running.start config (some (savePersistedState saved)) now) ↔
      NothingLost saved := by
  constructor
  · intro restored
    constructor
    · exact restored.shares.symm
    · exact restored.rejectedShares.symm
    · exact (orNull_nonempty_iff _).mp restored.lastBlockHash
    · exact (orNull_nonzero_iff _).mp restored.lastBlockDifficulty
    · exact (orNull_nonempty_iff _).mp restored.lastBlockSubmitResult
    · exact (or_null_height_iff _).mp restored.lastBlockHeight
  · intro lost
    constructor
    · rfl
    · exact (orNull_nonempty_iff _).mpr lost.hash
    · exact (orNull_nonzero_iff _).mpr lost.difficulty
    · exact (orNull_nonempty_iff _).mpr lost.submitResult
    · exact (filter_eq_self_iff _ _).mpr intact.last.worker
    · exact (or_null_eq_self_iff _).mpr intact.last.reward
    · exact (or_null_height_iff _).mpr lost.height
    · rfl
    · rfl
    · rfl
    · exact lost.shares.symm
    · exact lost.rejectedShares.symm
    · exact start_best intact.best config now
    · rfl
    · rfl

/-- The totals that are written again are those of blocks. -/
theorem totals_start (saved : Running) (config : LifetimeConfig) (now : Instant) :
    (savePersistedState (Running.start config (some (savePersistedState saved)) now)).totals =
      { (savePersistedState saved).totals with
        shares := 0
        rejectedShares := 0 } :=
  rfl

/-- In every run over restarts, what is saved is restored exactly when nothing of
it is lost, and written again with the same totals exactly when no share was
counted. -/
theorem restored_iff_of_run {deps : Externals} {hostile : Nat → Bool} {config : LifetimeConfig}
    {start : Instant} {events : List LifetimeEvent} {lifetime : Lifetime}
    (reached : run (Lifetime.next deps hostile config) (Lifetime.first config start) events =
      some lifetime) {saved : Running} (saves : Saves deps hostile config lifetime saved)
    (now : Instant) :
    let loaded := Running.start config (some (savePersistedState saved)) now
    (Restored saved loaded ↔ NothingLost saved) ∧
      ((savePersistedState loaded).totals = (savePersistedState saved).totals ↔
        saved.desk.shares = 0 ∧ saved.desk.rejectedShares = 0) := by
  have intactRunning := intact_of_run reached
  have intact : Intact saved := by
    rcases saves with same | ⟨event, after, step, member⟩
    · rw [same]
      exact intactRunning
    · exact intactRunning.savePoints (intactRunning.next step) member
  constructor
  · exact restored_iff intact config now
  · rw [totals_start, Totals.mk.injEq]
    constructor
    · rintro ⟨_, _, _, shares, rejectedShares⟩
      exact ⟨shares.symm, rejectedShares.symm⟩
    · rintro ⟨shares, rejectedShares⟩
      exact ⟨rfl, rfl, rfl, shares.symm, rejectedShares.symm⟩

/-! ## A share that is forgotten -/

/-- The settings of a pool at constant difficulty. -/
def lifetimeExample : LifetimeConfig where
  desk := Desk.configExample
  walletAddress := WorkManager.walletExample
  poolTarget := WorkManager.easiestTarget
  blockIntervalSeconds := 75
  numbers := .integers

/-- A client submits a share of a job that the pool does not know. -/
def expiredEvents : List LifetimeEvent :=
  [.running (.other (.connect Desk.noon)),
    .running (.other (.authorize 0 none)),
    .running (.other (.submit 0 .null (.array []) Desk.noon)),
    .running (.other (.resume 0 Desk.noon))]

theorem rejectedShares_expiredEvents :
    ((run (Lifetime.next WorkManager.packagesExample (fun _ => false) lifetimeExample)
      (Lifetime.first lifetimeExample Desk.noon) expiredEvents).map fun lifetime =>
        lifetime.running.desk.rejectedShares) = some 1 := by
  decide +kernel

theorem not_restored_expiredEvents : ∃ lifetime,
    run (Lifetime.next WorkManager.packagesExample (fun _ => false) lifetimeExample)
        (Lifetime.first lifetimeExample Desk.noon) expiredEvents = some lifetime ∧
      let loaded := Running.start lifetimeExample (some (savePersistedState lifetime.running))
        Desk.noon
      ¬Restored lifetime.running loaded ∧
        (savePersistedState loaded).totals ≠ (savePersistedState lifetime.running).totals := by
  obtain ⟨lifetime, reached, counted⟩ := Option.map_eq_some_iff.mp rejectedShares_expiredEvents
  refine ⟨lifetime, reached, ?_, ?_⟩
  · intro restored
    exact Nat.zero_ne_one (restored.rejectedShares.trans counted)
  · intro same
    exact Nat.zero_ne_one ((congrArg Totals.rejectedShares same).trans counted)

theorem restored_iff_expiredEvents : ∃ lifetime,
    run (Lifetime.next WorkManager.packagesExample (fun _ => false) lifetimeExample)
        (Lifetime.first lifetimeExample Desk.noon) expiredEvents = some lifetime ∧
      let loaded := Running.start lifetimeExample (some (savePersistedState lifetime.running))
        Desk.noon
      (Restored lifetime.running loaded ↔ NothingLost lifetime.running) ∧
        ((savePersistedState loaded).totals = (savePersistedState lifetime.running).totals ↔
          lifetime.running.desk.shares = 0 ∧ lifetime.running.desk.rejectedShares = 0) := by
  obtain ⟨lifetime, reached, _⟩ := Option.map_eq_some_iff.mp rejectedShares_expiredEvents
  exact ⟨lifetime, reached, restored_iff_of_run reached (Or.inl rfl) Desk.noon⟩

end ZcashSoloPool.Pool
