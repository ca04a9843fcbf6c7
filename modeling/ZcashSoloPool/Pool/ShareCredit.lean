import ZcashSoloPool.Pool.ShareAccounting

/-!
# The difficulty of a credit

A share is compared with the target that its client has when the request is
read, and credited with the difficulty that the client has when the handler
continues.  The two belong together unless the difficulty changed between them
or the share was accepted through the grace target.
-/

namespace ZcashSoloPool.Pool

open ZcashSoloPool.Bytes
open ZcashSoloPool.JavaScript
open ZcashSoloPool.Stratum
open ZcashSoloPool.Transition
open ZcashSoloPool.WorkManager

namespace Desk

variable {deps : Externals} {hostile : Nat → Bool} {config : DeskConfig}

/-! ## What a handler was validated against -/

/-- The handler holds the result of a validation and the difficulty whose
target the validation read. -/
structure Checked (deps : Externals) (config : ShareConfig) (handler : Handler) : Prop where
  positive : 0 < handler.difficulty
  validated : ∃ manager submission now,
    handler.result = validateShare deps manager submission now ∧
    handler.checked = (prepare manager submission now).toOption ∧
    submission.client.shareTarget =
      some (targetForDifficulty config.baseTargetBI handler.difficulty)

theorem Checked.settle {config : ShareConfig} {handler : Handler}
    (checked : Checked deps config handler) :
    Checked deps config { handler with settled := true } :=
  ⟨checked.positive, checked.validated⟩

/-- What the validation of an accepted share compared. -/
theorem Checked.of_valid {config : ShareConfig} {handler : Handler}
    (checked : Checked deps config handler) {share : AcceptedShare}
    (valid : handler.result = .ok (.valid share)) :
    ∃ ctx, handler.checked = some ctx ∧
      ctx.poolTargetBI = targetNumber config.baseTargetBI handler.difficulty ∧
      share.isBlock = decide (hexNumber share.hash ≤ ctx.netTargetBI) ∧
      share.shareQuality = ratioToDecimalString (effectiveTarget ctx (hexNumber share.hash))
        (hexNumber share.hash) 6 := by
  rcases checked.validated with ⟨manager, submission, now, result, context, target⟩
  rw [result] at valid
  rcases validateShare_eq_valid_iff.mp valid with ⟨ctx, prepared, candidate, _, accepted⟩
  refine ⟨ctx, ?_, ?_, (acceptShare_eq_valid accepted).2.2.1,
    shareQuality_of_acceptShare accepted⟩
  · rw [context, prepare_eq_ok_iff.mpr prepared]
    rfl
  · have read := prepared.poolTarget
    rw [bigIntOfHex_clientTargetHex target] at read
    exact (Option.some.inj read).symm

/-- The targets of the clients and of the handlers belong to their
difficulties. -/
structure Targeted (deps : Externals) (config : DeskConfig) (desk : Desk) : Prop where
  miners : ∀ miner ∈ desk.miners, miner.Assigned config.shares
  handlers : ∀ handler ∈ desk.handlers, Checked deps config.shares handler

theorem assigned_set {config : ShareConfig} {miners : List Miner}
    (assigned : ∀ miner ∈ miners, miner.Assigned config) {client : Nat} {changed : Miner}
    (kept : changed.Assigned config) :
    ∀ miner ∈ miners.set client changed, miner.Assigned config := by
  intro miner member
  rcases List.mem_or_eq_of_mem_set member with earlier | rfl
  · exact assigned miner earlier
  · exact kept

theorem assigned_withMiner {config : ShareConfig} {desk target : Desk}
    (assigned : ∀ miner ∈ desk.miners, miner.Assigned config) {client : Nat}
    {change : Miner → Miner} (step : desk.withMiner client change = some target)
    (kept : ∀ miner, Miner.Assigned config miner → Miner.Assigned config (change miner)) :
    ∀ miner ∈ target.miners, miner.Assigned config := by
  obtain ⟨miner, present, rfl⟩ := Option.map_eq_some_iff.mp step
  exact assigned_set assigned (kept miner (assigned miner (List.mem_of_getElem? present)))

theorem assigned_withLedger {shareConfig : ShareConfig} {desk target : Desk}
    (assigned : ∀ miner ∈ desk.miners, miner.Assigned shareConfig) {event : LedgerEvent}
    (step : desk.withLedger config event = some target) :
    ∀ miner ∈ target.miners, miner.Assigned shareConfig := by
  obtain ⟨ledger, _, rfl⟩ := Option.map_eq_some_iff.mp step
  exact assigned

/-- A step that starts and completes no handler. -/
theorem Targeted.of_same {desk target : Desk} (targeted : Targeted deps config desk)
    (same : SameShares desk target)
    (miners : ∀ miner ∈ target.miners, miner.Assigned config.shares) :
    Targeted deps config target := by
  refine ⟨miners, ?_⟩
  rw [same.handlers]
  exact targeted.handlers

theorem assigned_creditMiner {miner : Miner} (assigned : miner.Assigned config.shares) (desk : Desk)
    (share : AcceptedShare) (now : Instant) :
    (desk.creditMiner config share miner now).Assigned config.shares := by
  have recorded : Miner.Assigned config.shares (recordShareOutcome config.shares miner
      (desk.acceptedOutcome share miner) now.ms) := assigned.of_same rfl rfl
  have noted := recorded.noteAcceptedShare now.ms
  unfold creditMiner
  dsimp only
  split
  · exact noted.of_same rfl rfl
  · exact noted

/-- The client that the continuation of a handler leaves. -/
theorem exists_assigned_resume (desk : Desk) (place : Nat) (handler : Handler) {miner : Miner}
    (assigned : miner.Assigned config.shares) (now : Instant) :
    ∃ after, (desk.resume config place handler miner now).miners =
      desk.miners.set handler.client after ∧ after.Assigned config.shares := by
  unfold resume
  split
  · exact ⟨_, rfl, assigned.of_same rfl rfl⟩
  · exact ⟨_, rfl, assigned.of_same rfl rfl⟩
  · exact ⟨_, rfl, assigned_creditMiner assigned desk _ now⟩

theorem client_of_handleSubmit {connection : Connection} {params : Option (List Value)}
    {submission : Submission} (submitted : handleSubmit connection params = some submission) :
    submission.client = connection.client := by
  unfold handleSubmit at submitted
  split at submitted
  · cases submitted
    rfl
  · contradiction

theorem Targeted.next {desk target : Desk} {event : DeskEvent}
    (targeted : Targeted deps config desk)
    (step : Desk.next deps hostile config desk event = some target) :
    Targeted deps config target := by
  cases event with
  | generateJob cleanJobs reply =>
      cases step
      exact ⟨targeted.miners, targeted.handlers⟩
  | network network =>
      cases step
      exact ⟨targeted.miners, targeted.handlers⟩
  | connect now =>
      cases step
      refine ⟨fun miner member => ?_, targeted.handlers⟩
      rcases List.mem_append.mp member with earlier | new
      · exact targeted.miners miner earlier
      · rw [List.mem_singleton.mp new]
        exact .applyDifficulty config.shares _ _ now.ms
  | disconnect client =>
      exact targeted.of_same (next_quiet step trivial)
        (assigned_withMiner targeted.miners step fun _ kept => kept.of_same rfl rfl)
  | authorize client user =>
      exact targeted.of_same (next_quiet step trivial)
        (assigned_withMiner targeted.miners step fun _ kept => kept.of_same rfl rfl)
  | authorizeThrows client =>
      exact targeted.of_same (next_quiet step trivial)
        (assigned_withMiner targeted.miners step fun _ kept => kept.of_same rfl rfl)
  | suggestDifficulty client suggested now =>
      exact targeted.of_same (next_quiet step trivial)
        (assigned_withMiner targeted.miners step
          fun _ kept => kept.suggestDifficulty suggested now.ms)
  | checkIdleMiners now =>
      cases step
      split
      · refine ⟨fun miner member => ?_, targeted.handlers⟩
        rcases List.mem_map.mp member with ⟨before, earlier, rfl⟩
        exact (targeted.miners before earlier).checkIdle now.ms
      · exact targeted
  | submit client requestId params now =>
      obtain ⟨miner, present, rfl⟩ := Option.map_eq_some_iff.mp step
      have assigned := targeted.miners miner (List.mem_of_getElem? present)
      rcases submit_cases deps hostile config desk client miner requestId params now with
        ⟨_, same⟩ | ⟨_, lost⟩ | ⟨_, _, submission, workerName, submitted, started⟩
      · rw [same]
        exact targeted
      · rw [lost]
        exact ⟨assigned_set targeted.miners (assigned.of_same rfl rfl), targeted.handlers⟩
      · rw [started]
        refine ⟨assigned_set targeted.miners (assigned.of_same rfl rfl), fun handler member => ?_⟩
        rcases List.mem_append.mp member with earlier | new
        · exact targeted.handlers handler earlier
        · rw [List.mem_singleton.mp new]
          refine ⟨assigned.positive, _, submission, _, rfl, rfl, ?_⟩
          rw [client_of_handleSubmit submitted]
          exact assigned.target
  | resume place now =>
      obtain ⟨handler, miner, found, _, present, rfl⟩ := next_resume step
      obtain ⟨recorded, _, settles⟩ := settles_resume config desk place handler miner now
      obtain ⟨after, miners, assigned⟩ := exists_assigned_resume desk place handler
        (targeted.miners miner (List.mem_of_getElem? present)) now
      refine ⟨?_, ?_⟩
      · rw [miners]
        exact assigned_set targeted.miners assigned
      · rw [settles.handlers]
        intro other member
        rcases List.mem_or_eq_of_mem_set member with earlier | rfl
        · exact targeted.handlers other earlier
        · exact (targeted.handlers handler (List.mem_of_getElem? found)).settle
  | verdict call reply now =>
      exact targeted.of_same (next_quiet step trivial) (assigned_withLedger targeted.miners step)
  | proposal call reply =>
      exact targeted.of_same (next_quiet step trivial) (assigned_withLedger targeted.miners step)
  | cleanup now =>
      exact targeted.of_same (next_quiet step trivial) (assigned_withLedger targeted.miners step)

/-! ## Credit for what was compared -/

/-- The target of the difficulty is not cut at its bounds, and the hash is
neither zero nor too large for six places. -/
structure Measured (config : ShareConfig) (difficulty : ℚ) (hash : Nat) : Prop where
  low : 1 ≤ scaledTarget config.baseTargetBI difficulty
  high : scaledTarget config.baseTargetBI difficulty ≤ maxTarget
  nonzero : 0 < hash
  visible : hash ≤ targetNumber config.baseTargetBI difficulty * 10 ^ 6

/-- The difficulty of an accepted share with the quality that its text
shows. -/
theorem computeShareDifficulty_eq {assigned : ℚ} (positive : 0 < assigned) {target hash : Nat}
    (nonzero : 0 < hash) (visible : hash ≤ target * 10 ^ 6) :
    computeShareDifficulty assigned (ratioToDecimalString target hash 6) =
      assigned * ((target * 10 ^ 6 / hash : Nat) / 10 ^ 6) := by
  have quotient : 0 < target * 10 ^ 6 / hash := Nat.div_pos visible nonzero
  have quality : (0 : ℚ) < (target * 10 ^ 6 / hash : Nat) / 10 ^ 6 := by
    positivity
  rw [computeShareDifficulty, decimalNumber_ratioToDecimalString]
  simp only [parsePositiveNumber, Option.filter_some, decide_eq_true positive,
    decide_eq_true quality, if_true, Option.getD_some]

/-- The credit for an accepted share refers to the target that its hash was
compared with, and so the difficulty of the share is the base target divided by
the hash, up to rounding. -/
structure FairCredit (config : ShareConfig) (handler : Handler) (ctx : ShareContext)
    (share : AcceptedShare) (shareDifficulty assigned contribution : ℚ) : Prop where
  compared : targetNumber config.baseTargetBI assigned =
    effectiveTarget ctx (hexNumber share.hash)
  /-- Without the grace target it is the difficulty at the validation. -/
  validated : share.isBlock = true ∨ hexNumber share.hash ≤ ctx.poolTargetBI →
    assigned = handler.difficulty
  contribution : contribution = assigned
  base : shareDifficulty = computeShareDifficulty assigned share.shareQuality
  proportional : Measured config assigned (hexNumber share.hash) →
    let exact : ℚ := assigned / (millionths assigned / 10 ^ 6) *
      (config.baseTargetBI / hexNumber share.hash)
    shareDifficulty ≤ exact ∧
      exact < shareDifficulty + assigned * (1 / hexNumber share.hash + 1 / 10 ^ 6)

/-- The outcome of an accepted share has such a credit. -/
def FairlyRecorded (config : ShareConfig) (handlers : List Handler) (recorded : Recorded) : Prop :=
  ∀ hash shareDifficulty foundDifficulty assigned,
    recorded.outcome = .accepted hash shareDifficulty foundDifficulty assigned →
      ∃ handler share ctx, handlers[recorded.handler]? = some handler ∧
        handler.result = .ok (.valid share) ∧ handler.checked = some ctx ∧ share.hash = hash ∧
        FairCredit config handler ctx share shareDifficulty assigned recorded.contribution

/-- Every entry of a client's window was recorded for a share of the client. -/
def WindowsRecorded (desk : Desk) : Prop :=
  ∀ client account, desk.accounts[client]? = some account → ∀ entry ∈ account.1.recentAccepted,
    ∃ recorded ∈ desk.outcomes, recorded.client = client ∧ recorded.outcome.isAccepted = true ∧
      recorded.contribution = entry.difficulty

/-- Every accepted share got such a credit, and the windows hold nothing
else. -/
structure Fair (config : ShareConfig) (desk : Desk) : Prop where
  outcomes : ∀ recorded ∈ desk.outcomes, FairlyRecorded config desk.handlers recorded
  windows : WindowsRecorded desk

/-- When the handler of an accepted share continues, the difficulty of its
client is the one at the validation, and the share was not accepted through the
grace target. -/
def Undisturbed (desk : Desk) : DeskEvent → Prop
  | .resume place _ => ∀ handler miner share ctx, desk.waiting place = some (handler, miner) →
      handler.result = .ok (.valid share) → handler.checked = some ctx →
      miner.currentDifficulty = handler.difficulty ∧
        (share.isBlock = true ∨ hexNumber share.hash ≤ ctx.poolTargetBI)
  | _ => True

/-- The credit of an undisturbed share. -/
theorem Checked.fairCredit {config : ShareConfig} {handler : Handler}
    (checked : Checked deps config handler) {share : AcceptedShare}
    (valid : handler.result = .ok (.valid share)) {ctx : ShareContext}
    (context : handler.checked = some ctx)
    (direct : share.isBlock = true ∨ hexNumber share.hash ≤ ctx.poolTargetBI) :
    FairCredit config handler ctx share
      (computeShareDifficulty handler.difficulty share.shareQuality) handler.difficulty
      (diffContribution handler.difficulty handler.difficulty) := by
  rcases checked.of_valid valid with ⟨other, otherContext, poolTarget, isBlock, quality⟩
  rw [context] at otherContext
  cases otherContext
  have effective : effectiveTarget ctx (hexNumber share.hash) = ctx.poolTargetBI := by
    refine if_pos (direct.symm.imp_right fun block => ?_)
    rw [isBlock] at block
    exact of_decide_eq_true block
  refine ⟨poolTarget.symm.trans effective.symm, fun _ => rfl, if_pos checked.positive, rfl, ?_⟩
  intro measured
  rw [quality, effective, poolTarget,
    computeShareDifficulty_eq checked.positive measured.nonzero measured.visible]
  exact bracket_difficulty_mul_quality checked.positive measured.low measured.high measured.nonzero

/-- The difficulty at the validation is no fair credit for a share that was
accepted through the grace target. -/
theorem FairCredit.ne_of_grace {config : ShareConfig} {handler : Handler}
    (checked : Checked deps config handler) {share : AcceptedShare}
    (valid : handler.result = .ok (.valid share)) {ctx : ShareContext}
    (context : handler.checked = some ctx) (notBlock : share.isBlock = false)
    (missed : ctx.poolTargetBI < hexNumber share.hash) {shareDifficulty assigned contribution : ℚ}
    (credit : FairCredit config handler ctx share shareDifficulty assigned contribution) :
    assigned ≠ handler.difficulty := by
  rintro rfl
  rcases checked.validated with ⟨manager, submission, now, result, prepares, target⟩
  rw [result] at valid
  rcases validateShare_eq_valid_iff.mp valid with ⟨other, prepared, candidate, hit, accepted⟩
  rw [context, prepare_eq_ok_iff.mpr prepared] at prepares
  cases prepares
  have poolTarget := prepared.poolTarget
  rw [bigIntOfHex_clientTargetHex target] at poolTarget
  rcases acceptShare_eq_valid accepted with ⟨hashed, hash, isBlock, _⟩
  rw [notBlock] at isBlock
  have value : candidate.hashValue deps = hexNumber share.hash := by
    rw [hash, hashed]
    rfl
  have meets := hit.isHit.meets
  rw [value] at meets
  have within := le_effectiveTarget meets (of_decide_eq_false isBlock.symm)
  rw [← credit.compared, Option.some.inj poolTarget] at within
  exact Nat.not_le_of_lt missed within

/-- What was recorded stays fair while handlers start and complete. -/
theorem FairlyRecorded.mono {config : ShareConfig} {handlers later : List Handler}
    {recorded : Recorded} (fair : FairlyRecorded config handlers recorded)
    (kept : ∀ (place : Nat) (handler : Handler), handlers[place]? = some handler →
      ∃ after : Handler, later[place]? = some after ∧ after.result = handler.result ∧
        after.checked = handler.checked ∧ after.difficulty = handler.difficulty) :
    FairlyRecorded config later recorded := by
  intro hash shareDifficulty foundDifficulty assigned accepted
  rcases fair hash shareDifficulty foundDifficulty assigned accepted with
    ⟨handler, share, ctx, found, valid, context, sameHash, credit⟩
  rcases kept _ _ found with ⟨after, foundAfter, result, checked, difficulty⟩
  exact ⟨after, share, ctx, foundAfter, result.trans valid, checked.trans context, sameHash,
    credit.compared, fun direct => (credit.validated direct).trans difficulty.symm,
    credit.contribution, credit.base, credit.proportional⟩

theorem FairlyRecorded.set {config : ShareConfig} {handlers : List Handler} {recorded : Recorded}
    (fair : FairlyRecorded config handlers recorded) {place : Nat} {handler : Handler}
    (found : handlers[place]? = some handler) :
    FairlyRecorded config (handlers.set place { handler with settled := true }) recorded := by
  refine fair.mono fun other otherHandler otherFound => ?_
  by_cases same : place = other
  · subst same
    rw [found] at otherFound
    cases otherFound
    exact ⟨_, List.getElem?_set_self (List.getElem?_eq_some_iff.mp found).1, rfl, rfl, rfl⟩
  · exact ⟨otherHandler, (List.getElem?_set_ne same).trans otherFound, rfl, rfl, rfl⟩

/-- The credits of a step. -/
theorem fairlyRecorded_next {desk target : Desk} {event : DeskEvent}
    (fair : ∀ recorded ∈ desk.outcomes, FairlyRecorded config.shares desk.handlers recorded)
    (targeted : Targeted deps config desk) (undisturbed : Undisturbed desk event)
    (step : Desk.next deps hostile config desk event = some target) :
    ∀ recorded ∈ target.outcomes, FairlyRecorded config.shares target.handlers recorded := by
  cases event with
  | submit client requestId params now =>
      obtain ⟨miner, _, rfl⟩ := Option.map_eq_some_iff.mp step
      rcases submit_cases deps hostile config desk client miner requestId params now with
        ⟨_, same⟩ | ⟨_, lost⟩ | ⟨_, _, submission, workerName, _, started⟩
      · rw [same]
        exact fair
      · rw [lost]
        exact fair
      · rw [started]
        refine fun recorded member => (fair recorded member).mono fun place handler found => ?_
        exact ⟨handler, (List.getElem?_append_left
          (List.getElem?_eq_some_iff.mp found).1).trans found, rfl, rfl, rfl⟩
  | resume place now =>
      obtain ⟨handler, miner, found, open', present, rfl⟩ := next_resume step
      have bound := (List.getElem?_eq_some_iff.mp found).1
      have refused : ∀ code reason, ∀ recorded ∈ (desk.refuse config place handler miner code reason
          now).outcomes, FairlyRecorded config.shares
            (desk.handlers.set place { handler with settled := true }) recorded := by
        intro code reason recorded member
        rcases List.mem_append.mp member with earlier | new
        · exact (fair recorded earlier).set found
        · rw [List.mem_singleton.mp new]
          intro hash shareDifficulty foundDifficulty assigned accepted
          contradiction
      unfold resume
      split
      · exact refused 20 _
      · next error _ => exact refused 23 error
      · next share valid =>
          intro recorded member
          rcases List.mem_append.mp member with earlier | new
          · exact (fair recorded earlier).set found
          · rw [List.mem_singleton.mp new]
            intro hash shareDifficulty foundDifficulty assigned accepted
            cases accepted
            have checked := targeted.handlers handler (List.mem_of_getElem? found)
            rcases checked.of_valid valid with ⟨ctx, context, _⟩
            obtain ⟨unchanged, direct⟩ := undisturbed handler miner share ctx
              (waiting_eq_some_iff.mpr ⟨found, open', present⟩) valid context
            rw [unchanged]
            exact ⟨_, share, ctx, List.getElem?_set_self bound, valid, context, rfl,
              checked.settle.fairCredit valid context direct⟩
  | _ =>
      have same := next_quiet step trivial
      rw [same.outcomes, same.handlers]
      exact fair

/-! ## The windows -/

/-- The window after an outcome holds earlier entries and the new one. -/
theorem mem_recentAccepted_recordShareOutcome {config : ShareConfig} {miner : Miner}
    {outcome : Outcome} {now : Nat} {entry : Contribution}
    (member : entry ∈ (recordShareOutcome config miner outcome now).metrics.recentAccepted) :
    entry ∈ miner.metrics.recentAccepted ∨
      ∃ hash shareDifficulty foundDifficulty assigned,
        outcome = .accepted hash shareDifficulty foundDifficulty assigned ∧
          entry.difficulty = diffContribution miner.currentDifficulty assigned := by
  have kept := (List.mem_filter.mp member).1
  cases outcome with
  | accepted hash shareDifficulty foundDifficulty assigned =>
      rcases List.mem_append.mp kept with earlier | new
      · exact Or.inl earlier
      · rw [List.mem_singleton.mp new]
        exact Or.inr ⟨hash, shareDifficulty, foundDifficulty, assigned, rfl, rfl⟩
  | rejected reason =>
      have same : (miner.metrics.countRejected reason).recentAccepted =
          miner.metrics.recentAccepted := by
        unfold Metrics.countRejected
        dsimp only
        split_ifs <;> rfl
      rw [← same]
      exact Or.inl kept

theorem recentAccepted_creditMiner (config : DeskConfig) (desk : Desk) (share : AcceptedShare)
    (miner : Miner) (now : Instant) :
    (desk.creditMiner config share miner now).metrics.recentAccepted =
      (recordShareOutcome config.shares miner (desk.acceptedOutcome share miner)
        now.ms).metrics.recentAccepted := by
  have noted := congrArg Metrics.recentAccepted
    ((recordShareOutcome config.shares miner (desk.acceptedOutcome share miner)
      now.ms).metrics_noteAcceptedShare config.shares now.ms)
  unfold creditMiner
  dsimp only
  split
  · exact noted
  · exact noted

/-- A step that changes one client and records what enters its window. -/
theorem WindowsRecorded.set {desk target : Desk} (windows : WindowsRecorded desk) {client : Nat}
    {miner after : Miner} (present : desk.miners[client]? = some miner)
    (miners : target.miners = desk.miners.set client after)
    (outcomes : ∀ recorded ∈ desk.outcomes, recorded ∈ target.outcomes)
    (entries : ∀ entry ∈ after.metrics.recentAccepted, entry ∈ miner.metrics.recentAccepted ∨
      ∃ recorded ∈ target.outcomes, recorded.client = client ∧
        recorded.outcome.isAccepted = true ∧ recorded.contribution = entry.difficulty) :
    WindowsRecorded target := by
  intro other account found entry member
  have known : ∀ account, desk.accounts[other]? = some account →
      entry ∈ account.1.recentAccepted → ∃ recorded ∈ target.outcomes, recorded.client = other ∧
        recorded.outcome.isAccepted = true ∧ recorded.contribution = entry.difficulty := by
    intro account before earlier
    obtain ⟨recorded, listed, rest⟩ := windows other account before entry earlier
    exact ⟨recorded, outcomes recorded listed, rest⟩
  rcases accounts_set present miners found with ⟨rfl, rfl⟩ | ⟨_, before⟩
  · rcases entries entry member with earlier | new
    · exact known _ (accounts_getElem? present) earlier
    · exact new
  · exact known account before member

theorem WindowsRecorded.of_same {desk target : Desk} (windows : WindowsRecorded desk)
    (same : SameShares desk target) : WindowsRecorded target := by
  intro client account found entry member
  rw [same.outcomes]
  rcases same.account_cases found with earlier | ⟨_, rfl⟩
  · exact windows client account earlier entry member
  · exact absurd member List.not_mem_nil

theorem WindowsRecorded.next {desk target : Desk} {event : DeskEvent}
    (windows : WindowsRecorded desk)
    (step : Desk.next deps hostile config desk event = some target) : WindowsRecorded target := by
  cases event with
  | submit client requestId params now =>
      obtain ⟨miner, present, rfl⟩ := Option.map_eq_some_iff.mp step
      rcases submit_cases deps hostile config desk client miner requestId params now with
        ⟨_, same⟩ | ⟨_, lost⟩ | ⟨_, _, submission, workerName, _, started⟩
      · rw [same]
        exact windows
      · rw [lost]
        exact windows.set present rfl (fun _ member => member) fun _ member => Or.inl member
      · rw [started]
        exact windows.set present rfl (fun _ member => member) fun _ member => Or.inl member
  | resume place now =>
      obtain ⟨handler, miner, found, open', present, rfl⟩ := next_resume step
      have refused : ∀ code reason, ∀ entry ∈ (recordShareOutcome config.shares miner
          (.rejected reason) now.ms).metrics.recentAccepted, entry ∈ miner.metrics.recentAccepted ∨
            ∃ recorded ∈ (desk.refuse config place handler miner code reason now).outcomes,
              recorded.client = handler.client ∧ recorded.outcome.isAccepted = true ∧
                recorded.contribution = entry.difficulty := by
        intro code reason entry member
        rcases mem_recentAccepted_recordShareOutcome member with earlier | ⟨_, _, _, _, none, _⟩
        · exact Or.inl earlier
        · contradiction
      have earlier : ∀ recorded : Recorded, ∀ earlier ∈ desk.outcomes,
          earlier ∈ desk.outcomes ++ [recorded] :=
        fun _ _ member => List.mem_append_left _ member
      unfold resume
      split
      · exact windows.set present rfl (earlier _) (refused 20 _)
      · next error _ => exact windows.set present rfl (earlier _) (refused 23 error)
      · next share valid =>
          refine windows.set present rfl (earlier _) fun entry member => ?_
          rw [recentAccepted_creditMiner] at member
          rcases mem_recentAccepted_recordShareOutcome member with before | new
          · exact Or.inl before
          · rcases new with ⟨_, _, _, _, accepted, difficulty⟩
            cases accepted
            exact Or.inr ⟨_, List.mem_append_right _ (List.mem_singleton_self _), rfl, rfl,
              difficulty.symm⟩
  | _ => exact windows.of_same (next_quiet step trivial)

/-! ## Runs -/

/-- In a run where no share is disturbed every credit is fair. -/
theorem fair_of_undisturbed {walletAddress poolTarget : Text} {ledger : Ledger} {best : BestShare}
    {events : List DeskEvent} {desk : Desk}
    (undisturbed : Throughout (next deps hostile config) Undisturbed
      (initial walletAddress poolTarget ledger best) events)
    (reached : run (next deps hostile config) (initial walletAddress poolTarget ledger best)
      events = some desk) : Fair config.shares desk := by
  have both : Targeted deps config desk ∧
      ∀ recorded ∈ desk.outcomes, FairlyRecorded config.shares desk.handlers recorded :=
    undisturbed.invariant (fun desk => Targeted deps config desk ∧
        ∀ recorded ∈ desk.outcomes, FairlyRecorded config.shares desk.handlers recorded)
      (fun inv lawful step => ⟨inv.1.next step, fairlyRecorded_next inv.2 inv.1 lawful step⟩)
      ⟨⟨fun _ member => absurd member List.not_mem_nil, fun _ member =>
        absurd member List.not_mem_nil⟩, fun _ member => absurd member List.not_mem_nil⟩ reached
  refine ⟨both.2, run_invariant WindowsRecorded (fun windows step => windows.next step) ?_ reached⟩
  intro client account found
  contradiction

/-! ## A suggested difficulty -/

/-- The settings with difficulties from one to two. -/
def configDoubled : DeskConfig :=
  { configExample with
    shares := { configExample.shares with
      vardiff := { configExample.shares.vardiff with
        maxDifficulty := 2
        max_pos := zero_lt_two } } }

theorem easiest_configDoubled :
    (minerExample configDoubled).client.shareTarget = some (targetForDifficulty maxTarget 1) := by
  have clamped : clampDifficulty configDoubled.shares.vardiff 1 = 1 := by
    norm_num [clampDifficulty, configDoubled, configExample]
  change some (targetForDifficulty maxTarget (clampDifficulty configDoubled.shares.vardiff
    (clampDifficulty configDoubled.shares.vardiff 1))) = _
  rw [clamped, clamped]

/-- The client after it suggested the difficulty two. -/
def minerDoubled : Miner :=
  Miner.suggestDifficulty configDoubled.shares (some 2) noon.ms
    (countSubmit (minerExample configDoubled))

theorem currentDifficulty_minerDoubled : minerDoubled.currentDifficulty = 2 := by
  have positive : parsePositiveNumber (some 2) = some 2 := by norm_num [parsePositiveNumber]
  rw [minerDoubled, Miner.suggestDifficulty, positive]
  change clampDifficulty configDoubled.shares.vardiff 2 = 2
  norm_num [clampDifficulty, configDoubled, configExample]

/-- The pool after the suggestion, while the submission waits. -/
def doubledExample : Desk :=
  { waitingExample configDoubled halfTarget with miners := [minerDoubled] }

/-- The suggestion arrives with the submission, before its handler continues. -/
def eventsDoubled : List DeskEvent :=
  readyEvents halfTarget ++ [submitExample] ++
    [.suggestDifficulty 0 (some 2) noon, .resume 0 noon]

theorem run_eventsDoubled {share : AcceptedShare}
    (valid : (handlerExample configDoubled halfTarget).result = .ok (.valid share)) :
    run (next packagesExample (fun _ => false) configDoubled) freshExample eventsDoubled =
      some (doubledExample.credit configDoubled 0 (handlerExample configDoubled halfTarget)
        minerDoubled share noon) := by
  have suggested : next packagesExample (fun _ => false) configDoubled
      (waitingExample configDoubled halfTarget) (.suggestDifficulty 0 (some 2) noon) =
        some doubledExample := rfl
  have credited : next packagesExample (fun _ => false) configDoubled doubledExample
      (.resume 0 noon) = some (doubledExample.credit configDoubled 0
        (handlerExample configDoubled halfTarget) minerDoubled share noon) :=
    next_resume_of_valid rfl rfl rfl valid noon
  rw [eventsDoubled, run_append, run_waitingExample, Option.bind_some, run_cons, suggested,
    Option.bind_some, run_cons, credited, Option.bind_some, run_nil]

/-- A share that was compared with the target of the difficulty one is credited
with the difficulty two. -/
theorem not_fairlyRecorded_eventsDoubled :
    ¬∀ (deps : Externals) (hostile : Nat → Bool) (config : DeskConfig)
        (walletAddress poolTarget : Text) (ledger : Ledger) (best : BestShare)
        (events : List DeskEvent) (desk : Desk),
      run (next deps hostile config) (initial walletAddress poolTarget ledger best) events =
        some desk →
      ∀ recorded ∈ desk.outcomes, ∀ handler share,
        desk.handlers[recorded.handler]? = some handler →
        handler.result = .ok (.valid share) → share.isBlock = false →
          FairlyRecorded config.shares desk.handlers recorded := by
  intro always
  obtain ⟨share, valid, context, accepted⟩ := exists_share_handlerExample configDoubled halfTarget
    (by decide) (List.cons_ne_nil _ _) easiest_configDoubled
  rcases acceptShare_eq_valid accepted with ⟨hashed, hash, isBlock, _⟩
  have notBlock : share.isBlock = false := by
    rw [isBlock, hash, hashed]
    exact decide_eq_false misses_overlongCandidate
  let settled := { handlerExample configDoubled halfTarget with settled := true }
  have handlers : (doubledExample.credit configDoubled 0 (handlerExample configDoubled halfTarget)
      minerDoubled share noon).handlers = [settled] := rfl
  have found : (doubledExample.credit configDoubled 0 (handlerExample configDoubled halfTarget)
      minerDoubled share noon).handlers[0]? = some settled := by
    rw [handlers, List.getElem?_cons_zero]
  have kept : ∀ handler : Handler, ({ handler with settled := true } : Handler).result =
      handler.result ∧ ({ handler with settled := true } : Handler).checked = handler.checked :=
    fun _ => ⟨rfl, rfl⟩
  have validAgain := (kept (handlerExample configDoubled halfTarget)).1.trans valid
  have contextAgain := (kept (handlerExample configDoubled halfTarget)).2.trans context
  have fair := always _ _ _ _ _ _ _ _ _ (run_eventsDoubled valid) _
    (List.mem_append_right _ (List.mem_singleton_self _)) settled share found validAgain notBlock
  obtain ⟨handler, other, ctx, foundAgain, otherValid, otherContext, _, credit⟩ :=
    fair _ _ _ _ rfl
  have same : handler = settled := Option.some.inj (foundAgain.symm.trans found)
  rw [same] at otherValid otherContext
  have sameShare : other = share := by
    have same := otherValid.symm.trans validAgain
    cases same
    rfl
  have sameContext : ctx = overlongContext halfTarget :=
    Option.some.inj (otherContext.symm.trans contextAgain)
  have compared := credit.compared
  have within : hexNumber share.hash ≤ hexNumber easiestTarget := by
    rw [hash]
    exact hexNumber_hashText_le packagesExample _
  have effective : effectiveTarget (overlongContext halfTarget) (hexNumber share.hash) =
      hexNumber easiestTarget := if_pos (Or.inl within)
  have different : targetNumber maxTarget 2 ≠ hexNumber easiestTarget := by
    decide +kernel
  rw [sameShare, sameContext, effective, currentDifficulty_minerDoubled] at compared
  exact different compared

/-! ## A difficulty that stays -/

/-- The submission of a share that is no block. -/
def eventsCredited : List DeskEvent :=
  readyEvents halfTarget ++ [submitExample] ++ [.resume 0 noon]

theorem run_eventsCredited {share : AcceptedShare}
    (valid : (handlerExample configExample halfTarget).result = .ok (.valid share)) :
    run (next packagesExample (fun _ => false) configExample) freshExample eventsCredited =
      some (creditedExample configExample halfTarget share) := by
  rw [eventsCredited, run_creditedExample _ valid]

theorem undisturbed_eventsCredited :
    Throughout (next packagesExample (fun _ => false) configExample) Undisturbed freshExample
      eventsCredited := by
  rw [eventsCredited, throughout_append]
  constructor
  · exact throughout_of_mem (forall_waitingEvents halfTarget (fun _ _ => trivial)
      (fun _ => trivial) (fun _ => trivial) (fun _ => trivial)) _
  · intro middle reached
    rw [run_waitingExample] at reached
    obtain rfl := Option.some.inj reached
    have waiting : (waitingExample configExample halfTarget).waiting 0 =
        some (handlerExample configExample halfTarget, countSubmit (minerExample configExample)) :=
      waiting_eq_some_iff.mpr ⟨rfl, rfl, rfl⟩
    refine ⟨fun handler miner share ctx waits valid context => ?_, fun _ _ => trivial⟩
    obtain ⟨rfl, rfl⟩ := Prod.mk.inj (Option.some.inj (waiting.symm.trans waits))
    obtain ⟨other, otherValid, otherContext, accepted⟩ := exists_share_handlerExample configExample
      halfTarget (by decide) (List.cons_ne_nil _ _) easiest_configExample
    rw [valid] at otherValid
    rw [context] at otherContext
    cases otherValid
    cases otherContext
    refine ⟨rfl, Or.inr ?_⟩
    rw [(acceptShare_eq_valid accepted).2.1]
    exact hexNumber_hashText_le packagesExample _

theorem fair_eventsCredited : ∃ desk,
    run (next packagesExample (fun _ => false) configExample) freshExample eventsCredited =
      some desk ∧ Fair configExample.shares desk := by
  obtain ⟨share, valid, _⟩ := exists_share_handlerExample configExample halfTarget
    (by decide) (List.cons_ne_nil _ _) easiest_configExample
  exact ⟨_, run_eventsCredited valid,
    fair_of_undisturbed undisturbed_eventsCredited (run_eventsCredited valid)⟩

end Desk

end ZcashSoloPool.Pool
