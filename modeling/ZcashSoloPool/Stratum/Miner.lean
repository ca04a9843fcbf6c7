import ZcashSoloPool.Stratum.Delivery
import ZcashSoloPool.Stratum.Difficulty
import ZcashSoloPool.WorkManager.Quality

/-!
# Miners

What the stratum server keeps of a client for its shares: the difficulty with
its targets, the times of accepted shares and the metrics.  The smoothed
hashrate, which needs an exponential, is left out.
-/

namespace ZcashSoloPool.Stratum

open ZcashSoloPool.JavaScript
open ZcashSoloPool.WorkManager

/-- The settings that shares depend on. -/
structure ShareConfig where
  vardiff : VardiffConfig
  baseTargetBI : Nat
  hashrateWindowSeconds : ℚ

/-- An entry of `recentAccepted`. -/
structure Contribution where
  ts : Nat
  difficulty : ℚ
  deriving DecidableEq, Repr

/-- The `metrics` of a client. -/
structure Metrics where
  submits : Nat
  accepted : Nat
  rejected : Nat
  blocksFound : Nat
  invalid : Nat
  lowDiff : Nat
  stale : Nat
  bestShareDifficulty : ℚ
  bestShareHash : Option Text
  lastBlockDifficulty : ℚ
  lastShareAt : Option Nat
  recentAccepted : List Contribution
  deriving DecidableEq, Repr

/-- A client of the server. -/
structure Miner where
  client : Client
  authorized : Bool
  workerName : Option CodeUnits
  listed : Bool
  currentDifficulty : ℚ
  shareTimes : List Nat
  lastRetargetAt : Nat
  connectedAt : Nat
  metrics : Metrics
  deriving DecidableEq, Repr

/-- The worker that a share is put down to: the name of the client, or a value
that the submission carries or the server makes. -/
inductive WorkerLabel where
  | name (units : CodeUnits)
  | value (value : Value)
  deriving DecidableEq, Repr

/-- `client.workerName || submission.worker`, or else the miner's number. -/
def workerLabel (workerName : Option CodeUnits) (worker : Value) (clientId : Nat) : WorkerLabel :=
  if workerName.getD [] ≠ [] then .name (workerName.getD [])
  else .value (worker.or (.string (minerLabel clientId)))

/-- The metrics of a new connection. -/
def Metrics.initial : Metrics where
  submits := 0
  accepted := 0
  rejected := 0
  blocksFound := 0
  invalid := 0
  lowDiff := 0
  stale := 0
  bestShareDifficulty := 0
  bestShareHash := none
  lastBlockDifficulty := 0
  lastShareAt := none
  recentAccepted := []

namespace Miner

/-! ## Difficulty -/

/-- `applyDifficulty`.  The target before an increase counts for another 30
seconds. -/
def applyDifficulty (config : ShareConfig) (miner : Miner) (difficulty : ℚ) (now : Nat) : Miner :=
  let newDifficulty := clampDifficulty config.vardiff difficulty
  let grace := miner.client.shareTarget.any (fun oldTarget => !oldTarget.isEmpty) &&
    decide (newDifficulty > miner.currentDifficulty)
  { miner with
    client := { miner.client with
      shareTarget := some (targetForDifficulty config.baseTargetBI newDifficulty)
      previousShareTarget := if grace then miner.client.shareTarget else none
      previousTargetExpiresAt := if grace then now + 30000 else 0 }
    currentDifficulty := newDifficulty }

/-- A new connection. -/
def connected (config : ShareConfig) (clientId now : Nat) : Miner :=
  let difficulty := clampDifficulty config.vardiff config.vardiff.initialDifficulty
  applyDifficulty config {
    client := ⟨extranonce1 clientId, none, none, 0⟩
    authorized := false
    workerName := none
    listed := true
    currentDifficulty := difficulty
    shareTimes := []
    lastRetargetAt := 0
    connectedAt := now
    metrics := .initial } difficulty now

/-- The average time between the shares of the window. -/
def averageInterval (vardiff : VardiffConfig) (shareTimes : List Nat) : ℚ :=
  if shareTimes.length - 1 > 0 then
    ((shareTimes.getLastD 0 : ℚ) - shareTimes.headD 0) / 1000 / (shareTimes.length - 1 : Nat)
  else vardiff.targetTime

/-- The difficulty that the average interval proposes. -/
def proposedDifficulty (vardiff : VardiffConfig) (currentDifficulty avg : ℚ) : ℚ :=
  let ratio := vardiff.targetTime / max avg (1 / 1000)
  let dampened := if ratio > 1 then min ratio (3 / 2) else max ratio (33 / 100)
  clampDifficulty vardiff (currentDifficulty * dampened)

/-- Change the difficulty of a client whose shares come too fast or too slow,
unless the change is small. -/
def retarget (config : ShareConfig) (miner : Miner) (now : Nat) : Miner :=
  let vardiff := config.vardiff
  let avg := averageInterval vardiff miner.shareTimes
  let variance := vardiff.variancePercent / 100
  let retargeted := { miner with lastRetargetAt := now }
  if vardiff.targetTime * (1 - variance) ≤ avg ∧ avg ≤ vardiff.targetTime * (1 + variance) then
    retargeted
  else
    let proposed := proposedDifficulty vardiff miner.currentDifficulty avg
    let changeRatio :=
      |proposed - miner.currentDifficulty| / max miner.currentDifficulty (1 / 10 ^ 8)
    if changeRatio < 5 / 100 then retargeted else applyDifficulty config retargeted proposed now

/-- `shareTimes` with the time of another share, cut to the window and to 120
entries. -/
def pushShareTime (vardiff : VardiffConfig) (shareTimes : List Nat) (now : Nat) : List Nat :=
  let kept := (shareTimes ++ [now]).filter fun ts : Nat =>
    decide ((now : ℚ) - ts ≤ vardiff.retargetTime * 1000 * 4)
  kept.drop (kept.length - 120)

/-- `noteAcceptedShare`. -/
def noteAcceptedShare (config : ShareConfig) (miner : Miner) (now : Nat) : Miner :=
  let vardiff := config.vardiff
  if vardiff.enabled then
    let noted := { miner with shareTimes := pushShareTime vardiff miner.shareTimes now }
    if (noted.shareTimes.length : ℚ) < vardiff.minSamples then noted
    else if (now : ℚ) - noted.lastRetargetAt < vardiff.retargetTime * 1000 then noted
    else retarget config noted now
  else miner

/-- `checkIdleMinersVardiff` for one client. -/
def checkIdle (config : ShareConfig) (now : Nat) (miner : Miner) : Miner :=
  let vardiff := config.vardiff
  let lastShareAt := miner.shareTimes.getLastD miner.connectedAt
  if !miner.listed || !miner.authorized then miner
  else if (now : ℚ) - lastShareAt < vardiff.targetTime * 3 * 1000 then miner
  else if miner.currentDifficulty ≤ vardiff.minDifficulty then miner
  else if (now : ℚ) - miner.lastRetargetAt < vardiff.retargetTime * 1000 then miner
  else
    let proposed := clampDifficulty vardiff (miner.currentDifficulty / 2)
    if proposed ≥ miner.currentDifficulty then miner
    else applyDifficulty config { miner with lastRetargetAt := now } proposed now

/-- `mining.suggest_difficulty`, with the number that was suggested. -/
def suggestDifficulty (config : ShareConfig) (suggested : Option ℚ) (now : Nat) (miner : Miner) :
    Miner :=
  match parsePositiveNumber suggested with
  | some difficulty => applyDifficulty config miner difficulty now
  | none => miner

/-- `mining.authorize`, as far as shares depend on it. -/
def authorize (clientId : Nat) (user : Option CodeUnits) (miner : Miner) : Miner :=
  { miner with
    authorized := true
    workerName := some (sanitizeWorkerName (chooseName miner.workerName clientId user)) }

end Miner

/-! ## Outcomes -/

/-- What `recordShareOutcome` is told. -/
inductive Outcome where
  | accepted (hash : Text) (shareDifficulty : ℚ) (foundDifficulty : Option ℚ)
      (assignedDifficulty : ℚ)
  | rejected (reason : String)
  deriving DecidableEq, Repr

/-- The share was accepted. -/
def Outcome.isAccepted : Outcome → Bool
  | .accepted _ _ _ _ => true
  | .rejected _ => false

/-- The difficulty that an accepted share adds to the window. -/
def diffContribution (currentDifficulty assignedDifficulty : ℚ) : ℚ :=
  if 0 < assignedDifficulty then assignedDifficulty else max currentDifficulty 0

/-- The counters of an accepted share. -/
def Metrics.countAccepted (metrics : Metrics) (contribution : Contribution) (hash : Text)
    (shareDifficulty : ℚ) (foundDifficulty : Option ℚ) : Metrics :=
  let foundDiff := parsePositiveNumber foundDifficulty
  let effectiveDiff := foundDiff.getD shareDifficulty
  { metrics with
    accepted := metrics.accepted + 1
    recentAccepted := metrics.recentAccepted ++ [contribution]
    bestShareDifficulty :=
      if effectiveDiff > metrics.bestShareDifficulty then effectiveDiff
      else metrics.bestShareDifficulty
    bestShareHash :=
      if effectiveDiff > metrics.bestShareDifficulty ∧ hash ≠ [] then some hash
      else metrics.bestShareHash
    lastBlockDifficulty := foundDiff.getD metrics.lastBlockDifficulty }

/-- `_.includes(needle)`. -/
def includes (needle : String) (text : Text) : Bool :=
  decide (needle.toList <:+: text)

/-- The counters of a rejected share. -/
def Metrics.countRejected (metrics : Metrics) (reason : String) : Metrics :=
  let reason := toLowerCase reason.toList
  let counted := { metrics with rejected := metrics.rejected + 1 }
  if includes "invalid" reason then { counted with invalid := metrics.invalid + 1 }
  else if includes "low diff" reason then { counted with lowDiff := metrics.lowDiff + 1 }
  else if includes "expired" reason || includes "stale" reason then
    { counted with stale := metrics.stale + 1 }
  else counted

/-- The entries of the window that are not too old. -/
def recentOnly (config : ShareConfig) (now : Nat) (contributions : List Contribution) :
    List Contribution :=
  contributions.filter fun s => decide ((now : ℚ) - s.ts ≤ config.hashrateWindowSeconds * 1000)

/-- `recordShareOutcome`. -/
def recordShareOutcome (config : ShareConfig) (miner : Miner) (outcome : Outcome) (now : Nat) :
    Miner :=
  let counted :=
    match outcome with
    | .accepted hash shareDifficulty foundDifficulty assignedDifficulty =>
        miner.metrics.countAccepted
          ⟨now, diffContribution miner.currentDifficulty assignedDifficulty⟩ hash shareDifficulty
          foundDifficulty
    | .rejected reason => miner.metrics.countRejected reason
  { miner with metrics := { counted with
      lastShareAt := some now
      recentAccepted := recentOnly config now counted.recentAccepted } }

/-! ## What an operation leaves alone -/

/-- The metrics and the times of accepted shares: what credit shows in. -/
def Miner.account (miner : Miner) : Metrics × List Nat :=
  (miner.metrics, miner.shareTimes)

namespace Miner

@[simp]
theorem account_applyDifficulty (config : ShareConfig) (miner : Miner) (difficulty : ℚ)
    (now : Nat) : (miner.applyDifficulty config difficulty now).account = miner.account :=
  rfl

@[simp]
theorem account_connected (config : ShareConfig) (clientId now : Nat) :
    (connected config clientId now).account = (.initial, []) :=
  rfl

@[simp]
theorem account_retarget (config : ShareConfig) (miner : Miner) (now : Nat) :
    (miner.retarget config now).account = miner.account := by
  unfold retarget
  dsimp only
  split
  · rfl
  · split <;> rfl

@[simp]
theorem account_checkIdle (config : ShareConfig) (now : Nat) (miner : Miner) :
    (miner.checkIdle config now).account = miner.account := by
  unfold checkIdle
  dsimp only
  split
  · rfl
  · split
    · rfl
    · split
      · rfl
      · split
        · rfl
        · split <;> rfl

@[simp]
theorem account_suggestDifficulty (config : ShareConfig) (suggested : Option ℚ) (now : Nat)
    (miner : Miner) : (miner.suggestDifficulty config suggested now).account = miner.account := by
  unfold suggestDifficulty
  split <;> rfl

@[simp]
theorem account_authorize (clientId : Nat) (user : Option CodeUnits) (miner : Miner) :
    (miner.authorize clientId user).account = miner.account :=
  rfl

theorem length_pushShareTime_le (vardiff : VardiffConfig) (shareTimes : List Nat) (now : Nat) :
    (pushShareTime vardiff shareTimes now).length ≤ shareTimes.length + 1 := by
  rw [pushShareTime, List.length_drop]
  have kept := List.length_filter_le
    (fun ts : Nat => decide ((now : ℚ) - ts ≤ vardiff.retargetTime * 1000 * 4))
    (shareTimes ++ [now])
  rw [List.length_append, List.length_singleton] at kept
  exact (Nat.sub_le _ _).trans kept

/-- An accepted share may retarget; it adds one time at most. -/
theorem account_noteAcceptedShare (config : ShareConfig) (miner : Miner) (now : Nat) :
    (miner.noteAcceptedShare config now).account = miner.account ∨
      (miner.noteAcceptedShare config now).account =
        (miner.metrics, pushShareTime config.vardiff miner.shareTimes now) := by
  unfold noteAcceptedShare
  dsimp only
  split
  · right
    split
    · rw [account]
    · split
      · rw [account]
      · rw [account_retarget, account]
  · exact Or.inl rfl

theorem metrics_noteAcceptedShare (config : ShareConfig) (miner : Miner) (now : Nat) :
    (miner.noteAcceptedShare config now).metrics = miner.metrics := by
  rcases account_noteAcceptedShare config miner now with same | pushed
  · exact congrArg Prod.fst same
  · exact congrArg Prod.fst pushed

theorem length_shareTimes_noteAcceptedShare_le (config : ShareConfig) (miner : Miner) (now : Nat) :
    (miner.noteAcceptedShare config now).shareTimes.length ≤ miner.shareTimes.length + 1 := by
  rcases account_noteAcceptedShare config miner now with same | pushed
  · have lengths := congrArg (fun account => account.2.length) same
    exact (Nat.le_of_eq lengths).trans (Nat.le_succ _)
  · have lengths := congrArg (fun account => account.2.length) pushed
    exact (Nat.le_of_eq lengths).trans (length_pushShareTime_le _ _ _)

end Miner

/-! ## The target of a client -/

/-- The difficulty is positive, and the target is the one that belongs to it. -/
structure Miner.Assigned (config : ShareConfig) (miner : Miner) : Prop where
  positive : 0 < miner.currentDifficulty
  target : miner.client.shareTarget =
    some (targetForDifficulty config.baseTargetBI miner.currentDifficulty)

namespace Miner.Assigned

variable {config : ShareConfig} {miner : Miner}

theorem applyDifficulty (config : ShareConfig) (miner : Miner) (difficulty : ℚ) (now : Nat) :
    Assigned config (miner.applyDifficulty config difficulty now) :=
  ⟨clampDifficulty_pos _ _, rfl⟩

/-- The target depends on the client's difficulty only. -/
theorem of_same {other : Miner} (assigned : Assigned config miner)
    (target : other.client.shareTarget = miner.client.shareTarget)
    (difficulty : other.currentDifficulty = miner.currentDifficulty) : Assigned config other where
  positive := by
    rw [difficulty]
    exact assigned.positive
  target := by
    rw [target, difficulty]
    exact assigned.target

theorem retarget (assigned : Assigned config miner) (now : Nat) :
    Assigned config (miner.retarget config now) := by
  unfold Miner.retarget
  dsimp only
  split
  · exact assigned.of_same rfl rfl
  · split
    · exact assigned.of_same rfl rfl
    · exact applyDifficulty config _ _ now

theorem noteAcceptedShare (assigned : Assigned config miner) (now : Nat) :
    Assigned config (miner.noteAcceptedShare config now) := by
  unfold Miner.noteAcceptedShare
  dsimp only
  split
  · split
    · exact assigned.of_same rfl rfl
    · split
      · exact assigned.of_same rfl rfl
      · refine retarget ?_ now
        exact assigned.of_same rfl rfl
  · exact assigned

theorem checkIdle (assigned : Assigned config miner) (now : Nat) :
    Assigned config (miner.checkIdle config now) := by
  unfold Miner.checkIdle
  dsimp only
  split
  · exact assigned
  · split
    · exact assigned
    · split
      · exact assigned
      · split
        · exact assigned
        · split
          · exact assigned
          · exact applyDifficulty config _ _ now

theorem suggestDifficulty (assigned : Assigned config miner) (suggested : Option ℚ) (now : Nat) :
    Assigned config (miner.suggestDifficulty config suggested now) := by
  unfold Miner.suggestDifficulty
  split
  · exact applyDifficulty config miner _ now
  · exact assigned

end Miner.Assigned

/-- The counters after an outcome. -/
structure Counts (metrics counted : Metrics) (credited : Bool) : Prop where
  submits : counted.submits = metrics.submits
  accepted : counted.accepted = metrics.accepted + if credited then 1 else 0
  rejected : counted.rejected = metrics.rejected + if credited then 0 else 1
  blocksFound : counted.blocksFound = metrics.blocksFound
  recentAccepted : counted.recentAccepted.length ≤
    metrics.recentAccepted.length + if credited then 1 else 0

theorem counts_countRejected (metrics : Metrics) (reason : String) :
    Counts metrics (metrics.countRejected reason) false := by
  unfold Metrics.countRejected
  dsimp only
  split
  · exact ⟨rfl, rfl, rfl, rfl, Nat.le_refl _⟩
  · split
    · exact ⟨rfl, rfl, rfl, rfl, Nat.le_refl _⟩
    · split <;> exact ⟨rfl, rfl, rfl, rfl, Nat.le_refl _⟩

/-- Every outcome is counted once, as accepted or as rejected. -/
theorem counts_recordShareOutcome (config : ShareConfig) (miner : Miner) (outcome : Outcome)
    (now : Nat) :
    Counts miner.metrics (recordShareOutcome config miner outcome now).metrics
      outcome.isAccepted := by
  cases outcome with
  | accepted hash shareDifficulty foundDifficulty assignedDifficulty =>
      refine ⟨rfl, rfl, rfl, rfl, ?_⟩
      refine (List.length_filter_le _ _).trans (Nat.le_of_eq ?_)
      exact List.length_append
  | rejected reason =>
      have counted := counts_countRejected miner.metrics reason
      exact ⟨counted.submits, counted.accepted, counted.rejected, counted.blocksFound,
        (List.length_filter_le _ _).trans counted.recentAccepted⟩

end ZcashSoloPool.Stratum
