import ZcashSoloPool.Limits.Smoothing
import ZcashSoloPool.Stratum.Vardiff
import Mathlib.Data.List.Induction

/-!
# Hash rates

The rate of a miner is estimated in two ways, which are mixed: from the
difficulties of the shares in a window of time, and by a mean that every share
moves towards the rate since the share before it.  The window is pruned at every
outcome, and the mean needs an exponential, which is an argument here.
-/

namespace ZcashSoloPool.Stratum

open ZcashSoloPool.JavaScript
open ZcashSoloPool.Limits
open ZcashSoloPool.Transition

/-! ## Estimates -/

/-- The settings that rates depend on.  The constructor takes no window below ten
seconds and no scale that is not positive. -/
structure RateConfig where
  share : ShareConfig
  solutionRateScale : ℚ
  scale_pos : 0 < solutionRateScale
  ten_le_window : 10 ≤ share.hashrateWindowSeconds

/-- The members of the metrics that smooth the rate. -/
structure Smoothed where
  lastAcceptedMs : Option Nat
  ewmaHashrate : ℚ

/-- A miner with its smoothed rate. -/
structure RatedMiner where
  miner : Miner
  smoothed : Smoothed

/-- The time of the last share, with zero for none: both are false in a
condition. -/
def Smoothed.prevMs (smoothed : Smoothed) : Nat :=
  smoothed.lastAcceptedMs.getD 0

/-- The rate that a share shows if the last one came at some time. -/
def instantaneous (config : RateConfig) (prevMs : Nat) (contribution : Contribution) : ℚ :=
  contribution.difficulty * config.solutionRateScale / (((contribution.ts : ℚ) - prevMs) / 1000)

/-- The rate that the first share is taken for. -/
def seedRate (config : RateConfig) (contribution : Contribution) : ℚ :=
  let targetTime := config.share.vardiff.targetTime
  contribution.difficulty * config.solutionRateScale / max 1 (if targetTime = 0 then 30 else targetTime)

/-- The share of the way to the rate of a share. -/
def alpha (config : RateConfig) (exp : ℚ → ℚ) (prevMs now : Nat) : ℚ :=
  1 - exp (-(((now : ℚ) - prevMs) / 1000) / config.share.hashrateWindowSeconds)

/-- The part of `recordShareOutcome` that smooths the rate. -/
def Smoothed.note (config : RateConfig) (exp : ℚ → ℚ) (smoothed : Smoothed)
    (contribution : Contribution) : Smoothed where
  lastAcceptedMs := some contribution.ts
  ewmaHashrate :=
    if smoothed.prevMs ≠ 0 ∧ smoothed.prevMs < contribution.ts then
      smooth (alpha config exp smoothed.prevMs contribution.ts)
        (instantaneous config smoothed.prevMs contribution) smoothed.ewmaHashrate
    else if smoothed.prevMs = 0 then seedRate config contribution
    else smoothed.ewmaHashrate

namespace RatedMiner

/-- A new connection. -/
def connected (config : RateConfig) (clientId now : Nat) : RatedMiner :=
  ⟨Miner.connected config.share clientId now, ⟨none, 0⟩⟩

/-- What an outcome adds to the window. -/
def contribution (rated : RatedMiner) (outcome : Outcome) (now : Nat) : Option Contribution :=
  match outcome with
  | .accepted _ _ _ assignedDifficulty =>
      some ⟨now, diffContribution rated.miner.currentDifficulty assignedDifficulty⟩
  | .rejected _ => none

/-- `recordShareOutcome`. -/
def recordShareOutcome (config : RateConfig) (exp : ℚ → ℚ) (rated : RatedMiner) (outcome : Outcome)
    (now : Nat) : RatedMiner where
  miner := Stratum.recordShareOutcome config.share rated.miner outcome now
  smoothed := (rated.contribution outcome now).elim rated.smoothed (rated.smoothed.note config exp)

/-- `estimateHashrate`, with a window or none. -/
def estimateHashrate (config : RateConfig) (rated : RatedMiner) (windowSeconds : Option ℚ)
    (now : Nat) : ℚ :=
  let effectiveWindow :=
    ((windowSeconds.filter fun seconds => 0 < seconds).getD config.share.hashrateWindowSeconds)
  let safeWindowSeconds := max 10 effectiveWindow
  let shares := rated.miner.metrics.recentAccepted.filter fun s =>
    decide ((now : ℚ) - s.ts ≤ safeWindowSeconds * 1000)
  if shares.isEmpty then 0
  else
    let totalDifficulty := (shares.map fun s => max 0 s.difficulty).sum
    if totalDifficulty ≤ 0 then 0
    else
      let windowEstimate := totalDifficulty * config.solutionRateScale / safeWindowSeconds
      if 0 < rated.smoothed.ewmaHashrate then
        3 / 10 * windowEstimate + 7 / 10 * rated.smoothed.ewmaHashrate
      else windowEstimate

/-- `getPoolSolutionRate`. -/
def getPoolSolutionRate (config : RateConfig) (clients : List RatedMiner) (now : Nat) : ℚ :=
  ((clients.filter fun rated => rated.miner.listed && rated.miner.authorized).map fun rated =>
    rated.estimateHashrate config none now).sum

/-! ## Runs -/

/-- What can happen: a share has an outcome, or something that may change the
difficulty. -/
inductive Event where
  | outcome (outcome : Outcome) (now : Nat)
  | course (event : MinerEvent)

/-- The reading of the clock that an event makes. -/
def Event.reading : Event → Option Nat
  | .outcome _ now => some now
  | .course event => event.reading

/-- What an event does. -/
def react (config : RateConfig) (exp : ℚ → ℚ) (rated : RatedMiner) : Event → RatedMiner
  | .outcome outcome now => rated.recordShareOutcome config exp outcome now
  | .course event => { rated with miner := rated.miner.react config.share event }

/-- What an event adds to the window. -/
def credit (rated : RatedMiner) : Event → Option Contribution
  | .outcome outcome now => rated.contribution outcome now
  | .course _ => none

/-- All that the events of a run have ever added to the window. -/
def credited (config : RateConfig) (exp : ℚ → ℚ) : RatedMiner → List Event → List Contribution
  | _, [] => []
  | rated, event :: rest =>
      (rated.credit event).toList ++ credited config exp (rated.react config exp event) rest

/-- The rates that shares show, one after another; a share of the same moment as
the one before it shows none. -/
def rates (config : RateConfig) (prevMs : Nat) : List Contribution → List ℚ
  | [] => []
  | contribution :: rest =>
      let later := rates config contribution.ts rest
      if prevMs ≠ 0 ∧ prevMs < contribution.ts then
        instantaneous config prevMs contribution :: later
      else if prevMs = 0 then seedRate config contribution :: later
      else later

/-- A miner after its connection and some events. -/
def after (config : RateConfig) (exp : ℚ → ℚ) (clientId connectedAt : Nat) (events : List Event) :
    RatedMiner :=
  events.foldl (react config exp) (connected config clientId connectedAt)

/-- What the shares of a miner have added to the window since its connection. -/
def history (config : RateConfig) (exp : ℚ → ℚ) (clientId connectedAt : Nat)
    (events : List Event) : List Contribution :=
  credited config exp (connected config clientId connectedAt) events

end RatedMiner

/-! ## The mean -/

/-- An exponential of a number that is not positive is between zero and one. -/
def Decays (exp : ℚ → ℚ) : Prop :=
  ∀ x ≤ 0, 0 ≤ exp x ∧ exp x ≤ 1

theorem window_pos (config : RateConfig) : 0 < config.share.hashrateWindowSeconds :=
  lt_of_lt_of_le (by norm_num) config.ten_le_window

theorem alpha_mem_Icc (config : RateConfig) {exp : ℚ → ℚ} (decays : Decays exp) {prevMs now : Nat}
    (later : prevMs < now) :
    0 ≤ alpha config exp prevMs now ∧ alpha config exp prevMs now ≤ 1 := by
  have elapsed : (0 : ℚ) ≤ ((now : ℚ) - prevMs) / 1000 := by
    have order : (prevMs : ℚ) ≤ now := by exact_mod_cast later.le
    linarith
  have exponent : -(((now : ℚ) - prevMs) / 1000) / config.share.hashrateWindowSeconds ≤ 0 :=
    div_nonpos_of_nonpos_of_nonneg (neg_nonpos.mpr elapsed) (window_pos config).le
  obtain ⟨low, high⟩ := decays _ exponent
  unfold alpha
  constructor <;> linarith

section Mean

variable {config : RateConfig} {exp : ℚ → ℚ}

/-- The mean has a property that smoothing keeps if all rates that the shares show
have it. -/
theorem ewmaHashrate_foldl_note {P : ℚ → Prop} (decays : Decays exp)
    (smooths : ∀ share observed value : ℚ, 0 ≤ share → share ≤ 1 → P observed → P value →
      P (smooth share observed value))
    {contributions : List Contribution} {smoothed : Smoothed}
    (seeded : smoothed.prevMs = 0 ∨ P smoothed.ewmaHashrate) (some_ : contributions ≠ [])
    (shown : ∀ rate ∈ RatedMiner.rates config smoothed.prevMs contributions, P rate) :
    P (contributions.foldl (Smoothed.note config exp) smoothed).ewmaHashrate := by
  induction contributions generalizing smoothed with
  | nil => contradiction
  | cons contribution rest ih =>
      rw [RatedMiner.rates] at shown
      have noted : P (smoothed.note config exp contribution).ewmaHashrate ∧
          ∀ rate ∈ RatedMiner.rates config contribution.ts rest, P rate := by
        simp only [Smoothed.note]
        split
        · next moves =>
            rw [if_pos moves] at shown
            obtain ⟨low, high⟩ := alpha_mem_Icc config decays moves.2
            have before := seeded.resolve_left moves.1
            exact ⟨smooths _ _ _ low high (shown _ List.mem_cons_self) before,
              fun rate member => shown rate (List.mem_cons_of_mem _ member)⟩
        · next stays =>
            rw [if_neg stays] at shown
            split
            · next first =>
                rw [if_pos first] at shown
                exact ⟨shown _ List.mem_cons_self,
                  fun rate member => shown rate (List.mem_cons_of_mem _ member)⟩
            · next later =>
                rw [if_neg later] at shown
                exact ⟨seeded.resolve_left later, shown⟩
      cases rest with
      | nil => exact noted.1
      | cons next rest => exact ih (Or.inr noted.1) (List.cons_ne_nil next rest) noted.2

/-- The rates of positive difficulties are positive. -/
theorem rates_pos {prevMs : Nat} {contributions : List Contribution}
    (positive : ∀ contribution ∈ contributions, 0 < contribution.difficulty) :
    ∀ rate ∈ RatedMiner.rates config prevMs contributions, 0 < rate := by
  induction contributions generalizing prevMs with
  | nil => simp [RatedMiner.rates]
  | cons contribution rest ih =>
      have later : ∀ rate ∈ RatedMiner.rates config contribution.ts rest, 0 < rate :=
        ih fun other member => positive other (List.mem_cons_of_mem _ member)
      have scaled : 0 < contribution.difficulty * config.solutionRateScale :=
        mul_pos (positive contribution List.mem_cons_self) config.scale_pos
      intro rate member
      rw [RatedMiner.rates] at member
      split at member
      · next moves =>
          rcases List.mem_cons.mp member with rfl | member
          · have order : (prevMs : ℚ) < contribution.ts := by exact_mod_cast moves.2
            exact div_pos scaled (by linarith)
          · exact later rate member
      · split at member
        · rcases List.mem_cons.mp member with rfl | member
          · exact div_pos scaled (lt_max_of_lt_left one_pos)
          · exact later rate member
        · exact later rate member

end Mean

namespace RatedMiner

/-! ## The window -/

section Window

variable (config : RateConfig) (exp : ℚ → ℚ)

theorem credited_append (rated : RatedMiner) (first second : List Event) :
    credited config exp rated (first ++ second) = credited config exp rated first ++
      credited config exp (first.foldl (react config exp) rated) second := by
  induction first generalizing rated with
  | nil => rfl
  | cons event rest ih =>
      rw [List.cons_append, credited, ih, credited, List.append_assoc]
      rfl

/-- The mean depends on what was added to the window. -/
theorem smoothed_foldl_react (rated : RatedMiner) (events : List Event) :
    (events.foldl (react config exp) rated).smoothed =
      (credited config exp rated events).foldl (Smoothed.note config exp) rated.smoothed := by
  induction events generalizing rated with
  | nil => rfl
  | cons event rest ih =>
      rw [List.foldl_cons, ih, credited, List.foldl_append]
      cases event with
      | course event => rfl
      | outcome outcome now => cases outcome <;> rfl

variable {config exp}

/-- What may change the difficulty leaves the metrics. -/
theorem metrics_react (config : ShareConfig) (miner : Miner) (event : MinerEvent) :
    (miner.react config event).metrics = miner.metrics := by
  cases event with
  | authorize => rfl
  | disconnect => rfl
  | suggestDifficulty suggested now =>
      exact congrArg Prod.fst (Miner.account_suggestDifficulty config suggested now miner)
  | noteAcceptedShare now => exact Miner.metrics_noteAcceptedShare config miner now
  | checkIdle now =>
      rw [Miner.react]
      split
      · exact congrArg Prod.fst (Miner.account_checkIdle config now miner)
      · rfl

/-- The difficulty stays within its bounds. -/
theorem served_react {rated : RatedMiner} (served : Miner.Served config.share rated.miner)
    (event : Event) : Miner.Served config.share (rated.react config exp event).miner := by
  cases event with
  | course event => exact served.react event
  | outcome outcome now => exact served.of_same ⟨rfl, rfl⟩

/-- What is added to the window is positive. -/
theorem difficulty_pos_of_mem_credited {rated : RatedMiner}
    (served : Miner.Served config.share rated.miner) {events : List Event}
    {contribution : Contribution} (member : contribution ∈ credited config exp rated events) :
    0 < contribution.difficulty := by
  induction events generalizing rated with
  | nil => contradiction
  | cons event rest ih =>
      rw [credited, List.mem_append, Option.mem_toList] at member
      rcases member with now | later
      · cases event with
        | course event => contradiction
        | outcome outcome now =>
            cases outcome with
            | rejected reason => contradiction
            | accepted hash shareDifficulty foundDifficulty assignedDifficulty =>
                cases now
                simp only [diffContribution]
                split
                · assumption
                · exact lt_max_of_lt_left served.inBounds.pos
      · exact ih (served_react served event) later

theorem difficulty_pos_of_mem_history {clientId connectedAt : Nat} {events : List Event}
    {contribution : Contribution}
    (member : contribution ∈ history config exp clientId connectedAt events) :
    0 < contribution.difficulty :=
  difficulty_pos_of_mem_credited (Miner.served_connected config.share clientId connectedAt) member

theorem recentOnly_append (config : ShareConfig) (now : Nat) (first second : List Contribution) :
    recentOnly config now (first ++ second) =
      recentOnly config now first ++ recentOnly config now second :=
  List.filter_append ..

/-- What was pruned earlier would be pruned now. -/
theorem recentOnly_recentOnly (config : ShareConfig) {earlier now : Nat} (order : earlier ≤ now)
    (contributions : List Contribution) :
    recentOnly config now (recentOnly config earlier contributions) =
      recentOnly config now contributions := by
  unfold recentOnly
  rw [List.filter_filter]
  apply List.filter_congr
  intro s _
  have order : (earlier : ℚ) ≤ now := by exact_mod_cast order
  rw [Bool.and_eq_left_iff_imp, decide_eq_true_iff, decide_eq_true_iff]
  intro recent
  linarith

/-- A rejected share adds nothing to the window. -/
theorem recentAccepted_countRejected (metrics : Metrics) (reason : String) :
    (metrics.countRejected reason).recentAccepted = metrics.recentAccepted := by
  unfold Metrics.countRejected
  dsimp only
  split
  · rfl
  · split
    · rfl
    · split <;> rfl

/-- What an event leaves of the window, as it is seen later. -/
theorem recentOnly_react (rated : RatedMiner) {event : Event} {now : Nat}
    (upTo : ∀ time, event.reading = some time → time ≤ now) :
    recentOnly config.share now (rated.react config exp event).miner.metrics.recentAccepted =
      recentOnly config.share now rated.miner.metrics.recentAccepted ++
        recentOnly config.share now (rated.credit event).toList := by
  cases event with
  | course event =>
      rw [react, metrics_react]
      exact (List.append_nil _).symm
  | outcome outcome time =>
      have pruned : (rated.react config exp (.outcome outcome time)).miner.metrics.recentAccepted =
          recentOnly config.share time
            (rated.miner.metrics.recentAccepted ++ (rated.contribution outcome time).toList) := by
        cases outcome with
        | accepted hash shareDifficulty foundDifficulty assignedDifficulty => rfl
        | rejected reason =>
            rw [react, recordShareOutcome, Stratum.recordShareOutcome]
            dsimp only
            rw [recentAccepted_countRejected]
            exact congrArg _ (List.append_nil _).symm
      rw [pruned, recentOnly_recentOnly config.share (upTo time rfl), recentOnly_append]
      rfl

/-- Pruning the window at every outcome loses nothing that a window of this width
still sees later. -/
theorem recentOnly_recentAccepted {clientId connectedAt : Nat} {events : List Event} {now : Nat}
    (inOrder : Chronological Event.reading events now) :
    recentOnly config.share now
        (after config exp clientId connectedAt events).miner.metrics.recentAccepted =
      recentOnly config.share now (history config exp clientId connectedAt events) := by
  induction events using List.reverseRecOn with
  | nil => rfl
  | append_singleton events event ih =>
      have upTo : ∀ time, event.reading = some time → time ≤ now := by
        intro time reads
        apply (chronological_iff.mp inOrder).2 time
        simp [reads]
      have step := @recentOnly_react config exp (after config exp clientId connectedAt events) event
        now upTo
      rw [ih inOrder.of_append, ← recentOnly_append] at step
      rw [history, credited_append, after, List.foldl_append]
      exact step.trans (by simp [credited, history, after])

end Window

/-! ## What is estimated -/

section Estimates

variable {config : RateConfig} {exp : ℚ → ℚ} {clientId connectedAt : Nat} {events : List Event}

/-- The mean has every property that smoothing keeps and the rates of all shares
have. -/
theorem ewmaHashrate_of_history {P : ℚ → Prop} (decays : Decays exp)
    (smooths : ∀ share observed value : ℚ, 0 ≤ share → share ≤ 1 → P observed → P value →
      P (smooth share observed value))
    (some_ : history config exp clientId connectedAt events ≠ [])
    (shown : ∀ rate ∈ rates config 0 (history config exp clientId connectedAt events), P rate) :
    P (after config exp clientId connectedAt events).smoothed.ewmaHashrate := by
  rw [after, smoothed_foldl_react, ← history]
  exact ewmaHashrate_foldl_note decays smooths (Or.inl rfl) some_ shown

theorem ewmaHashrate_pos (decays : Decays exp)
    (some_ : history config exp clientId connectedAt events ≠ []) :
    0 < (after config exp clientId connectedAt events).smoothed.ewmaHashrate :=
  ewmaHashrate_of_history (P := fun rate => 0 < rate) decays
    (fun _ _ _ low high observed value => smooth_pos low high observed value) some_
    (rates_pos fun _ member => difficulty_pos_of_mem_history member)

/-- The difficulties of the shares that a miner has found within the window. -/
def recentDifficulty (config : RateConfig) (now : Nat) (contributions : List Contribution) : ℚ :=
  ((recentOnly config.share now contributions).map Contribution.difficulty).sum

theorem recentDifficulty_pos {now : Nat}
    (some_ : recentOnly config.share now (history config exp clientId connectedAt events) ≠ []) :
    0 < recentDifficulty config now (history config exp clientId connectedAt events) := by
  apply List.sum_pos
  · intro difficulty member
    obtain ⟨contribution, isRecent, rfl⟩ := List.mem_map.mp member
    exact difficulty_pos_of_mem_history (List.mem_filter.mp isRecent).1
  · simpa using some_

/-- The estimate from the shares that were ever accepted. -/
theorem estimateHashrate_after (decays : Decays exp) {now : Nat}
    (inOrder : Chronological Event.reading events now) :
    (after config exp clientId connectedAt events).estimateHashrate config none now =
      if recentOnly config.share now (history config exp clientId connectedAt events) = [] then 0
      else 3 / 10 * (recentDifficulty config now (history config exp clientId connectedAt events) *
          config.solutionRateScale / config.share.hashrateWindowSeconds) +
        7 / 10 * (after config exp clientId connectedAt events).smoothed.ewmaHashrate := by
  have window : max 10 config.share.hashrateWindowSeconds = config.share.hashrateWindowSeconds :=
    max_eq_right config.ten_le_window
  have kept := @recentOnly_recentAccepted config exp clientId connectedAt events now inOrder
  unfold estimateHashrate
  simp only [Option.filter_none, Option.getD_none, window]
  rw [← recentOnly, kept]
  by_cases idle : recentOnly config.share now (history config exp clientId connectedAt events) = []
  · simp [idle]
  · have total : ((recentOnly config.share now
        (history config exp clientId connectedAt events)).map fun s => max 0 s.difficulty) =
        (recentOnly config.share now (history config exp clientId connectedAt events)).map
          Contribution.difficulty := by
      apply List.map_congr_left
      intro contribution isRecent
      exact max_eq_right (difficulty_pos_of_mem_history (List.mem_filter.mp isRecent).1).le
    have positive := recentDifficulty_pos idle
    have mean : 0 < (after config exp clientId connectedAt events).smoothed.ewmaHashrate := by
      apply ewmaHashrate_pos decays
      intro none_
      rw [none_] at idle
      exact idle rfl
    rw [if_neg (by simpa using idle), total, ← recentDifficulty, if_neg (not_le.mpr positive),
      if_pos mean, if_neg idle]

theorem estimateHashrate_pos (decays : Decays exp) {now : Nat}
    (inOrder : Chronological Event.reading events now)
    (active : recentOnly config.share now (history config exp clientId connectedAt events) ≠ []) :
    0 < (after config exp clientId connectedAt events).estimateHashrate config none now := by
  have mean : 0 < (after config exp clientId connectedAt events).smoothed.ewmaHashrate := by
    apply ewmaHashrate_pos decays
    intro none_
    rw [none_] at active
    exact active rfl
  have recent := div_pos (mul_pos (recentDifficulty_pos active) config.scale_pos) (window_pos config)
  rw [estimateHashrate_after decays inOrder, if_neg active]
  linarith

/-- What is estimated of a miner at some time. -/
structure Estimated (config : RateConfig) (exp : ℚ → ℚ) (clientId connectedAt : Nat)
    (events : List Event) (now : Nat) : Prop where
  idle : (after config exp clientId connectedAt events).estimateHashrate config none now = 0 ↔
    recentOnly config.share now (history config exp clientId connectedAt events) = []
  active : recentOnly config.share now (history config exp clientId connectedAt events) ≠ [] →
    (after config exp clientId connectedAt events).estimateHashrate config none now =
      3 / 10 * (recentDifficulty config now (history config exp clientId connectedAt events) *
          config.solutionRateScale / config.share.hashrateWindowSeconds) +
        7 / 10 * (after config exp clientId connectedAt events).smoothed.ewmaHashrate
  mean : history config exp clientId connectedAt events ≠ [] → ∀ low high,
    (∀ rate ∈ rates config 0 (history config exp clientId connectedAt events),
      rate ∈ Set.Icc low high) →
    (after config exp clientId connectedAt events).smoothed.ewmaHashrate ∈ Set.Icc low high

/-- Whatever the outcomes and the changes of the difficulty: the estimate is zero
if and only if no share was accepted within the window, and else it is mixed from
all difficulties that were credited within the window, although the window is
pruned, and from a mean that stays between the lowest and the highest rate that
the shares have shown. -/
theorem estimated_after (decays : Decays exp) {now : Nat}
    (inOrder : Chronological Event.reading events now) :
    Estimated config exp clientId connectedAt events now := by
  have estimate := @estimateHashrate_after config exp clientId connectedAt events decays now inOrder
  refine ⟨⟨fun zero => ?_, fun idle => ?_⟩, fun active => ?_, fun some_ low high shown => ?_⟩
  · by_contra active
    exact (estimateHashrate_pos decays inOrder active).ne' zero
  · rw [estimate, if_pos idle]
  · rw [estimate, if_neg active]
  · exact ewmaHashrate_of_history decays
      (fun _ _ _ least most observed value => smooth_mem_Icc least most observed value) some_ shown

/-- The pool as a whole is estimated at zero if and only if no miner that is there
and authorized has found a share within the window. -/
theorem getPoolSolutionRate_eq_zero_iff (decays : Decays exp) {now : Nat}
    {connections : List (Nat × Nat × List Event)}
    (inOrder : ∀ connection ∈ connections, Chronological Event.reading connection.2.2 now) :
    getPoolSolutionRate config
        (connections.map fun connection =>
          after config exp connection.1 connection.2.1 connection.2.2) now = 0 ↔
      ∀ connection ∈ connections,
        (after config exp connection.1 connection.2.1 connection.2.2).miner.listed = true →
        (after config exp connection.1 connection.2.1 connection.2.2).miner.authorized = true →
        recentOnly config.share now
          (history config exp connection.1 connection.2.1 connection.2.2) = [] := by
  have nonneg : ∀ connection ∈ connections, 0 ≤ (after config exp connection.1 connection.2.1
      connection.2.2).estimateHashrate config none now := by
    intro connection member
    by_cases idle : recentOnly config.share now
        (history config exp connection.1 connection.2.1 connection.2.2) = []
    · exact ((estimated_after decays (inOrder connection member)).idle.mpr idle).ge
    · exact (estimateHashrate_pos decays (inOrder connection member) idle).le
  unfold getPoolSolutionRate
  constructor
  · intro zero connection member listed authorized
    apply (estimated_after decays (inOrder connection member)).idle.mp
    refine List.all_zero_of_le_zero_le_of_sum_eq_zero ?_ zero ?_
    · intro rate isRate
      obtain ⟨rated, isRated, rfl⟩ := List.mem_map.mp isRate
      obtain ⟨other, isOther, rfl⟩ := List.mem_map.mp (List.mem_filter.mp isRated).1
      exact nonneg other isOther
    · refine List.mem_map_of_mem (List.mem_filter.mpr ⟨List.mem_map_of_mem member, ?_⟩)
      rw [listed, authorized]
      rfl
  · intro idle
    apply List.sum_eq_zero
    intro rate isRate
    obtain ⟨rated, isRated, rfl⟩ := List.mem_map.mp isRate
    obtain ⟨isClient, counted⟩ := List.mem_filter.mp isRated
    obtain ⟨connection, member, rfl⟩ := List.mem_map.mp isClient
    rw [Bool.and_eq_true] at counted
    exact (estimated_after decays (inOrder connection member)).idle.mpr
      (idle connection member counted.1 counted.2)

end Estimates

/-! ## Steady work -/

/-- Shares of one difficulty at equal distances. -/
def steadily (start distance : Nat) (difficulty : ℚ) (count : Nat) : List Contribution :=
  (List.range count).map fun k => ⟨start + k * distance, difficulty⟩

/-- The rate that such shares show. -/
def steadyRate (config : RateConfig) (distance : Nat) (difficulty : ℚ) : ℚ :=
  difficulty * config.solutionRateScale / ((distance : ℚ) / 1000)

/-- What is left of the error of the mean after another of such shares. -/
def steadyDecay (config : RateConfig) (exp : ℚ → ℚ) (distance : Nat) : ℚ :=
  exp (-((distance : ℚ) / 1000) / config.share.hashrateWindowSeconds)

theorem note_steady (config : RateConfig) (exp : ℚ → ℚ) {prevMs distance : Nat}
    (prevPos : 0 < prevMs) (distancePos : 0 < distance) (difficulty mean : ℚ) :
    Smoothed.note config exp ⟨some prevMs, mean⟩ ⟨prevMs + distance, difficulty⟩ =
      ⟨some (prevMs + distance),
        smooth (1 - steadyDecay config exp distance) (steadyRate config distance difficulty) mean⟩ := by
  have elapsed : ((prevMs + distance : Nat) : ℚ) - prevMs = distance := by
    push_cast
    ring
  have moves : prevMs ≠ 0 ∧ prevMs < prevMs + distance := by omega
  refine congrArg (Smoothed.mk _) ((if_pos moves).trans ?_)
  change smooth (alpha config exp prevMs (prevMs + distance))
    (instantaneous config prevMs ⟨prevMs + distance, difficulty⟩) mean = _
  rw [alpha, instantaneous, elapsed]
  rfl

theorem foldl_note_steadily (config : RateConfig) (exp : ℚ → ℚ) {start distance : Nat}
    (startPos : 0 < start) (distancePos : 0 < distance) (difficulty : ℚ) (n : Nat) :
    ((steadily start distance difficulty (n + 1)).foldl (Smoothed.note config exp) ⟨none, 0⟩) =
      ⟨some (start + n * distance),
        (smooth (1 - steadyDecay config exp distance) (steadyRate config distance difficulty))^[n]
          (seedRate config ⟨start, difficulty⟩)⟩ := by
  induction n with
  | zero => simp [steadily, Smoothed.note, Smoothed.prevMs]
  | succ n ih =>
      have next : start + (n + 1) * distance = start + n * distance + distance := by ring
      rw [steadily, List.range_succ, List.map_append, List.foldl_append, ← steadily, ih,
        List.map_singleton, List.foldl_cons, List.foldl_nil, next,
        note_steady config exp (by omega) distancePos, Function.iterate_succ_apply']

/-- The mean of a miner that works steadily: its distance from the true rate
shrinks by the same factor at every share. -/
theorem ewmaHashrate_steadily {config : RateConfig} {exp : ℚ → ℚ} {clientId connectedAt : Nat}
    {events : List Event} {start distance n : Nat} {difficulty : ℚ} (startPos : 0 < start)
    (distancePos : 0 < distance)
    (steady : history config exp clientId connectedAt events =
      steadily start distance difficulty (n + 1)) :
    (after config exp clientId connectedAt events).smoothed.ewmaHashrate -
        steadyRate config distance difficulty =
      steadyDecay config exp distance ^ n *
        (seedRate config ⟨start, difficulty⟩ - steadyRate config distance difficulty) := by
  rw [after, smoothed_foldl_react, ← history, steady]
  change ((steadily start distance difficulty (n + 1)).foldl (Smoothed.note config exp)
    ⟨none, 0⟩).ewmaHashrate - _ = _
  rw [foldl_note_steadily config exp startPos distancePos]
  simp only
  rw [iterate_smooth_sub, sub_sub_cancel]

/-- The mean comes as close to the true rate as is wanted. -/
theorem exists_ewmaHashrate_steadily_lt {config : RateConfig} {exp : ℚ → ℚ} (decays : Decays exp)
    {distance : Nat} (distancePos : 0 < distance) (difficulty : ℚ)
    (strict : steadyDecay config exp distance < 1) {error : ℚ} (some_ : 0 < error) :
    ∃ least, ∀ n ≥ least, ∀ clientId connectedAt events start, 0 < start →
      history config exp clientId connectedAt events =
        steadily start distance difficulty (n + 1) →
      |(after config exp clientId connectedAt events).smoothed.ewmaHashrate -
        steadyRate config distance difficulty| < error := by
  have exponent : -((distance : ℚ) / 1000) / config.share.hashrateWindowSeconds ≤ 0 :=
    div_nonpos_of_nonpos_of_nonneg (neg_nonpos.mpr (by positivity)) (window_pos config).le
  have share : 1 - steadyDecay config exp distance ≤ 1 := sub_le_self 1 (decays _ exponent).1
  obtain ⟨least, close⟩ := exists_iterate_smooth_sub_lt (sub_pos.mpr strict) share
    (steadyRate config distance difficulty) (seedRate config ⟨0, difficulty⟩) some_
  refine ⟨least, fun n later clientId connectedAt events start startPos steady => ?_⟩
  have bound := close n later
  rw [iterate_smooth_sub, sub_sub_cancel] at bound
  rw [ewmaHashrate_steadily startPos distancePos steady]
  exact bound

/-! ## The best share -/

/-- The difficulty of an accepted share. -/
def Event.found : Event → Option ℚ
  | .outcome (.accepted _ shareDifficulty foundDifficulty _) _ =>
      some ((WorkManager.parsePositiveNumber foundDifficulty).getD shareDifficulty)
  | _ => none

section BestShare

variable {config : RateConfig} {exp : ℚ → ℚ}

theorem bestShareDifficulty_countRejected (metrics : Metrics) (reason : String) :
    (metrics.countRejected reason).bestShareDifficulty = metrics.bestShareDifficulty := by
  unfold Metrics.countRejected
  dsimp only
  split
  · rfl
  · split
    · rfl
    · split <;> rfl

theorem bestShareDifficulty_react (rated : RatedMiner) (event : Event) :
    (rated.react config exp event).miner.metrics.bestShareDifficulty =
      event.found.toList.foldl max rated.miner.metrics.bestShareDifficulty := by
  cases event with
  | course event => exact congrArg Metrics.bestShareDifficulty (metrics_react _ _ _)
  | outcome outcome now =>
      cases outcome with
      | rejected reason => exact bestShareDifficulty_countRejected _ reason
      | accepted hash shareDifficulty foundDifficulty assignedDifficulty =>
          exact (max_def_lt rated.miner.metrics.bestShareDifficulty _).symm

/-- The best share of a run is the greatest difficulty of its accepted shares. -/
theorem bestShareDifficulty_after (clientId connectedAt : Nat) (events : List Event) :
    (after config exp clientId connectedAt events).miner.metrics.bestShareDifficulty =
      (events.filterMap Event.found).foldl max 0 := by
  have run : ∀ rated : RatedMiner,
      (events.foldl (react config exp) rated).miner.metrics.bestShareDifficulty =
        (events.filterMap Event.found).foldl max rated.miner.metrics.bestShareDifficulty := by
    induction events with
    | nil => exact fun _ => rfl
    | cons event rest ih =>
        intro rated
        rw [List.foldl_cons, ih, bestShareDifficulty_react, List.filterMap_cons]
        cases event.found <;> rfl
  exact run _

end BestShare

/-! ## A short run -/

theorem scaleExample_pos : (0 : ℚ) < 1000 := by
  norm_num

theorem ten_le_windowExample : (10 : ℚ) ≤ vardiffExample.hashrateWindowSeconds := by
  decide +kernel

/-- The default scale, and the window of ten minutes. -/
def rateExample : RateConfig :=
  ⟨vardiffExample, 1000, scaleExample_pos, ten_le_windowExample⟩

/-- The reciprocal of the first terms of the exponential series, which is close to
the exponential just below zero. -/
def nearExp (x : ℚ) : ℚ :=
  1 / (1 - x + x ^ 2 / 2)

theorem decays_nearExp : Decays nearExp := by
  intro x nonpos
  have square : 0 ≤ x ^ 2 := sq_nonneg x
  have large : 1 ≤ 1 - x + x ^ 2 / 2 := by linarith
  exact ⟨div_nonneg zero_le_one (by linarith), (div_le_one (by linarith)).mpr large⟩

/-- Three shares at equal distances, a request for another difficulty and a
rejected share. -/
def steadyEvents : List Event :=
  [.outcome (.accepted [] 2 none 2) 1000, .outcome (.rejected "Low Diff") 1500,
    .outcome (.accepted [] 3 none 2) 21000, .course (.suggestDifficulty (some 8) 22000),
    .outcome (.accepted [] 2 none 2) 41000]

theorem estimated_steadyEvents : Estimated rateExample nearExp 1 0 steadyEvents 50000 :=
  estimated_after decays_nearExp (by decide)

theorem ewmaHashrate_steadyEvents :
    (after rateExample nearExp 1 0 steadyEvents).smoothed.ewmaHashrate -
        steadyRate rateExample 20000 2 =
      steadyDecay rateExample nearExp 20000 ^ 2 *
        (seedRate rateExample ⟨1000, 2⟩ - steadyRate rateExample 20000 2) :=
  ewmaHashrate_steadily (by decide) (by decide) (by decide +kernel)

end RatedMiner

end ZcashSoloPool.Stratum
