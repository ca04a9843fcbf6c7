import ZcashSoloPool.Stratum.Miner
import ZcashSoloPool.Transition.Timeline

/-!
# The course of a client

What happens to the difficulty of one client from its connection on: requests
for a difficulty, accepted shares and the sweep for idle miners, in any order.
-/

namespace ZcashSoloPool.Stratum

open ZcashSoloPool.JavaScript
open ZcashSoloPool.Transition
open ZcashSoloPool.WorkManager

/-! ## Bounds and order -/

/-- The difficulty is between the two bounds, whichever of them is the lower. -/
structure InBounds (vardiff : VardiffConfig) (difficulty : ℚ) : Prop where
  low : min vardiff.minDifficulty vardiff.maxDifficulty ≤ difficulty
  high : difficulty ≤ max vardiff.minDifficulty vardiff.maxDifficulty

theorem inBounds_clampDifficulty (vardiff : VardiffConfig) (value : ℚ) :
    InBounds vardiff (clampDifficulty vardiff value) where
  low := le_max_left _ _
  high := by
    apply max_le
    · exact min_le_max
    · exact min_le_left _ _

theorem InBounds.pos {vardiff : VardiffConfig} {difficulty : ℚ}
    (inBounds : InBounds vardiff difficulty) : 0 < difficulty :=
  (lt_min vardiff.min_pos vardiff.max_pos).trans_le inBounds.low

/-- A positive value is moved towards the bounds only. -/
theorem clampDifficulty_eq {vardiff : VardiffConfig} {value : ℚ} (positive : 0 < value) :
    clampDifficulty vardiff value =
      max (min vardiff.minDifficulty vardiff.maxDifficulty)
        (min (max vardiff.minDifficulty vardiff.maxDifficulty) value) := by
  rw [clampDifficulty, if_neg positive.ne']

/-- A difficulty within the bounds stays. -/
theorem InBounds.clampDifficulty_eq_self {vardiff : VardiffConfig} {difficulty : ℚ}
    (inBounds : InBounds vardiff difficulty) : clampDifficulty vardiff difficulty = difficulty := by
  rw [clampDifficulty_eq inBounds.pos, min_eq_right inBounds.high,
    max_eq_right inBounds.low]

/-- A value above a difficulty within the bounds is not moved below it. -/
theorem InBounds.le_clampDifficulty {vardiff : VardiffConfig} {difficulty value : ℚ}
    (inBounds : InBounds vardiff difficulty) (above : difficulty ≤ value) :
    difficulty ≤ clampDifficulty vardiff value := by
  rw [clampDifficulty_eq (inBounds.pos.trans_le above)]
  exact le_max_of_le_right (le_min inBounds.high above)

/-- A value below a difficulty within the bounds is not moved above it. -/
theorem InBounds.clampDifficulty_le {vardiff : VardiffConfig} {difficulty value : ℚ}
    (inBounds : InBounds vardiff difficulty) (positive : 0 < value) (below : value ≤ difficulty) :
    clampDifficulty vardiff value ≤ difficulty := by
  rw [clampDifficulty_eq positive]
  exact max_le inBounds.low ((min_le_right _ _).trans below)

/-- No value above the bounds' difficulties is made larger. -/
theorem InBounds.clampDifficulty_le_self {vardiff : VardiffConfig} {difficulty value : ℚ}
    (inBounds : InBounds vardiff difficulty) (above : difficulty ≤ value) :
    clampDifficulty vardiff value ≤ value := by
  rw [clampDifficulty_eq (inBounds.pos.trans_le above)]
  exact max_le (inBounds.low.trans above) (min_le_right _ _)

/-- No value below the bounds' difficulties is made smaller. -/
theorem InBounds.le_clampDifficulty_self {vardiff : VardiffConfig} {difficulty value : ℚ}
    (inBounds : InBounds vardiff difficulty) (positive : 0 < value) (below : value ≤ difficulty) :
    value ≤ clampDifficulty vardiff value := by
  rw [clampDifficulty_eq positive]
  exact le_max_of_le_right (le_min (below.trans inBounds.high) (le_refl _))

theorem millionths_mono {lower higher : ℚ} (ordered : lower ≤ higher) :
    millionths lower ≤ millionths higher := by
  apply Int.toNat_le_toNat
  apply max_le_max (le_refl _)
  apply Int.floor_le_floor
  linarith

/-- A higher difficulty has a lower target. -/
theorem targetNumber_anti (baseTargetBI : Nat) {lower higher : ℚ} (ordered : lower ≤ higher) :
    targetNumber baseTargetBI higher ≤ targetNumber baseTargetBI lower := by
  have scaled : scaledTarget baseTargetBI higher ≤ scaledTarget baseTargetBI lower :=
    Nat.div_le_div_left (millionths_mono ordered) (millionths_pos lower)
  have bounded := min_le_min_right maxTarget scaled
  unfold targetNumber
  dsimp only
  split
  · split
    · exact Nat.le_refl 1
    · next nonzero => exact Nat.one_le_iff_ne_zero.mpr nonzero
  · next nonzero =>
      rw [if_neg (Nat.ne_of_gt ((Nat.pos_of_ne_zero nonzero).trans_le bounded))]
      exact bounded

/-! ## Events -/

/-- What can happen to the difficulty of a client. -/
inductive MinerEvent where
  | authorize
  | disconnect
  | suggestDifficulty (suggested : Option ℚ) (now : Nat)
  | noteAcceptedShare (now : Nat)
  | checkIdle (now : Nat)

namespace MinerEvent

/-- The reading of the clock that an event makes. -/
def reading : MinerEvent → Option Nat
  | authorize => none
  | disconnect => none
  | suggestDifficulty _ now => some now
  | noteAcceptedShare now => some now
  | checkIdle now => some now

/-- The time of an accepted share. -/
def shareTime : MinerEvent → Option Nat
  | noteAcceptedShare now => some now
  | _ => none

/-- The server itself may change the difficulty. -/
def isRetarget : MinerEvent → Bool
  | noteAcceptedShare _ => true
  | checkIdle _ => true
  | _ => false

end MinerEvent

namespace Miner

/-- What an event does. -/
def react (config : ShareConfig) (miner : Miner) : MinerEvent → Miner
  | .authorize => { miner with authorized := true }
  | .disconnect => { miner with listed := false }
  | .suggestDifficulty suggested now => miner.suggestDifficulty config suggested now
  | .noteAcceptedShare now => miner.noteAcceptedShare config now
  | .checkIdle now => if config.vardiff.enabled then miner.checkIdle config now else miner

/-- A client after its connection and some events. -/
def after (config : ShareConfig) (clientId connectedAt : Nat) (events : List MinerEvent) : Miner :=
  events.foldl (react config) (connected config clientId connectedAt)

theorem after_concat (config : ShareConfig) (clientId connectedAt : Nat) (events : List MinerEvent)
    (event : MinerEvent) :
    after config clientId connectedAt (events ++ [event]) =
      (after config clientId connectedAt events).react config event := by
  rw [after, List.foldl_append, List.foldl_cons, List.foldl_nil, after]

theorem after_append (config : ShareConfig) (clientId connectedAt : Nat)
    (first second : List MinerEvent) :
    after config clientId connectedAt (first ++ second) =
      second.foldl (react config) (after config clientId connectedAt first) := by
  rw [after, List.foldl_append, after]

/-! ## What an event can do -/

/-- The difficulty and the targets are the same. -/
structure SameTargets (miner other : Miner) : Prop where
  difficulty : other.currentDifficulty = miner.currentDifficulty
  client : other.client = miner.client

theorem SameTargets.refl (miner : Miner) : SameTargets miner miner :=
  ⟨rfl, rfl⟩

theorem SameTargets.trans {first second third : Miner} (before : SameTargets first second)
    (after : SameTargets second third) : SameTargets first third :=
  ⟨after.difficulty.trans before.difficulty, after.client.trans before.client⟩

/-- Applying a difficulty depends on the difficulty and the targets only. -/
theorem SameTargets.applyDifficulty {miner other : Miner} (same : SameTargets miner other)
    (config : ShareConfig) (difficulty : ℚ) (now : Nat) :
    SameTargets (miner.applyDifficulty config difficulty now)
      (other.applyDifficulty config difficulty now) := by
  unfold Miner.applyDifficulty
  rw [same.difficulty, same.client]
  exact ⟨rfl, rfl⟩

/-- The average interval is near enough to the target time. -/
def WithinVariance (vardiff : VardiffConfig) (avg : ℚ) : Prop :=
  vardiff.targetTime * (1 - vardiff.variancePercent / 100) ≤ avg ∧
    avg ≤ vardiff.targetTime * (1 + vardiff.variancePercent / 100)

instance (vardiff : VardiffConfig) (avg : ℚ) : Decidable (WithinVariance vardiff avg) :=
  inferInstanceAs (Decidable (_ ∧ _))

/-- A change of the difficulty, in proportion to it. -/
def changeRatio (currentDifficulty proposed : ℚ) : ℚ :=
  |proposed - currentDifficulty| / max currentDifficulty (1 / 10 ^ 8)

/-- The time since the last retarget is over. -/
def RetargetDue (vardiff : VardiffConfig) (miner : Miner) (now : Nat) : Prop :=
  vardiff.retargetTime * 1000 ≤ (now : ℚ) - miner.lastRetargetAt

instance (vardiff : VardiffConfig) (miner : Miner) (now : Nat) :
    Decidable (RetargetDue vardiff miner now) :=
  inferInstanceAs (Decidable (_ ≤ _))

/-- An accepted share changes the difficulty to the one that the average
interval proposes. -/
structure ShareProposes (vardiff : VardiffConfig) (miner : Miner) (now : Nat) (avg proposed : ℚ) :
    Prop where
  enabled : vardiff.enabled = true
  samples : vardiff.minSamples ≤ (pushShareTime vardiff miner.shareTimes now).length
  due : RetargetDue vardiff miner now
  average : avg = averageInterval vardiff (pushShareTime vardiff miner.shareTimes now)
  outside : ¬WithinVariance vardiff avg
  proposes : proposed = proposedDifficulty vardiff miner.currentDifficulty avg
  enough : 5 / 100 ≤ changeRatio miner.currentDifficulty proposed

/-- A sweep for idle miners halves the difficulty, as far as the bounds
allow. -/
structure IdleProposes (vardiff : VardiffConfig) (miner : Miner) (now : Nat) (proposed : ℚ) :
    Prop where
  enabled : vardiff.enabled = true
  listed : miner.listed = true
  authorized : miner.authorized = true
  idle : vardiff.targetTime * 3 * 1000 ≤
    (now : ℚ) - miner.shareTimes.getLastD miner.connectedAt
  above : vardiff.minDifficulty < miner.currentDifficulty
  due : RetargetDue vardiff miner now
  proposes : proposed = clampDifficulty vardiff (miner.currentDifficulty / 2)
  lowers : proposed < miner.currentDifficulty

/-- The difficulty that an event hands to `applyDifficulty`. -/
inductive Proposes (config : ShareConfig) (miner : Miner) : MinerEvent → Nat → ℚ → Prop where
  | suggested {suggested : Option ℚ} {now : Nat} {difficulty : ℚ}
      (positive : parsePositiveNumber suggested = some difficulty) :
      Proposes config miner (.suggestDifficulty suggested now) now difficulty
  | share {now : Nat} {avg proposed : ℚ}
      (proposes : ShareProposes config.vardiff miner now avg proposed) :
      Proposes config miner (.noteAcceptedShare now) now proposed
  | idle {now : Nat} {proposed : ℚ} (proposes : IdleProposes config.vardiff miner now proposed) :
      Proposes config miner (.checkIdle now) now proposed

theorem Proposes.reading {config : ShareConfig} {miner : Miner} {event : MinerEvent} {now : Nat}
    {difficulty : ℚ} (proposes : Proposes config miner event now difficulty) :
    event.reading = some now := by
  cases proposes <;> rfl

/-- The window of the share times and the time of the last retarget. -/
def withTimes (miner : Miner) (shareTimes : List Nat) (lastRetargetAt : Nat) : Miner :=
  { miner with shareTimes := shareTimes, lastRetargetAt := lastRetargetAt }

theorem sameTargets_withTimes (miner : Miner) (shareTimes : List Nat) (lastRetargetAt : Nat) :
    SameTargets miner (miner.withTimes shareTimes lastRetargetAt) :=
  ⟨rfl, rfl⟩

/-- An accepted share proposes a difficulty, or it takes at most the time of
the retarget. -/
theorem noteAcceptedShare_cases (config : ShareConfig) (miner : Miner) (now : Nat) :
    (∃ avg proposed, ShareProposes config.vardiff miner now avg proposed ∧
        miner.noteAcceptedShare config now = (miner.withTimes
          (pushShareTime config.vardiff miner.shareTimes now) now).applyDifficulty config
            proposed now) ∨
      (∀ avg proposed, ¬ShareProposes config.vardiff miner now avg proposed) ∧
        ∃ shareTimes lastRetargetAt,
          miner.noteAcceptedShare config now = miner.withTimes shareTimes lastRetargetAt ∧
            (lastRetargetAt = miner.lastRetargetAt ∨ lastRetargetAt = now) := by
  by_cases proposes : ∃ avg proposed, ShareProposes config.vardiff miner now avg proposed
  · left
    obtain ⟨avg, proposed, proposes⟩ := proposes
    refine ⟨avg, proposed, proposes, ?_⟩
    have outside := proposes.outside
    have enough := proposes.enough
    rw [proposes.average] at outside
    rw [proposes.proposes, proposes.average, changeRatio] at enough
    rw [proposes.proposes, proposes.average]
    unfold noteAcceptedShare
    dsimp only
    rw [if_pos proposes.enabled, if_neg (not_lt.mpr proposes.samples),
      if_neg (not_lt.mpr proposes.due)]
    unfold retarget
    dsimp only
    rw [if_neg (show ¬(_ ∧ _) from outside), if_neg (not_lt.mpr enough)]
    rfl
  · right
    push Not at proposes
    refine ⟨proposes, ?_⟩
    unfold noteAcceptedShare
    dsimp only
    by_cases enabled : config.vardiff.enabled = true
    · rw [if_pos enabled]
      split
      · exact ⟨_, _, rfl, Or.inl rfl⟩
      · next samples =>
          split
          · exact ⟨_, _, rfl, Or.inl rfl⟩
          · next due =>
              unfold retarget
              dsimp only
              split
              · exact ⟨_, _, rfl, Or.inr rfl⟩
              · next outside =>
                  split
                  · exact ⟨_, _, rfl, Or.inr rfl⟩
                  · next enough =>
                      exact absurd ⟨enabled, not_lt.mp samples, not_lt.mp due, rfl, outside, rfl,
                        not_lt.mp enough⟩ (proposes _ _)
    · rw [if_neg enabled]
      exact ⟨_, _, rfl, Or.inl rfl⟩

/-- A sweep proposes a difficulty, or it leaves the client alone. -/
theorem checkIdle_cases (config : ShareConfig) (miner : Miner) (now : Nat)
    (enabled : config.vardiff.enabled = true) :
    (∃ proposed, IdleProposes config.vardiff miner now proposed ∧
        miner.checkIdle config now =
          (miner.withTimes miner.shareTimes now).applyDifficulty config proposed now) ∨
      (∀ proposed, ¬IdleProposes config.vardiff miner now proposed) ∧
        miner.checkIdle config now = miner := by
  by_cases proposes : ∃ proposed, IdleProposes config.vardiff miner now proposed
  · left
    obtain ⟨proposed, proposes⟩ := proposes
    refine ⟨proposed, proposes, ?_⟩
    have lowers := proposes.lowers
    rw [proposes.proposes] at lowers
    rw [proposes.proposes]
    unfold checkIdle
    dsimp only
    have present : ¬(!miner.listed || !miner.authorized) = true := by
      rw [proposes.listed, proposes.authorized]
      decide
    rw [if_neg present, if_neg (not_lt.mpr proposes.idle), if_neg (not_le.mpr proposes.above),
      if_neg (not_lt.mpr proposes.due), if_neg (not_le.mpr lowers)]
    rfl
  · right
    push Not at proposes
    refine ⟨proposes, ?_⟩
    unfold checkIdle
    dsimp only
    split
    · rfl
    · next present =>
        rw [Bool.or_eq_true, Bool.not_eq_true', Bool.not_eq_true', not_or, Bool.not_eq_false,
          Bool.not_eq_false] at present
        split
        · rfl
        · next idle =>
            split
            · rfl
            · next above =>
                split
                · rfl
                · next due =>
                    split
                    · rfl
                    · next lowers =>
                        exact absurd ⟨enabled, present.1, present.2, not_lt.mp idle,
                          not_le.mp above, not_lt.mp due, rfl, not_le.mp lowers⟩ (proposes _)

/-- An event leaves the targets alone, or it applies the difficulty that it
proposes. -/
theorem react_cases (config : ShareConfig) (miner : Miner) (event : MinerEvent) :
    SameTargets miner (miner.react config event) ∨
      ∃ now difficulty, Proposes config miner event now difficulty ∧
        SameTargets (miner.applyDifficulty config difficulty now) (miner.react config event) := by
  cases event with
  | authorize => exact Or.inl ⟨rfl, rfl⟩
  | disconnect => exact Or.inl ⟨rfl, rfl⟩
  | suggestDifficulty suggested now =>
      rw [react]
      unfold suggestDifficulty
      split
      · next difficulty positive =>
          exact Or.inr ⟨now, difficulty, .suggested positive, SameTargets.refl _⟩
      · exact Or.inl (SameTargets.refl miner)
  | noteAcceptedShare now =>
      rw [react]
      rcases noteAcceptedShare_cases config miner now with
        ⟨avg, proposed, proposes, applied⟩ | ⟨_, shareTimes, lastRetargetAt, noted, _⟩
      · right
        rw [applied]
        exact ⟨now, proposed, .share proposes,
          (sameTargets_withTimes miner _ _).applyDifficulty config proposed now⟩
      · left
        rw [noted]
        exact sameTargets_withTimes miner _ _
  | checkIdle now =>
      rw [react]
      split
      · next enabled =>
          rcases checkIdle_cases config miner now enabled with
            ⟨proposed, proposes, applied⟩ | ⟨_, unchanged⟩
          · right
            rw [applied]
            exact ⟨now, proposed, .idle proposes,
              (sameTargets_withTimes miner _ _).applyDifficulty config proposed now⟩
          · left
            rw [unchanged]
            exact SameTargets.refl miner
      · exact Or.inl (SameTargets.refl miner)

/-! ## What holds all along -/

/-- The difficulty is within the bounds and the target is its own. -/
structure Served (config : ShareConfig) (miner : Miner) : Prop where
  inBounds : InBounds config.vardiff miner.currentDifficulty
  target : miner.client.shareTarget =
    some (targetForDifficulty config.baseTargetBI miner.currentDifficulty)
  /-- A target from before is not harder than the present one. -/
  previous : ∀ previous, miner.client.previousShareTarget = some previous →
    targetNumber config.baseTargetBI miner.currentDifficulty ≤ hexNumber previous

theorem Served.of_same {config : ShareConfig} {miner other : Miner} (served : Served config miner)
    (same : SameTargets miner other) : Served config other := by
  constructor
  · rw [same.difficulty]
    exact served.inBounds
  · rw [same.client, same.difficulty]
    exact served.target
  · rw [same.client, same.difficulty]
    exact served.previous

/-- The grace of `applyDifficulty`: the target of the difficulty before an
increase, for 30 seconds. -/
theorem applyDifficulty_client {config : ShareConfig} {miner : Miner} (served : Served config miner)
    (difficulty : ℚ) (now : Nat) :
    let target := miner.applyDifficulty config difficulty now
    (miner.currentDifficulty < target.currentDifficulty ∧
        target.client.previousShareTarget = miner.client.shareTarget ∧
        target.client.previousTargetExpiresAt = now + 30000) ∨
      (target.currentDifficulty ≤ miner.currentDifficulty ∧
        target.client.previousShareTarget = none ∧ target.client.previousTargetExpiresAt = 0) := by
  have length := length_targetForDifficulty config.baseTargetBI miner.currentDifficulty
  have nonempty : (targetForDifficulty config.baseTargetBI miner.currentDifficulty).isEmpty =
      false := by
    rw [List.isEmpty_eq_false_iff]
    intro empty
    rw [empty] at length
    contradiction
  dsimp only
  unfold applyDifficulty
  dsimp only
  rw [served.target, Option.any_some, nonempty, Bool.not_false, Bool.true_and]
  by_cases increases : clampDifficulty config.vardiff difficulty > miner.currentDifficulty
  · rw [decide_eq_true increases]
    exact Or.inl ⟨increases, rfl, rfl⟩
  · rw [decide_eq_false increases]
    exact Or.inr ⟨not_lt.mp increases, rfl, rfl⟩

theorem served_applyDifficulty {config : ShareConfig} {miner : Miner} (served : Served config miner)
    (difficulty : ℚ) (now : Nat) :
    Served config (miner.applyDifficulty config difficulty now) := by
  constructor
  · exact inBounds_clampDifficulty config.vardiff difficulty
  · rfl
  · intro previous isPrevious
    rcases applyDifficulty_client served difficulty now with ⟨increases, kept, _⟩ | ⟨_, cleared, _⟩
    · rw [kept, served.target] at isPrevious
      cases isPrevious
      rw [hexNumber_targetForDifficulty]
      exact targetNumber_anti config.baseTargetBI increases.le
    · rw [cleared] at isPrevious
      contradiction

theorem served_connected (config : ShareConfig) (clientId now : Nat) :
    Served config (connected config clientId now) := by
  constructor
  · exact inBounds_clampDifficulty config.vardiff _
  · rfl
  · intro previous isPrevious
    contradiction

theorem Served.react {config : ShareConfig} {miner : Miner} (served : Served config miner)
    (event : MinerEvent) : Served config (miner.react config event) := by
  rcases react_cases config miner event with same | ⟨now, difficulty, _, applied⟩
  · exact served.of_same same
  · exact (served_applyDifficulty served difficulty now).of_same applied

/-- A client is served all along its course. -/
theorem served_after (config : ShareConfig) (clientId connectedAt : Nat)
    (events : List MinerEvent) : Served config (after config clientId connectedAt events) :=
  foldl_invariant (react config) (Served config) (fun _ event served => served.react event)
    (served_connected config clientId connectedAt) events

end Miner

end ZcashSoloPool.Stratum
