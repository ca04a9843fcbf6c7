import ZcashSoloPool.Stratum.Vardiff
import Mathlib.Tactic.Linarith
import Mathlib.Tactic.FieldSimp
import Mathlib.Tactic.Ring

/-!
# The difficulty of a silent miner

A miner whose difficulty is too high for it finds no shares, and without shares
nothing but the sweep lowers the difficulty.  While a miner is silent the sweep
halves it down to the minimum, once in each retarget time and not later than the
first sweep after it, whatever came before the silence.
-/

namespace ZcashSoloPool.Stratum

namespace Miner

/-! ## Halving -/

/-- A difficulty that was halved some times, but for the minimum. -/
def halved (minimum difficulty : ℚ) (times : Nat) : ℚ :=
  max minimum (difficulty / 2 ^ times)

theorem halved_succ {minimum : ℚ} (nonneg : 0 ≤ minimum) (difficulty : ℚ) (times : Nat) :
    max minimum (halved minimum difficulty times / 2) = halved minimum difficulty (times + 1) := by
  have half : difficulty / 2 ^ times / 2 = difficulty / 2 ^ (times + 1) := by
    rw [pow_succ, div_div]
  have lower : minimum / 2 ≤ minimum := by linarith
  unfold halved
  rw [← max_div_div_right (by norm_num), half, ← max_assoc, max_eq_left lower]

theorem halved_anti {minimum difficulty : ℚ} (nonneg : 0 ≤ difficulty) {few many : Nat}
    (le : few ≤ many) : halved minimum difficulty many ≤ halved minimum difficulty few := by
  apply max_le_max (le_refl _)
  apply div_le_div_of_nonneg_left nonneg (by positivity)
  exact pow_le_pow_right₀ (by norm_num) le

/-! ## Silence -/

/-- From when on a sweep may lower the difficulty of a silent miner. -/
def readyAt (vardiff : VardiffConfig) (miner : Miner) : ℚ :=
  max (miner.shareTimes.getLastD miner.connectedAt + vardiff.targetTime * 3 * 1000)
    (miner.lastRetargetAt + vardiff.retargetTime * 1000)

/-- While a miner is silent there are only sweeps. -/
def sweep (config : ShareConfig) (miner : Miner) (times : List Nat) : Miner :=
  (times.map MinerEvent.checkIdle).foldl (react config) miner

/-- The sweeps follow each other within some period. -/
def Regular (period : ℚ) : Nat → List Nat → Prop
  | _, [] => True
  | now, next :: later => now ≤ next ∧ (next : ℚ) ≤ now + period ∧ Regular period next later

section Descent

variable {config : ShareConfig} {miner start : Miner} {period since : ℚ} {now next times : Nat}

/-- Half of a difficulty above the minimum is within the bounds, or it is below the
minimum. -/
theorem clampDifficulty_half (ordered : config.vardiff.minDifficulty ≤ config.vardiff.maxDifficulty)
    {difficulty : ℚ} (inBounds : InBounds config.vardiff difficulty) :
    clampDifficulty config.vardiff (difficulty / 2) =
      max config.vardiff.minDifficulty (difficulty / 2) := by
  have positive := inBounds.pos
  have high := inBounds.high
  rw [max_eq_right ordered] at high
  rw [clampDifficulty_eq (by linarith), min_eq_left ordered, max_eq_right ordered,
    min_eq_right (by linarith)]

/-- A sweep is ready and there is something to lower. -/
def Lowers (vardiff : VardiffConfig) (miner : Miner) (now : Nat) : Prop :=
  readyAt vardiff miner ≤ now ∧ vardiff.minDifficulty < miner.currentDifficulty

/-- These are the conditions of the sweep. -/
theorem Lowers.idleProposes (enabled : config.vardiff.enabled = true)
    (ordered : config.vardiff.minDifficulty ≤ config.vardiff.maxDifficulty)
    (inBounds : InBounds config.vardiff miner.currentDifficulty) (listed : miner.listed = true)
    (authorized : miner.authorized = true) (lowers : Lowers config.vardiff miner now) :
    IdleProposes config.vardiff miner now
      (clampDifficulty config.vardiff (miner.currentDifficulty / 2)) where
  enabled := enabled
  listed := listed
  authorized := authorized
  idle := by
    have idle := (le_max_left _ _).trans lowers.1
    linarith
  above := lowers.2
  due := by
    have due := (le_max_right _ _).trans lowers.1
    unfold RetargetDue
    linarith
  proposes := rfl
  lowers := by
    have positive := inBounds.pos
    rw [clampDifficulty_half ordered inBounds]
    exact max_lt lowers.2 (by linarith)

/-- A sweep that lowers halves the difficulty, and the next one may lower it a
retarget time later. -/
theorem react_of_lowers (enabled : config.vardiff.enabled = true)
    (ordered : config.vardiff.minDifficulty ≤ config.vardiff.maxDifficulty)
    (inBounds : InBounds config.vardiff miner.currentDifficulty) (listed : miner.listed = true)
    (authorized : miner.authorized = true) (lowers : Lowers config.vardiff miner now) :
    (miner.react config (.checkIdle now)).currentDifficulty =
        max config.vardiff.minDifficulty (miner.currentDifficulty / 2) ∧
      readyAt config.vardiff (miner.react config (.checkIdle now)) =
        now + config.vardiff.retargetTime * 1000 ∧
      (miner.react config (.checkIdle now)).listed = true ∧
      (miner.react config (.checkIdle now)).authorized = true := by
  have retargetTime := config.vardiff.retargetTime_pos
  have silent := (le_max_left _ _).trans lowers.1
  rw [react, if_pos enabled]
  rcases checkIdle_cases config miner now enabled with
    ⟨proposed, proposes, applied⟩ | ⟨none, _⟩
  · rw [applied, proposes.proposes]
    refine ⟨?_, ?_, listed, authorized⟩
    · rw [currentDifficulty_applyDifficulty (inBounds_clampDifficulty _ _),
        clampDifficulty_half ordered inBounds]
    · have ended : ((miner.shareTimes.getLastD miner.connectedAt : Nat) : ℚ) +
          config.vardiff.targetTime * 3 * 1000 ≤ now + config.vardiff.retargetTime * 1000 := by
        linarith
      exact max_eq_right ended
  · exact absurd (lowers.idleProposes enabled ordered inBounds listed authorized) (none _)

/-- Any other sweep leaves the miner alone. -/
theorem react_of_not_lowers (enabled : config.vardiff.enabled = true)
    (idle : ¬Lowers config.vardiff miner now) : miner.react config (.checkIdle now) = miner := by
  rw [react, if_pos enabled]
  rcases checkIdle_cases config miner now enabled with ⟨proposed, proposes, _⟩ | ⟨_, unchanged⟩
  · refine absurd ⟨max_le ?_ ?_, proposes.above⟩ idle
    · have silent := proposes.idle
      linarith
    · have due := proposes.due
      unfold RetargetDue at due
      linarith
  · exact unchanged

/-! ## The descent -/

/-- After some halvings of a silent miner: they were a retarget time apart and not
late, unless the minimum is reached. -/
structure Descending (config : ShareConfig) (start : Miner) (period since : ℚ) (times now : Nat)
    (miner : Miner) : Prop where
  served : Served config miner
  listed : miner.listed = true
  authorized : miner.authorized = true
  difficulty : miner.currentDifficulty =
    halved config.vardiff.minDifficulty start.currentDifficulty times
  apart : readyAt config.vardiff start + times * (config.vardiff.retargetTime * 1000) ≤
    readyAt config.vardiff miner
  past : times ≠ 0 →
    readyAt config.vardiff miner ≤ now + config.vardiff.retargetTime * 1000
  inTime : miner.currentDifficulty ≤ config.vardiff.minDifficulty ∨
    max (now : ℚ) (readyAt config.vardiff miner) ≤
      since + times * (config.vardiff.retargetTime * 1000 + period)

/-- One sweep more. -/
theorem Descending.react (enabled : config.vardiff.enabled = true)
    (ordered : config.vardiff.minDifficulty ≤ config.vardiff.maxDifficulty)
    (descending : Descending config start period since times now miner)
    (later : now ≤ next) (soon : (next : ℚ) ≤ now + period) :
    ∃ more, Descending config start period since more next
      (miner.react config (.checkIdle next)) := by
  have laterQ : (now : ℚ) ≤ next := by exact_mod_cast later
  by_cases lowers : Lowers config.vardiff miner next
  · obtain ⟨difficulty, ready, listed, authorized⟩ := react_of_lowers enabled ordered
      descending.served.inBounds descending.listed descending.authorized lowers
    refine ⟨times + 1, descending.served.react _, listed, authorized, ?_, ?_, ?_, ?_⟩
    · rw [difficulty, descending.difficulty, halved_succ config.vardiff.min_pos.le]
    · have apart := descending.apart
      have due := lowers.1
      rw [ready]
      push_cast
      linarith
    · intro _
      exact ready.le
    · right
      have inTime := descending.inTime.resolve_left (not_le.mpr lowers.2)
      have nowInTime := (le_max_left _ _).trans inTime
      rw [ready, max_eq_right (by have := config.vardiff.retargetTime_pos; linarith)]
      push_cast
      linarith
  · rw [react_of_not_lowers enabled lowers]
    refine ⟨times, descending.served, descending.listed, descending.authorized,
      descending.difficulty, descending.apart, ?_, ?_⟩
    · intro some
      exact (descending.past some).trans (by linarith)
    · rcases descending.inTime with reached | inTime
      · exact Or.inl reached
      · rcases not_and_or.mp lowers with early | reached
        · right
          have ready := (le_max_right _ _).trans inTime
          rw [max_eq_right (not_le.mp early).le]
          exact ready
        · exact Or.inl (not_lt.mp reached)

theorem Descending.sweep (enabled : config.vardiff.enabled = true)
    (ordered : config.vardiff.minDifficulty ≤ config.vardiff.maxDifficulty)
    (descending : Descending config start period since times now miner) {sweeps : List Nat}
    (regular : Regular period now sweeps) :
    ∃ more, Descending config start period since more (sweeps.getLastD now)
      (miner.sweep config sweeps) := by
  induction sweeps generalizing miner now times with
  | nil => exact ⟨times, descending⟩
  | cons next rest ih =>
      obtain ⟨later, soon, regular⟩ := regular
      obtain ⟨more, one⟩ := descending.react enabled ordered later soon
      obtain ⟨all, last⟩ := ih one regular
      refine ⟨all, ?_⟩
      rw [List.getLastD_cons]
      exact last

/-- How far a silence has lowered a difficulty: it was halved some times, by sweeps
that were a retarget time apart, and it is at the minimum or was halved as often as
there was time for. -/
def Descended (config : ShareConfig) (start : Miner) (since period : ℚ) (now : Nat)
    (miner : Miner) : Prop :=
  ∃ times : Nat,
    miner.currentDifficulty =
        halved config.vardiff.minDifficulty start.currentDifficulty times ∧
      (times ≠ 0 → readyAt config.vardiff start +
        times * (config.vardiff.retargetTime * 1000) ≤
          now + config.vardiff.retargetTime * 1000) ∧
      (miner.currentDifficulty ≤ config.vardiff.minDifficulty ∨
        (now : ℚ) ≤ since + times * (config.vardiff.retargetTime * 1000 + period))

/-- With time for enough halvings the minimum is reached. -/
theorem Descended.eq_minimum {config : ShareConfig} {start miner : Miner} {since period : ℚ}
    {now : Nat} (positive : 0 < period) (served : Served config start)
    (descended : Descended config start since period now miner) {times : Nat}
    (enough : start.currentDifficulty / 2 ^ times ≤ config.vardiff.minDifficulty)
    (passed : since + times * (config.vardiff.retargetTime * 1000 + period) < now) :
    miner.currentDifficulty = config.vardiff.minDifficulty := by
  obtain ⟨count, difficulty, -, inTime⟩ := descended
  have retargetTime := config.vardiff.retargetTime_pos
  have low : config.vardiff.minDifficulty ≤ miner.currentDifficulty := by
    rw [difficulty]
    exact le_max_left _ _
  refine le_antisymm ?_ low
  rcases inTime with reached | inTime
  · exact reached
  · have often : times ≤ count := by
      by_contra few
      have fewer : (count : ℚ) ≤ times := by exact_mod_cast (not_le.mp few).le
      nlinarith
    rw [difficulty]
    exact (halved_anti served.inBounds.pos.le often).trans (max_le (le_refl _) enough)

end Descent

/-! ## A miner that is too slow -/

end Miner

end ZcashSoloPool.Stratum
