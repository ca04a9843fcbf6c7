import ZcashSoloPool.Stratum.Course
import Mathlib.Data.List.Chain

/-!
# Retargeting

The difficulty follows the shares of a client up and down, and it is halved
for a client that is idle.  Both controllers share the time of the last
retarget.
-/

namespace ZcashSoloPool.Stratum

open ZcashSoloPool.JavaScript
open ZcashSoloPool.Transition
open ZcashSoloPool.WorkManager

/-! ## What the average proposes -/

namespace Miner

/-- The result is within the bounds, between the difficulty and the difficulty
times the factor. -/
theorem clampDifficulty_mul_bounds {vardiff : VardiffConfig} {difficulty factor : ℚ}
    (inBounds : InBounds vardiff difficulty) (positive : 0 < factor) :
    (1 ≤ factor → difficulty ≤ clampDifficulty vardiff (difficulty * factor) ∧
        clampDifficulty vardiff (difficulty * factor) ≤ difficulty * factor) ∧
      (factor ≤ 1 → difficulty * factor ≤ clampDifficulty vardiff (difficulty * factor) ∧
        clampDifficulty vardiff (difficulty * factor) ≤ difficulty) := by
  have product : 0 < difficulty * factor := mul_pos inBounds.pos positive
  constructor
  · intro raises
    have above : difficulty ≤ difficulty * factor := le_mul_of_one_le_right inBounds.pos.le raises
    exact ⟨inBounds.le_clampDifficulty above, inBounds.clampDifficulty_le_self above⟩
  · intro lowers
    have below : difficulty * factor ≤ difficulty := mul_le_of_le_one_right inBounds.pos.le lowers
    exact ⟨inBounds.le_clampDifficulty_self product below,
      inBounds.clampDifficulty_le product below⟩

/-- Shares that come slower than the target time lower the difficulty, by two
thirds at most. -/
theorem proposedDifficulty_of_slow {vardiff : VardiffConfig} {difficulty avg : ℚ}
    (inBounds : InBounds vardiff difficulty) (slow : vardiff.targetTime ≤ avg) :
    difficulty * (33 / 100) ≤ proposedDifficulty vardiff difficulty avg ∧
      proposedDifficulty vardiff difficulty avg ≤ difficulty := by
  have longer : vardiff.targetTime ≤ max avg (1 / 1000) := slow.trans (le_max_left _ _)
  have positive : 0 < max avg (1 / 1000) := vardiff.targetTime_pos.trans_le longer
  have ratio : vardiff.targetTime / max avg (1 / 1000) ≤ 1 := (div_le_one positive).mpr longer
  have factor : max (vardiff.targetTime / max avg (1 / 1000)) (33 / 100) ≤ 1 :=
    max_le ratio (by norm_num)
  unfold proposedDifficulty
  dsimp only
  rw [if_neg (not_lt.mpr ratio)]
  have least : (33 / 100 : ℚ) ≤ max (vardiff.targetTime / max avg (1 / 1000)) (33 / 100) :=
    le_max_right _ _
  have bounds := (clampDifficulty_mul_bounds inBounds
    (lt_of_lt_of_le (by norm_num) least)).2 factor
  exact ⟨(mul_le_mul_of_nonneg_left least inBounds.pos.le).trans bounds.1, bounds.2⟩

/-- Shares that come faster than the target time, which is a millisecond or
more, raise the difficulty, by a half at most. -/
theorem proposedDifficulty_of_fast {vardiff : VardiffConfig} {difficulty avg : ℚ}
    (inBounds : InBounds vardiff difficulty) (long : 1 / 1000 ≤ vardiff.targetTime)
    (fast : avg ≤ vardiff.targetTime) :
    difficulty ≤ proposedDifficulty vardiff difficulty avg ∧
      proposedDifficulty vardiff difficulty avg ≤ difficulty * (3 / 2) := by
  have shorter : max avg (1 / 1000) ≤ vardiff.targetTime := max_le fast long
  have positive : 0 < max avg (1 / 1000) := lt_max_of_lt_right (by norm_num)
  have ratio : 1 ≤ vardiff.targetTime / max avg (1 / 1000) := (one_le_div positive).mpr shorter
  unfold proposedDifficulty
  dsimp only
  split
  · next raises =>
      have factor : 1 ≤ min (vardiff.targetTime / max avg (1 / 1000)) (3 / 2) :=
        le_min ratio (by norm_num)
      have bounds := (clampDifficulty_mul_bounds inBounds (zero_lt_one.trans_le factor)).1 factor
      have most := mul_le_mul_of_nonneg_left
        (min_le_right (vardiff.targetTime / max avg (1 / 1000)) (3 / 2)) inBounds.pos.le
      exact ⟨bounds.1, bounds.2.trans most⟩
  · next stays =>
      have one : vardiff.targetTime / max avg (1 / 1000) = 1 := le_antisymm (not_lt.mp stays) ratio
      rw [one, max_eq_left (by norm_num), mul_one, inBounds.clampDifficulty_eq_self]
      exact ⟨le_refl _, le_mul_of_one_le_right inBounds.pos.le (by norm_num)⟩

/-! ## What a step does to the difficulty -/

/-- The bounds on the difficulty that an event leaves. -/
structure Disciplined (vardiff : VardiffConfig) (miner target : Miner) (event : MinerEvent) :
    Prop where
  raises : ∀ now, event = .noteAcceptedShare now →
    miner.currentDifficulty < target.currentDifficulty →
      averageInterval vardiff (pushShareTime vardiff miner.shareTimes now) <
        vardiff.targetTime * (1 - vardiff.variancePercent / 100)
  lowers : ∀ now, event = .noteAcceptedShare now →
    target.currentDifficulty < miner.currentDifficulty →
      vardiff.targetTime * (1 + vardiff.variancePercent / 100) <
        averageInterval vardiff (pushShareTime vardiff miner.shareTimes now)
  factor : ∀ now, event = .noteAcceptedShare now → ∃ factor : ℚ,
    33 / 100 ≤ factor ∧ factor ≤ 3 / 2 ∧
      target.currentDifficulty = miner.currentDifficulty * factor
  idle : ∀ now, event = .checkIdle now →
    target.currentDifficulty ≤ miner.currentDifficulty ∧
      miner.currentDifficulty / 2 ≤ target.currentDifficulty
  inBounds : InBounds vardiff target.currentDifficulty

/-- What a share proposes is applied as it is. -/
theorem currentDifficulty_applyDifficulty {config : ShareConfig} {miner : Miner} {proposed : ℚ}
    (inBounds : InBounds config.vardiff proposed) (now : Nat) :
    (miner.applyDifficulty config proposed now).currentDifficulty = proposed :=
  inBounds.clampDifficulty_eq_self

theorem inBounds_proposedDifficulty (vardiff : VardiffConfig) (difficulty avg : ℚ) :
    InBounds vardiff (proposedDifficulty vardiff difficulty avg) :=
  inBounds_clampDifficulty vardiff _

/-- Outside the variance the shares are fast or slow. -/
theorem fast_or_slow {vardiff : VardiffConfig} {avg : ℚ} (outside : ¬WithinVariance vardiff avg) :
    (avg < vardiff.targetTime * (1 - vardiff.variancePercent / 100) ∧ avg ≤ vardiff.targetTime) ∨
      (vardiff.targetTime * (1 + vardiff.variancePercent / 100) < avg ∧
        vardiff.targetTime ≤ avg) := by
  have variance : 0 ≤ vardiff.targetTime * (vardiff.variancePercent / 100) :=
    mul_nonneg vardiff.targetTime_pos.le
      (div_nonneg vardiff.variancePercent_nonneg (by norm_num))
  rcases not_and_or.mp outside with fast | slow
  · left
    have below := not_le.mp fast
    exact ⟨below, by linarith⟩
  · right
    have above := not_le.mp slow
    exact ⟨above, by linarith⟩

/-- A difficulty between two multiples is a multiple between them. -/
theorem exists_factor {difficulty proposed low high : ℚ} (positive : 0 < difficulty)
    (above : difficulty * low ≤ proposed) (below : proposed ≤ difficulty * high) :
    ∃ factor, low ≤ factor ∧ factor ≤ high ∧ proposed = difficulty * factor := by
  refine ⟨proposed / difficulty, ?_, ?_, ?_⟩
  · rw [le_div_iff₀ positive, mul_comm]
    exact above
  · rw [div_le_iff₀ positive, mul_comm]
    exact below
  · exact (mul_div_cancel₀ proposed positive.ne').symm

/-- An event that is no retarget only has to keep the bounds. -/
theorem disciplined_of_inBounds {vardiff : VardiffConfig} {miner target : Miner}
    {event : MinerEvent} (other : event.isRetarget = false)
    (inBounds : InBounds vardiff target.currentDifficulty) :
    Disciplined vardiff miner target event := by
  constructor
  · rintro now rfl
    contradiction
  · rintro now rfl
    contradiction
  · rintro now rfl
    contradiction
  · rintro now rfl
    contradiction
  · exact inBounds

/-- An event that leaves the difficulty alone keeps the discipline. -/
theorem disciplined_of_same {vardiff : VardiffConfig} {miner target : Miner}
    (same : target.currentDifficulty = miner.currentDifficulty)
    (inBounds : InBounds vardiff target.currentDifficulty) (event : MinerEvent) :
    Disciplined vardiff miner target event := by
  have positive := inBounds.pos
  constructor
  · intro _ _ raised
    exact absurd same raised.ne'
  · intro _ _ lowered
    exact absurd same lowered.ne
  · intro _ _
    refine ⟨1, by norm_num, by norm_num, ?_⟩
    rw [same, mul_one]
  · intro _ _
    rw [same] at positive ⊢
    exact ⟨le_refl _, (half_lt_self positive).le⟩
  · exact inBounds

theorem disciplined_noteAcceptedShare {config : ShareConfig} {miner : Miner}
    (served : Served config miner) (long : 1 / 1000 ≤ config.vardiff.targetTime) (now : Nat) :
    Disciplined config.vardiff miner (miner.noteAcceptedShare config now)
      (.noteAcceptedShare now) := by
  have inBounds := (served.react (.noteAcceptedShare now)).inBounds
  rw [react] at inBounds
  have positive := served.inBounds.pos
  rcases noteAcceptedShare_cases config miner now with
    ⟨avg, proposed, proposes, applied⟩ | ⟨_, shareTimes, lastRetargetAt, noted, _⟩
  · have result : (miner.noteAcceptedShare config now).currentDifficulty = proposed := by
      rw [applied, proposes.proposes]
      exact currentDifficulty_applyDifficulty (inBounds_proposedDifficulty _ _ _) now
    rcases fast_or_slow proposes.outside with ⟨below, fast⟩ | ⟨above, slow⟩
    · have bounds := proposedDifficulty_of_fast served.inBounds long fast
      rw [← proposes.proposes] at bounds
      constructor
      · rintro _ ⟨⟩ _
        rw [← proposes.average]
        exact below
      · rintro _ ⟨⟩ lowered
        rw [result] at lowered
        exact absurd lowered (not_lt.mpr bounds.1)
      · rintro _ ⟨⟩
        rw [result]
        exact exists_factor positive (le_trans (by linarith) bounds.1) bounds.2
      · intro _ other
        cases other
      · exact inBounds
    · have bounds := proposedDifficulty_of_slow served.inBounds slow
      rw [← proposes.proposes] at bounds
      constructor
      · rintro _ ⟨⟩ raised
        rw [result] at raised
        exact absurd raised (not_lt.mpr bounds.2)
      · rintro _ ⟨⟩ _
        rw [← proposes.average]
        exact above
      · rintro _ ⟨⟩
        rw [result]
        exact exists_factor positive bounds.1 (bounds.2.trans (by linarith))
      · intro _ other
        cases other
      · exact inBounds
  · apply disciplined_of_same _ inBounds
    rw [noted]
    rfl

theorem disciplined_checkIdle {config : ShareConfig} {miner : Miner} (served : Served config miner)
    (now : Nat) :
    Disciplined config.vardiff miner (miner.react config (.checkIdle now)) (.checkIdle now) := by
  have inBounds := (served.react (.checkIdle now)).inBounds
  rw [react] at inBounds ⊢
  split at inBounds
  · next enabled =>
      rw [if_pos enabled]
      rcases checkIdle_cases config miner now enabled with
        ⟨proposed, proposes, applied⟩ | ⟨_, unchanged⟩
      · have positive := served.inBounds.pos
        have result : (miner.checkIdle config now).currentDifficulty = proposed := by
          rw [applied, proposes.proposes]
          exact currentDifficulty_applyDifficulty (inBounds_clampDifficulty _ _) now
        have half := (clampDifficulty_mul_bounds served.inBounds
          (show (0 : ℚ) < 1 / 2 by norm_num)).2 (by norm_num)
        rw [mul_one_div, ← proposes.proposes] at half
        constructor
        · intro _ other
          cases other
        · intro _ other
          cases other
        · intro _ other
          cases other
        · intro _ _
          rw [result]
          exact ⟨half.2, half.1⟩
        · exact inBounds
      · apply disciplined_of_same _ inBounds
        rw [unchanged]
  · next disabled =>
      rw [if_neg disabled]
      exact disciplined_of_same rfl inBounds _

/-- Every step of a client that is served keeps the discipline. -/
theorem disciplined_react {config : ShareConfig} {miner : Miner} (served : Served config miner)
    (long : 1 / 1000 ≤ config.vardiff.targetTime) (event : MinerEvent) :
    Disciplined config.vardiff miner (miner.react config event) event := by
  have inBounds := (served.react event).inBounds
  cases event with
  | authorize => exact disciplined_of_inBounds rfl inBounds
  | disconnect => exact disciplined_of_inBounds rfl inBounds
  | suggestDifficulty suggested now => exact disciplined_of_inBounds rfl inBounds
  | noteAcceptedShare now => exact disciplined_noteAcceptedShare served long now
  | checkIdle now => exact disciplined_checkIdle served now

/-! ## The time between two retargets -/

/-- The server itself changes the difficulty. -/
def Retargets (config : ShareConfig) (miner : Miner) (event : MinerEvent) : Prop :=
  event.isRetarget = true ∧
    (miner.react config event).currentDifficulty ≠ miner.currentDifficulty

/-- A retarget waits for the end of the interval and starts a new one. -/
theorem Retargets.times {config : ShareConfig} {miner : Miner} {event : MinerEvent}
    (retargets : Retargets config miner event) :
    ∃ now, event.reading = some now ∧ RetargetDue config.vardiff miner now ∧
      (miner.react config event).lastRetargetAt = now := by
  obtain ⟨own, changes⟩ := retargets
  cases event with
  | authorize => contradiction
  | disconnect => contradiction
  | suggestDifficulty suggested now => contradiction
  | noteAcceptedShare now =>
      rw [react] at changes ⊢
      rcases noteAcceptedShare_cases config miner now with
        ⟨avg, proposed, proposes, applied⟩ | ⟨_, shareTimes, lastRetargetAt, noted, _⟩
      · rw [applied]
        exact ⟨now, rfl, proposes.due, rfl⟩
      · rw [noted] at changes
        exact absurd rfl changes
  | checkIdle now =>
      rw [react] at changes ⊢
      split at changes
      · next enabled =>
          rw [if_pos enabled]
          rcases checkIdle_cases config miner now enabled with
            ⟨proposed, proposes, applied⟩ | ⟨_, unchanged⟩
          · rw [applied]
            exact ⟨now, rfl, proposes.due, rfl⟩
          · rw [unchanged] at changes
            exact absurd rfl changes
      · exact absurd rfl changes

/-- The time of the last retarget is changed to the present one only. -/
theorem lastRetargetAt_react (config : ShareConfig) (miner : Miner) (event : MinerEvent) :
    (miner.react config event).lastRetargetAt = miner.lastRetargetAt ∨
      event.reading = some (miner.react config event).lastRetargetAt := by
  cases event with
  | authorize => exact Or.inl rfl
  | disconnect => exact Or.inl rfl
  | suggestDifficulty suggested now =>
      left
      rw [react]
      unfold suggestDifficulty
      split <;> rfl
  | noteAcceptedShare now =>
      rw [react]
      rcases noteAcceptedShare_cases config miner now with
        ⟨avg, proposed, _, applied⟩ | ⟨_, shareTimes, lastRetargetAt, noted, unchanged | present⟩
      · right
        rw [applied]
        rfl
      · left
        rw [noted]
        exact unchanged
      · right
        rw [noted, ← present]
        rfl
  | checkIdle now =>
      rw [react]
      split
      · next enabled =>
          rcases checkIdle_cases config miner now enabled with
            ⟨proposed, _, applied⟩ | ⟨_, unchanged⟩
          · right
            rw [applied]
            rfl
          · left
            rw [unchanged]
      · exact Or.inl rfl

/-- While the clock does not go back behind a time, neither does the time of
the last retarget. -/
theorem le_lastRetargetAt_foldl {config : ShareConfig} {time : Nat} {events : List MinerEvent}
    (later : ∀ reading ∈ events.filterMap MinerEvent.reading, time ≤ reading) {miner : Miner}
    (initially : time ≤ miner.lastRetargetAt) :
    time ≤ (events.foldl (react config) miner).lastRetargetAt := by
  induction events generalizing miner with
  | nil => exact initially
  | cons event rest ih =>
      rw [List.foldl_cons]
      have restLater : ∀ reading ∈ rest.filterMap MinerEvent.reading, time ≤ reading := by
        intro reading member
        exact later reading (List.Sublist.mem member
          ((List.sublist_cons_self event rest).filterMap MinerEvent.reading))
      apply ih restLater
      rcases lastRetargetAt_react config miner event with unchanged | reads
      · rw [unchanged]
        exact initially
      · apply later
        rw [List.filterMap_cons_some reads]
        exact List.mem_cons_self

/-- Two retargets are apart. -/
theorem retargetTime_le_of_retargets {config : ShareConfig} {miner : Miner}
    {first second : MinerEvent} {middle rest : List MinerEvent} {now firstAt secondAt : Nat}
    (inOrder : Chronological MinerEvent.reading (first :: (middle ++ second :: rest)) now)
    (firstRetargets : Retargets config miner first)
    (secondRetargets : Retargets config
      (middle.foldl (react config) (miner.react config first)) second)
    (firstReads : first.reading = some firstAt) (secondReads : second.reading = some secondAt) :
    config.vardiff.retargetTime * 1000 ≤ (secondAt : ℚ) - firstAt := by
  obtain ⟨_, sameFirst, _, set⟩ := firstRetargets.times
  obtain ⟨_, sameSecond, due, _⟩ := secondRetargets.times
  rw [firstReads] at sameFirst
  rw [secondReads] at sameSecond
  cases sameFirst
  cases sameSecond
  have later : ∀ reading ∈ middle.filterMap MinerEvent.reading, firstAt ≤ reading := by
    intro reading member
    have fromFirst : Chronological MinerEvent.reading
      ([] ++ first :: (middle ++ second :: rest)) now := inOrder
    apply fromFirst.le_of_mem firstReads
    rw [List.filterMap_cons_some firstReads, List.filterMap_append]
    exact List.mem_append_left _ (List.mem_cons_of_mem _ (List.mem_append_left _ member))
  have kept : firstAt ≤ (middle.foldl (react config) (miner.react config first)).lastRetargetAt :=
    le_lastRetargetAt_foldl later set.ge
  rw [RetargetDue] at due
  have cast : (firstAt : ℚ) ≤
      (middle.foldl (react config) (miner.react config first)).lastRetargetAt := by
    exact_mod_cast kept
  linarith

/-- Every step of a client keeps the discipline, and two retargets of it are
apart. -/
theorem retarget_discipline (config : ShareConfig) (long : 1 / 1000 ≤ config.vardiff.targetTime)
    (clientId connectedAt : Nat) (events : List MinerEvent) (now : Nat)
    (inOrder : Chronological MinerEvent.reading events now) :
    (∀ before event rest, events = before ++ event :: rest →
      Disciplined config.vardiff (after config clientId connectedAt before)
        (after config clientId connectedAt (before ++ [event])) event) ∧
    ∀ before first middle second rest, events = before ++ first :: (middle ++ second :: rest) →
      Retargets config (after config clientId connectedAt before) first →
      Retargets config (after config clientId connectedAt (before ++ first :: middle)) second →
        ∀ firstAt secondAt : Nat, first.reading = some firstAt → second.reading = some secondAt →
          config.vardiff.retargetTime * 1000 ≤ (secondAt : ℚ) - firstAt := by
  constructor
  · intro before event rest _
    rw [after_concat]
    exact disciplined_react (served_after config clientId connectedAt before) long event
  · rintro before first middle second rest rfl firstRetargets secondRetargets firstAt secondAt
      firstReads secondReads
    rw [after_append, List.foldl_cons] at secondRetargets
    exact retargetTime_le_of_retargets inOrder.of_append_right firstRetargets secondRetargets
      firstReads secondReads

end Miner

/-! ## A burst of shares -/

theorem oneExample_pos : (0 : ℚ) < 1 := by
  norm_num

theorem maxExample_pos : (0 : ℚ) < 2 ^ 30 := by
  norm_num

theorem targetTimeExample_pos : (0 : ℚ) < 20 := by
  norm_num

theorem retargetTimeExample_pos : (0 : ℚ) < 60 := by
  norm_num

theorem varianceExample_nonneg : (0 : ℚ) ≤ 30 := by
  norm_num

theorem two_le_samplesExample : (2 : ℚ) ≤ 4 := by
  norm_num

/-- A share every 20 seconds, a retarget every 60, and difficulties from one,
which is the easiest target. -/
def vardiffExample : ShareConfig where
  vardiff := {
    enabled := true
    initialDifficulty := 1
    minDifficulty := 1
    maxDifficulty := 2 ^ 30
    targetTime := 20
    retargetTime := 60
    variancePercent := 30
    minSamples := 4
    initial_pos := oneExample_pos
    min_pos := oneExample_pos
    max_pos := maxExample_pos
    targetTime_pos := targetTimeExample_pos
    retargetTime_pos := retargetTimeExample_pos
    variancePercent_nonneg := varianceExample_nonneg
    two_le_minSamples := two_le_samplesExample }
  baseTargetBI := maxTarget
  hashrateWindowSeconds := 600

namespace Miner

/-- Four shares within some milliseconds. -/
def burst : List MinerEvent :=
  [.noteAcceptedShare 100001, .noteAcceptedShare 100002, .noteAcceptedShare 100003]

/-- The last of them, which raises the difficulty. -/
def raising : MinerEvent :=
  .noteAcceptedShare 100004

/-- Two shares at the pace of the settings. -/
def paced : List MinerEvent :=
  [.noteAcceptedShare 120004, .noteAcceptedShare 140004]

/-- Two shares long after the burst. -/
def pacedLater : List MinerEvent :=
  [.noteAcceptedShare 500000, .noteAcceptedShare 520000]

/-- The retarget at the end of the burst and the next one are a minute
apart. -/
theorem retarget_discipline_burst :
    Disciplined vardiffExample.vardiff
        (after vardiffExample 1 0 (burst ++ [raising] ++ paced))
        (after vardiffExample 1 0 (burst ++ [raising] ++ paced ++ [.noteAcceptedShare 160004]))
        (.noteAcceptedShare 160004) ∧
      vardiffExample.vardiff.retargetTime * 1000 ≤ ((160004 : Nat) : ℚ) - (100004 : Nat) := by
  have discipline := retarget_discipline vardiffExample (by decide +kernel) 1 0
    (burst ++ raising :: (paced ++ .noteAcceptedShare 160004 :: [])) 160004 (by decide)
  constructor
  · exact discipline.1 (burst ++ [raising] ++ paced) _ [] rfl
  · exact discipline.2 burst raising paced (.noteAcceptedShare 160004) [] rfl
      ⟨rfl, by decide +kernel⟩ ⟨rfl, by decide +kernel⟩ 100004 160004 rfl rfl

/-! ## Shares from before a change -/

/-- The times of the accepted shares. -/
def sharesOf (events : List MinerEvent) : List Nat :=
  events.filterMap MinerEvent.shareTime

/-- Consecutive shares are apart by the target time. -/
def Spaced (vardiff : VardiffConfig) (shareTimes : List Nat) : Prop :=
  shareTimes.IsChain fun earlier later : Nat =>
    vardiff.targetTime * 1000 ≤ (later : ℚ) - earlier

instance (vardiff : VardiffConfig) (shareTimes : List Nat) :
    Decidable (Spaced vardiff shareTimes) :=
  inferInstanceAs (Decidable (List.IsChain _ _))

/-- The last event before these changed the difficulty, and none of these did. -/
def SinceChange (config : ShareConfig) (clientId connectedAt : Nat)
    (events since : List MinerEvent) : Prop :=
  ∃ before change, events = before ++ [change] ++ since ∧
    (after config clientId connectedAt (before ++ [change])).currentDifficulty ≠
      (after config clientId connectedAt before).currentDifficulty ∧
    ∀ middle ∈ since.inits,
      (after config clientId connectedAt (before ++ [change] ++ middle)).currentDifficulty =
        (after config clientId connectedAt (before ++ [change])).currentDifficulty

/-- From the first of some spaced shares to the last there is the target time
for every one behind the first. -/
theorem Spaced.elapsed {vardiff : VardiffConfig} {first : Nat} {rest : List Nat}
    (spaced : Spaced vardiff (first :: rest)) :
    vardiff.targetTime * 1000 * rest.length ≤ ((first :: rest).getLastD 0 : ℚ) - first := by
  induction rest generalizing first with
  | nil => simp
  | cons second rest ih =>
      obtain ⟨apart, later⟩ := List.isChain_cons_cons.mp spaced
      have behind := ih later
      rw [List.getLastD_cons] at behind
      rw [List.getLastD_cons, List.getLastD_cons, List.length_cons]
      push_cast
      linarith

/-- Some of the spaced shares are spaced. -/
theorem Spaced.sublist {vardiff : VardiffConfig} {some all : List Nat} (spaced : Spaced vardiff all)
    (contained : some.Sublist all) : Spaced vardiff some := by
  have transitive : Trans (fun earlier later : Nat =>
      vardiff.targetTime * 1000 ≤ (later : ℚ) - earlier) (fun earlier later : Nat =>
      vardiff.targetTime * 1000 ≤ (later : ℚ) - earlier) fun earlier later : Nat =>
      vardiff.targetTime * 1000 ≤ (later : ℚ) - earlier := by
    constructor
    intro first second third before after
    have positive := vardiff.targetTime_pos
    linarith
  exact List.IsChain.sublist spaced contained

/-- The average over a window of spaced shares is not below the target time. -/
theorem targetTime_le_averageInterval {vardiff : VardiffConfig} {window : List Nat}
    (spaced : Spaced vardiff window) : vardiff.targetTime ≤ averageInterval vardiff window := by
  unfold averageInterval
  split
  · next several =>
      cases window with
      | nil => contradiction
      | cons first rest =>
          have elapsed := spaced.elapsed
          have positive : (0 : ℚ) < ((first :: rest).length - 1 : Nat) := by
            exact_mod_cast several
          rw [le_div_iff₀ positive, List.headD_cons, List.length_cons, Nat.add_sub_cancel]
          linarith
  · exact le_refl _

/-- Shares that are spaced in the window do not raise the difficulty. -/
theorem noteAcceptedShare_le_of_spaced {config : ShareConfig} {miner : Miner}
    (served : Served config miner) {now : Nat}
    (spaced : Spaced config.vardiff (pushShareTime config.vardiff miner.shareTimes now)) :
    (miner.noteAcceptedShare config now).currentDifficulty ≤ miner.currentDifficulty := by
  rcases noteAcceptedShare_cases config miner now with
    ⟨avg, proposed, proposes, applied⟩ | ⟨_, shareTimes, lastRetargetAt, noted, _⟩
  · have slow := targetTime_le_averageInterval spaced
    rw [← proposes.average] at slow
    have bounds := proposedDifficulty_of_slow served.inBounds slow
    rw [applied, proposes.proposes,
      currentDifficulty_applyDifficulty (inBounds_proposedDifficulty _ _ _) now]
    exact bounds.2
  · rw [noted]
    exact le_refl _

/-- The times of a client are some of those before an event, and the time of
the event if it is an accepted share. -/
theorem shareTimes_react (config : ShareConfig) (miner : Miner) (event : MinerEvent) :
    ((miner.react config event).shareTimes).Sublist
      (miner.shareTimes ++ event.shareTime.toList) := by
  cases event with
  | authorize => exact List.sublist_append_left _ _
  | disconnect => exact List.sublist_append_left _ _
  | suggestDifficulty suggested now =>
      have same := congrArg Prod.snd (miner.account_suggestDifficulty config suggested now)
      rw [react, show (miner.suggestDifficulty config suggested now).shareTimes = _ from same]
      exact List.sublist_append_left _ _
  | noteAcceptedShare now =>
      rw [react]
      rcases account_noteAcceptedShare config miner now with same | pushed
      · rw [show (miner.noteAcceptedShare config now).shareTimes = _ from congrArg Prod.snd same]
        exact List.sublist_append_left _ _
      · rw [show (miner.noteAcceptedShare config now).shareTimes = _ from congrArg Prod.snd pushed]
        exact (List.drop_sublist _ _).trans List.filter_sublist
  | checkIdle now =>
      rw [react]
      split
      · rw [show (miner.checkIdle config now).shareTimes = _ from
          congrArg Prod.snd (miner.account_checkIdle config now)]
        exact List.sublist_append_left _ _
      · exact List.sublist_append_left _ _

/-- The times of a client are some of those before a run and some of the
run's. -/
theorem shareTimes_foldl (config : ShareConfig) (miner : Miner) (events : List MinerEvent) :
    ((events.foldl (react config) miner).shareTimes).Sublist
      (miner.shareTimes ++ sharesOf events) := by
  induction events generalizing miner with
  | nil => exact List.sublist_append_left _ _
  | cons event rest ih =>
      have shares : sharesOf (event :: rest) = event.shareTime.toList ++ sharesOf rest := by
        unfold sharesOf
        cases reads : event.shareTime with
        | none => rw [List.filterMap_cons_none reads]; rfl
        | some time => rw [List.filterMap_cons_some reads]; rfl
      rw [List.foldl_cons, shares, ← List.append_assoc]
      exact (ih _).trans ((shareTimes_react config miner event).append_right _)

/-- The window holds only shares of a run, once those from before are older
than four retarget intervals. -/
theorem window_sublist_of_old {config : ShareConfig} {miner : Miner} {now : Nat}
    (old : ∀ time ∈ miner.shareTimes,
      config.vardiff.retargetTime * 1000 * 4 < (now : ℚ) - (time : Nat))
    (since : List MinerEvent) :
    (pushShareTime config.vardiff (since.foldl (react config) miner).shareTimes now).Sublist
      (sharesOf since ++ [now]) := by
  let recent := fun time : Nat => decide ((now : ℚ) - time ≤ config.vardiff.retargetTime * 1000 * 4)
  have gone : miner.shareTimes.filter recent = [] := by
    rw [List.filter_eq_nil_iff]
    intro time member isRecent
    exact absurd (of_decide_eq_true isRecent) (not_le.mpr (old time member))
  have contained := ((shareTimes_foldl config miner since).append_right [now]).filter recent
  rw [List.append_assoc, List.filter_append miner.shareTimes, gone, List.nil_append] at contained
  exact (List.drop_sublist _ _).trans (contained.trans List.filter_sublist)

/-- Where the window holds only shares since the last change, and these are
spaced, the next share does not raise the difficulty.  That the events are those
since the change only says which shares are meant; the window decides. -/
theorem noteAcceptedShare_le_of_window (config : ShareConfig) (clientId connectedAt : Nat)
    (events since : List MinerEvent) (_ : SinceChange config clientId connectedAt events since)
    (now : Nat) (spaced : Spaced config.vardiff (sharesOf since ++ [now]))
    (window : (pushShareTime config.vardiff (after config clientId connectedAt events).shareTimes
      now).Sublist (sharesOf since ++ [now])) :
    (after config clientId connectedAt (events ++ [.noteAcceptedShare now])).currentDifficulty ≤
      (after config clientId connectedAt events).currentDifficulty := by
  rw [after_concat]
  exact noteAcceptedShare_le_of_spaced (served_after config clientId connectedAt events)
    (spaced.sublist window)

theorem sinceChange_paced :
    SinceChange vardiffExample 1 0 (burst ++ [raising] ++ paced) paced :=
  ⟨burst, raising, rfl, by decide +kernel, by decide +kernel⟩

theorem sinceChange_pacedLater :
    SinceChange vardiffExample 1 0 (burst ++ [raising] ++ pacedLater) pacedLater :=
  ⟨burst, raising, rfl, by decide +kernel, by decide +kernel⟩

/-- The burst is out of the window. -/
theorem noteAcceptedShare_le_pacedLater :
    (after vardiffExample 1 0 (burst ++ [raising] ++ pacedLater ++
        [.noteAcceptedShare 540000])).currentDifficulty ≤
      (after vardiffExample 1 0 (burst ++ [raising] ++ pacedLater)).currentDifficulty :=
  noteAcceptedShare_le_of_window vardiffExample 1 0 _ pacedLater sinceChange_pacedLater 540000
    (by decide +kernel) (by decide +kernel)

/-- The burst is still in the window and raises the difficulty again, although
three shares have come at the pace of the settings. -/
theorem not_noteAcceptedShare_le_paced :
    ¬∀ (config : ShareConfig) (clientId connectedAt : Nat) (events since : List MinerEvent),
      SinceChange config clientId connectedAt events since → 2 ≤ (sharesOf since).length →
        ∀ now : Nat, Spaced config.vardiff (sharesOf since ++ [now]) →
          (after config clientId connectedAt
              (events ++ [.noteAcceptedShare now])).currentDifficulty ≤
            (after config clientId connectedAt events).currentDifficulty := by
  intro never
  have bound := never vardiffExample 1 0 _ paced sinceChange_paced (by decide) 160004
    (by decide +kernel)
  exact absurd bound (by decide +kernel)

end Miner

end ZcashSoloPool.Stratum
