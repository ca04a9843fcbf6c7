import ZcashSoloPool.Pool.FoundBlocks
import ZcashSoloPool.Pool.Restore

/-!
# The clocks of effort

A block that is accepted is measured from the last block or the start of the
process, the API from the last reset.  The two agree while no miners dropped
since the last block and the last block is of the same process.
-/

namespace ZcashSoloPool.Pool

open ZcashSoloPool.JavaScript
open ZcashSoloPool.Stratum
open ZcashSoloPool.Transition
open ZcashSoloPool.WorkManager (AcceptedShare Externals)

/-! ## Two starts -/

namespace Running

/-- The latest of the start of the process, the last time when all miners had
dropped, and the last block, both in this process. -/
def latestReset (running : Running) : Nat :=
  max running.startedAt (max (running.droppedAt.getD 0) (running.foundAt.getD 0))

/-- Without a block so far the clock was never reset; the last block is of this
process and the clock was not reset later; or the clock was reset at the very
time of a block that is not. -/
def SameStart (running : Running) : Prop :=
  match running.desk.ledger.lastBlockAt with
  | none => running.effortResetAt = running.startedAt
  | some last =>
      if running.startedAt < last then running.effortResetAt ≤ last
      else running.effortResetAt = last

theorem effortStart_eq_iff (running : Running) :
    running.effortStart = running.apiEffortStart ↔ running.SameStart := by
  unfold effortStart apiEffortStart SameStart
  cases running.desk.ledger.lastBlockAt with
  | none =>
      dsimp only [Option.getD_none]
      rw [if_neg (Nat.not_lt_zero _), Nat.max_zero]
      exact eq_comm
  | some last =>
      dsimp only [Option.getD_some]
      by_cases session : running.startedAt < last
      · rw [if_pos session, if_pos session]
        constructor
        · intro same
          rw [same]
          exact le_max_left _ _
        · exact fun earlier => (max_eq_right earlier).symm
      · rw [if_neg session, if_neg session, Nat.max_zero]
        exact eq_comm

/-- Both starts are at most a second ago, or the same. -/
def OneClock (running : Running) (now : Instant) : Prop :=
  running.SameStart ∨
    now.ms ≤ running.effortStart + 1000 ∧ now.ms ≤ running.apiEffortStart + 1000

/-- The seconds of a block are those of the API. -/
def EffortAgrees (running : Running) (now : Instant) : Prop :=
  running.actualSeconds now = max 1 (((now.ms : ℚ) - running.apiEffortStart) / 1000)

/-- Two numbers with a floor are the same where they are equal or below it. -/
theorem max_one_eq_iff (first second : ℚ) :
    max 1 first = max 1 second ↔ first = second ∨ first ≤ 1 ∧ second ≤ 1 := by
  constructor
  · intro same
    by_cases below : first ≤ 1
    · rw [max_eq_left below] at same
      exact Or.inr ⟨below, max_eq_left_iff.mp same.symm⟩
    · rw [max_eq_right (not_le.mp below).le] at same
      apply Or.inl
      rcases max_choice 1 second with one | other
      · rw [one] at same
        exact absurd same.le below
      · exact same.trans other
  · rintro (same | ⟨first, second⟩)
    · rw [same]
    · rw [max_eq_left first, max_eq_left second]

theorem seconds_le_one_iff (now : Instant) (start : Nat) :
    ((now.ms : ℚ) - start) / 1000 ≤ 1 ↔ now.ms ≤ start + 1000 := by
  rw [div_le_one (by norm_num), sub_le_iff_le_add]
  constructor
  · intro within
    have cast : (now.ms : ℚ) ≤ ((start + 1000 : Nat) : ℚ) := by
      push_cast
      linarith
    exact Nat.cast_le.mp cast
  · intro within
    have cast : (now.ms : ℚ) ≤ ((start + 1000 : Nat) : ℚ) := Nat.cast_le.mpr within
    push_cast at cast
    linarith

theorem effortAgrees_iff (running : Running) (now : Instant) :
    running.EffortAgrees now ↔ running.OneClock now := by
  have starts : ((now.ms : ℚ) - running.effortStart) / 1000 =
      ((now.ms : ℚ) - running.apiEffortStart) / 1000 ↔
        running.effortStart = running.apiEffortStart := by
    rw [div_left_inj' (by norm_num), sub_right_inj, Nat.cast_inj]
  unfold EffortAgrees actualSeconds OneClock
  rw [max_one_eq_iff, starts, effortStart_eq_iff, seconds_le_one_iff, seconds_le_one_iff]

end Running

/-! ## The clocks of a process -/

/-- The time of a block that an event of the ledger accepts. -/
def acceptedAt : LedgerEvent → Option Nat
  | .verdict _ reply _ now => if accepts reply then some now.ms else none
  | _ => none

/-- Only an accepted block sets the time of the last one. -/
theorem lastBlockAt_ledgerNext {config : LedgerConfig} {ledger target : Ledger}
    {event : LedgerEvent} (step : Ledger.next config ledger event = some target) :
    target.lastBlockAt = (acceptedAt event).or ledger.lastBlockAt := by
  cases event with
  | candidate share worker minerId now =>
      obtain rfl : ledger.candidate config share worker minerId now = target := Option.some.inj step
      rcases Ledger.candidate_eq config ledger share worker minerId now with ⟨_, same⟩ | ⟨_, same⟩
      · rw [same]
        rfl
      · rw [same]
        unfold Ledger.forward Ledger.submitBlockCandidate
        dsimp only
        split <;> rfl
  | verdict place reply around now =>
      obtain ⟨call, _, _, rfl⟩ := Ledger.next_verdict step
      cases reply with
      | error message => rfl
      | ok result =>
          unfold Ledger.verdict acceptedAt accepts
          dsimp only
          split
          · rfl
          · split <;> rfl
  | proposal place reply =>
      obtain ⟨call, result, _, _, rfl⟩ := Ledger.next_proposal step
      rfl
  | cleanup now =>
      cases step
      rfl

theorem eq_verdict_of_ledgerEvent {desk : Desk} {event : DeskEvent} {place : Nat}
    {reply : Except String Value} {around : Surroundings} {now : Instant}
    (seen : desk.ledgerEvent event = some (.verdict place reply around now)) :
    event = .verdict place reply now := by
  cases event with
  | resume place now =>
      obtain ⟨⟨handler, miner⟩, _, isPart⟩ := Option.bind_eq_some_iff.mp seen
      dsimp only at isPart
      split at isPart
      · split at isPart
        · cases isPart
        · contradiction
      · contradiction
  | verdict call reply now =>
      cases seen
      rfl
  | proposal call reply => cases seen
  | cleanup now => cases seen
  | _ => contradiction

theorem lastBlockAt_verdict {deps : Externals} {hostile : Nat → Bool} {config : DeskConfig}
    {desk target : Desk} {call : Nat} {reply : Except String Value} {now : Instant}
    (step : Desk.next deps hostile config desk (.verdict call reply now) = some target) :
    target.ledger.lastBlockAt =
      (if accepts reply then some now.ms else none).or desk.ledger.lastBlockAt :=
  lastBlockAt_ledgerNext ((Desk.projects_ledger deps hostile config).moves step rfl)

theorem lastBlockAt_other {deps : Externals} {hostile : Nat → Bool} {config : DeskConfig}
    {desk target : Desk} {event : DeskEvent}
    (quiet : ∀ call reply now, event ≠ .verdict call reply now)
    (step : Desk.next deps hostile config desk event = some target) :
    target.ledger.lastBlockAt = desk.ledger.lastBlockAt := by
  have projects := Desk.projects_ledger deps hostile config
  cases seen : desk.ledgerEvent event with
  | none => exact congrArg Ledger.lastBlockAt (projects.stays step seen)
  | some part =>
      have moved := lastBlockAt_ledgerNext (projects.moves step seen)
      cases part with
      | verdict place reply around now =>
          exact absurd (eq_verdict_of_ledgerEvent seen) (quiet place reply now)
      | candidate share worker minerId now => exact moved
      | proposal place reply => exact moved
      | cleanup now => exact moved

/-- The clocks of a process against what happened to it, none of which is later
than the last reading. -/
structure Timed (clock : Nat) (running : Running) : Prop where
  reset : running.effortResetAt = running.latestReset
  started : running.startedAt ≤ clock
  dropped : ∀ time, running.droppedAt = some time → time ≤ clock
  found : ∀ time, running.foundAt = some time → time ≤ clock
  last : running.desk.ledger.lastBlockAt.getD 0 ≤ clock
  session : ∀ time, running.foundAt = some time →
    running.desk.ledger.lastBlockAt = some time ∧ running.startedAt ≤ time
  persisted : running.foundAt = none →
    running.desk.ledger.lastBlockAt.getD 0 ≤ running.startedAt

namespace Timed

variable {clock : Nat} {running : Running}

theorem latest_le (timed : Timed clock running) : running.latestReset ≤ clock := by
  apply max_le timed.started
  apply max_le
  · cases dropped : running.droppedAt with
    | none => exact Nat.zero_le _
    | some time => exact timed.dropped time dropped
  · cases found : running.foundAt with
    | none => exact Nat.zero_le _
    | some time => exact timed.found time found

/-- A step that touches none of the clocks. -/
theorem of_same (timed : Timed clock running) {after : Running} (later : Nat)
    (forward : clock ≤ later) (reset : after.effortResetAt = running.effortResetAt)
    (started : after.startedAt = running.startedAt) (dropped : after.droppedAt = running.droppedAt)
    (found : after.foundAt = running.foundAt)
    (last : after.desk.ledger.lastBlockAt = running.desk.ledger.lastBlockAt) :
    Timed later after where
  reset := by
    rw [Running.latestReset, reset, started, dropped, found]
    exact timed.reset
  started := by
    rw [started]
    exact timed.started.trans forward
  dropped := by
    rw [dropped]
    exact fun time isTime => (timed.dropped time isTime).trans forward
  found := by
    rw [found]
    exact fun time isTime => (timed.found time isTime).trans forward
  last := by
    rw [last]
    exact timed.last.trans forward
  session := by
    rw [found, last, started]
    exact timed.session
  persisted := by
    rw [found, last, started]
    exact timed.persisted

/-- All miners drop now. -/
theorem drop (timed : Timed clock running) {now : Instant} (forward : clock ≤ now.ms) {desk : Desk}
    (last : desk.ledger.lastBlockAt = running.desk.ledger.lastBlockAt) :
    Timed now.ms (running.dropClient desk now) := by
  unfold Running.dropClient
  split
  · constructor
    · have found : running.foundAt.getD 0 ≤ now.ms :=
        ((le_max_right _ _).trans (le_max_right _ _)).trans (timed.latest_le.trans forward)
      unfold Running.latestReset
      rw [Option.getD_some, max_eq_left found, max_eq_right (timed.started.trans forward)]
    · exact timed.started.trans forward
    · intro time isTime
      cases isTime
      exact le_rfl
    · exact fun time isTime => (timed.found time isTime).trans forward
    · dsimp only
      rw [last]
      exact timed.last.trans forward
    · dsimp only
      rw [last]
      exact timed.session
    · dsimp only
      rw [last]
      exact timed.persisted
  · exact timed.of_same now.ms forward rfl rfl rfl rfl last

/-- A block is accepted now. -/
theorem accept (timed : Timed clock running) {now : Instant} (forward : clock ≤ now.ms)
    (config : LifetimeConfig) {desk : Desk} (last : desk.ledger.lastBlockAt = some now.ms)
    (rates : Rates) : Timed now.ms (running.acceptBlock config desk rates now) where
  reset := by
    have dropped : running.droppedAt.getD 0 ≤ now.ms :=
      ((le_max_left _ _).trans (le_max_right _ _)).trans (timed.latest_le.trans forward)
    unfold Running.latestReset Running.acceptBlock
    dsimp only
    rw [Option.getD_some, max_eq_right dropped, max_eq_right (timed.started.trans forward)]
  started := timed.started.trans forward
  dropped := fun time isTime => (timed.dropped time isTime).trans forward
  found := by
    intro time isTime
    cases isTime
    exact le_rfl
  last := by
    unfold Running.acceptBlock
    dsimp only
    rw [last]
    exact le_rfl
  session := by
    intro time isTime
    cases isTime
    exact ⟨last, timed.started.trans forward⟩
  persisted := by
    intro impossible
    contradiction

/-- The effort start of the API is the latest reset. -/
theorem apiEffortStart_eq (timed : Timed clock running) :
    running.apiEffortStart = running.latestReset := by
  unfold Running.apiEffortStart
  dsimp only
  rw [timed.reset]
  apply max_eq_left
  split
  · next session =>
      cases found : running.foundAt with
      | none => exact absurd (timed.persisted found) (not_le.mpr session)
      | some time =>
          rw [(timed.session time found).1]
          have part : running.foundAt.getD 0 ≤ running.latestReset :=
            (le_max_right _ _).trans (le_max_right _ _)
          rw [found] at part
          exact part
  · exact Nat.zero_le _

end Timed

/-- No miners dropped since the last block of the process; without one, none
dropped at all, and no block is known from an earlier process. -/
def Running.Uninterrupted (running : Running) : Prop :=
  match running.foundAt with
  | some found => running.droppedAt.getD 0 ≤ found
  | none => running.droppedAt.getD 0 ≤ running.startedAt ∧
      ∀ last, running.desk.ledger.lastBlockAt = some last → last = running.startedAt

/-- While the clock does not go back, the two starts are the same exactly when the
work since the last block was not interrupted. -/
theorem Timed.sameStart_iff {clock : Nat} {running : Running} (timed : Timed clock running) :
    running.SameStart ↔ running.Uninterrupted := by
  rw [← Running.effortStart_eq_iff, timed.apiEffortStart_eq]
  unfold Running.effortStart Running.Uninterrupted Running.latestReset
  cases found : running.foundAt with
  | some time =>
      obtain ⟨last, started⟩ := timed.session time found
      rw [last, Option.getD_some, Option.getD_some]
      dsimp only
      constructor
      · intro same
        rw [same]
        exact (le_max_left _ _).trans (le_max_right _ _)
      · intro earlier
        rw [max_eq_right earlier, max_eq_right started]
  | none =>
      have persisted := timed.persisted found
      rw [Option.getD_none, Nat.max_zero]
      dsimp only
      constructor
      · intro same
        have latest : running.startedAt ≤ running.desk.ledger.lastBlockAt.getD running.startedAt :=
          (le_max_left _ _).trans same.ge
        have dropped : running.droppedAt.getD 0 ≤
            running.desk.ledger.lastBlockAt.getD running.startedAt :=
          (le_max_right _ _).trans same.ge
        cases isLast : running.desk.ledger.lastBlockAt with
        | none =>
            rw [isLast] at dropped
            refine ⟨dropped, ?_⟩
            intro last impossible
            contradiction
        | some last =>
            rw [isLast] at latest dropped persisted
            have equal : last = running.startedAt := le_antisymm persisted latest
            refine ⟨dropped.trans persisted, ?_⟩
            intro other isOther
            cases isOther
            exact equal
      · rintro ⟨dropped, persistedAt⟩
        rw [max_eq_left dropped]
        cases isLast : running.desk.ledger.lastBlockAt with
        | none => rfl
        | some last => exact persistedAt last isLast

/-! ## Runs -/

/-- An event does not read an earlier time than the one before it. -/
def InOrder (lifetime : Lifetime) (event : LifetimeEvent) : Prop :=
  ∀ time, event.clock = some time → lifetime.clock ≤ time

/-- The clocks over restarts. -/
structure TimedLifetime (lifetime : Lifetime) : Prop where
  running : Timed lifetime.clock lifetime.running
  file : ∀ file, lifetime.file = some file → file.lastBlock.foundAt.getD 0 ≤ lifetime.clock

theorem timed_start (config : LifetimeConfig) {file : Option StateFile} {now : Instant}
    (earlier : ∀ saved, file = some saved → saved.lastBlock.foundAt.getD 0 ≤ now.ms) :
    Timed now.ms (Running.start config file now) := by
  have last : (Running.start config file now).desk.ledger.lastBlockAt.getD 0 ≤ now.ms := by
    cases file with
    | none => exact Nat.zero_le _
    | some saved => exact earlier saved rfl
  have fields : (Running.start config file now).startedAt = now.ms ∧
      (Running.start config file now).effortResetAt = now.ms ∧
      (Running.start config file now).droppedAt = none ∧
      (Running.start config file now).foundAt = none := by
    cases file <;> exact ⟨rfl, rfl, rfl, rfl⟩
  obtain ⟨started, reset, dropped, found⟩ := fields
  constructor
  · rw [Running.latestReset, started, reset, dropped, found]
    exact (Nat.max_zero _).symm
  · exact started.le
  · rw [dropped]
    intro time impossible
    contradiction
  · rw [found]
    intro time impossible
    contradiction
  · exact last
  · rw [found]
    intro time impossible
    contradiction
  · rw [started]
    exact fun _ => last

/-- What a turn saves has the last block of its start or of its end. -/
theorem lastBlockAt_savePoints {config : LifetimeConfig} {before after saved : Running}
    {event : RunningEvent} (member : saved ∈ savePoints config before after event) :
    saved.desk.ledger.lastBlockAt = before.desk.ledger.lastBlockAt ∨
      saved.desk.ledger.lastBlockAt = after.desk.ledger.lastBlockAt := by
  rcases eq_of_mem_savePoints member with rfl | rfl
  · exact Or.inr rfl
  · exact Or.inl rfl

section Steps

variable {deps : Externals} {hostile : Nat → Bool} {config : LifetimeConfig}

/-- A step of a process keeps its clocks. -/
theorem Timed.next {clock : Nat} {running after : Running} {event : RunningEvent}
    (timed : Timed clock running)
    (forward : ∀ time, (LifetimeEvent.running event).clock = some time → clock ≤ time)
    (step : Running.next deps hostile config running event = some after) :
    Timed ((LifetimeEvent.running event).clock.getD clock) after := by
  cases event with
  | disconnect client now =>
      rw [Running.next] at step
      split at step
      · obtain ⟨desk, moved, rfl⟩ := Option.map_eq_some_iff.mp step
        apply timed.drop (forward now.ms rfl)
        exact lastBlockAt_other (fun _ _ _ impossible => by contradiction) moved
      · contradiction
  | verdict call reply rates now =>
      obtain ⟨desk, moved, rfl⟩ := Option.map_eq_some_iff.mp step
      have last := lastBlockAt_verdict moved
      split
      · next accepted =>
          rw [if_pos accepted] at last
          exact timed.accept (forward now.ms rfl) config last rates
      · next refused =>
          rw [if_neg refused] at last
          exact timed.of_same now.ms (forward now.ms rfl) rfl rfl rfl rfl last
  | other event =>
      rw [Running.next] at step
      split at step
      · next isOther =>
          obtain ⟨desk, moved, rfl⟩ := Option.map_eq_some_iff.mp step
          have quiet : ∀ call reply now, event ≠ .verdict call reply now := by
            intro call reply now isVerdict
            rw [isVerdict] at isOther
            contradiction
          have same : (running.withDesk desk).desk.ledger.lastBlockAt =
              running.desk.ledger.lastBlockAt := lastBlockAt_other quiet moved
          exact timed.of_same clock le_rfl rfl rfl rfl rfl same
      · contradiction

theorem TimedLifetime.next {lifetime target : Lifetime} {event : LifetimeEvent}
    (timed : TimedLifetime lifetime) (inOrder : InOrder lifetime event)
    (step : Lifetime.next deps hostile config lifetime event = some target) :
    TimedLifetime target := by
  cases event with
  | running event =>
      obtain ⟨after, moved, rfl⟩ := Option.map_eq_some_iff.mp step
      have timedAfter := timed.running.next inOrder moved
      have forward : lifetime.clock ≤ (LifetimeEvent.running event).clock.getD lifetime.clock := by
        cases read : (LifetimeEvent.running event).clock with
        | none => exact le_rfl
        | some time => exact inOrder time read
      constructor
      · exact timedAfter
      · intro file isFile
        rcases Option.or_eq_some_iff.mp isFile with isNew | ⟨_, isOld⟩
        · obtain ⟨saved, isLast, rfl⟩ := Option.map_eq_some_iff.mp isNew
          have member := List.mem_of_getLast? isLast
          dsimp only [savePersistedState]
          rcases lastBlockAt_savePoints member with before | same
          · rw [before]
            exact timed.running.last.trans forward
          · rw [same]
            exact timedAfter.last
        · exact (timed.file file isOld).trans forward
  | restart graceful now =>
      have forward := inOrder now.ms rfl
      cases step
      have earlier : ∀ file, (if graceful = true then some (savePersistedState lifetime.running)
          else lifetime.file) = some file → file.lastBlock.foundAt.getD 0 ≤ now.ms := by
        intro file isFile
        split at isFile
        · cases isFile
          exact timed.running.last.trans forward
        · exact (timed.file file isFile).trans forward
      exact ⟨timed_start config earlier, earlier⟩

theorem timed_first (config : LifetimeConfig) (now : Instant) :
    TimedLifetime (Lifetime.first config now) := by
  have noFile : ∀ file, (none : Option StateFile) = some file →
      file.lastBlock.foundAt.getD 0 ≤ now.ms := by
    intro file impossible
    contradiction
  exact ⟨timed_start config noFile, noFile⟩

end Steps

/-- A block is accepted at a time. -/
def AcceptsAt (deps : Externals) (hostile : Nat → Bool) (config : LifetimeConfig)
    (lifetime : Lifetime) (now : Instant) : LifetimeEvent → Prop
  | .running (.verdict call reply rates time) => accepts reply = true ∧ time = now ∧
      (Running.next deps hostile config lifetime.running (.verdict call reply rates time)).isSome =
        true
  | _ => False

/-- In every run over restarts, the effort of every accepted block is measured as
the API does exactly when the two starts are the same or both within the last
second; and while the clock does not go back, the start of the API is the latest
reset, and the other start is the same while the work is not interrupted. -/
theorem effortAgrees_iff_of_run (deps : Externals) (hostile : Nat → Bool)
    (config : LifetimeConfig) (start : Instant) (events : List LifetimeEvent) :
    (Throughout (Lifetime.next deps hostile config)
        (fun lifetime event => ∀ now, AcceptsAt deps hostile config lifetime now event →
          lifetime.running.EffortAgrees now) (Lifetime.first config start) events ↔
      Throughout (Lifetime.next deps hostile config)
        (fun lifetime event => ∀ now, AcceptsAt deps hostile config lifetime now event →
          lifetime.running.OneClock now) (Lifetime.first config start) events) ∧
      (Throughout (Lifetime.next deps hostile config) InOrder (Lifetime.first config start) events →
        ∀ lifetime, run (Lifetime.next deps hostile config) (Lifetime.first config start) events =
            some lifetime →
          lifetime.running.apiEffortStart = lifetime.running.latestReset ∧
            (lifetime.running.SameStart ↔ lifetime.running.Uninterrupted)) := by
  constructor
  · apply throughout_iff (fun _ => True) (fun _ _ => trivial) _ trivial
    intro lifetime event _
    constructor
    · intro agrees now accepted
      exact (lifetime.running.effortAgrees_iff now).mp (agrees now accepted)
    · intro same now accepted
      exact (lifetime.running.effortAgrees_iff now).mpr (same now accepted)
  · intro inOrder lifetime reached
    have timed : TimedLifetime lifetime := inOrder.invariant TimedLifetime
      (fun timed lawful step => timed.next lawful step) (timed_first config start) reached
    exact ⟨timed.running.apiEffortStart_eq, timed.running.sameStart_iff⟩

/-! ## A block after a dropout -/

/-- Events of the desk alone are those of its run. -/
theorem run_others {deps : Externals} {hostile : Nat → Bool} {config : LifetimeConfig}
    {events : List DeskEvent} (others : ∀ event ∈ events, isOther event = true)
    {lifetime : Lifetime} {desk : Desk}
    (reached : run (Desk.next deps hostile config.desk) lifetime.running.desk events = some desk) :
    ∃ file, run (Lifetime.next deps hostile config) lifetime
        (events.map fun event => .running (.other event)) =
      some ⟨lifetime.running.withDesk desk, file, lifetime.clock⟩ := by
  induction events generalizing lifetime with
  | nil =>
      cases reached
      exact ⟨lifetime.file, rfl⟩
  | cons event rest ih =>
      rcases Option.bind_eq_some_iff.mp reached with ⟨middle, first, later⟩
      have step : Lifetime.next deps hostile config lifetime (.running (.other event)) =
          some ⟨lifetime.running.withDesk middle, ((savePoints config lifetime.running
            (lifetime.running.withDesk middle) (.other event)).getLast?.map
              savePersistedState).or lifetime.file, lifetime.clock⟩ := by
        rw [Lifetime.next, Running.next, if_pos (others event List.mem_cons_self), first]
        rfl
      rw [List.map_cons, run_cons, step, Option.bind_some]
      exact ih (fun other member => others other (List.mem_cons_of_mem _ member)) later

theorem applyDifficulty_listed (config : ShareConfig) (miner : Miner) (difficulty : ℚ)
    (now : Nat) : (miner.applyDifficulty config difficulty now).listed = miner.listed :=
  rfl

theorem noteAcceptedShare_listed (config : ShareConfig) (miner : Miner) (now : Nat) :
    (miner.noteAcceptedShare config now).listed = miner.listed := by
  rcases Miner.noteAcceptedShare_cases config miner now with
    ⟨avg, proposed, _, applied⟩ | ⟨_, shareTimes, lastRetargetAt, same, _⟩
  · rw [applied, applyDifficulty_listed, Miner.withTimes]
  · rw [same, Miner.withTimes]

theorem creditMiner_listed (config : DeskConfig) (desk : Desk) (share : AcceptedShare)
    (miner : Miner) (now : Instant) :
    (desk.creditMiner config share miner now).listed = miner.listed := by
  have noted := noteAcceptedShare_listed config.shares
    (recordShareOutcome config.shares miner (desk.acceptedOutcome share miner) now.ms) now.ms
  unfold Desk.creditMiner
  dsimp only
  split
  · exact noted
  · exact noted

/-- Ten seconds later. -/
def later : Instant :=
  ⟨10001, Nat.succ_ne_zero 10000⟩

/-- Twenty seconds later. -/
def evening : Instant :=
  ⟨20001, Nat.succ_ne_zero 20000⟩

theorem others_eventsOnce : ∀ event ∈ Desk.eventsOnce, isOther event = true := by
  have waiting : ∀ event ∈ Desk.readyEvents WorkManager.easiestTarget ++ [Desk.submitExample],
      isOther event = true :=
    Desk.forall_waitingEvents WorkManager.easiestTarget (fun _ => rfl) rfl rfl rfl
  intro event member
  rcases List.mem_append.mp member with isWaiting | isResume
  · exact waiting event isWaiting
  · rw [List.mem_singleton.mp isResume]
    rfl

/-- The only client drops while its block waits for the node. -/
def dropEvents : List LifetimeEvent :=
  (Desk.eventsOnce.map fun event => .running (.other event)) ++ [.running (.disconnect 0 later)]

/-- The node accepts the block. -/
def acceptEvent : LifetimeEvent :=
  .running (.verdict 0 (.ok .null) ⟨0, none⟩ evening)

/-- The clock is reset, and the call still waits. -/
theorem run_dropEvents {share : AcceptedShare}
    (valid : (Desk.handlerExample Desk.configExample WorkManager.easiestTarget).result =
      .ok (.valid share)) (isBlock : share.isBlock = true) :
    ∃ lifetime worker, run (Lifetime.next WorkManager.packagesExample (fun _ => false)
        lifetimeExample) (Lifetime.first lifetimeExample Desk.noon) dropEvents = some lifetime ∧
      lifetime.running.startedAt = 1 ∧ lifetime.running.effortResetAt = 10001 ∧
        lifetime.running.desk.ledger = Desk.freshExample.ledger.candidate
          Desk.configExample.ledger share worker 1 Desk.noon := by
  let credited := Desk.creditedExample Desk.configExample WorkManager.easiestTarget share
  let waiting := (Lifetime.first lifetimeExample Desk.noon).running.withDesk credited
  obtain ⟨file, started⟩ : ∃ file, run (Lifetime.next WorkManager.packagesExample (fun _ => false)
      lifetimeExample) (Lifetime.first lifetimeExample Desk.noon)
        (Desk.eventsOnce.map fun event => .running (.other event)) = some ⟨waiting, file, 1⟩ :=
    run_others others_eventsOnce (Desk.run_eventsOnce valid)
  have miners : credited.miners = [(Desk.waitingExample Desk.configExample
      WorkManager.easiestTarget).creditMiner Desk.configExample share
        (countSubmit (Desk.minerExample Desk.configExample)) Desk.noon] := rfl
  have lists : waiting.lists 0 = true := by
    rw [Running.lists, show waiting.desk.miners = credited.miners from rfl, miners,
      List.getElem?_cons_zero, Option.any_some, creditMiner_listed]
    rfl
  let gone : Miner := { (Desk.waitingExample Desk.configExample
      WorkManager.easiestTarget).creditMiner Desk.configExample share
        (countSubmit (Desk.minerExample Desk.configExample)) Desk.noon with listed := false }
  let empty : Desk := { credited with miners := [gone] }
  have cleaned : Desk.next WorkManager.packagesExample (fun _ => false) lifetimeExample.desk
      waiting.desk (.disconnect 0) = some empty := rfl
  have counts : countAuthorizedMiners empty = 0 := rfl
  let after : Lifetime :=
    { running := { waiting with
        desk := empty
        effortResetAt := 10001
        droppedAt := some 10001 }
      file := file
      clock := 10001 }
  have dropped : Lifetime.next WorkManager.packagesExample (fun _ => false) lifetimeExample
      ⟨waiting, file, 1⟩ (.running (.disconnect 0 later)) = some after := by
    rw [Lifetime.next, Running.next, if_pos lists, cleaned, Option.map_some, Running.dropClient,
      if_pos counts]
    rfl
  refine ⟨after, _, ?_, rfl, rfl, if_pos isBlock⟩
  rw [dropEvents, run_append, started, Option.bind_some, run_cons]
  exact congrArg (Option.bind · _) dropped

/-- The effort of the block counts the time without miners. -/
theorem not_effortAgrees_droppedEvents :
    ¬Throughout (Lifetime.next WorkManager.packagesExample (fun _ => false) lifetimeExample)
      (fun lifetime event => ∀ now,
        AcceptsAt WorkManager.packagesExample (fun _ => false) lifetimeExample lifetime now event →
          lifetime.running.EffortAgrees now)
      (Lifetime.first lifetimeExample Desk.noon) (dropEvents ++ [acceptEvent]) := by
  intro agrees
  obtain ⟨share, valid, isBlock, passes⟩ := Desk.exists_block_handlerExample
  obtain ⟨lifetime, worker, reached, startedAt, effortResetAt, ledger⟩ :=
    run_dropEvents valid isBlock
  have answered : Desk.next WorkManager.packagesExample (fun _ => false) lifetimeExample.desk
      lifetime.running.desk (.verdict 0 (.ok .null) evening) ≠ none := by
    rw [Desk.next, Desk.withLedger, ledger, show lifetimeExample.desk = Desk.configExample from rfl,
      Desk.fresh_freshExample.next_verdict Desk.configExample.ledger passes]
    exact Option.some_ne_none _
  have accepted : AcceptsAt WorkManager.packagesExample (fun _ => false) lifetimeExample lifetime
      evening acceptEvent := by
    refine ⟨rfl, rfl, ?_⟩
    rw [Running.next, Option.isSome_map]
    exact Option.isSome_iff_ne_none.mpr answered
  have agreed := throughout_iff_forall.mp agrees dropEvents acceptEvent [] lifetime rfl reached
    evening accepted
  have lastBlockAt : lifetime.running.desk.ledger.lastBlockAt = none := by
    have step : Ledger.next Desk.configExample.ledger Desk.freshExample.ledger
        (.candidate share worker 1 Desk.noon) = some lifetime.running.desk.ledger :=
      congrArg some ledger.symm
    exact lastBlockAt_ledgerNext step
  rw [Running.effortAgrees_iff, Running.OneClock, ← Running.effortStart_eq_iff] at agreed
  rw [Running.effortStart, Running.apiEffortStart, lastBlockAt, startedAt, effortResetAt] at agreed
  revert agreed
  decide

end ZcashSoloPool.Pool
