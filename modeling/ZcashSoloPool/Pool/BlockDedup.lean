import ZcashSoloPool.Pool.BlockLedger

/-!
# Duplicate block submissions

The map of recent submissions holds the time of the last call for each hash.
It is written before the call and pruned by a timer that compares times in
another way.  While the clock does not go back, the map covers every call that
is younger than the window.
-/

namespace ZcashSoloPool.Pool

open ZcashSoloPool.Collections
open ZcashSoloPool.JavaScript
open ZcashSoloPool.Stratum
open ZcashSoloPool.Transition
open ZcashSoloPool.WorkManager (AcceptedShare)

namespace Ledger

/-! ## Times -/

/-- The reading of the clock that an event compares with the recent
submissions. -/
def reading : LedgerEvent → Option Instant
  | .candidate _ _ _ now => some now
  | .cleanup now => some now
  | _ => none

/-- The clock does not go back. -/
def Forward (ledger : Ledger) (event : LedgerEvent) : Prop :=
  ∀ now, reading event = some now → ledger.clock ≤ now.ms

/-- The earlier time is at least a window before the later one. -/
def Apart (config : LedgerConfig) (earlier later : Nat) : Prop :=
  (earlier : ℚ) + config.blockSubmitDedupWindowMs ≤ later

instance (config : LedgerConfig) (earlier later : Nat) : Decidable (Apart config earlier later) :=
  inferInstanceAs (Decidable (_ ≤ _))

theorem apart_iff_not_suppresses {config : LedgerConfig} {now prev : Instant} :
    Apart config prev.ms now.ms ↔ ¬Suppresses config now prev := by
  rw [Apart, Suppresses, not_lt, le_sub_iff_add_le, add_comm]

theorem Apart.le {config : LedgerConfig} {earlier later : Nat}
    (apart : Apart config earlier later) :
    earlier ≤ later := by
  have := config.nonneg
  have : (earlier : ℚ) ≤ later := by
    unfold Apart at apart
    linarith
  exact_mod_cast this

theorem Apart.mono {config : LedgerConfig} {first earlier later last : Nat}
    (apart : Apart config earlier later) (before : first ≤ earlier) (after : later ≤ last) :
    Apart config first last := by
  have : (first : ℚ) ≤ earlier := by exact_mod_cast before
  have : (later : ℚ) ≤ last := by exact_mod_cast after
  unfold Apart at apart ⊢
  linarith

/-- A key with the time of a call or of an increase of the counters. -/
abbrev Stamp :=
  Text × Instant

/-- Stamps of the same key are a window apart. -/
def Spaced (config : LedgerConfig) (stamps : List Stamp) : Prop :=
  stamps.Pairwise fun earlier later =>
    earlier.1 = later.1 → Apart config earlier.2.ms later.2.ms

instance (config : LedgerConfig) (stamps : List Stamp) : Decidable (Spaced config stamps) :=
  List.instDecidablePairwise stamps

theorem spaced_concat {config : LedgerConfig} {stamps : List Stamp} {stamp : Stamp} :
    Spaced config (stamps ++ [stamp]) ↔ Spaced config stamps ∧
      ∀ earlier ∈ stamps, earlier.1 = stamp.1 → Apart config earlier.2.ms stamp.2.ms := by
  rw [Spaced, List.pairwise_append]
  simp [Spaced]

/-- A call with its time. -/
def stampOf (call : BlockCall) : Stamp :=
  (call.key, call.calledAt)

/-- The calls with their times. -/
def callStamps (ledger : Ledger) : List Stamp :=
  ledger.calls.map stampOf

/-- The increases of the counters with their times. -/
def foundStamps (ledger : Ledger) : List Stamp :=
  ledger.found.map fun found => (found.key, found.foundAt)

/-! ## What a step changes -/

/-- A candidate that is forwarded is called for and noted. -/
theorem forward_fields (ledger : Ledger) (key : Text) (share : AcceptedShare) (worker : WorkerLabel)
    (minerId : Nat) (now : Instant) :
    let target := (ledger.count key now).forward key share worker minerId now
    target.recentBlockSubmissions = ledger.recentBlockSubmissions.set key now ∧
      target.calls = ledger.calls ++ [⟨key, now, share, worker, minerId,
        if preflightThrows share then .threw else .pending, false⟩] ∧
      target.found = ledger.found ++ [⟨key, now⟩] ∧ target.clock = now.ms := by
  unfold forward submitBlockCandidate
  dsimp only
  split
  · next throws => exact ⟨rfl, by simp [count], rfl, rfl⟩
  · next passes => exact ⟨rfl, by simp [count], rfl, rfl⟩

/-- Verdicts and proposals do not concern the duplicate test. -/
structure SameStamps (ledger target : Ledger) : Prop where
  recent : target.recentBlockSubmissions = ledger.recentBlockSubmissions
  calls : target.callStamps = ledger.callStamps
  found : target.found = ledger.found
  clock : target.clock = ledger.clock

theorem SameStamps.foundStamps {ledger target : Ledger} (same : SameStamps ledger target) :
    target.foundStamps = ledger.foundStamps := by
  rw [Ledger.foundStamps, same.found, Ledger.foundStamps]

theorem sameStamps_verdict (config : LedgerConfig) {ledger : Ledger} {place : Nat}
    {call : BlockCall} (called : ledger.calls[place]? = some call) (reply : Except String Value)
    (around : Surroundings) (now : Instant) :
    SameStamps ledger (ledger.verdict config place call reply around now) := by
  cases reply with
  | error message => exact ⟨rfl, map_set_of_eq called rfl, rfl, rfl⟩
  | ok result =>
      unfold verdict
      dsimp only
      split
      · exact ⟨rfl, map_set_of_eq called rfl, rfl, rfl⟩
      · split
        · exact ⟨rfl, map_set_of_eq called rfl, rfl, rfl⟩
        · exact ⟨rfl, map_set_of_eq called rfl, rfl, rfl⟩

theorem sameStamps_proposal (config : LedgerConfig) {ledger : Ledger} {place : Nat}
    {call : BlockCall} (called : ledger.calls[place]? = some call) (result : Value)
    (reply : Except String Value) :
    SameStamps ledger (ledger.proposal config place call result reply) :=
  ⟨rfl, map_set_of_eq called rfl, rfl, rfl⟩

/-- The clock of the ledger is the last reading. -/
theorem clock_next {config : LedgerConfig} {ledger target : Ledger} {event : LedgerEvent}
    (step : next config ledger event = some target) :
    target.clock = ledger.clock ∨ ∃ now, reading event = some now ∧ target.clock = now.ms := by
  cases event with
  | candidate share worker minerId now =>
      cases step
      refine Or.inr ⟨now, rfl, ?_⟩
      rcases candidate_eq config ledger share worker minerId now with ⟨_, dropped⟩ | ⟨_, forwarded⟩
      · rw [dropped]
        rfl
      · rw [forwarded, (forward_fields ledger _ share worker minerId now).2.2.2]
  | verdict place reply around now =>
      obtain ⟨call, called, _, rfl⟩ := next_verdict step
      exact Or.inl (sameStamps_verdict config called reply around now).clock
  | proposal place reply =>
      obtain ⟨call, result, called, _, rfl⟩ := next_proposal step
      exact Or.inl (sameStamps_proposal config called result reply).clock
  | cleanup now =>
      cases step
      exact Or.inr ⟨now, rfl, rfl⟩

/-! ## The map of recent submissions -/

/-- Every entry is the time of a call. -/
def Backed (ledger : Ledger) : Prop :=
  ∀ key prev, ledger.recentBlockSubmissions.get? key = some prev → (key, prev) ∈ ledger.callStamps

theorem Fresh.backed {loaded : Ledger} (fresh : Fresh loaded) : Backed loaded := by
  intro key prev found
  rw [fresh.recent] at found
  contradiction

theorem Backed.of_same {ledger target : Ledger} (backed : Backed ledger)
    (same : SameStamps ledger target) : Backed target := by
  unfold Backed
  rw [same.recent, same.calls]
  exact backed

theorem callStamps_forward (ledger : Ledger) (key : Text) (share : AcceptedShare)
    (worker : WorkerLabel) (minerId : Nat) (now : Instant) :
    ((ledger.count key now).forward key share worker minerId now).callStamps =
      ledger.callStamps ++ [(key, now)] := by
  rw [callStamps, (forward_fields ledger key share worker minerId now).2.1, List.map_append]
  rfl

theorem Backed.forward {ledger : Ledger} (backed : Backed ledger) (key : Text)
    (share : AcceptedShare) (worker : WorkerLabel) (minerId : Nat) (now : Instant) :
    Backed ((ledger.count key now).forward key share worker minerId now) := by
  intro other prev found
  rw [(forward_fields ledger key share worker minerId now).1] at found
  rw [callStamps_forward]
  by_cases same : other = key
  · subst same
    rw [OrderedMap.get?_set_self] at found
    cases found
    simp
  · rw [OrderedMap.get?_set_of_ne same] at found
    exact List.mem_append_left _ (backed other prev found)

theorem get?_cleanup {config : LedgerConfig} {ledger : Ledger} {now : Instant} {key : Text}
    {prev : Instant} : (ledger.cleanup config now).recentBlockSubmissions.get? key = some prev ↔
      ledger.recentBlockSubmissions.get? key = some prev ∧
        ¬(prev.ms : ℚ) < now.ms - config.blockSubmitDedupWindowMs := by
  rw [cleanup, OrderedMap.get?_filter_eq_some_iff]
  simp

theorem Backed.next {config : LedgerConfig} {ledger target : Ledger} {event : LedgerEvent}
    (backed : Backed ledger) (step : Ledger.next config ledger event = some target) :
    Backed target := by
  cases event with
  | candidate share worker minerId now =>
      cases step
      rcases candidate_eq config ledger share worker minerId now with ⟨_, dropped⟩ | ⟨_, forwarded⟩
      · rw [dropped]
        exact backed
      · rw [forwarded]
        exact backed.forward _ share worker minerId now
  | verdict place reply around now =>
      obtain ⟨call, called, _, rfl⟩ := next_verdict step
      exact backed.of_same (sameStamps_verdict config called reply around now)
  | proposal place reply =>
      obtain ⟨call, result, called, _, rfl⟩ := next_proposal step
      exact backed.of_same (sameStamps_proposal config called result reply)
  | cleanup now =>
      cases step
      exact fun key prev found => backed key prev (get?_cleanup.mp found).1

/-! ## Spacing of calls -/

/-- A call is at least as old as the entry for its key, or too old to matter. -/
def Covered (config : LedgerConfig) (ledger : Ledger) (stamp : Stamp) : Prop :=
  (∃ prev, ledger.recentBlockSubmissions.get? stamp.1 = some prev ∧ stamp.2.ms ≤ prev.ms) ∨
    Apart config stamp.2.ms ledger.clock

/-- The map covers the calls, and the calls are spaced. -/
structure Guarded (config : LedgerConfig) (ledger : Ledger) : Prop where
  backed : Backed ledger
  covered : ∀ stamp ∈ ledger.callStamps, Covered config ledger stamp
  spaced : Spaced config ledger.callStamps

theorem Fresh.guarded {config : LedgerConfig} {loaded : Ledger} (fresh : Fresh loaded) :
    Guarded config loaded := by
  have none : loaded.callStamps = [] := by simp [callStamps, fresh.calls]
  refine ⟨fresh.backed, ?_, ?_⟩
  · rw [none]
    exact fun stamp member => absurd member List.not_mem_nil
  · rw [none]
    exact List.Pairwise.nil

/-- Where a candidate is no duplicate, every earlier call for its key is a
window old. -/
theorem Guarded.apart {config : LedgerConfig} {ledger : Ledger} (guarded : Guarded config ledger)
    {key : Text} {now : Instant} (forward : ledger.clock ≤ now.ms)
    (new : ¬Duplicate config ledger key now) {stamp : Stamp} (member : stamp ∈ ledger.callStamps)
    (same : stamp.1 = key) : Apart config stamp.2.ms now.ms := by
  rcases guarded.covered stamp member with ⟨prev, found, notLater⟩ | old
  · have old : Apart config prev.ms now.ms := by
      rw [apart_iff_not_suppresses]
      intro young
      exact new ⟨prev, same ▸ found, young⟩
    exact old.mono notLater (Nat.le_refl _)
  · exact old.mono (Nat.le_refl _) forward

theorem Covered.of_same {config : LedgerConfig} {ledger target : Ledger} {stamp : Stamp}
    (covered : Covered config ledger stamp) (same : SameStamps ledger target) :
    Covered config target stamp := by
  unfold Covered
  rw [same.recent, same.clock]
  exact covered

theorem Guarded.of_same {config : LedgerConfig} {ledger target : Ledger}
    (guarded : Guarded config ledger) (same : SameStamps ledger target) :
    Guarded config target where
  backed := guarded.backed.of_same same
  covered := fun stamp member =>
    (guarded.covered stamp (same.calls ▸ member)).of_same same
  spaced := by
    rw [same.calls]
    exact guarded.spaced

theorem Guarded.suppress {config : LedgerConfig} {ledger : Ledger} (guarded : Guarded config ledger)
    (key : Text) {now : Instant} (forward : ledger.clock ≤ now.ms) :
    Guarded config (ledger.count key now).suppress where
  backed := guarded.backed
  covered := fun stamp member => by
    rcases guarded.covered stamp member with entry | old
    · exact Or.inl entry
    · exact Or.inr (old.mono (Nat.le_refl _) forward)
  spaced := guarded.spaced

theorem Guarded.forward {config : LedgerConfig} {ledger : Ledger} (guarded : Guarded config ledger)
    {key : Text} (share : AcceptedShare) (worker : WorkerLabel) (minerId : Nat) {now : Instant}
    (forward : ledger.clock ≤ now.ms) (new : ¬Duplicate config ledger key now) :
    Guarded config ((ledger.count key now).forward key share worker minerId now) := by
  have fields := forward_fields ledger key share worker minerId now
  have stamps := callStamps_forward ledger key share worker minerId now
  refine ⟨guarded.backed.forward key share worker minerId now, fun stamp member => ?_, ?_⟩
  · rw [stamps] at member
    unfold Covered
    rw [fields.1, fields.2.2.2]
    by_cases same : stamp.1 = key
    · refine Or.inl ⟨now, by rw [same, OrderedMap.get?_set_self], ?_⟩
      rcases List.mem_append.mp member with earlier | isNew
      · exact (guarded.apart forward new earlier same).le
      · rw [List.mem_singleton.mp isNew]
    · have earlier : stamp ∈ ledger.callStamps := by
        rcases List.mem_append.mp member with earlier | isNew
        · exact earlier
        · rw [List.mem_singleton.mp isNew] at same
          exact absurd rfl same
      rw [OrderedMap.get?_set_of_ne same]
      rcases guarded.covered stamp earlier with entry | old
      · exact Or.inl entry
      · exact Or.inr (old.mono (Nat.le_refl _) forward)
  · rw [stamps, spaced_concat]
    exact ⟨guarded.spaced, fun earlier member same => guarded.apart forward new member same⟩

/-- The cleanup removes only entries that are a window old. -/
theorem Guarded.cleanup {config : LedgerConfig} {ledger : Ledger} (guarded : Guarded config ledger)
    {now : Instant} (forward : ledger.clock ≤ now.ms) :
    Guarded config (ledger.cleanup config now) where
  backed := fun key prev found => guarded.backed key prev (get?_cleanup.mp found).1
  covered := fun stamp member => by
    rcases guarded.covered stamp member with ⟨prev, found, notLater⟩ | old
    · by_cases removed : (prev.ms : ℚ) < now.ms - config.blockSubmitDedupWindowMs
      · have old : Apart config prev.ms now.ms := by
          unfold Apart
          linarith
        exact Or.inr (old.mono notLater (Nat.le_refl _))
      · exact Or.inl ⟨prev, get?_cleanup.mpr ⟨found, removed⟩, notLater⟩
    · exact Or.inr (old.mono (Nat.le_refl _) forward)
  spaced := guarded.spaced

theorem Guarded.next {config : LedgerConfig} {ledger target : Ledger} {event : LedgerEvent}
    (guarded : Guarded config ledger) (forward : Forward ledger event)
    (step : Ledger.next config ledger event = some target) : Guarded config target := by
  cases event with
  | candidate share worker minerId now =>
      cases step
      rcases candidate_eq config ledger share worker minerId now with
        ⟨_, dropped⟩ | ⟨new, forwarded⟩
      · rw [dropped]
        exact guarded.suppress _ (forward now rfl)
      · rw [forwarded]
        exact guarded.forward share worker minerId (forward now rfl) new
  | verdict place reply around now =>
      obtain ⟨call, called, _, rfl⟩ := next_verdict step
      exact guarded.of_same (sameStamps_verdict config called reply around now)
  | proposal place reply =>
      obtain ⟨call, result, called, _, rfl⟩ := next_proposal step
      exact guarded.of_same (sameStamps_proposal config called result reply)
  | cleanup now =>
      cases step
      exact guarded.cleanup (forward now rfl)

/-- While the clock does not go back, calls for the same key are at least a
window apart. -/
theorem spaced_of_run {config : LedgerConfig} {loaded ledger : Ledger} {events : List LedgerEvent}
    (fresh : Fresh loaded) (forward : Throughout (next config) Forward loaded events)
    (reached : run (next config) loaded events = some ledger) :
    Spaced config ledger.callStamps := by
  have guarded : Guarded config ledger :=
    forward.invariant (Guarded config) (fun guarded forward step => guarded.next forward step)
      fresh.guarded reached
  exact guarded.spaced

/-- What the cleanup removes suppresses nothing any more. -/
theorem not_suppresses_of_cleanup {config : LedgerConfig} {ledger : Ledger} {now prev : Instant}
    {key : Text} (present : ledger.recentBlockSubmissions.get? key = some prev)
    (removed : (ledger.cleanup config now).recentBlockSubmissions.get? key = none)
    {later : Instant} (notEarlier : now.ms ≤ later.ms) : ¬Suppresses config later prev := by
  rw [← apart_iff_not_suppresses]
  have old : (prev.ms : ℚ) < now.ms - config.blockSubmitDedupWindowMs := by
    by_contra young
    rw [get?_cleanup.mpr ⟨present, young⟩] at removed
    contradiction
  have apart : Apart config prev.ms now.ms := by
    unfold Apart
    linarith
  exact apart.mono (Nat.le_refl _) notEarlier

/-! ## Counting found blocks -/

/-- A candidate is no duplicate of a recent submission. -/
def Unsuppressed (config : LedgerConfig) (ledger : Ledger) : LedgerEvent → Prop
  | .candidate share _ _ now => ¬Duplicate config ledger (normalizeBlockKey share.hash) now
  | _ => True

/-- Every entry of the map is the time of a call, and every call was counted. -/
structure Booked (ledger : Ledger) : Prop where
  backed : Backed ledger
  calls : ∀ stamp ∈ ledger.callStamps, stamp ∈ ledger.foundStamps

theorem Fresh.booked {loaded : Ledger} (fresh : Fresh loaded) : Booked loaded where
  backed := fresh.backed
  calls := by simp [callStamps, fresh.calls]

theorem foundStamps_forward (ledger : Ledger) (key : Text) (share : AcceptedShare)
    (worker : WorkerLabel) (minerId : Nat) (now : Instant) :
    ((ledger.count key now).forward key share worker minerId now).foundStamps =
      ledger.foundStamps ++ [(key, now)] := by
  rw [foundStamps, (forward_fields ledger key share worker minerId now).2.2.1, List.map_append]
  rfl

theorem foundStamps_suppress (ledger : Ledger) (key : Text) (now : Instant) :
    (ledger.count key now).suppress.foundStamps = ledger.foundStamps ++ [(key, now)] := by
  simp [foundStamps, suppress, count]

/-- A duplicate is counted within a window of the call it repeats. -/
theorem Booked.not_spaced_of_duplicate {config : LedgerConfig} {ledger : Ledger}
    (booked : Booked ledger) {key : Text} {now : Instant}
    (duplicate : Duplicate config ledger key now) :
    ¬Spaced config (ledger.foundStamps ++ [(key, now)]) := by
  rcases duplicate with ⟨prev, entry, young⟩
  intro spaced
  have apart := (spaced_concat.mp spaced).2 (key, prev)
    (booked.calls _ (booked.backed key prev entry)) rfl
  exact apart_iff_not_suppresses.mp apart young

theorem Booked.next {config : LedgerConfig} {ledger target : Ledger} {event : LedgerEvent}
    (booked : Booked ledger) (step : Ledger.next config ledger event = some target) :
    Booked target := by
  refine ⟨booked.backed.next step, ?_⟩
  cases event with
  | candidate share worker minerId now =>
      cases step
      intro stamp member
      rcases candidate_eq config ledger share worker minerId now with
        ⟨_, dropped⟩ | ⟨_, forwarded⟩
      · rw [dropped] at member ⊢
        rw [foundStamps_suppress]
        exact List.mem_append_left _ (booked.calls stamp member)
      · rw [forwarded, callStamps_forward] at member
        rw [forwarded, foundStamps_forward]
        rcases List.mem_append.mp member with earlier | new
        · exact List.mem_append_left _ (booked.calls stamp earlier)
        · exact List.mem_append_right _ new
  | verdict place reply around now =>
      obtain ⟨call, called, _, rfl⟩ := next_verdict step
      have same := sameStamps_verdict config called reply around now
      rw [same.calls, same.foundStamps]
      exact booked.calls
  | proposal place reply =>
      obtain ⟨call, result, called, _, rfl⟩ := next_proposal step
      have same := sameStamps_proposal config called result reply
      rw [same.calls, same.foundStamps]
      exact booked.calls
  | cleanup now =>
      cases step
      exact booked.calls

/-- A candidate adds one increase. -/
theorem foundStamps_candidate (config : LedgerConfig) (ledger : Ledger) (share : AcceptedShare)
    (worker : WorkerLabel) (minerId : Nat) (now : Instant) :
    (ledger.candidate config share worker minerId now).foundStamps =
      ledger.foundStamps ++ [(normalizeBlockKey share.hash, now)] := by
  rcases candidate_eq config ledger share worker minerId now with ⟨_, dropped⟩ | ⟨_, forwarded⟩
  · rw [dropped, foundStamps_suppress]
  · rw [forwarded, foundStamps_forward]

/-- The increases that an event makes. -/
def increases : LedgerEvent → List Stamp
  | .candidate share _ _ now => [(normalizeBlockKey share.hash, now)]
  | _ => []

/-- Nothing else adds one. -/
theorem foundStamps_next {config : LedgerConfig} {ledger target : Ledger} {event : LedgerEvent}
    (step : next config ledger event = some target) :
    target.foundStamps = ledger.foundStamps ++ increases event := by
  cases event with
  | candidate share worker minerId now =>
      cases step
      exact foundStamps_candidate config ledger share worker minerId now
  | verdict place reply around now =>
      obtain ⟨call, called, _, rfl⟩ := next_verdict step
      have same := (sameStamps_verdict config called reply around now).foundStamps
      exact same.trans (List.append_nil _).symm
  | proposal place reply =>
      obtain ⟨call, result, called, _, rfl⟩ := next_proposal step
      have same := (sameStamps_proposal config called result reply).foundStamps
      exact same.trans (List.append_nil _).symm
  | cleanup now =>
      cases step
      exact (List.append_nil _).symm

/-- The increases of a run are those of its candidates. -/
theorem foundStamps_run {config : LedgerConfig} {start target : Ledger} {events : List LedgerEvent}
    (reached : run (next config) start events = some target) :
    target.foundStamps = start.foundStamps ++ events.flatMap increases := by
  induction events generalizing start with
  | nil =>
      cases reached
      exact (List.append_nil _).symm
  | cons event rest ih =>
      rcases Option.bind_eq_some_iff.mp reached with ⟨middle, first, later⟩
      rw [ih later, foundStamps_next first, List.append_assoc, List.flatMap_cons]

theorem length_found_next {config : LedgerConfig} {ledger target : Ledger} {event : LedgerEvent}
    (step : next config ledger event = some target) :
    target.found.length = ledger.found.length + (increases event).length := by
  have lengths := congrArg List.length (foundStamps_next step)
  rw [foundStamps, List.length_map, List.length_append, foundStamps, List.length_map] at lengths
  exact lengths

/-- The increases are those of `blockCandidates`. -/
theorem blockCandidates_next {config : LedgerConfig} {ledger target : Ledger} {event : LedgerEvent}
    (step : next config ledger event = some target) :
    target.blockCandidates = ledger.blockCandidates + (increases event).length := by
  cases event with
  | candidate share worker minerId now =>
      cases step
      rcases candidate_eq config ledger share worker minerId now with ⟨_, dropped⟩ | ⟨_, forwarded⟩
      · rw [dropped]
        rfl
      · rw [forwarded]
        unfold forward submitBlockCandidate
        dsimp only
        split <;> rfl
  | verdict place reply around now =>
      obtain ⟨call, _, _, rfl⟩ := next_verdict step
      cases reply with
      | error message => rfl
      | ok result =>
          unfold verdict
          dsimp only
          split
          · rfl
          · split <;> rfl
  | proposal place reply =>
      obtain ⟨call, result, _, _, rfl⟩ := next_proposal step
      rfl
  | cleanup now =>
      cases step
      rfl

theorem blockCandidates_of_run {config : LedgerConfig} {loaded ledger : Ledger}
    {events : List LedgerEvent} (fresh : Fresh loaded)
    (reached : run (next config) loaded events = some ledger) :
    ledger.blockCandidates = loaded.blockCandidates + ledger.found.length := by
  refine run_invariant
    (fun ledger => ledger.blockCandidates = loaded.blockCandidates + ledger.found.length)
    ?_ (by rw [fresh.found]; rfl) reached
  intro ledger target event equal step
  rw [blockCandidates_next step, length_found_next step, equal, Nat.add_assoc]

/-- Where each hash increases the counters at most once in a window, no
candidate was suppressed. -/
theorem unsuppressed_of_spaced {config : LedgerConfig} {loaded ledger : Ledger}
    {events : List LedgerEvent} (fresh : Fresh loaded)
    (reached : run (next config) loaded events = some ledger)
    (spaced : Spaced config ledger.foundStamps) :
    Throughout (next config) (Unsuppressed config) loaded events := by
  refine throughout_of_good Booked (fun ledger => Spaced config ledger.foundStamps)
    (fun booked step => booked.next step) ?_ ?_ fresh.booked reached spaced
  · intro ledger target event booked bad step
    rw [foundStamps_next step]
    cases event with
    | candidate share worker minerId now => exact booked.not_spaced_of_duplicate (not_not.mp bad)
    | _ => exact absurd trivial bad
  · intro ledger target event lost step spaced
    rw [foundStamps_next step] at spaced
    exact lost (List.pairwise_append.mp spaced).1

/-- The increases are spaced, and each of them was called for. -/
structure Matched (config : LedgerConfig) (ledger : Ledger) : Prop where
  guarded : Guarded config ledger
  calls : ∀ stamp ∈ ledger.foundStamps, stamp ∈ ledger.callStamps
  spaced : Spaced config ledger.foundStamps

theorem Fresh.matched {config : LedgerConfig} {loaded : Ledger} (fresh : Fresh loaded) :
    Matched config loaded where
  guarded := fresh.guarded
  calls := by simp [foundStamps, fresh.found]
  spaced := by
    rw [foundStamps, fresh.found]
    exact List.Pairwise.nil

theorem Matched.next {config : LedgerConfig} {ledger target : Ledger} {event : LedgerEvent}
    (matched : Matched config ledger) (forward : Forward ledger event)
    (unsuppressed : Unsuppressed config ledger event)
    (step : Ledger.next config ledger event = some target) : Matched config target := by
  have guarded := matched.guarded.next forward step
  cases event with
  | candidate share worker minerId now =>
      cases step
      rcases candidate_eq config ledger share worker minerId now with
        ⟨duplicate, _⟩ | ⟨new, forwarded⟩
      · exact absurd duplicate unsuppressed
      · rw [forwarded] at guarded ⊢
        refine ⟨guarded, ?_, ?_⟩
        · rw [foundStamps_forward, callStamps_forward]
          exact fun stamp member => (List.mem_append.mp member).elim
            (fun earlier => List.mem_append_left _ (matched.calls stamp earlier))
            (List.mem_append_right _)
        · rw [foundStamps_forward, spaced_concat]
          exact ⟨matched.spaced, fun earlier member same =>
            matched.guarded.apart (forward now rfl) new (matched.calls earlier member) same⟩
  | verdict place reply around now =>
      obtain ⟨call, called, _, rfl⟩ := next_verdict step
      have same := sameStamps_verdict config called reply around now
      refine ⟨guarded, ?_, ?_⟩
      · rw [same.calls, same.foundStamps]
        exact matched.calls
      · rw [same.foundStamps]
        exact matched.spaced
  | proposal place reply =>
      obtain ⟨call, result, called, _, rfl⟩ := next_proposal step
      have same := sameStamps_proposal config called result reply
      refine ⟨guarded, ?_, ?_⟩
      · rw [same.calls, same.foundStamps]
        exact matched.calls
      · rw [same.foundStamps]
        exact matched.spaced
  | cleanup now =>
      cases step
      exact ⟨guarded, matched.calls, matched.spaced⟩

/-- While the clock does not go back and no candidate is suppressed, each hash
increases the counters at most once in a window. -/
theorem spaced_of_unsuppressed {config : LedgerConfig} {loaded ledger : Ledger}
    {events : List LedgerEvent} (fresh : Fresh loaded)
    (reached : run (next config) loaded events = some ledger)
    (lawful : Throughout (next config) (fun ledger event =>
      Forward ledger event ∧ Unsuppressed config ledger event) loaded events) :
    Spaced config ledger.foundStamps := by
  have matched : Matched config ledger :=
    lawful.invariant (Matched config)
      (fun matched law step => matched.next law.1 law.2 step) fresh.matched reached
  exact matched.spaced

/-! ## Asking the node again -/

/-- Every call for the key so far threw. -/
def AllThrew (ledger : Ledger) (key : Text) : Prop :=
  ∀ call ∈ ledger.calls, call.key = key → call.verdict = .threw

/-- The step asks the node about the block of a candidate. -/
def Asks (config : LedgerConfig) (ledger : Ledger) (share : AcceptedShare) (worker : WorkerLabel)
    (minerId : Nat) (now : Instant) : Prop :=
  ∃ call, (ledger.candidate config share worker minerId now).calls = ledger.calls ++ [call] ∧
    call.key = normalizeBlockKey share.hash ∧ call.verdict = .pending

/-- A candidate whose calls all threw is forwarded to the node. -/
def AsksAgain (config : LedgerConfig) (ledger : Ledger) : LedgerEvent → Prop
  | .candidate share worker minerId now =>
      AllThrew ledger (normalizeBlockKey share.hash) → Asks config ledger share worker minerId now
  | _ => True

/-- A candidate whose calls all threw comes a window after each of them, and
its bits are a string. -/
def Patient (config : LedgerConfig) (ledger : Ledger) : LedgerEvent → Prop
  | .candidate share _ _ now => AllThrew ledger (normalizeBlockKey share.hash) →
      preflightThrows share = false ∧
        ∀ call ∈ ledger.calls, call.key = normalizeBlockKey share.hash →
          Apart config call.calledAt.ms now.ms
  | _ => True

/-- The node is asked exactly when the candidate is no duplicate and its bits
are a string. -/
theorem asks_iff {config : LedgerConfig} {ledger : Ledger} {share : AcceptedShare}
    {worker : WorkerLabel} {minerId : Nat} {now : Instant} :
    Asks config ledger share worker minerId now ↔
      preflightThrows share = false ∧
        ¬Duplicate config ledger (normalizeBlockKey share.hash) now := by
  unfold Asks
  rcases candidate_eq config ledger share worker minerId now with
    ⟨duplicate, dropped⟩ | ⟨new, forwarded⟩
  · rw [dropped]
    constructor
    · rintro ⟨call, calls, _⟩
      have lengths := congrArg List.length calls
      simp [suppress, count] at lengths
    · rintro ⟨_, new⟩
      exact absurd duplicate new
  · rw [forwarded, (forward_fields ledger _ share worker minerId now).2.1]
    constructor
    · rintro ⟨call, calls, _, waiting⟩
      have same := List.append_cancel_left calls
      cases same
      refine ⟨?_, new⟩
      cases throws : preflightThrows share with
      | false => rfl
      | true => simp [throws] at waiting
    · rintro ⟨passes, _⟩
      exact ⟨_, rfl, rfl, by simp [passes]⟩

/-- A candidate is no duplicate a window after every call for its hash. -/
theorem Backed.not_duplicate {config : LedgerConfig} {ledger : Ledger} (backed : Backed ledger)
    {key : Text} {now : Instant}
    (old : ∀ call ∈ ledger.calls, call.key = key → Apart config call.calledAt.ms now.ms) :
    ¬Duplicate config ledger key now := by
  rintro ⟨prev, entry, young⟩
  obtain ⟨call, member, stamp⟩ := List.mem_map.mp (backed key prev entry)
  obtain ⟨same, calledAt⟩ := Prod.mk.inj stamp
  exact apart_iff_not_suppresses.mp (calledAt ▸ old call member same) young

/-- Patience is enough. -/
theorem asksAgain_of_patient_ledger {config : LedgerConfig} {loaded : Ledger} (fresh : Fresh loaded)
    {events : List LedgerEvent}
    (patient : Throughout (next config) (Patient config) loaded events) :
    Throughout (next config) (AsksAgain config) loaded events := by
  refine (throughout_of_forall (fun _ _ => trivial) loaded events).mono Backed
    (fun backed (_ : True) step => backed.next step) ?_ fresh.backed patient
  intro ledger event backed _ patient
  cases event with
  | candidate share worker minerId now =>
      intro threw
      rcases patient threw with ⟨passes, old⟩
      exact asks_iff.mpr ⟨passes, backed.not_duplicate old⟩
  | _ => trivial

/-- While the clock does not go back, patience is needed. -/
theorem patient_of_asksAgain {config : LedgerConfig} {loaded : Ledger} (fresh : Fresh loaded)
    {events : List LedgerEvent} (forward : Throughout (next config) Forward loaded events)
    (asksAgain : Throughout (next config) (AsksAgain config) loaded events) :
    Throughout (next config) (Patient config) loaded events := by
  refine forward.mono (Guarded config)
    (fun guarded forward step => guarded.next forward step) ?_ fresh.guarded asksAgain
  intro ledger event guarded forward asksAgain
  cases event with
  | candidate share worker minerId now =>
      intro threw
      rcases asks_iff.mp (asksAgain threw) with ⟨passes, new⟩
      exact ⟨passes, fun call member same =>
        guarded.apart (forward now rfl) new (List.mem_map_of_mem member) same⟩
  | _ => trivial

/-! ## The first block -/

theorem Fresh.not_duplicate {loaded : Ledger} (fresh : Fresh loaded) (config : LedgerConfig)
    (key : Text) (now : Instant) : ¬Duplicate config loaded key now := by
  rintro ⟨prev, entry, _⟩
  rw [fresh.recent] at entry
  contradiction

/-- The first candidate is forwarded. -/
theorem Fresh.candidate_eq {loaded : Ledger} (fresh : Fresh loaded) (config : LedgerConfig)
    (share : AcceptedShare) (worker : WorkerLabel) (minerId : Nat) (now : Instant) :
    loaded.candidate config share worker minerId now =
      (loaded.count (normalizeBlockKey share.hash) now).forward (normalizeBlockKey share.hash)
        share worker minerId now := by
  rcases Ledger.candidate_eq config loaded share worker minerId now with
    ⟨duplicate, _⟩ | ⟨_, forwarded⟩
  · exact absurd duplicate (fresh.not_duplicate config _ now)
  · exact forwarded

/-- Its call is the first one. -/
theorem Fresh.calls_candidate {loaded : Ledger} (fresh : Fresh loaded) (config : LedgerConfig)
    {share : AcceptedShare} (passes : preflightThrows share = false) (worker : WorkerLabel)
    (minerId : Nat) (now : Instant) :
    (loaded.candidate config share worker minerId now).calls =
      [⟨normalizeBlockKey share.hash, now, share, worker, minerId, .pending, false⟩] := by
  rw [fresh.candidate_eq, (forward_fields loaded _ share worker minerId now).2.1, fresh.calls,
    passes]
  rfl

/-- The node answers the first call. -/
theorem Fresh.next_verdict {loaded : Ledger} (fresh : Fresh loaded) (config : LedgerConfig)
    {share : AcceptedShare} (passes : preflightThrows share = false) (worker : WorkerLabel)
    (minerId : Nat) (now : Instant) (reply : Except String Value) (around : Surroundings)
    (later : Instant) :
    next config (loaded.candidate config share worker minerId now)
        (.verdict 0 reply around later) =
      some ((loaded.candidate config share worker minerId now).verdict config 0
        ⟨normalizeBlockKey share.hash, now, share, worker, minerId, .pending, false⟩ reply around
        later) := by
  simp only [next, fresh.calls_candidate config passes worker minerId now, List.getElem?_cons_zero,
    if_true]

/-- A call that failed stays the only one, whatever the cleanup removes. -/
theorem Fresh.run_failed {loaded : Ledger} (fresh : Fresh loaded) (config : LedgerConfig)
    {share : AcceptedShare} (passes : preflightThrows share = false) (worker : WorkerLabel)
    (minerId : Nat) (now : Instant) (message : String) (around : Surroundings)
    (later pruned : Instant) :
    ∃ ledger, run (next config) loaded [.candidate share worker minerId now,
        .verdict 0 (.error message) around later, .cleanup pruned] = some ledger ∧
      ledger.calls = [⟨normalizeBlockKey share.hash, now, share, worker, minerId, .threw, false⟩] ∧
      Backed ledger := by
  let called := loaded.candidate config share worker minerId now
  let call : BlockCall :=
    ⟨normalizeBlockKey share.hash, now, share, worker, minerId, .pending, false⟩
  let failed := called.verdict config 0 call (.error message) around later
  have first : next config loaded (.candidate share worker minerId now) = some called := rfl
  have failure : next config called (.verdict 0 (.error message) around later) = some failed :=
    fresh.next_verdict config passes worker minerId now _ around later
  have cleanup : next config failed (.cleanup pruned) = some (failed.cleanup config pruned) := rfl
  have calls : failed.calls = called.calls.set 0 { call with verdict := .threw } := rfl
  rw [fresh.calls_candidate config passes worker minerId now] at calls
  refine ⟨failed.cleanup config pruned, ?_, calls, ?_⟩
  · rw [run_cons, first, Option.bind_some, run_cons, failure, Option.bind_some, run_cons, cleanup,
      Option.bind_some, run_nil]
  · exact ((fresh.backed.next first).next failure).next cleanup

/-- A call that failed within the window is not made again. -/
theorem Fresh.not_asksAgain {loaded : Ledger} (fresh : Fresh loaded) {config : LedgerConfig}
    {share : AcceptedShare} (passes : preflightThrows share = false) (worker : WorkerLabel)
    (minerId : Nat) {now : Instant} (young : Suppresses config now now) (message : String)
    (around : Surroundings) (laterWorker : WorkerLabel) (laterId : Nat) :
    ¬AsksAgain config ((loaded.candidate config share worker minerId now).verdict config 0
        ⟨normalizeBlockKey share.hash, now, share, worker, minerId, .pending, false⟩
        (.error message) around now) (.candidate share laterWorker laterId now) := by
  intro asksAgain
  have calls := fresh.calls_candidate config passes worker minerId now
  refine (asks_iff.mp (asksAgain ?_)).2 ⟨now, ?_, young⟩
  · intro call member _
    change call ∈ (loaded.candidate config share worker minerId now).calls.set 0 _ at member
    rw [calls] at member
    rw [List.mem_singleton.mp member]
  · change (loaded.candidate config share worker minerId now).recentBlockSubmissions.get? _ = _
    rw [fresh.candidate_eq, (forward_fields loaded _ share worker minerId now).1,
      OrderedMap.get?_set_self]

end Ledger

end ZcashSoloPool.Pool
