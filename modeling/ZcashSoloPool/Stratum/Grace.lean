import ZcashSoloPool.Stratum.Vardiff
import ZcashSoloPool.WorkManager.LowDiff
import ZcashSoloPool.WorkManager.BlockSearch

/-!
# The grace after an increase

A client keeps one target besides its own, that of the difficulty before the
last increase, for 30 seconds.  So a share that is accepted met a target of
the last 30 seconds; the other way round holds only as long as the one target
that is kept is the easiest of them.
-/

namespace ZcashSoloPool.Stratum

open ZcashSoloPool.Bytes
open ZcashSoloPool.JavaScript
open ZcashSoloPool.Transition
open ZcashSoloPool.WorkManager

/-! ## The kept target -/

/-- The client had the target at some moment of the last 30 seconds. -/
def WasInForce (config : ShareConfig) (clientId connectedAt : Nat) (events : List MinerEvent)
    (now : Nat) (target : Text) : Prop :=
  HeldWithin (Miner.react config) MinerEvent.reading (fun miner => miner.client.shareTarget) 30000
    now (.connected config clientId connectedAt) events (some target)

/-- The target was the client's own until a reading 30 seconds before it
expires. -/
def Kept (config : ShareConfig) (clientId connectedAt : Nat) (events : List MinerEvent)
    (target : Text) : Prop :=
  ∃ first later set, events = first ++ later ∧
    (Miner.after config clientId connectedAt first).client.shareTarget = some target ∧
    (Miner.after config clientId connectedAt events).client.previousTargetExpiresAt =
      set + 30000 ∧
    set ∈ later.filterMap MinerEvent.reading ∧
    ∀ time ∈ later.filterMap MinerEvent.reading, set ≤ time

namespace Miner

variable {config : ShareConfig} {clientId connectedAt : Nat} {events : List MinerEvent} {now : Nat}

/-- The target that a client keeps was its own when the grace began. -/
theorem kept_of_previous (inOrder : Chronological MinerEvent.reading events now) {target : Text}
    (previous : (after config clientId connectedAt events).client.previousShareTarget =
      some target) :
    Kept config clientId connectedAt events target := by
  induction events using List.reverseRecOn with
  | nil => contradiction
  | append_singleton events event ih =>
      have served := served_after config clientId connectedAt events
      rw [after_concat] at previous
      rcases react_cases config (after config clientId connectedAt events) event with
        same | ⟨time, difficulty, proposes, applied⟩
      · rw [same.client] at previous
        obtain ⟨first, later, set, split, held, expires, member, since⟩ :=
          ih inOrder.of_append previous
        refine ⟨first, later ++ [event], set, ?_, held, ?_, ?_, ?_⟩
        · rw [split, List.append_assoc]
        · rw [after_concat, same.client]
          exact expires
        · rw [List.filterMap_append]
          exact List.mem_append_left _ member
        · intro time timeMember
          rw [List.filterMap_append, List.mem_append] at timeMember
          rcases timeMember with earlier | last
          · exact since time earlier
          · obtain ⟨other, otherMember, reads⟩ := List.mem_filterMap.mp last
            obtain rfl := List.mem_singleton.mp otherMember
            apply (chronological_iff.mp (inOrder.before reads)).2 set
            rw [split, List.filterMap_append]
            exact List.mem_append_right _ member
      · rw [applied.client] at previous
        have reads : MinerEvent.reading event = some time := proposes.reading
        rcases applyDifficulty_client served difficulty time with
          ⟨_, kept, expires⟩ | ⟨_, cleared, _⟩
        · rw [kept] at previous
          refine ⟨events, [event], time, rfl, previous, ?_, ?_, ?_⟩
          · rw [after_concat, applied.client]
            exact expires
          · rw [List.filterMap_cons_some reads]
            exact List.mem_cons_self
          · intro other member
            rw [List.filterMap_cons_some reads, List.filterMap_nil, List.mem_singleton] at member
            exact Nat.le_of_eq member.symm
        · rw [cleared] at previous
          contradiction

/-- While the grace runs, the kept target is one of the last 30 seconds. -/
theorem wasInForce_of_previous (inOrder : Chronological MinerEvent.reading events now)
    {target : Text}
    (previous : (after config clientId connectedAt events).client.previousShareTarget =
      some target)
    (runs : now < (after config clientId connectedAt events).client.previousTargetExpiresAt) :
    WasInForce config clientId connectedAt events now target := by
  obtain ⟨first, later, set, split, held, expires, _, since⟩ :=
    kept_of_previous inOrder previous
  rw [expires] at runs
  refine ⟨first, later, split, held, ?_⟩
  intro time member
  exact runs.trans_le (Nat.add_le_add_right (since time member) 30000)

/-- The kept target is that of some difficulty. -/
theorem exists_difficulty_of_previous (inOrder : Chronological MinerEvent.reading events now)
    {target : Text}
    (previous : (after config clientId connectedAt events).client.previousShareTarget =
      some target) :
    ∃ difficulty, target = targetForDifficulty config.baseTargetBI difficulty := by
  obtain ⟨first, later, set, _, held, _⟩ := kept_of_previous inOrder previous
  have served := served_after config clientId connectedAt first
  exact ⟨_, Option.some.inj (held.symm.trans served.target)⟩

/-- The client's own target is in force. -/
theorem wasInForce_own :
    WasInForce config clientId connectedAt events now (targetForDifficulty config.baseTargetBI
      (after config clientId connectedAt events).currentDifficulty) := by
  have served := served_after config clientId connectedAt events
  rw [WasInForce, ← served.target]
  exact heldWithin_now 30000 now (connected config clientId connectedAt) events

end Miner

/-- The grace as a number, where the kept target is that of a difficulty. -/
theorem graceTarget_eq {client : Client} {baseTargetBI : Nat} {difficulty : ℚ}
    (kept : client.previousShareTarget = some (targetForDifficulty baseTargetBI difficulty))
    (poolTargetBI now : Nat) :
    graceTarget client poolTargetBI now =
      if now < client.previousTargetExpiresAt ∧
          poolTargetBI < targetNumber baseTargetBI difficulty then
        some (targetNumber baseTargetBI difficulty)
      else none := by
  have lower := isLowerHex_targetForDifficulty baseTargetBI difficulty
  have length := length_targetForDifficulty baseTargetBI difficulty
  have nonempty := targetForDifficulty_ne_nil baseTargetBI difficulty
  rw [graceTarget, kept]
  dsimp only
  rw [normalizeTarget_string lower length, Option.bind_some,
    bigIntOfHex_of_isLowerHex lower nonempty, hexNumber_targetForDifficulty,
    List.isEmpty_eq_false_iff.mpr nonempty, Bool.not_false, Bool.true_and]
  by_cases runs : now < client.previousTargetExpiresAt
  · by_cases easier : poolTargetBI < targetNumber baseTargetBI difficulty
    · simp [runs, easier]
    · simp [runs, easier, Option.filter]
  · simp [runs]

/-! ## Accepted shares -/

/-- A hit that is no block is within the target of the client or within the
grace. -/
theorem le_of_meetsTarget {ctx : ShareContext} {hash : Nat} (meets : meetsTarget ctx hash = true)
    (missed : ¬hash ≤ ctx.netTargetBI) :
    hash ≤ ctx.poolTargetBI ∨ ∃ grace, ctx.graceTargetBI = some grace ∧ hash ≤ grace := by
  rw [meetsTarget, decide_eq_false missed, Bool.or_false, Bool.or_eq_true] at meets
  rcases meets with own | grace
  · exact Or.inl (of_decide_eq_true own)
  · obtain ⟨target, isGrace, within⟩ := (Option.any_eq_true _ _).mp grace
    exact Or.inr ⟨target, isGrace, of_decide_eq_true within⟩

/-- A hit that is no block needs no block text. -/
theorem exists_acceptShare_of_noBlock (deps : Externals) {ctx : ShareContext}
    {candidate : Candidate} (missed : ¬candidate.hashValue deps ≤ ctx.netTargetBI) :
    ∃ share, acceptShare deps ctx candidate.headerBuf candidate.solution.solutionFieldHex =
      .ok (.valid share) ∧ share.isBlock = false := by
  have noBlock : decide (candidate.hashValue deps ≤ ctx.netTargetBI) = false :=
    decide_eq_false missed
  have noText : blockText ctx.job (decide (candidate.hashValue deps ≤ ctx.netTargetBI))
      (toHex candidate.headerBuf) candidate.solution.solutionFieldHex = .ok none := by
    rw [noBlock]
    rfl
  exact ⟨_, bind_eq_ok.mpr ⟨none, noText, rfl⟩, noBlock⟩

/-- The checks compare the shares of a client with its own target. -/
theorem poolTargetBI_eq {manager : WorkManager} {submission : Submission} {now : Nat}
    {ctx : ShareContext} (prepared : Prepared manager submission now ctx) {config : ShareConfig}
    {miner : Miner} (served : miner.Served config) (ofClient : submission.client = miner.client) :
    ctx.poolTargetBI = targetNumber config.baseTargetBI miner.currentDifficulty := by
  have poolTarget := prepared.poolTarget
  rw [ofClient, bigIntOfHex_clientTargetHex served.target] at poolTarget
  exact (Option.some.inj poolTarget).symm

/-- A share that is accepted and is no block met a target that the client had at
some moment of the last 30 seconds. -/
theorem exists_wasInForce_of_accepted (deps : Externals) (manager : WorkManager)
    (config : ShareConfig) (clientId connectedAt : Nat) (events : List MinerEvent) (now : Nat)
    (inOrder : Chronological MinerEvent.reading events now) (submission : Submission)
    (ofClient : submission.client = (Miner.after config clientId connectedAt events).client)
    (share : AcceptedShare)
    (accepted : validateShare deps manager submission now = .ok (.valid share))
    (noBlock : share.isBlock = false) :
    ∃ target, WasInForce config clientId connectedAt events now target ∧
      hexNumber share.hash ≤ hexNumber target := by
  let miner := Miner.after config clientId connectedAt events
  have served : miner.Served config := Miner.served_after config clientId connectedAt events
  obtain ⟨ctx, prepared, candidate, firstHit, reported⟩ := validateShare_eq_valid_iff.mp accepted
  obtain ⟨hashed, hash, isBlock, _⟩ := acceptShare_eq_valid reported
  have meets := firstHit.isHit.meets
  have hashValue : candidate.hashValue deps = hexNumber share.hash := by
    rw [hash, hashed]
    rfl
  rw [hashValue] at meets
  have missed : ¬hexNumber share.hash ≤ ctx.netTargetBI := by
    rw [isBlock] at noBlock
    exact of_decide_eq_false noBlock
  rcases le_of_meetsTarget meets missed with within | ⟨grace, isGrace, within⟩
  · rw [poolTargetBI_eq prepared served ofClient, ← hexNumber_targetForDifficulty] at within
    exact ⟨_, Miner.wasInForce_own, within⟩
  · rw [prepared.graceTarget, ofClient] at isGrace
    cases previous : miner.client.previousShareTarget with
    | none =>
        rw [graceTarget, previous] at isGrace
        contradiction
    | some target =>
        obtain ⟨difficulty, rfl⟩ := Miner.exists_difficulty_of_previous inOrder previous
        rw [graceTarget_eq previous] at isGrace
        split at isGrace
        · next runs =>
            cases isGrace
            rw [← hexNumber_targetForDifficulty] at within
            exact ⟨_, Miner.wasInForce_of_previous inOrder previous runs.1, within⟩
        · contradiction

/-! ## A share within the grace -/

/-- The client asks for a higher difficulty. -/
def raisedOnce : List MinerEvent :=
  [.suggestDifficulty (some (2 ^ 20)) 1]

/-- The client asks once more. -/
def raisedTwice : List MinerEvent :=
  raisedOnce ++ [.suggestDifficulty (some (2 ^ 21)) 2]

/-- The targets of the client after an increase at some time. -/
def raisedClient (before after : ℚ) (now : Nat) : Client :=
  ⟨extranonce1 1, some (targetForDifficulty maxTarget after),
    some (targetForDifficulty maxTarget before), now + 30000⟩

theorem clients_raised :
    (Miner.after vardiffExample 1 0 []).client.shareTarget =
        some (targetForDifficulty maxTarget 1) ∧
      (Miner.after vardiffExample 1 0 []).client.previousShareTarget = none ∧
      (Miner.after vardiffExample 1 0 raisedOnce).client = raisedClient 1 (2 ^ 20) 1 ∧
      (Miner.after vardiffExample 1 0 raisedTwice).client = raisedClient (2 ^ 20) (2 ^ 21) 2 := by
  decide +kernel

theorem targetNumber_one : targetNumber maxTarget 1 = hexNumber easiestTarget ∧
    1 < targetNumber maxTarget (2 ^ 20) ∧
    targetNumber maxTarget (2 ^ 20) < targetNumber maxTarget 1 := by
  decide +kernel

/-- A job whose bits read the same in both orders, and hardly any share is a
block. -/
def plainJob : Job :=
  { jobExample ['1'] with nbits := .string "1f00001f".toList }

/-- The work manager with that job. -/
def plainManager : WorkManager :=
  issueJob { WorkManager.initial walletExample easiestTarget with jobCounter := 1 } plainJob

/-- The nonce zero with zero bytes for a solution. -/
def plainSubmission (client : Client) : Submission where
  client := client
  jobId := some (hexText 1)
  nTime := some (List.replicate 8 '0')
  nonce := some (List.replicate 64 '0')
  solution := some (toHex (consensusField zeroSolution))

/-- What the checks make of it. -/
def plainContext (poolTargetBI : Nat) (graceTargetBI : Option Nat) : ShareContext where
  job := plainJob
  headerNonces := [List.replicate 64 '0']
  nTimeHeaderCandidates := [List.replicate 8 '0']
  bitsHeaderCandidates := ["1f00001f".toList]
  parsedSolutions := [⟨toHex (consensusField zeroSolution), zeroSolution⟩]
  netTargetBI := 1
  poolTargetBI := poolTargetBI
  graceTargetBI := graceTargetBI

theorem parseSolutions_consensusField :
    parseSolutions (normalizeSolutionFields (toHex (consensusField zeroSolution))) =
      [⟨toHex (consensusField zeroSolution), zeroSolution⟩] := by
  decide +kernel

theorem bitsCandidates_plainJob :
    ["1f00001f".toList] = normalizeCompactBitsCandidates plainJob.nbits := by
  have read : normalizeCompactBitsCandidates (.string "1f00001f".toList) = ["1f00001f".toList] :=
    rfl
  rw [plainJob, read]

theorem timeCandidates_plainJob :
    normalizeHeaderTimeCandidates (List.replicate 8 '0') plainJob = [List.replicate 8 '0'] := by
  have same : ∀ (job : Job) (nbits : Value) (time : Text),
      normalizeHeaderTimeCandidates time { job with nbits := nbits } =
        normalizeHeaderTimeCandidates time job := by
    intro job nbits time
    rfl
  rw [plainJob, same]
  exact timeCandidates_jobExample ['1']

theorem prepared_plainContext {client : Client} {difficulty : ℚ} (now : Nat)
    (target : client.shareTarget = some (targetForDifficulty maxTarget difficulty)) :
    Prepared plainManager (plainSubmission client) now
      (plainContext (targetNumber maxTarget difficulty)
        (graceTarget client (targetNumber maxTarget difficulty) now)) where
  job := by
    have fresh : (WorkManager.initial walletExample easiestTarget).jobs.get? plainJob.jobId =
        none := rfl
    exact get?_issueJob_self fresh
  current := by
    change decide (plainJob.height ≠ plainJob.height) = false
    simp
  nTime := by
    have normalized : normalizeNTime (some (List.replicate 8 '0')) =
        some (List.replicate 8 '0') := by
      decide
    exact ⟨List.replicate 8 '0', normalized, timeCandidates_plainJob.symm⟩
  nonce := by
    have normalized : normalizeHexField (.ofText? (some (List.replicate 64 '0'))) true 128 =
        some (List.replicate 64 '0') := by
      decide
    exact ⟨List.replicate 64 '0', normalized, rfl⟩
  bits := bitsCandidates_plainJob
  solution := by
    have length : (toHex (consensusField zeroSolution)).length = 2694 := by
      rw [length_toHex, consensusField, List.length_append, zeroSolution, List.length_replicate]
      rfl
    refine ⟨_, ?_, parseSolutions_consensusField.symm⟩
    exact normalizeHexField_string (isHexBytes_toHex _)
      (List.ne_nil_of_length_pos (by omega)) false 60000 (Or.inr (by omega))
  netTarget := rfl
  poolTarget := bigIntOfHex_clientTargetHex target
  graceTarget := rfl
  someNonce := List.cons_ne_nil _ _
  someTime := List.cons_ne_nil _ _
  someBits := List.cons_ne_nil _ _
  someSolution := List.cons_ne_nil _ _

/-- The only candidate. -/
def plainCandidate : Candidate where
  headerBuf := (plainContext 0 none).header (List.replicate 64 '0') (List.replicate 8 '0')
    "1f00001f".toList
  solution := ⟨toHex (consensusField zeroSolution), zeroSolution⟩

theorem graceTargetBI_plainContext (poolTargetBI : Nat) (graceTargetBI : Option Nat) :
    (plainContext poolTargetBI graceTargetBI).graceTargetBI = graceTargetBI :=
  rfl

theorem mem_plainContext_iff {poolTargetBI : Nat} {graceTargetBI : Option Nat}
    {candidate : Candidate} :
    candidate ∈ (plainContext poolTargetBI graceTargetBI).candidates ↔
      candidate = plainCandidate :=
  List.mem_singleton

theorem verified_plainCandidate : plainCandidate.Verified packagesExample := by
  have own : (raisedClient 1 1 0).shareTarget = some (targetForDifficulty maxTarget 1) := rfl
  have prepared := prepared_plainContext 0 own
  exact verified_zeroSolution (prepared.wellShaped.length_header (List.mem_singleton_self _)
    (List.mem_singleton_self _) (List.mem_singleton_self _))

/-- Its hash meets the first difficulty only. -/
theorem meets_plainCandidate : plainCandidate.hashValue packagesExample ≤
    hexNumber (targetForDifficulty maxTarget 1) := by
  rw [hexNumber_targetForDifficulty, targetNumber_one.1]
  exact hexNumber_hashText_le packagesExample _

theorem misses_plainCandidate :
    targetNumber maxTarget (2 ^ 20) < plainCandidate.hashValue packagesExample := by
  decide +kernel

theorem noBlock_plainCandidate (poolTargetBI : Nat) (graceTargetBI : Option Nat) :
    ¬plainCandidate.hashValue packagesExample ≤
      (plainContext poolTargetBI graceTargetBI).netTargetBI := by
  rw [show (plainContext poolTargetBI graceTargetBI).netTargetBI = 1 from rfl]
  exact not_le_of_gt (targetNumber_one.2.1.trans misses_plainCandidate)

/-- The grace of the client accepts the candidate. -/
theorem isHit_plainCandidate : plainCandidate.IsHit packagesExample
    (plainContext (targetNumber maxTarget (2 ^ 20))
      (graceTarget (raisedClient 1 (2 ^ 20) 1) (targetNumber maxTarget (2 ^ 20)) 2)) := by
  have kept : (raisedClient 1 (2 ^ 20) 1).previousShareTarget =
      some (targetForDifficulty maxTarget 1) := rfl
  have runs : 2 < (raisedClient 1 (2 ^ 20) 1).previousTargetExpiresAt := Nat.le_add_left 3 29998
  have meets := meets_plainCandidate
  rw [hexNumber_targetForDifficulty] at meets
  refine ⟨verified_plainCandidate, ?_⟩
  rw [graceTarget_eq kept, if_pos ⟨runs, targetNumber_one.2.2⟩, meetsTarget, plainContext,
    Option.any_some, Bool.or_eq_true]
  exact Or.inr (decide_eq_true meets)

/-- A share of the first difficulty is accepted after the increase. -/
theorem exists_wasInForce_of_accepted_raisedOnce :
    ∃ share, validateShare packagesExample plainManager
        (plainSubmission (raisedClient 1 (2 ^ 20) 1)) 2 = .ok (.valid share) ∧
      share.isBlock = false ∧
      ∃ target, WasInForce vardiffExample 1 0 raisedOnce 2 target ∧
        hexNumber share.hash ≤ hexNumber target := by
  have own : (raisedClient 1 (2 ^ 20) 1).shareTarget =
      some (targetForDifficulty maxTarget (2 ^ 20)) := rfl
  have prepared := prepared_plainContext 2 own
  obtain ⟨first, firstHit⟩ := exists_firstHit (mem_plainContext_iff.mpr rfl) isHit_plainCandidate
  obtain rfl := mem_plainContext_iff.mp firstHit.mem
  obtain ⟨share, reported, noBlock⟩ :=
    exists_acceptShare_of_noBlock packagesExample (noBlock_plainCandidate _ _)
  have accepted := (validateShare_of_firstHit prepared firstHit).trans reported
  exact ⟨share, accepted, noBlock, exists_wasInForce_of_accepted packagesExample _ vardiffExample
    1 0 raisedOnce 2 (by decide) _ clients_raised.2.2.1.symm share accepted noBlock⟩

/-! ## Shares in flight -/

/-- A hash that meets the target is a hit: the client's own target or the one
that it keeps is as easy. -/
def Covered (config : ShareConfig) (miner : Miner) (now : Nat) (target : Text) : Prop :=
  hexNumber target ≤ targetNumber config.baseTargetBI miner.currentDifficulty ∨
    ∃ previous, miner.client.previousShareTarget = some previous ∧
      now < miner.client.previousTargetExpiresAt ∧ hexNumber target ≤ hexNumber previous

/-- Where a difficulty is applied while the grace runs, the kept target is not
easier than the targets before and after. -/
def KeepsEasiest (config : ShareConfig) (miner : Miner) (event : MinerEvent) : Prop :=
  ∀ now difficulty, Miner.Proposes config miner event now difficulty →
    now < miner.client.previousTargetExpiresAt →
      ∀ previous, miner.client.previousShareTarget = some previous →
        hexNumber previous ≤ targetNumber config.baseTargetBI
          (min (clampDifficulty config.vardiff difficulty) miner.currentDifficulty)

theorem covered_own {config : ShareConfig} {miner : Miner} (served : miner.Served config)
    {target : Text} (own : miner.client.shareTarget = some target) (now : Nat) :
    Covered config miner now target := by
  rw [served.target] at own
  cases own
  exact Or.inl (hexNumber_targetForDifficulty _ _).le

theorem Covered.of_same {config : ShareConfig} {miner other : Miner} {now : Nat} {target : Text}
    (covered : Covered config miner now target) (same : Miner.SameTargets miner other) :
    Covered config other now target := by
  rw [Covered, same.difficulty, same.client]
  exact covered

/-- What is covered when a difficulty is applied stays covered, if the kept
target is not the easiest. -/
theorem Covered.applyDifficulty {config : ShareConfig} {miner : Miner} {difficulty : ℚ}
    {time now : Nat} {target : Text} (covered : Covered config miner time target)
    (served : miner.Served config) (within : now < time + 30000)
    (keeps : time < miner.client.previousTargetExpiresAt →
      ∀ previous, miner.client.previousShareTarget = some previous →
        hexNumber previous ≤ targetNumber config.baseTargetBI
          (min (clampDifficulty config.vardiff difficulty) miner.currentDifficulty)) :
    Covered config (miner.applyDifficulty config difficulty time) now target := by
  have easier : hexNumber target ≤ targetNumber config.baseTargetBI
      (min (clampDifficulty config.vardiff difficulty) miner.currentDifficulty) := by
    rcases covered with own | ⟨previous, isPrevious, runs, below⟩
    · exact own.trans (targetNumber_anti _ (min_le_right _ _))
    · exact below.trans (keeps runs previous isPrevious)
  have applied : (miner.applyDifficulty config difficulty time).currentDifficulty =
      clampDifficulty config.vardiff difficulty := rfl
  rw [← applied] at easier
  rcases Miner.applyDifficulty_client served difficulty time with
    ⟨increases, kept, expires⟩ | ⟨decreases, _, _⟩
  · right
    rw [min_eq_right increases.le, ← hexNumber_targetForDifficulty] at easier
    refine ⟨_, kept.trans served.target, ?_, easier⟩
    rw [expires]
    exact within
  · left
    rw [min_eq_left decreases] at easier
    exact easier

/-- In a run that keeps the easiest target, every target of the last 30 seconds
is covered. -/
theorem covered_of_wasInForce {config : ShareConfig} {clientId connectedAt : Nat}
    {events : List MinerEvent}
    (keeps : Throughout (total (Miner.react config)) (KeepsEasiest config)
      (.connected config clientId connectedAt) events)
    {now : Nat} (inOrder : Chronological MinerEvent.reading events now) {target : Text}
    (wasInForce : WasInForce config clientId connectedAt events now target) :
    Covered config (Miner.after config clientId connectedAt events) now target := by
  induction events using List.reverseRecOn generalizing now with
  | nil =>
      obtain ⟨first, later, split, held, _⟩ := wasInForce
      obtain ⟨rfl, rfl⟩ := List.append_eq_nil_iff.mp split.symm
      exact covered_own (Miner.served_after config clientId connectedAt []) held now
  | append_singleton events event ih =>
      have served := Miner.served_after config clientId connectedAt events
      rcases heldWithin_concat.mp wasInForce with own | ⟨earlier, recent⟩
      · have servedNow := Miner.served_after config clientId connectedAt (events ++ [event])
        exact covered_own servedNow own now
      · obtain ⟨keepsBefore, keepsLast⟩ := throughout_append.mp keeps
        have keepsEvent := (keepsLast _ (run_total _ _ _)).1
        rw [Miner.after_concat]
        rcases Miner.react_cases config (Miner.after config clientId connectedAt events) event with
          same | ⟨time, difficulty, proposes, applied⟩
        · exact (ih keepsBefore inOrder.of_append earlier).of_same same
        · have reads := proposes.reading
          have timeNow : time ≤ now :=
            inOrder.le_of_mem reads now (List.mem_append_right _ (List.mem_singleton_self now))
          have wasThen : WasInForce config clientId connectedAt events time target :=
            earlier.mono (Nat.add_le_add_right timeNow 30000)
          have before := ih keepsBefore (inOrder.before reads) wasThen
          have applies := before.applyDifficulty served (recent time reads)
            (keepsEvent time difficulty proposes)
          exact applies.of_same applied

/-- A hash that meets a covered target is a hit. -/
theorem Covered.meetsTarget {config : ShareConfig} {clientId connectedAt : Nat}
    {events : List MinerEvent} {now : Nat} {target : Text}
    (covered : Covered config (Miner.after config clientId connectedAt events) now target)
    (inOrder : Chronological MinerEvent.reading events now) {manager : WorkManager}
    {submission : Submission}
    (ofClient : submission.client = (Miner.after config clientId connectedAt events).client)
    {ctx : ShareContext} (prepared : Prepared manager submission now ctx) {hash : Nat}
    (meets : hash ≤ hexNumber target) : meetsTarget ctx hash = true := by
  let miner := Miner.after config clientId connectedAt events
  have served : miner.Served config := Miner.served_after config clientId connectedAt events
  have own := poolTargetBI_eq prepared served ofClient
  rw [WorkManager.meetsTarget, Bool.or_eq_true, Bool.or_eq_true, decide_eq_true_iff,
    decide_eq_true_iff]
  by_cases direct : hash ≤ ctx.poolTargetBI
  · exact Or.inl (Or.inl direct)
  · right
    rcases covered with easier | ⟨previous, isPrevious, runs, below⟩
    · rw [own] at direct
      exact absurd (meets.trans easier) direct
    · obtain ⟨difficulty, rfl⟩ := Miner.exists_difficulty_of_previous inOrder isPrevious
      rw [hexNumber_targetForDifficulty] at below
      have within := meets.trans below
      have easier := (not_le.mp direct).trans_le within
      rw [prepared.graceTarget, ofClient, graceTarget_eq isPrevious, if_pos ⟨runs, easier⟩]
      exact decide_eq_true within

/-- In a run that keeps the easiest target, a share that meets a target of the
last 30 seconds is not rejected for its difficulty. -/
theorem ne_lowDiff_of_wasInForce (deps : Externals) (manager : WorkManager) (config : ShareConfig)
    (clientId connectedAt : Nat) (events : List MinerEvent)
    (keeps : Throughout (total (Miner.react config)) (KeepsEasiest config)
      (.connected config clientId connectedAt) events)
    (now : Nat) (inOrder : Chronological MinerEvent.reading events now) (submission : Submission)
    (ofClient : submission.client = (Miner.after config clientId connectedAt events).client)
    (ctx : ShareContext) (ready : prepare manager submission now = .ok ctx) (candidate : Candidate)
    (member : candidate ∈ ctx.candidates) (verified : candidate.Verified deps) (target : Text)
    (wasInForce : WasInForce config clientId connectedAt events now target)
    (meets : candidate.hashValue deps ≤ hexNumber target) :
    validateShare deps manager submission now ≠ .ok (.invalid "Low Diff") := by
  have prepared := prepare_eq_ok_iff.mp ready
  have covered := covered_of_wasInForce keeps inOrder wasInForce
  have isHit : candidate.IsHit deps ctx :=
    ⟨verified, covered.meetsTarget inOrder ofClient prepared meets⟩
  exact validateShare_ne_invalid prepared member isHit "Low Diff"

/-! ## Several changes within the grace -/

/-- The client asks for the first difficulty again, and then for a higher one
than before. -/
def raisedAgain : List MinerEvent :=
  raisedOnce ++ [.suggestDifficulty (some 1) 2, .suggestDifficulty (some (2 ^ 21)) 3]

theorem clients_raisedAgain :
    (Miner.after vardiffExample 1 0 (raisedOnce ++
        [.suggestDifficulty (some 1) 2])).client.previousShareTarget = none ∧
      (Miner.after vardiffExample 1 0 raisedAgain).client = raisedClient 1 (2 ^ 21) 3 := by
  decide +kernel

/-- The decrease forgets a target no easier than its own, and the second increase
replaces none. -/
theorem keepsEasiest_raisedAgain : Throughout (total (Miner.react vardiffExample))
    (KeepsEasiest vardiffExample) (.connected vardiffExample 1 0) raisedAgain := by
  refine ⟨?_, fun first step => ⟨?_, fun second step' => ⟨?_, fun _ _ => trivial⟩⟩⟩
  · intro now difficulty proposes runs previous isPrevious
    have none : (Miner.connected vardiffExample 1 0).client.previousShareTarget = none :=
      clients_raised.2.1
    rw [none] at isPrevious
    contradiction
  · intro now difficulty proposes runs previous isPrevious
    have client : first.client = raisedClient 1 (2 ^ 20) 1 := by
      cases step
      exact clients_raised.2.2.1
    rw [client] at isPrevious
    cases isPrevious
    rw [hexNumber_targetForDifficulty]
    refine targetNumber_anti maxTarget ((min_le_left _ _).trans ?_)
    cases proposes with
    | suggested positive =>
        cases positive
        decide +kernel
  · intro now difficulty proposes runs previous isPrevious
    have none : second.client.previousShareTarget = none := by
      cases step
      cases step'
      exact clients_raisedAgain.1
    rw [none] at isPrevious
    contradiction

theorem wasInForce_raisedAgain :
    WasInForce vardiffExample 1 0 raisedAgain 4 (targetForDifficulty maxTarget 1) :=
  ⟨[], raisedAgain, rfl, clients_raised.1, by decide⟩

/-- A share of the first difficulty is not rejected after these changes. -/
theorem ne_lowDiff_raisedAgain :
    validateShare packagesExample plainManager (plainSubmission (raisedClient 1 (2 ^ 21) 3)) 4 ≠
      .ok (.invalid "Low Diff") := by
  have own : (raisedClient 1 (2 ^ 21) 3).shareTarget =
      some (targetForDifficulty maxTarget (2 ^ 21)) := rfl
  have prepared := prepared_plainContext 4 own
  exact ne_lowDiff_of_wasInForce packagesExample _ vardiffExample 1 0 raisedAgain
    keepsEasiest_raisedAgain 4 (by decide) _ clients_raisedAgain.2.symm _
    (prepare_eq_ok_iff.mpr prepared) plainCandidate (mem_plainContext_iff.mpr rfl)
    verified_plainCandidate _ wasInForce_raisedAgain meets_plainCandidate

theorem wasInForce_raisedTwice :
    WasInForce vardiffExample 1 0 raisedTwice 3 (targetForDifficulty maxTarget 1) :=
  ⟨[], raisedTwice, rfl, clients_raised.1, by decide⟩

/-- Neither the target of the second difficulty nor that of the first increase
accepts the candidate. -/
theorem misses_raisedTwice : ¬plainCandidate.IsHit packagesExample
    (plainContext (targetNumber maxTarget (2 ^ 21))
      (graceTarget (raisedClient (2 ^ 20) (2 ^ 21) 2) (targetNumber maxTarget (2 ^ 21)) 3)) := by
  have kept : (raisedClient (2 ^ 20) (2 ^ 21) 2).previousShareTarget =
      some (targetForDifficulty maxTarget (2 ^ 20)) := rfl
  have harder : targetNumber maxTarget (2 ^ 21) ≤ targetNumber maxTarget (2 ^ 20) :=
    targetNumber_anti maxTarget (by norm_num)
  have misses := misses_plainCandidate
  intro isHit
  rcases le_of_meetsTarget isHit.meets (noBlock_plainCandidate _ _) with
    below | ⟨grace, isGrace, below⟩
  · exact absurd (le_trans below harder) (not_le_of_gt misses)
  · rw [graceTargetBI_plainContext, graceTarget_eq kept] at isGrace
    split at isGrace
    · rw [← Option.some.inj isGrace] at below
      exact absurd below (not_le_of_gt misses)
    · cases isGrace

theorem lowDiff_raisedTwice :
    validateShare packagesExample plainManager
        (plainSubmission (raisedClient (2 ^ 20) (2 ^ 21) 2)) 3 = .ok (.invalid "Low Diff") := by
  have own : (raisedClient (2 ^ 20) (2 ^ 21) 2).shareTarget =
      some (targetForDifficulty maxTarget (2 ^ 21)) := rfl
  apply validateShare_eq_lowDiff (prepared_plainContext 3 own) ?_ (mem_plainContext_iff.mpr rfl)
    verified_plainCandidate
  intro candidate member
  rw [mem_plainContext_iff.mp member]
  exact misses_raisedTwice

/-- A second increase loses the shares of the first difficulty. -/
theorem not_ne_lowDiff_raisedTwice :
    ¬∀ (deps : Externals) (manager : WorkManager) (config : ShareConfig)
        (clientId connectedAt : Nat) (events : List MinerEvent) (now : Nat),
      Chronological MinerEvent.reading events now → ∀ submission : Submission,
        submission.client = (Miner.after config clientId connectedAt events).client →
          ∀ ctx, prepare manager submission now = .ok ctx → ∀ candidate ∈ ctx.candidates,
            candidate.Verified deps → ∀ target,
              WasInForce config clientId connectedAt events now target →
                candidate.hashValue deps ≤ hexNumber target →
                  validateShare deps manager submission now ≠ .ok (.invalid "Low Diff") := by
  intro survives
  have own : (raisedClient (2 ^ 20) (2 ^ 21) 2).shareTarget =
      some (targetForDifficulty maxTarget (2 ^ 21)) := rfl
  have prepared := prepared_plainContext 3 own
  exact survives packagesExample _ vardiffExample 1 0 raisedTwice 3 (by decide) _
    clients_raised.2.2.2.symm _ (prepare_eq_ok_iff.mpr prepared) plainCandidate
    (mem_plainContext_iff.mpr rfl) verified_plainCandidate _ wasInForce_raisedTwice
    meets_plainCandidate lowDiff_raisedTwice

end ZcashSoloPool.Stratum
