import ZcashSoloPool.Stratum.Miner
import ZcashSoloPool.Transition.Run

/-!
# The block ledger

What the pool does for an accepted share that is a block: it counts the
candidate, looks the hash up among the recent submissions and calls
`submitBlockCandidate`.  Calls wait for the node in any number and order, and
a timer prunes the recent submissions.
-/

namespace ZcashSoloPool.Pool

open ZcashSoloPool.Collections
open ZcashSoloPool.JavaScript
open ZcashSoloPool.Stratum
open ZcashSoloPool.Transition
open ZcashSoloPool.WorkManager (AcceptedShare decimalNumber parsePositiveNumber)

/-- A reading of the clock, in milliseconds since the epoch, which is past. -/
structure Instant where
  ms : Nat
  past : ms ≠ 0
  deriving DecidableEq, Repr

/-- The settings that blocks depend on, and the objects among the node's results
that throw when they are converted to a string. -/
structure LedgerConfig where
  blockSubmitDedupWindowMs : ℚ
  blockReward : Value
  unwritable : Nat → Bool
  nonneg : 0 ≤ blockSubmitDedupWindowMs

/-- What the pool knows of the chain: the difficulty and the height of the
cached network, and the height of the current job. -/
structure Surroundings where
  difficulty : Option ℚ
  blocks : Value
  currentHeight : Value
  deriving DecidableEq, Repr

/-- An entry of `blockHistory`, without the texts and percentages that are only
displayed. -/
structure BlockEntry where
  height : Value
  hash : Text
  difficulty : Option ℚ
  reward : Value
  worker : WorkerLabel
  foundAt : Nat
  submitResult : Text
  deriving DecidableEq, Repr

/-- What became of a call of `submitBlockCandidate`.  A refusal is unwritable if
its result cannot be converted to a string. -/
inductive Verdict where
  | pending
  | accepted
  | refused (result : Value)
  | unwritable
  | threw
  deriving DecidableEq, Repr

/-- A call of `submitBlockCandidate`; after a refusal the block is proposed. -/
structure BlockCall where
  key : Text
  calledAt : Instant
  share : AcceptedShare
  worker : WorkerLabel
  minerId : Nat
  verdict : Verdict
  proposed : Bool
  deriving DecidableEq, Repr

/-- One increase of `blockCandidates` and of the finder's `blocksFound`. -/
structure Found where
  key : Text
  foundAt : Instant
  deriving DecidableEq, Repr

/-- The fields of the pool that blocks change.  The source does not keep the
last five: the calls, the increases of the counters, the accepted calls with
their entries, the number of suppressed duplicates and the last reading of the
clock that concerned the recent submissions. -/
structure Ledger where
  recentBlockSubmissions : OrderedMap Text Instant
  blocks : Nat
  blockCandidates : Nat
  blockSubmitsRejected : Nat
  lastBlockAt : Option Nat
  lastBlockHash : Option Text
  lastBlockDifficulty : Option ℚ
  lastBlockSubmitResult : Option Text
  lastBlockWorker : Option WorkerLabel
  lastBlockHeight : Value
  lastBlockReward : Value
  blockHistory : List BlockEntry
  calls : List BlockCall
  found : List Found
  appended : List (Nat × BlockEntry)
  suppressed : Nat
  clock : Nat

/-- What happens to the ledger. -/
inductive LedgerEvent where
  /-- An accepted share is a block. -/
  | candidate (share : AcceptedShare) (worker : WorkerLabel) (minerId : Nat) (now : Instant)
  /-- `submitBlock` of a call returns or throws. -/
  | verdict (call : Nat) (reply : Except String Value) (around : Surroundings) (now : Instant)
  /-- `proposeBlock` of a refused call returns or throws. -/
  | proposal (call : Nat) (reply : Except String Value)
  /-- The timer that prunes the recent submissions. -/
  | cleanup (now : Instant)

/-! ## Values -/

/-- `normalizeBlockKey`. -/
def normalizeBlockKey (hash : Text) : Text :=
  strip0x (toLowerCase hash)

/-- `getBlockReward`. -/
def getBlockReward (config : LedgerConfig) (blocks : Value) : Value :=
  if blocks.truthy then config.blockReward.or (.string "1.25 ZEC".toList)
  else .string "1.25 ZEC".toList

/-- `foundDiff`: the difficulty of the network times the quality. -/
def foundDifficulty (difficulty : Option ℚ) (share : AcceptedShare) : Option ℚ := do
  let netDiff ← parsePositiveNumber difficulty
  let quality ← parsePositiveNumber (decimalNumber share.networkQuality)
  pure (netDiff * quality)

/-- `Number(_.toFixed(6))` of a positive number. -/
def toFixed6 (value : ℚ) : ℚ :=
  if value < 10 ^ 21 then ⌊value * 10 ^ 6 + 1 / 2⌋ / 10 ^ 6 else value

/-- A label that counts as true. -/
def WorkerLabel.truthy : WorkerLabel → Bool
  | .name units => !units.isEmpty
  | .value value => value.truthy

/-- The local `minerLabel` of `submitBlockCandidate`. -/
def BlockCall.minerLabel (call : BlockCall) : WorkerLabel :=
  if WorkerLabel.truthy call.worker then call.worker
  else .value (.string (Stratum.minerLabel call.minerId))

/-- `slice(-n)` of a list that is longer. -/
def keepLast {α : Type} (n : Nat) (entries : List α) : List α :=
  entries.drop (entries.length - n)

/-- `maxBlockHistory`. -/
def maxBlockHistory : Nat :=
  200

/-- The check of the bits in front of `submitBlock` throws on bits that are no
string. -/
def preflightThrows (share : AcceptedShare) : Bool :=
  share.jobNbits.truthy && share.blockHex.any (fun blockHex => decide (216 ≤ blockHex.length)) &&
    match share.jobNbits with
    | .string _ => false
    | _ => true

/-- `_ == null`. -/
def isNullish : Value → Bool
  | .undefined => true
  | .null => true
  | _ => false

/-- The duplicate test: the entry is younger than the window. -/
def Suppresses (config : LedgerConfig) (now prev : Instant) : Prop :=
  (now.ms : ℚ) - prev.ms < config.blockSubmitDedupWindowMs

instance (config : LedgerConfig) (now prev : Instant) : Decidable (Suppresses config now prev) :=
  inferInstanceAs (Decidable (_ < _))

/-- Replacing an entry by one with the same image keeps the images. -/
theorem map_set_of_eq {α β : Type} {image : α → β} {entries : List α} {place : Nat} {old new : α}
    (present : entries[place]? = some old) (same : image new = image old) :
    (entries.set place new).map image = entries.map image := by
  obtain ⟨bound, rfl⟩ := List.getElem?_eq_some_iff.mp present
  have inside : place < (entries.map image).length := by simpa using bound
  have replaced : (entries.map image)[place] = image entries[place] := List.getElem_map _
  rw [List.map_set, same, ← replaced, List.set_getElem_self]

namespace Ledger

/-! ## Steps -/

/-- The catch of `submitBlockCandidate`. -/
def reject (ledger : Ledger) (message : Text) : Ledger :=
  { ledger with
    blockSubmitsRejected := ledger.blockSubmitsRejected + 1
    lastBlockSubmitResult := some ("rpc-error: ".toList ++ message) }

/-- `submitBlockCandidate` up to its first await. -/
def submitBlockCandidate (ledger : Ledger) (key : Text) (share : AcceptedShare)
    (worker : WorkerLabel) (minerId : Nat) (now : Instant) : Ledger :=
  let call := fun verdict => BlockCall.mk key now share worker minerId verdict false
  if preflightThrows share then
    { ledger.reject "(bitsHex || \"\").toLowerCase is not a function".toList with
      calls := ledger.calls ++ [call .threw] }
  else { ledger with calls := ledger.calls ++ [call .pending] }

/-- Count a candidate. -/
def count (ledger : Ledger) (key : Text) (now : Instant) : Ledger :=
  { ledger with
    blockCandidates := ledger.blockCandidates + 1
    found := ledger.found ++ [⟨key, now⟩]
    clock := now.ms }

/-- Forward a candidate to the node. -/
def forward (ledger : Ledger) (key : Text) (share : AcceptedShare) (worker : WorkerLabel)
    (minerId : Nat) (now : Instant) : Ledger :=
  submitBlockCandidate
    { ledger with recentBlockSubmissions := ledger.recentBlockSubmissions.set key now }
    key share worker minerId now

/-- Drop a candidate as a duplicate. -/
def suppress (ledger : Ledger) : Ledger :=
  { ledger with suppressed := ledger.suppressed + 1 }

/-- The branch of the submit handler for a block. -/
def candidate (config : LedgerConfig) (ledger : Ledger) (share : AcceptedShare)
    (worker : WorkerLabel) (minerId : Nat) (now : Instant) : Ledger :=
  let key := normalizeBlockKey share.hash
  let counted := ledger.count key now
  match ledger.recentBlockSubmissions.get? key with
  | some prev =>
      if Suppresses config now prev then counted.suppress
      else counted.forward key share worker minerId now
  | none => counted.forward key share worker minerId now

/-- The entry that an accepted call appends. -/
def entryFor (config : LedgerConfig) (call : BlockCall) (around : Surroundings) (now : Instant) :
    BlockEntry where
  height := call.share.height.or around.currentHeight
  hash := call.share.hash
  difficulty := (foundDifficulty around.difficulty call.share).map toFixed6
  reward := getBlockReward config around.blocks
  worker := call.minerLabel
  foundAt := now.ms
  submitResult := "accepted".toList

/-- A block was accepted. -/
def append (ledger : Ledger) (place : Nat) (entry : BlockEntry) : Ledger :=
  { ledger with
    blocks := ledger.blocks + 1
    lastBlockAt := some entry.foundAt
    lastBlockHash := some entry.hash
    lastBlockDifficulty := entry.difficulty
    lastBlockSubmitResult := some "accepted".toList
    lastBlockWorker := some entry.worker
    lastBlockHeight := entry.height
    lastBlockReward := entry.reward
    blockHistory := keepLast maxBlockHistory (ledger.blockHistory ++ [entry])
    appended := ledger.appended ++ [(place, entry)] }

/-- Note what became of a call. -/
def close (ledger : Ledger) (place : Nat) (call : BlockCall) : Ledger :=
  { ledger with calls := ledger.calls.set place call }

/-- `String(rpcResult)` throws behind the increase of the counter, and the catch
increases it once more. -/
def misreport (ledger : Ledger) (place : Nat) (call : BlockCall) : Ledger :=
  ({ ledger with blockSubmitsRejected := ledger.blockSubmitsRejected + 1 }.reject
    "Cannot convert object to primitive value".toList).close place
      { call with verdict := .unwritable }

/-- `submitBlockCandidate` after the node's verdict. -/
def verdict (config : LedgerConfig) (ledger : Ledger) (place : Nat) (call : BlockCall)
    (reply : Except String Value) (around : Surroundings) (now : Instant) : Ledger :=
  match reply with
  | .error message =>
      (ledger.reject message.toList).close place { call with verdict := .threw }
  | .ok result =>
      if isNullish result then
        (ledger.append place (entryFor config call around now)).close place
          { call with verdict := .accepted }
      else if result.throwsOn config.unwritable then ledger.misreport place call
      else
        { ledger with
          blockSubmitsRejected := ledger.blockSubmitsRejected + 1
          lastBlockSubmitResult := some result.toText }.close place
            { call with verdict := .refused result }

/-- What the inner catch writes. -/
def proposalError (result : Value) (message : Text) : Text :=
  "submit=".toList ++ result.toText ++ "; proposalError=".toList ++ message

/-- What `lastBlockSubmitResult` says after the proposal, also where its result
cannot be converted. -/
def proposalText (config : LedgerConfig) (result : Value) : Except String Value → Text
  | .ok proposal =>
      if proposal.throwsOn config.unwritable then
        proposalError result "Cannot convert object to primitive value".toList
      else "submit=".toList ++ result.toText ++ "; proposal=".toList ++
        if proposal = .null then "accepted".toList else proposal.toText
  | .error message => proposalError result message.toList

/-- A refused call after the proposal. -/
def proposal (config : LedgerConfig) (ledger : Ledger) (place : Nat) (call : BlockCall)
    (result : Value) (reply : Except String Value) : Ledger :=
  { ledger with lastBlockSubmitResult := some (proposalText config result reply) }.close place
    { call with proposed := true }

/-- The cleanup of the recent submissions. -/
def cleanup (config : LedgerConfig) (ledger : Ledger) (now : Instant) : Ledger :=
  { ledger with
    recentBlockSubmissions := ledger.recentBlockSubmissions.filter fun _ ts =>
      !decide ((ts.ms : ℚ) < now.ms - config.blockSubmitDedupWindowMs)
    clock := now.ms }

/-- The event loop.  The node answers a call once, and a proposal of a refused
call once. -/
def next (config : LedgerConfig) : Next Ledger LedgerEvent
  | ledger, .candidate share worker minerId now =>
      some (ledger.candidate config share worker minerId now)
  | ledger, .verdict place reply around now =>
      match ledger.calls[place]? with
      | some call =>
          if call.verdict = .pending then some (ledger.verdict config place call reply around now)
          else none
      | none => none
  | ledger, .proposal place reply =>
      match ledger.calls[place]? with
      | some call =>
          match call.verdict, call.proposed with
          | .refused result, false => some (ledger.proposal config place call result reply)
          | _, _ => none
      | none => none
  | ledger, .cleanup now => some (ledger.cleanup config now)

/-! ## What a step can do -/

/-- The duplicate test of a candidate. -/
def Duplicate (config : LedgerConfig) (ledger : Ledger) (key : Text) (now : Instant) : Prop :=
  ∃ prev, ledger.recentBlockSubmissions.get? key = some prev ∧ Suppresses config now prev

/-- A candidate is counted, and suppressed or forwarded. -/
theorem candidate_eq (config : LedgerConfig) (ledger : Ledger) (share : AcceptedShare)
    (worker : WorkerLabel) (minerId : Nat) (now : Instant) :
    (Duplicate config ledger (normalizeBlockKey share.hash) now ∧
      ledger.candidate config share worker minerId now =
        (ledger.count (normalizeBlockKey share.hash) now).suppress) ∨
    (¬Duplicate config ledger (normalizeBlockKey share.hash) now ∧
      ledger.candidate config share worker minerId now =
        (ledger.count (normalizeBlockKey share.hash) now).forward (normalizeBlockKey share.hash)
          share worker minerId now) := by
  cases found : ledger.recentBlockSubmissions.get? (normalizeBlockKey share.hash) with
  | none =>
      refine Or.inr ⟨?_, by simp only [candidate, found]⟩
      rintro ⟨prev, present, _⟩
      rw [found] at present
      contradiction
  | some prev =>
      by_cases young : Suppresses config now prev
      · exact Or.inl ⟨⟨prev, found, young⟩, by simp only [candidate, found, if_pos young]⟩
      · refine Or.inr ⟨?_, by simp only [candidate, found, if_neg young]⟩
        rintro ⟨other, present, stillYoung⟩
        rw [found] at present
        cases present
        exact young stillYoung

/-- A verdict is on a pending call. -/
theorem next_verdict {config : LedgerConfig} {ledger target : Ledger} {place : Nat}
    {reply : Except String Value} {around : Surroundings} {now : Instant}
    (step : next config ledger (.verdict place reply around now) = some target) :
    ∃ call, ledger.calls[place]? = some call ∧ call.verdict = .pending ∧
      target = ledger.verdict config place call reply around now := by
  simp only [next] at step
  split at step
  · next call called =>
      split at step
      · next waiting =>
          cases step
          exact ⟨call, called, waiting, rfl⟩
      · contradiction
  · contradiction

/-- A proposal is of a refused call. -/
theorem next_proposal {config : LedgerConfig} {ledger target : Ledger} {place : Nat}
    {reply : Except String Value}
    (step : next config ledger (.proposal place reply) = some target) :
    ∃ call result, ledger.calls[place]? = some call ∧ call.verdict = .refused result ∧
      target = ledger.proposal config place call result reply := by
  simp only [next] at step
  split at step
  · next call called =>
      split at step
      · next result refused _ =>
          cases step
          exact ⟨call, result, called, refused, rfl⟩
      · contradiction
  · contradiction

/-! ## Counting calls -/

/-- The call was not answered yet. -/
def isPending (call : BlockCall) : Bool :=
  decide (call.verdict = .pending)

/-- The call was accepted. -/
def isAccepted (call : BlockCall) : Bool :=
  decide (call.verdict = .accepted)

/-- The call was refused, or it threw. -/
def isRejected (call : BlockCall) : Bool :=
  !isPending call && !isAccepted call

/-- The call was refused with a result that cannot be written. -/
def isUnwritable (call : BlockCall) : Bool :=
  decide (call.verdict = .unwritable)

/-- A call that was pending gets another state. -/
theorem countP_set_of_pending {calls : List BlockCall} {place : Nat} {call : BlockCall}
    (closed : BlockCall) (called : calls[place]? = some call) (test : BlockCall → Bool)
    (unseen : test call = false) :
    (calls.set place closed).countP test = calls.countP test + if test closed then 1 else 0 := by
  obtain ⟨bound, rfl⟩ := List.getElem?_eq_some_iff.mp called
  rw [List.countP_set bound, unseen]
  simp

/-- A call that looks the same to a test takes its place. -/
theorem countP_set_of_same {calls : List BlockCall} {place : Nat} {call later : BlockCall}
    (called : calls[place]? = some call) {test : BlockCall → Bool} (same : test later = test call) :
    (calls.set place later).countP test = calls.countP test := by
  obtain ⟨bound, rfl⟩ := List.getElem?_eq_some_iff.mp called
  have one : (if test calls[place] then 1 else 0) ≤ calls.countP test := by
    split
    · next yes => exact List.countP_pos_iff.mpr ⟨_, List.getElem_mem bound, yes⟩
    · exact Nat.zero_le _
  rw [List.countP_set bound, same]
  omega

/-! ## The history of blocks -/

theorem keepLast_append_singleton {α : Type} (n : Nat) (entries : List α) (entry : α) :
    keepLast n (keepLast n entries ++ [entry]) = keepLast n (entries ++ [entry]) := by
  have cut : ∀ count : Nat, count ≤ entries.length →
      entries.drop count ++ [entry] = (entries ++ [entry]).drop count := fun count fits =>
    (List.drop_append_of_le_length fits).symm
  rw [keepLast, keepLast, keepLast, cut _ (Nat.sub_le _ _), List.drop_drop]
  simp only [List.length_drop, List.length_append, List.length_singleton]
  congr 1
  omega

/-- Nothing has happened since the state was loaded. -/
structure Fresh (ledger : Ledger) : Prop where
  recent : ledger.recentBlockSubmissions = .empty
  calls : ledger.calls = []
  found : ledger.found = []
  appended : ledger.appended = []
  suppressed : ledger.suppressed = 0

/-- The entry describes an accepted call. -/
def Describes (ledger : Ledger) (place : Nat) (entry : BlockEntry) : Prop :=
  ∃ call, ledger.calls[place]? = some call ∧ call.verdict = .accepted ∧
    entry.hash = call.share.hash ∧ entry.worker = call.minerLabel

/-- The fields of the last block are those of the entry. -/
structure LastBlockIs (ledger : Ledger) (entry : BlockEntry) : Prop where
  hash : ledger.lastBlockHash = some entry.hash
  worker : ledger.lastBlockWorker = some entry.worker
  height : ledger.lastBlockHeight = entry.height
  difficulty : ledger.lastBlockDifficulty = entry.difficulty
  reward : ledger.lastBlockReward = entry.reward

/-- The ledger against the state it was loaded with.  Refusals that cannot be
written count twice. -/
structure Books (loaded ledger : Ledger) : Prop where
  blocks : ledger.blocks = loaded.blocks + ledger.appended.length
  accepted : ledger.calls.countP isAccepted = ledger.appended.length
  nodup : (ledger.appended.map Prod.fst).Nodup
  described : ∀ place entry, (place, entry) ∈ ledger.appended → Describes ledger place entry
  history : ledger.blockHistory =
    if ledger.appended = [] then loaded.blockHistory
    else keepLast maxBlockHistory (loaded.blockHistory ++ ledger.appended.map Prod.snd)
  latest : ∀ place entry, ledger.appended.getLast? = some (place, entry) → LastBlockIs ledger entry
  candidates : ledger.blockCandidates =
    loaded.blockCandidates + ledger.calls.length + ledger.suppressed
  rejected : ledger.blockSubmitsRejected = loaded.blockSubmitsRejected +
    ledger.calls.countP isRejected + ledger.calls.countP isUnwritable

theorem Fresh.books {loaded : Ledger} (fresh : Fresh loaded) : Books loaded loaded where
  blocks := by simp [fresh.appended]
  accepted := by simp [fresh.calls, fresh.appended]
  nodup := by simp [fresh.appended]
  described := by simp [fresh.appended]
  history := by simp [fresh.appended]
  latest := by simp [fresh.appended]
  candidates := by simp [fresh.calls, fresh.suppressed]
  rejected := by simp [fresh.calls]

/-- A new call describes nothing that was not described before. -/
theorem Describes.of_calls_append {ledger target : Ledger} {place : Nat} {entry : BlockEntry}
    (described : Describes ledger place entry) {more : List BlockCall}
    (calls : target.calls = ledger.calls ++ more) : Describes target place entry := by
  rcases described with ⟨call, called, verdict, same⟩
  refine ⟨call, ?_, verdict, same⟩
  rw [calls, List.getElem?_append_left (List.getElem?_eq_some_iff.mp called).1]
  exact called

/-- A pending call describes nothing. -/
theorem Describes.of_calls_set {ledger target : Ledger} {place other : Nat} {entry : BlockEntry}
    {call closed : BlockCall} (described : Describes ledger other entry)
    (called : ledger.calls[place]? = some call) (unaccepted : call.verdict ≠ .accepted)
    (calls : target.calls = ledger.calls.set place closed) : Describes target other entry := by
  rcases described with ⟨otherCall, otherCalled, verdict, same⟩
  have different : place ≠ other := by
    rintro rfl
    rw [called] at otherCalled
    cases otherCalled
    exact unaccepted verdict
  refine ⟨otherCall, ?_, verdict, same⟩
  rw [calls, List.getElem?_set_ne different]
  exact otherCalled

theorem Books.suppress {loaded ledger : Ledger} (books : Books loaded ledger) (key : Text)
    (now : Instant) : Books loaded (ledger.count key now).suppress where
  blocks := books.blocks
  accepted := books.accepted
  nodup := books.nodup
  described := books.described
  history := books.history
  latest := fun place entry last =>
    have same := books.latest place entry last
    ⟨same.hash, same.worker, same.height, same.difficulty, same.reward⟩
  candidates := by
    have before := books.candidates
    change ledger.blockCandidates + 1 =
      loaded.blockCandidates + ledger.calls.length + (ledger.suppressed + 1)
    omega
  rejected := books.rejected

theorem Books.forward {loaded ledger : Ledger} (books : Books loaded ledger) (key : Text)
    (share : AcceptedShare) (worker : WorkerLabel) (minerId : Nat) (now : Instant) :
    Books loaded ((ledger.count key now).forward key share worker minerId now) := by
  have before := books.candidates
  have rejected := books.rejected
  have accepted := books.accepted
  unfold Ledger.forward submitBlockCandidate
  dsimp only
  split
  · refine ⟨books.blocks, ?_, books.nodup,
      fun place entry member => (books.described place entry member).of_calls_append rfl,
      books.history, fun place entry last => ?_, ?_, ?_⟩
    · simpa [Ledger.count, Ledger.reject, isAccepted] using accepted
    · have same := books.latest place entry last
      exact ⟨same.hash, same.worker, same.height, same.difficulty, same.reward⟩
    · simp only [Ledger.count, Ledger.reject, List.length_append, List.length_singleton]
      omega
    · simp only [Ledger.count, Ledger.reject, List.countP_append, List.countP_singleton, isRejected,
        isPending, isAccepted, isUnwritable]
      simp only [reduceCtorEq, decide_false, Bool.not_false, Bool.and_self, if_true,
        Bool.false_eq_true, if_false]
      omega
  · refine ⟨books.blocks, ?_, books.nodup,
      fun place entry member => (books.described place entry member).of_calls_append rfl,
      books.history, fun place entry last => ?_, ?_, ?_⟩
    · simpa [Ledger.count, isAccepted] using accepted
    · have same := books.latest place entry last
      exact ⟨same.hash, same.worker, same.height, same.difficulty, same.reward⟩
    · simp only [Ledger.count, List.length_append, List.length_singleton]
      omega
    · simpa [Ledger.count, isRejected, isPending, isUnwritable] using rejected

/-- A call that the node refuses, or whose request fails. -/
theorem Books.reject {loaded ledger : Ledger} (books : Books loaded ledger) {place : Nat}
    {call closed : BlockCall} (called : ledger.calls[place]? = some call)
    (waiting : call.verdict = .pending) (rejected : isRejected closed = true)
    {rejections : Nat} (counts : rejections =
      ledger.blockSubmitsRejected + 1 + if isUnwritable closed then 1 else 0)
    (result : Option Text) :
    Books loaded (close { ledger with
      blockSubmitsRejected := rejections
      lastBlockSubmitResult := result } place closed) := by
  have unaccepted : call.verdict ≠ .accepted := by simp [waiting]
  have notAccepted : isAccepted closed = false := by
    unfold isRejected at rejected
    simpa using (Bool.and_eq_true_iff.mp rejected).2
  refine ⟨books.blocks, ?_, books.nodup,
    fun place entry member =>
      (books.described place entry member).of_calls_set called unaccepted rfl,
    books.history, fun place entry last => ?_, ?_, ?_⟩
  · have counted := countP_set_of_pending closed called isAccepted
      (by simp [isAccepted, waiting])
    simp only [close, counted, notAccepted]
    exact books.accepted
  · have same := books.latest place entry last
    exact ⟨same.hash, same.worker, same.height, same.difficulty, same.reward⟩
  · simp only [close, List.length_set]
    exact books.candidates
  · have refused := countP_set_of_pending closed called isRejected
      (by simp [isRejected, isPending, waiting])
    have unwritten := countP_set_of_pending closed called isUnwritable
      (by simp [isUnwritable, waiting])
    simp only [close, refused, unwritten, rejected, if_true, books.rejected, counts]
    omega

/-- A call that the node accepts. -/
theorem Books.append {loaded ledger : Ledger} (books : Books loaded ledger) {place : Nat}
    {call : BlockCall} (called : ledger.calls[place]? = some call)
    (waiting : call.verdict = .pending) {entry : BlockEntry} (hash : entry.hash = call.share.hash)
    (worker : entry.worker = call.minerLabel) :
    Books loaded ((ledger.append place entry).close place { call with verdict := .accepted }) := by
  have bound := (List.getElem?_eq_some_iff.mp called).1
  have unaccepted : call.verdict ≠ .accepted := by simp [waiting]
  have fresh : place ∉ ledger.appended.map Prod.fst := by
    intro member
    obtain ⟨⟨other, old⟩, listed, rfl⟩ := List.mem_map.mp member
    rcases books.described other old listed with ⟨oldCall, oldCalled, verdict, _⟩
    rw [called] at oldCalled
    cases oldCalled
    exact unaccepted verdict
  refine ⟨?_, ?_, ?_, fun other old member => ?_, ?_, fun other last isLast => ?_, ?_, ?_⟩
  · simp only [close, Ledger.append, List.length_append, List.length_singleton, books.blocks]
    omega
  · have counted := countP_set_of_pending { call with verdict := .accepted } called
      isAccepted (by simp [isAccepted, waiting])
    simp only [close, Ledger.append, counted, isAccepted, decide_true, if_true,
      List.length_append, List.length_singleton]
    exact congrArg (· + 1) books.accepted
  · have added := books.nodup.concat fresh
    rw [List.concat_eq_append] at added
    simpa [close, Ledger.append] using added
  · rcases List.mem_append.mp member with earlier | new
    · exact (books.described other old earlier).of_calls_set called unaccepted rfl
    · obtain ⟨rfl, rfl⟩ := Prod.mk.inj (List.mem_singleton.mp new)
      exact ⟨_, List.getElem?_set_self bound, rfl, hash, worker⟩
  · have history := books.history
    simp only [close, Ledger.append, List.append_eq_nil_iff, List.cons_ne_nil, and_false, if_false,
      List.map_append, List.map_singleton, ← List.append_assoc]
    split at history
    · next none => rw [history, none, List.map_nil, List.append_nil]
    · rw [history, keepLast_append_singleton]
  · have isEntry : entry = last := by
      have pair : (place, entry) = (other, last) := by
        simpa [close, Ledger.append] using isLast
      exact (Prod.mk.inj pair).2
    subst isEntry
    exact ⟨rfl, rfl, rfl, rfl, rfl⟩
  · simp only [close, Ledger.append, List.length_set]
    exact books.candidates
  · have refused := countP_set_of_pending { call with verdict := .accepted } called
      isRejected (by simp [isRejected, isPending, waiting])
    have unwritten := countP_set_of_pending { call with verdict := .accepted } called
      isUnwritable (by simp [isUnwritable, waiting])
    simp only [close, Ledger.append, refused, unwritten, isRejected, isAccepted, isUnwritable,
      decide_true, Bool.not_true, Bool.and_false, Bool.false_eq_true, if_false, Nat.add_zero,
      reduceCtorEq, decide_false]
    exact books.rejected

theorem Books.verdict {config : LedgerConfig} {loaded ledger : Ledger} (books : Books loaded ledger)
    {place : Nat} {call : BlockCall} (called : ledger.calls[place]? = some call)
    (waiting : call.verdict = .pending) (reply : Except String Value) (around : Surroundings)
    (now : Instant) : Books loaded (ledger.verdict config place call reply around now) := by
  cases reply with
  | error message =>
      refine books.reject called waiting ?_ ?_ _ <;> rfl
  | ok result =>
      unfold Ledger.verdict
      dsimp only
      split
      · exact books.append called waiting rfl rfl
      · split
        · refine books.reject called waiting ?_ ?_ _ <;> rfl
        · refine books.reject called waiting ?_ ?_ _ <;> rfl

/-- A proposal changes a text only. -/
theorem Books.proposal {config : LedgerConfig} {loaded ledger : Ledger}
    (books : Books loaded ledger) {place : Nat} {call : BlockCall}
    (called : ledger.calls[place]? = some call) {result : Value}
    (refused : call.verdict = .refused result) (reply : Except String Value) :
    Books loaded (ledger.proposal config place call result reply) := by
  have unchanged {test : BlockCall → Bool}
      (blind : test { call with proposed := true } = test call) :
      (ledger.proposal config place call result reply).calls.countP test =
        ledger.calls.countP test := countP_set_of_same called blind
  refine ⟨books.blocks, ?_, books.nodup, fun other entry member => ?_, books.history,
    fun other entry last => ?_, ?_, ?_⟩
  · rw [unchanged rfl]
    exact books.accepted
  · exact (books.described other entry member).of_calls_set called (by simp [refused]) rfl
  · have same := books.latest other entry last
    exact ⟨same.hash, same.worker, same.height, same.difficulty, same.reward⟩
  · simp only [Ledger.proposal, close, List.length_set]
    exact books.candidates
  · rw [unchanged rfl, unchanged rfl]
    exact books.rejected

theorem Books.cleanup {loaded ledger : Ledger} (books : Books loaded ledger) (config : LedgerConfig)
    (now : Instant) : Books loaded (ledger.cleanup config now) where
  blocks := books.blocks
  accepted := books.accepted
  nodup := books.nodup
  described := books.described
  history := books.history
  latest := fun place entry last =>
    have same := books.latest place entry last
    ⟨same.hash, same.worker, same.height, same.difficulty, same.reward⟩
  candidates := books.candidates
  rejected := books.rejected

theorem Books.next {config : LedgerConfig} {loaded ledger target : Ledger} {event : LedgerEvent}
    (books : Books loaded ledger) (step : Ledger.next config ledger event = some target) :
    Books loaded target := by
  cases event with
  | candidate share worker minerId now =>
      cases step
      rcases candidate_eq config ledger share worker minerId now with ⟨_, dropped⟩ | ⟨_, forwarded⟩
      · rw [dropped]
        exact books.suppress _ now
      · rw [forwarded]
        exact books.forward _ share worker minerId now
  | verdict place reply around now =>
      obtain ⟨call, called, waiting, rfl⟩ := next_verdict step
      exact books.verdict called waiting reply around now
  | proposal place reply =>
      obtain ⟨call, result, called, refused, rfl⟩ := next_proposal step
      exact books.proposal called refused reply
  | cleanup now =>
      cases step
      exact books.cleanup config now

/-! ## Acceptances in a run -/

end Ledger

end ZcashSoloPool.Pool
