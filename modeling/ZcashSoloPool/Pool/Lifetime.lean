import ZcashSoloPool.Pool.Service

/-!
# The lifetime of the pool

The pool over restarts: what a process adds to the desk (its clocks and what the
block history shows), the state file that it writes, and the next process that
reads the file.  Everything that a turn reads from the clock is one reading.
-/

namespace ZcashSoloPool.Pool

open ZcashSoloPool.JavaScript
open ZcashSoloPool.Stratum
open ZcashSoloPool.Transition
open ZcashSoloPool.WorkManager (AcceptedShare Externals)

/-! ## Texts and percentages -/

/-- `_.toFixed(digits)` of a number that is not negative. -/
def toFixed (numbers : NumberFormat) (digits : Nat) (value : ℚ) : Text :=
  if value < 10 ^ 21 then
    let scaled := ⌊value * 10 ^ digits + 1 / 2⌋.toNat
    Nat.toDigits 10 (scaled / 10 ^ digits) ++
      '.' :: padStart digits (Nat.toDigits 10 (scaled % 10 ^ digits))
  else numbers.write value

/-- `Number(_.toFixed(2))`. -/
def toFixed2 (value : ℚ) : ℚ :=
  if |value| < 10 ^ 21 then
    let rounded : ℚ := ⌊|value| * 10 ^ 2 + 1 / 2⌋ / 10 ^ 2
    if value < 0 then -rounded else rounded
  else value

/-- The loop over the units of `formatDifficulty`. -/
def scaleUnit : ℚ → Char → List Char → ℚ × Char
  | value, unit, [] => (value, unit)
  | value, unit, larger :: rest =>
      if value ≥ 1000 then scaleUnit (value / 1000) larger rest else (value, unit)

/-- `formatDifficulty` of a number or `null`, which counts as zero. -/
def formatDifficulty (numbers : NumberFormat) (value : Option ℚ) : Text :=
  let n := value.getD 0
  if n = 0 then "0K".toList
  else
    let (scaled, unit) := scaleUnit (|n| / 1000) 'K' ['M', 'G', 'T', 'P', 'E', 'Z']
    let precision := if scaled ≥ 100 then 1 else if scaled ≥ 10 then 2 else 3
    (if n < 0 then ['-'] else []) ++ toFixed numbers precision scaled ++ [unit]

/-- The rates that the pool and the network are found to work at. -/
structure Rates where
  pool : ℚ
  network : Option ℚ

/-- The settings of a process. -/
structure LifetimeConfig where
  desk : DeskConfig
  walletAddress : Text
  poolTarget : Text
  blockIntervalSeconds : ℚ
  numbers : NumberFormat

/-- `effortPercent` of a block. -/
def effortPercent (config : LifetimeConfig) (actualSeconds : ℚ) (rates : Rates) : Option ℚ :=
  match rates.network with
  | some netRate =>
      if rates.pool > 0 ∧ netRate > 0 then
        let expectedSeconds := netRate / rates.pool * config.blockIntervalSeconds
        some (toFixed2 (actualSeconds / expectedSeconds * 100))
      else none
  | none => none

/-! ## A process -/

/-- What an entry of `blockHistory` has besides the fields of the ledger's. -/
structure Display where
  difficultyText : Text
  effortPercent : Option ℚ
  deriving DecidableEq, Repr

/-- A process.  The displays stand in the order of the block history; a time is
kept in milliseconds, where the source has the text that parses to it.  The
source does not keep the last two: when all miners dropped last, and when a
block was accepted last, both in this process. -/
structure Running where
  desk : Desk
  displays : List Display
  startedAt : Nat
  effortResetAt : Nat
  droppedAt : Option Nat
  foundAt : Option Nat

namespace Running

/-- The effort start of `submitBlockCandidate`. -/
def effortStart (running : Running) : Nat :=
  running.desk.ledger.lastBlockAt.getD running.startedAt

/-- `actualSeconds` of a block that is accepted now. -/
def actualSeconds (running : Running) (now : Instant) : ℚ :=
  max 1 (((now.ms : ℚ) - running.effortStart) / 1000)

/-- The effort start of `getApiStats`. -/
def apiEffortStart (running : Running) : Nat :=
  let lastBlockMs := running.desk.ledger.lastBlockAt.getD 0
  let sessionLastBlock := if lastBlockMs > running.startedAt then lastBlockMs else 0
  max running.effortResetAt sessionLastBlock

end Running

/-- `countAuthorizedMiners`. -/
def countAuthorizedMiners (desk : Desk) : Nat :=
  desk.miners.countP fun miner => miner.listed && miner.authorized

/-- What happens to a process. -/
inductive RunningEvent where
  /-- The connection of a client is cleaned up. -/
  | disconnect (client : Nat) (now : Instant)
  | verdict (call : Nat) (reply : Except String Value) (rates : Rates) (now : Instant)
  /-- Any other event of the desk. -/
  | other (event : DeskEvent)

/-- An event that needs nothing but the desk. -/
def isOther : DeskEvent → Bool
  | .disconnect _ => false
  | .verdict _ _ _ => false
  | _ => true

/-- The node accepts the block. -/
def accepts : Except String Value → Bool
  | .ok result => isNullish result
  | .error _ => false

namespace Running

/-- The process after an event that leaves its clocks alone. -/
def withDesk (running : Running) (desk : Desk) : Running :=
  { running with desk := desk }

/-- The process after a client was cleaned up.  The clock is also reset when a
client leaves that was never authorized, if there was no miner before. -/
def dropClient (running : Running) (desk : Desk) (now : Instant) : Running :=
  if countAuthorizedMiners desk = 0 then
    { running with
      desk := desk
      effortResetAt := now.ms
      droppedAt := some now.ms }
  else running.withDesk desk

/-- The process after a block was accepted. -/
def acceptBlock (config : LifetimeConfig) (running : Running) (desk : Desk) (rates : Rates)
    (now : Instant) : Running :=
  let display : Display :=
    ⟨formatDifficulty config.numbers desk.ledger.lastBlockDifficulty,
      effortPercent config (running.actualSeconds now) rates⟩
  { running with
    desk := desk
    displays := keepLast maxBlockHistory (running.displays ++ [display])
    effortResetAt := now.ms
    foundAt := some now.ms }

/-- The client is still listed; a connection is cleaned up once. -/
def lists (running : Running) (client : Nat) : Bool :=
  running.desk.miners[client]?.any Miner.listed

/-- The event loop of a process. -/
def next (deps : Externals) (hostile : Nat → Bool) (config : LifetimeConfig) :
    Next Running RunningEvent
  | running, .disconnect client now =>
      if running.lists client then
        (Desk.next deps hostile config.desk running.desk (.disconnect client)).map fun desk =>
          running.dropClient desk now
      else none
  | running, .verdict call reply rates now =>
      (Desk.next deps hostile config.desk running.desk (.verdict call reply now)).map fun desk =>
        if accepts reply then running.acceptBlock config desk rates now else running.withDesk desk
  | running, .other event =>
      if isOther event then
        (Desk.next deps hostile config.desk running.desk event).map running.withDesk
      else none

end Running

/-! ## The state file -/

/-- `lastBlock` in the file. -/
structure LastBlock where
  foundAt : Option Nat
  hash : Option Text
  difficulty : Option ℚ
  submitResult : Option Text
  worker : Option WorkerLabel
  reward : Value
  height : Value

/-- `totals` in the file. -/
structure Totals where
  blocks : Nat
  blockCandidates : Nat
  blockSubmitsRejected : Nat
  shares : Nat
  rejectedShares : Nat
  deriving DecidableEq, Repr

/-- The file, whose numbers are finite, without the time of the save.  Reading a
member gives what was written; an undefined one is not written, and reading it
gives `undefined` again. -/
structure StateFile where
  lastBlock : LastBlock
  totals : Totals
  allTimeBestShare : BestShare
  blockHistory : List BlockEntry
  displays : List Display

/-- `savePersistedState`. -/
def savePersistedState (running : Running) : StateFile where
  lastBlock :=
    { foundAt := running.desk.ledger.lastBlockAt
      hash := running.desk.ledger.lastBlockHash
      difficulty := running.desk.ledger.lastBlockDifficulty
      submitResult := running.desk.ledger.lastBlockSubmitResult
      worker := running.desk.ledger.lastBlockWorker
      reward := running.desk.ledger.lastBlockReward
      height := running.desk.ledger.lastBlockHeight }
  totals :=
    { blocks := running.desk.ledger.blocks
      blockCandidates := running.desk.ledger.blockCandidates
      blockSubmitsRejected := running.desk.ledger.blockSubmitsRejected
      shares := running.desk.shares
      rejectedShares := running.desk.rejectedShares }
  allTimeBestShare := running.desk.allTimeBestShare
  blockHistory := running.desk.ledger.blockHistory
  displays := running.displays

/-- `_ || null`: a member that counts as false is dropped. -/
def orNull {α : Type} (counts : α → Bool) (member : Option α) : Option α :=
  member.filter counts

/-- The ledger of a new process. -/
def Ledger.empty : Ledger where
  recentBlockSubmissions := .empty
  blocks := 0
  blockCandidates := 0
  blockSubmitsRejected := 0
  lastBlockAt := none
  lastBlockHash := none
  lastBlockDifficulty := none
  lastBlockSubmitResult := none
  lastBlockWorker := none
  lastBlockHeight := .null
  lastBlockReward := .null
  blockHistory := []
  calls := []
  found := []
  appended := []
  suppressed := 0
  clock := 0

/-- `allTimeBestShare` of a new process. -/
def BestShare.none : BestShare :=
  ⟨0, .none, .none, .none⟩

/-- The ledger that the file describes.  A time is a text and never empty. -/
def StateFile.ledger (file : StateFile) : Ledger :=
  { Ledger.empty with
    lastBlockAt := file.lastBlock.foundAt
    lastBlockHash := orNull (fun hash => !hash.isEmpty) file.lastBlock.hash
    lastBlockDifficulty := orNull (fun difficulty => difficulty != 0) file.lastBlock.difficulty
    lastBlockSubmitResult := orNull (fun result => !result.isEmpty) file.lastBlock.submitResult
    lastBlockWorker := orNull WorkerLabel.truthy file.lastBlock.worker
    lastBlockReward := file.lastBlock.reward.or .null
    lastBlockHeight := file.lastBlock.height.or .null
    blocks := file.totals.blocks
    blockCandidates := file.totals.blockCandidates
    blockSubmitsRejected := file.totals.blockSubmitsRejected
    blockHistory := file.blockHistory }

namespace Running

/-- A process that starts without a state file. -/
def fresh (config : LifetimeConfig) (now : Instant) : Running where
  desk := .initial config.walletAddress config.poolTarget .empty .none
  displays := []
  startedAt := now.ms
  effortResetAt := now.ms
  droppedAt := none
  foundAt := none

/-- `loadPersistedState`. -/
def loadPersistedState (running : Running) (file : StateFile) : Running :=
  { running with
    desk := { running.desk with
      ledger := file.ledger
      allTimeBestShare :=
        if file.allTimeBestShare.difficulty > 0 then file.allTimeBestShare
        else running.desk.allTimeBestShare }
    displays := file.displays }

/-- A process that starts. -/
def start (config : LifetimeConfig) (file : Option StateFile) (now : Instant) : Running :=
  match file with
  | some file => (fresh config now).loadPersistedState file
  | none => fresh config now

end Running

/-! ## Restarts -/

/-- The process that runs, and the file on disk.  The source does not keep the
last reading of the clock. -/
structure Lifetime where
  running : Running
  file : Option StateFile
  clock : Nat

/-- What happens over restarts. -/
inductive LifetimeEvent where
  | running (event : RunningEvent)
  /-- The process ends, by a signal that has it save its state or otherwise, and
  the next one starts. -/
  | restart (graceful : Bool) (now : Instant)

/-- A candidate is forwarded. -/
def forwards (config : LedgerConfig) (ledger : Ledger) (share : AcceptedShare) (now : Instant) :
    Bool :=
  match ledger.recentBlockSubmissions.get? (normalizeBlockKey share.hash) with
  | some prev => !decide (Suppresses config now prev)
  | none => true

/-- The states in which a turn calls `savePersistedState`, in their order. -/
def savePoints (config : LifetimeConfig) (before after : Running) : RunningEvent → List Running
  | .other (.resume place now) =>
      match before.desk.waiting place with
      | some (handler, miner) =>
          match handler.result with
          | .ok (.valid share) =>
              -- A best share is saved before the block is counted.
              (if before.desk.Best share miner then
                [after.withDesk { after.desk with ledger := before.desk.ledger }] else []) ++
              if share.isBlock && forwards config.desk.ledger before.desk.ledger share now &&
                preflightThrows share then [after] else []
          | _ => []
      | none => []
  | .verdict _ reply _ _ =>
      match reply with
      | .ok result => if isNullish result then [after] else []
      | .error _ => [after]
  | .other (.proposal _ _) => [after]
  | _ => []

/-- A turn saves the state after it, or that state with the ledger of before. -/
theorem eq_of_mem_savePoints {config : LifetimeConfig} {before after saved : Running}
    {event : RunningEvent} (member : saved ∈ savePoints config before after event) :
    saved = after ∨ saved = after.withDesk { after.desk with ledger := before.desk.ledger } := by
  unfold savePoints at member
  split at member
  · split at member
    · split at member
      · rcases List.mem_append.mp member with isBest | isBlock
        · split at isBest
          · exact Or.inr (List.mem_singleton.mp isBest)
          · contradiction
        · split at isBlock
          · exact Or.inl (List.mem_singleton.mp isBlock)
          · contradiction
      · contradiction
    · contradiction
  · split at member
    · split at member
      · exact Or.inl (List.mem_singleton.mp member)
      · contradiction
    · exact Or.inl (List.mem_singleton.mp member)
  · exact Or.inl (List.mem_singleton.mp member)
  · contradiction

/-- The time that an event reads from the clock, where the clocks of the process
depend on it. -/
def LifetimeEvent.clock : LifetimeEvent → Option Nat
  | .running (.disconnect _ now) => some now.ms
  | .running (.verdict _ _ _ now) => some now.ms
  | .running (.other _) => none
  | .restart _ now => some now.ms

namespace Lifetime

/-- The first start. -/
def first (config : LifetimeConfig) (now : Instant) : Lifetime :=
  ⟨.start config none now, none, now.ms⟩

/-- The events of the pool over restarts. -/
def next (deps : Externals) (hostile : Nat → Bool) (config : LifetimeConfig) :
    Next Lifetime LifetimeEvent
  | lifetime, .running event =>
      (Running.next deps hostile config lifetime.running event).map fun after =>
        { running := after
          file := ((savePoints config lifetime.running after event).getLast?.map
            savePersistedState).or lifetime.file
          clock := (LifetimeEvent.running event).clock.getD lifetime.clock }
  | lifetime, .restart graceful now =>
      let file := if graceful then some (savePersistedState lifetime.running) else lifetime.file
      some ⟨.start config file now, file, now.ms⟩

end Lifetime

end ZcashSoloPool.Pool
