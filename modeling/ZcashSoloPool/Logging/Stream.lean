import ZcashSoloPool.Bytes.Utf8
import ZcashSoloPool.JavaScript.Json
import ZcashSoloPool.Logging.Rotation
import ZcashSoloPool.Storage.Chain
import ZcashSoloPool.Transition.Run

/-!
# The stream of the log

The logger buffers its lines, writes the buffer to the end of the log from time
to time, and rotates the log before that.  Whatever the order of lines, timer
ticks and the shutdown: the log with its backups, read from the oldest one, and
the buffer behind them are all the lines that were logged, but for the backups
that a rotation discarded.
-/

namespace ZcashSoloPool.Logging

open ZcashSoloPool.Bytes
open ZcashSoloPool.JavaScript
open ZcashSoloPool.Storage
open ZcashSoloPool.Transition

/-! ## Lines -/

/-- The levels of the methods of a logger. -/
inductive Level where
  | error
  | warn
  | info
  | debug
  | trace
  deriving DecidableEq, Repr

namespace Level

/-- The name of the method. -/
def name : Level → Text
  | error => "error".toList
  | warn => "warn".toList
  | info => "info".toList
  | debug => "debug".toList
  | trace => "trace".toList

/-- `LEVEL_ORDER`. -/
def order : Level → Nat
  | error => 0
  | warn => 1
  | info => 2
  | debug => 3
  | trace => 4

/-- The level that a setting names. -/
def ofName (text : Text) : Option Level :=
  [error, warn, info, debug, trace].find? fun level => level.name = text

end Level

/-- The runtime: how the time of a line is written, and numbers in it. -/
structure Runtime where
  isoString : ℤ → Text
  numbers : NumberFormat

/-- `typeof a === "string" ? a : safeJson(a)`. -/
def argumentText (runtime : Runtime) : Json → Text
  | .string text => text
  | value => value.stringify runtime.numbers

/-- `fmt`. -/
def fmt (runtime : Runtime) (level : Level) (args : List Json) (now : ℤ) : Text :=
  runtime.isoString now ++ " [".toList ++ level.name.map Char.toUpper ++ "] ".toList ++
    [' '].intercalate (args.map (argumentText runtime))

/-! ## The logger -/

/-- `_flushMaxBytes`. -/
def flushMaxBytes : Nat :=
  8 * 1024

/-- A logger that rotates by size, and the files it sees. -/
structure Writer where
  level : Text
  logger : Logger
  buffer : List Text
  bufferBytes : Nat
  flushTimer : Bool
  disk : Files

/-- What the logger reacts to. -/
inductive LogEvent where
  | log (level : Level) (args : List Json) (now : ℤ)
  | timer (now : ℤ)
  | shutdown (now : ℤ)

namespace Writer

/-- The constructor, with the files that are there. -/
def new (level : Text) (file : Option Text) (maxFileSizeMb : ℚ) (maxFiles : Nat)
    (files : Text → Option (List UInt8)) : Writer where
  level := toLowerCase level
  logger := ⟨file, maxFileSizeMb, maxFiles, 0⟩
  buffer := []
  bufferBytes := 0
  flushTimer := file.isSome
  disk := ⟨files, []⟩

/-- `shouldLog`.  A setting that names a member which every object inherits is
compared with that member, which is no number. -/
def shouldLog (writer : Writer) (level : Level) : Bool :=
  if writer.level = "constructor".toList ∨ writer.level = "__proto__".toList then false
  else decide (level.order ≤ ((Level.ofName writer.level).map Level.order).getD 2)

/-- `flush`, when every operation on the files succeeds. -/
def flush (writer : Writer) (now : ℤ) : Writer :=
  match writer.logger.file with
  | none => writer
  | some file =>
      if writer.buffer.isEmpty then writer
      else
        let rotated := writer.logger.rotateIfNeeded now writer.disk
        { writer with
          buffer := []
          bufferBytes := 0
          logger := rotated.1
          disk := rotated.2.append file (encodeUtf8 writer.buffer.flatten) }

/-- `write`. -/
def write (writer : Writer) (line : Text) (now : ℤ) : Writer :=
  if writer.logger.file.isNone then writer
  else
    let entry := line ++ ['\n']
    let buffered : Writer := { writer with
      buffer := writer.buffer ++ [entry]
      bufferBytes := writer.bufferBytes + unitLength entry }
    if flushMaxBytes ≤ buffered.bufferBytes then buffered.flush now else buffered

/-- `log`, but for the console. -/
def log (runtime : Runtime) (writer : Writer) (level : Level) (args : List Json) (now : ℤ) :
    Writer :=
  if writer.shouldLog level then writer.write (fmt runtime level args now) now else writer

/-- `shutdown`. -/
def shutdown (writer : Writer) (now : ℤ) : Writer :=
  Writer.flush { writer with flushTimer := false } now

/-- One reaction; a timer that was cleared does not fire. -/
def react (runtime : Runtime) (writer : Writer) : LogEvent → Writer
  | .log level args now => writer.log runtime level args now
  | .timer now => if writer.flushTimer then writer.flush now else writer
  | .shutdown now => writer.shutdown now

/-! ## What the files hold -/

/-- What was logged to the file and is not lost: the destroyed backups, the log
with its backups from the oldest one, and the buffer. -/
def stream (writer : Writer) (file : Text) : List UInt8 :=
  writer.disk.lost ++ writer.disk.readChain (slot file) (writer.logger.maxFiles + 1) ++
    encodeUtf8 writer.buffer.flatten

/-- The lines that an event adds to the log of a logger. -/
def linesOf (runtime : Runtime) (writer : Writer) : LogEvent → Text
  | .log level args now =>
      if writer.shouldLog level then fmt runtime level args now ++ ['\n'] else []
  | .timer _ => []
  | .shutdown _ => []

end Writer

/-! ## A rotation keeps the stream -/

/-- A move onto a free name destroys nothing. -/
theorem flatMap_destroyed_eq_nil {moves : List (Effect Text (List UInt8))}
    (free : ∀ effect ∈ moves, ∃ source target, effect = .moved source target none) :
    moves.flatMap Effect.destroyed = [] := by
  rw [List.flatMap_eq_nil_iff]
  intro effect member
  obtain ⟨source, target, rfl⟩ := free effect member
  rfl

/-- What a rotation discards is the content of the last name, if another file
takes that name. -/
theorem destroyed_discarded (file : Text) (maxFiles : Nat) (disk : Files) :
    (discarded file maxFiles disk).flatMap Effect.destroyed =
      if disk.exists? (slot file (maxFiles - 1)) then disk.contentAt (slot file maxFiles)
      else [] := by
  unfold discarded Disk.contentAt
  split
  · cases disk.files (slot file maxFiles) with
    | none => rfl
    | some content => exact List.append_nil content
  · rfl

/-- What a rotation takes from the files it has destroyed. -/
theorem Rotated.lost_append_readChain {file : Text} {maxFiles : Nat} {before after : Files}
    (positive : 1 ≤ maxFiles) (rotated : Rotated file maxFiles before after) :
    after.lost ++ after.readChain (slot file) (maxFiles + 1) =
      before.lost ++ before.readChain (slot file) (maxFiles + 1) := by
  obtain ⟨last, rfl⟩ := Nat.exists_eq_add_of_le' positive
  obtain ⟨moves, history, free⟩ := rotated.effects
  have lost : after.lost = before.lost ++
      if before.exists? (slot file last) then before.contentAt (slot file (last + 1)) else [] := by
    rw [Disk.lost, history, List.flatMap_append, List.flatMap_append,
      flatMap_destroyed_eq_nil free, List.append_nil, destroyed_discarded]
    rfl
  have first : after.files (slot file 0) = none := rotated.vacated 0 (Nat.succ_pos last) (Or.inl rfl)
  -- Below the last name each file has the content of the one before it.
  have shifted : ∀ i < last, after.files (slot file (i + 1)) = before.files (slot file i) := by
    intro i below
    cases present : before.files (slot file i) with
    | none => exact rotated.vacated (i + 1) (Nat.succ_lt_succ below) (Or.inr present)
    | some content => exact rotated.moved i (Nat.lt_succ_of_lt below) content present
  have chain := Disk.readChain_shifted shifted first
  cases present : before.files (slot file last) with
  | none =>
      have kept : after.contentAt (slot file (last + 1)) = before.contentAt (slot file (last + 1)) :=
        Disk.contentAt_congr (rotated.kept present)
      rw [lost, Disk.readChain, chain, kept, Disk.exists?, present]
      simp [Disk.readChain, Disk.contentAt_of_none present]
  | some content =>
      have moved : after.contentAt (slot file (last + 1)) = before.contentAt (slot file last) :=
        Disk.contentAt_congr
          ((rotated.moved last (Nat.lt_succ_self last) content present).trans present.symm)
      rw [lost, Disk.readChain, chain, moved, Disk.exists?, present]
      simp [Disk.readChain]

namespace Logger

/-- The settings of a logger stay. -/
theorem rotateIfNeeded_settings (logger : Logger) (now : ℤ) (disk : Files) :
    (logger.rotateIfNeeded now disk).1.file = logger.file ∧
      (logger.rotateIfNeeded now disk).1.maxFiles = logger.maxFiles := by
  unfold rotateIfNeeded
  split
  · exact ⟨rfl, rfl⟩
  · split <;> exact ⟨rfl, rfl⟩

/-- The check takes nothing from the files that it has not destroyed. -/
theorem lost_append_readChain (logger : Logger) {file : Text} (isFile : logger.file = some file)
    (now : ℤ) (disk : Files) :
    (logger.rotateIfNeeded now disk).2.lost ++
        (logger.rotateIfNeeded now disk).2.readChain (slot file) (logger.maxFiles + 1) =
      disk.lost ++ disk.readChain (slot file) (logger.maxFiles + 1) := by
  by_cases due : logger.Due file now disk
  · rcases Nat.eq_zero_or_pos logger.maxFiles with none | positive
    · have idle : (logger.rotateIfNeeded now disk).2 = disk := by
        unfold rotateIfNeeded rotateBySize
        rw [none]
        split
        · rfl
        · split
          · rfl
          · dsimp only
            split
            · rfl
            · split <;> rfl
      rw [idle]
    · exact (rotated_rotateIfNeeded positive due).lost_append_readChain positive
  · rw [rotateIfNeeded_of_not_due]
    intro other found
    cases isFile.symm.trans found.1
    exact due found

end Logger

/-! ## The run of a logger -/

namespace Writer

/-- The stream is whole, and the buffer is as small as it has to be. -/
structure Invariant (file : Text) (writer : Writer) : Prop where
  isFile : writer.logger.file = some file
  counted : writer.bufferBytes = unitLength writer.buffer.flatten
  small : writer.bufferBytes < flushMaxBytes

/-- After an event the level, the names and the number of backups are as before,
and the stream has the new lines at its end. -/
structure Extends (file : Text) (before after : Writer) (lines : Text) : Prop where
  level : after.level = before.level
  isFile : after.logger.file = before.logger.file
  stream : after.stream file = before.stream file ++ encodeUtf8 lines

theorem Extends.refl (file : Text) (writer : Writer) : Extends file writer writer [] where
  level := rfl
  isFile := rfl
  stream := (List.append_nil _).symm

theorem Extends.trans {file : Text} {first second third : Writer} {lines more : Text}
    (earlier : Extends file first second lines) (later : Extends file second third more) :
    Extends file first third (lines ++ more) where
  level := later.level.trans earlier.level
  isFile := later.isFile.trans earlier.isFile
  stream := by rw [later.stream, earlier.stream, encodeUtf8_append, List.append_assoc]

variable {file : Text} {writer : Writer}

/-- The buffer goes to the end of the log. -/
theorem extends_flush (isFile : writer.logger.file = some file) (now : ℤ) :
    Extends file writer (writer.flush now) [] ∧ (writer.flush now).buffer = [] := by
  unfold flush
  rw [isFile]
  dsimp only
  split
  · next empty =>
      exact ⟨Extends.refl file writer, List.isEmpty_iff.mp empty⟩
  · have settings := writer.logger.rotateIfNeeded_settings now writer.disk
    have kept := writer.logger.lost_append_readChain isFile now writer.disk
    have chain := (writer.logger.rotateIfNeeded now writer.disk).2.readChain_append
      (slot_injective file) (encodeUtf8 writer.buffer.flatten) writer.logger.maxFiles
    refine ⟨⟨rfl, settings.1, ?_⟩, rfl⟩
    rw [stream, stream, settings.2, Disk.lost_append, ← kept]
    simp only [List.flatten_nil, encodeUtf8, List.flatMap_nil, List.append_nil, List.append_assoc]
    exact congrArg _ chain

theorem invariant_flush (invariant : Invariant file writer) (now : ℤ) :
    Invariant file (writer.flush now) := by
  have flushed := extends_flush invariant.isFile now
  refine ⟨flushed.1.isFile.trans invariant.isFile, ?_, ?_⟩
  all_goals
    unfold flush
    rw [invariant.isFile]
    dsimp only
    split
  · exact invariant.counted
  · rfl
  · exact invariant.small
  · exact Nat.zero_lt_succ _

/-- A line is in the buffer, or in the file with the whole buffer. -/
theorem extends_write (invariant : Invariant file writer) (line : Text) (now : ℤ) :
    Extends file writer (writer.write line now) (line ++ ['\n']) ∧
      Invariant file (writer.write line now) := by
  have buffered : Extends file writer { writer with
      buffer := writer.buffer ++ [line ++ ['\n']]
      bufferBytes := writer.bufferBytes + unitLength (line ++ ['\n']) } (line ++ ['\n']) := by
    refine ⟨rfl, rfl, ?_⟩
    simp [stream, encodeUtf8_append]
  have counted : writer.bufferBytes + unitLength (line ++ ['\n']) =
      unitLength (writer.buffer ++ [line ++ ['\n']]).flatten := by
    rw [invariant.counted, List.flatten_append, List.flatten_singleton, ← unitLength_append]
  unfold write
  rw [invariant.isFile, Option.isNone_some, if_neg Bool.false_ne_true]
  dsimp only
  split
  · have flushed := @extends_flush file { writer with
      buffer := writer.buffer ++ [line ++ ['\n']]
      bufferBytes := writer.bufferBytes + unitLength (line ++ ['\n']) } invariant.isFile now
    refine ⟨by simpa using buffered.trans flushed.1, flushed.1.isFile.trans invariant.isFile, ?_, ?_⟩
    all_goals
      unfold flush
      rw [invariant.isFile]
      simp [flushMaxBytes]
  · next few => exact ⟨buffered, invariant.isFile, counted, Nat.lt_of_not_le few⟩

/-- One event keeps the stream whole. -/
theorem extends_react (runtime : Runtime) (invariant : Invariant file writer) (event : LogEvent) :
    Extends file writer (writer.react runtime event) (writer.linesOf runtime event) ∧
      Invariant file (writer.react runtime event) := by
  cases event with
  | log level args now =>
      simp only [react, log, linesOf]
      split
      · exact extends_write invariant _ now
      · exact ⟨Extends.refl file writer, invariant⟩
  | timer now =>
      simp only [react, linesOf]
      split
      · exact ⟨(extends_flush invariant.isFile now).1, invariant_flush invariant now⟩
      · exact ⟨Extends.refl file writer, invariant⟩
  | shutdown now =>
      have stopped : Invariant file { writer with flushTimer := false } :=
        ⟨invariant.isFile, invariant.counted, invariant.small⟩
      have flushed := @extends_flush file { writer with flushTimer := false }
        invariant.isFile now
      exact ⟨⟨flushed.1.level, flushed.1.isFile, flushed.1.stream⟩, invariant_flush stopped now⟩

/-- The level alone decides which lines are logged. -/
theorem linesOf_congr (runtime : Runtime) {first second : Writer}
    (same : first.level = second.level) (event : LogEvent) :
    first.linesOf runtime event = second.linesOf runtime event := by
  cases event with
  | log level args now =>
      have allowed : first.shouldLog level = second.shouldLog level := by
        rw [shouldLog, shouldLog, same]
      rw [linesOf, linesOf, allowed]
  | timer now => rfl
  | shutdown now => rfl

theorem extends_run (runtime : Runtime) (invariant : Invariant file writer)
    (events : List LogEvent) :
    Extends file writer (events.foldl (react runtime) writer)
        (events.flatMap (writer.linesOf runtime)) ∧
      Invariant file (events.foldl (react runtime) writer) := by
  induction events generalizing writer with
  | nil => exact ⟨Extends.refl file writer, invariant⟩
  | cons event rest ih =>
      obtain ⟨one, kept⟩ := extends_react runtime invariant event
      obtain ⟨others, last⟩ := ih kept
      have same : (writer.react runtime event).linesOf runtime = writer.linesOf runtime :=
        funext (linesOf_congr runtime one.level)
      rw [same] at others
      exact ⟨one.trans others, last⟩

/-- What a run leaves in the files and in the buffer: all that was in the files
and all lines that were logged, in order, but for the backups destroyed by
rotations, which were the oldest; less than the buffer may hold is in the
buffer, and nothing is after a shutdown. -/
structure Kept (runtime : Runtime) (file : Text) (start : Writer) (events : List LogEvent) :
    Prop where
  stream : (events.foldl (react runtime) start).stream file =
    start.disk.readChain (slot file) (start.logger.maxFiles + 1) ++
      encodeUtf8 (events.flatMap (start.linesOf runtime))
  buffered : unitLength (events.foldl (react runtime) start).buffer.flatten < flushMaxBytes
  flushed : ∀ now, ((events.foldl (react runtime) start).shutdown now).buffer = []

/-- Whatever the order of lines, timer ticks and shutdowns, no line is lost,
doubled or moved. -/
theorem kept_of_run (runtime : Runtime) (level file : Text) (maxFileSizeMb : ℚ) (maxFiles : Nat)
    (files : Text → Option (List UInt8)) (events : List LogEvent) :
    Kept runtime file (new level (some file) maxFileSizeMb maxFiles files) events := by
  have invariant : Invariant file (new level (some file) maxFileSizeMb maxFiles files) :=
    ⟨rfl, rfl, Nat.zero_lt_succ _⟩
  obtain ⟨extended, last⟩ := extends_run runtime invariant events
  constructor
  · rw [extended.stream]
    simp [stream, new, Disk.lost, encodeUtf8]
  · exact last.counted ▸ last.small
  · intro now
    exact (@extends_flush file
      { events.foldl (react runtime) (new level (some file) maxFileSizeMb maxFiles files) with
        flushTimer := false } last.isFile now).2

end Writer

end ZcashSoloPool.Logging
