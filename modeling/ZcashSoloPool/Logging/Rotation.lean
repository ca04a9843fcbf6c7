import ZcashSoloPool.JavaScript.Value
import ZcashSoloPool.Storage.Disk
import Mathlib.Data.Rat.Floor
import Mathlib.Tactic.NormNum

/-!
# Rotation of the log

A logger that rotates by size keeps the last files under numbered names.  A
rotation renames them from the oldest to the newest, so that only the oldest
one can be lost.
-/

namespace ZcashSoloPool.Logging

open ZcashSoloPool.JavaScript
open ZcashSoloPool.Storage

/-- The files that the logger sees. -/
abbrev Files :=
  Disk Text (List UInt8)

/-- The fields of `Logger` that the rotation by size reads and writes. -/
structure Logger where
  file : Option Text
  maxFileSizeMb : ℚ
  maxFiles : Nat
  lastRotateCheckAt : ℤ

/-- `_rotateCheckIntervalMs`. -/
def rotateCheckIntervalMs : ℤ :=
  30000

/-- The name of a backup. -/
def numbered (file : Text) (i : Nat) : Text :=
  file ++ '.' :: Nat.toDigits 10 i

namespace Logger

/-- One turn of the loop of `rotateIfNeeded`. -/
def rotateFile (logger : Logger) (file : Text) (i : Nat) (disk : Files) : Files :=
  let src := if i = 1 then file else numbered file (i - 1)
  let dst := numbered file i
  if disk.exists? src then
    let cleared := if i = logger.maxFiles ∧ disk.exists? dst then disk.unlink dst else disk
    cleared.rename src dst
  else disk

/-- The loop from a number down to one. -/
def rotateFrom (logger : Logger) (file : Text) : Nat → Files → Files
  | 0, disk => disk
  | i + 1, disk => rotateFrom logger file i (logger.rotateFile file (i + 1) disk)

/-- The part of `rotateIfNeeded` that looks at the size. -/
def rotateBySize (logger : Logger) (file : Text) (disk : Files) : Files :=
  match disk.files file with
  | none => disk
  | some content =>
      let maxBytes := logger.maxFileSizeMb * 1024 * 1024
      if (content.length : ℚ) < maxBytes then disk else logger.rotateFrom file logger.maxFiles disk

/-- `rotateIfNeeded` of a logger that rotates by size, when every operation on
the files succeeds. -/
def rotateIfNeeded (logger : Logger) (now : ℤ) (disk : Files) : Logger × Files :=
  match logger.file with
  | none => (logger, disk)
  | some file =>
      if now - logger.lastRotateCheckAt < rotateCheckIntervalMs then (logger, disk)
      else ({ logger with lastRotateCheckAt := now }, logger.rotateBySize file disk)

end Logger

/-! ## The chain of names -/

/-- The names of the chain: the log and its backups. -/
def slot (file : Text) : Nat → Text
  | 0 => file
  | i + 1 => numbered file (i + 1)

theorem numbered_injective (file : Text) : Function.Injective (numbered file) := by
  intro first second equal
  have digits : Nat.toDigits 10 first = Nat.toDigits 10 second :=
    (List.cons.inj (List.append_cancel_left equal)).2
  rw [← Nat.ofDigitChars_ten_toDigits (n := first), digits, Nat.ofDigitChars_ten_toDigits]

theorem numbered_ne (file : Text) (i : Nat) : numbered file i ≠ file := by
  intro equal
  have := congrArg List.length equal
  simp [numbered] at this

theorem slot_injective (file : Text) : Function.Injective (slot file) := by
  intro first second equal
  cases first with
  | zero =>
      cases second with
      | zero => rfl
      | succ second => exact absurd equal.symm (numbered_ne file (second + 1))
  | succ first =>
      cases second with
      | zero => exact absurd equal (numbered_ne file (first + 1))
      | succ second => exact numbered_injective file equal

/-- The source of a turn is the name before its target. -/
theorem source_eq_slot (file : Text) (i : Nat) :
    (if i + 1 = 1 then file else numbered file (i + 1 - 1)) = slot file i := by
  cases i with
  | zero => rfl
  | succ i => simp [slot]

namespace Logger

variable (logger : Logger) (file : Text)

/-- A turn that does not reach the last name moves one file up. -/
theorem rotateFile_of_ne {i : Nat} (notLast : i + 1 ≠ logger.maxFiles) (disk : Files) :
    logger.rotateFile file (i + 1) disk = disk.moveUp (slot file) i := by
  simp only [rotateFile, source_eq_slot, notLast, false_and, if_false, Disk.moveUp]
  rfl

/-- Below the last name the loop shifts the chain up. -/
theorem rotateFrom_eq_shiftUp {count : Nat} (below : count < logger.maxFiles) (disk : Files) :
    logger.rotateFrom file count disk = disk.shiftUp (slot file) count := by
  induction count generalizing disk with
  | zero => rfl
  | succ count ih =>
      rw [rotateFrom, Disk.shiftUp, rotateFile_of_ne logger file (Nat.ne_of_lt below),
        ih (Nat.lt_of_succ_lt below)]

/-- Without a file before the last name the loop leaves the last name alone. -/
theorem rotateFrom_of_missing {last : Nat} (maxFiles : logger.maxFiles = last + 1) {disk : Files}
    (missing : disk.files (slot file last) = none) :
    logger.rotateFrom file logger.maxFiles disk = disk.shiftUp (slot file) last := by
  have idle : logger.rotateFile file (last + 1) disk = disk := by
    simp only [rotateFile, source_eq_slot, Disk.exists?, missing]
    rfl
  rw [maxFiles, rotateFrom, idle, rotateFrom_eq_shiftUp logger file (by omega)]

/-- With a file before the last name the loop removes the last one and shifts
the chain up. -/
theorem rotateFrom_of_present {last : Nat} (maxFiles : logger.maxFiles = last + 1) {disk : Files}
    {content : List UInt8} (present : disk.files (slot file last) = some content) :
    logger.rotateFrom file logger.maxFiles disk =
      (disk.unlink (slot file (last + 1))).shiftUp (slot file) (last + 1) := by
  have different : slot file last ≠ slot file (last + 1) :=
    (slot_injective file).ne (Nat.ne_of_lt (Nat.lt_succ_self last))
  have cleared : (if disk.exists? (numbered file (last + 1)) then
      disk.unlink (numbered file (last + 1)) else disk) = disk.unlink (slot file (last + 1)) := by
    cases target : disk.files (slot file (last + 1)) with
    | none =>
        have free : disk.files (numbered file (last + 1)) = none := target
        simp [Disk.exists?, Disk.unlink, slot, free]
    | some old => simp [Disk.exists?, slot, show disk.files (numbered file _) = _ from target]
  have stays : (disk.unlink (slot file (last + 1))).files (slot file last) = some content := by
    rw [Disk.files_unlink, Function.update_of_ne different, present]
  have turn : logger.rotateFile file (last + 1) disk =
      (disk.unlink (slot file (last + 1))).moveUp (slot file) last := by
    simp only [rotateFile, source_eq_slot, maxFiles, true_and, cleared]
    simp only [Disk.exists?, present, Disk.moveUp, stays]
    rfl
  rw [maxFiles, rotateFrom, turn, Disk.shiftUp, rotateFrom_eq_shiftUp logger file (by omega)]

end Logger

/-! ## What a rotation does -/

/-- What is discarded: the last backup, if another file takes its name. -/
def discarded (file : Text) (maxFiles : Nat) (disk : Files) : List (Effect Text (List UInt8)) :=
  if disk.exists? (slot file (maxFiles - 1)) then
    ((disk.files (slot file maxFiles)).map (Effect.removed (slot file maxFiles))).toList
  else []

/-- A rotation: every file of the chain but the last goes to the next name, a
name is free afterwards if no file went there, the last file is discarded only
for another one, no other file is touched, and besides that removal every
operation is a move onto a free name. -/
structure Rotated (file : Text) (maxFiles : Nat) (before after : Files) : Prop where
  moved : ∀ i < maxFiles, ∀ content, before.files (slot file i) = some content →
    after.files (slot file (i + 1)) = some content
  vacated : ∀ i < maxFiles, (i = 0 ∨ before.files (slot file (i - 1)) = none) →
    after.files (slot file i) = none
  kept : before.files (slot file (maxFiles - 1)) = none →
    after.files (slot file maxFiles) = before.files (slot file maxFiles)
  others : ∀ path, (∀ i ≤ maxFiles, path ≠ slot file i) → after.files path = before.files path
  effects : ∃ moves, after.history = before.history ++ discarded file maxFiles before ++ moves ∧
    ∀ effect ∈ moves, ∃ source target, effect = .moved source target none

namespace Logger

variable (logger : Logger) (file : Text)

/-- The loop over all names is a rotation. -/
theorem rotated_rotateFrom (positive : 1 ≤ logger.maxFiles) (disk : Files) :
    Rotated file logger.maxFiles disk (logger.rotateFrom file logger.maxFiles disk) := by
  obtain ⟨last, maxFiles⟩ := Nat.exists_eq_add_of_le' positive
  have injective := slot_injective file
  cases present : disk.files (slot file last) with
  | none =>
      rw [rotateFrom_of_missing logger file maxFiles present, maxFiles]
      refine ⟨?_, ?_, ?_, ?_, ?_⟩
      · intro i below content found
        rcases Nat.lt_succ_iff_lt_or_eq.mp below with earlier | rfl
        · rw [Disk.files_shiftUp_succ injective present earlier, found]
        · rw [present] at found
          contradiction
      · intro i below vacant
        exact Disk.files_shiftUp_vacated injective present (Nat.le_of_lt_succ below) vacant
      · intro _
        exact Disk.files_shiftUp_of_ne injective present fun i within =>
          injective.ne (Nat.ne_of_gt (Nat.lt_succ_of_le within))
      · intro path outside
        exact Disk.files_shiftUp_of_ne injective present fun i within =>
          outside i (Nat.le_succ_of_le within)
      · obtain ⟨moves, movesEq, onlyMoves⟩ := Disk.movedOnly_shiftUp injective present
        exact ⟨moves, by simp [movesEq, discarded, Disk.exists?, present], onlyMoves⟩
  | some newest =>
      rw [rotateFrom_of_present logger file maxFiles present, maxFiles]
      have free : (disk.unlink (slot file (last + 1))).files (slot file (last + 1)) = none := by
        rw [Disk.files_unlink, Function.update_self]
      have stays : ∀ path, path ≠ slot file (last + 1) →
          (disk.unlink (slot file (last + 1))).files path = disk.files path := by
        intro path different
        rw [Disk.files_unlink, Function.update_of_ne different]
      have staysBelow : ∀ i < last + 1,
          (disk.unlink (slot file (last + 1))).files (slot file i) = disk.files (slot file i) :=
        fun i below => stays _ (injective.ne (Nat.ne_of_lt below))
      refine ⟨?_, ?_, ?_, ?_, ?_⟩
      · intro i below content found
        rw [Disk.files_shiftUp_succ injective free below, staysBelow i below, found]
      · intro i below vacant
        apply Disk.files_shiftUp_vacated injective free below.le
        rw [staysBelow _ (Nat.lt_of_le_of_lt (Nat.sub_le i 1) below)]
        exact vacant
      · intro missing
        rw [Nat.add_sub_cancel, present] at missing
        contradiction
      · intro path outside
        rw [Disk.files_shiftUp_of_ne injective free outside, stays path (outside _ le_rfl)]
      · obtain ⟨moves, movesEq, onlyMoves⟩ := Disk.movedOnly_shiftUp injective free
        refine ⟨moves, ?_, onlyMoves⟩
        rw [movesEq, Disk.history_unlink]
        simp [discarded, Disk.exists?, present]

/-- The check finds a file that has grown to its limit. -/
def Due (now : ℤ) (disk : Files) : Prop :=
  logger.file = some file ∧ rotateCheckIntervalMs ≤ now - logger.lastRotateCheckAt ∧
    ∃ content, disk.files file = some content ∧
      logger.maxFileSizeMb * 1024 * 1024 ≤ content.length

/-- A rotation that is due moves the log and every backup but the last to the
next name, and discards no more than the last backup. -/
theorem rotated_rotateIfNeeded {logger : Logger} {file : Text} {now : ℤ} {disk : Files}
    (positive : 1 ≤ logger.maxFiles) (due : logger.Due file now disk) :
    Rotated file logger.maxFiles disk (logger.rotateIfNeeded now disk).2 := by
  obtain ⟨isFile, checked, content, found, large⟩ := due
  have rotates : (logger.rotateIfNeeded now disk).2 =
      logger.rotateFrom file logger.maxFiles disk := by
    simp [rotateIfNeeded, isFile, not_lt.mpr checked, rotateBySize, found, not_lt.mpr large]
  rw [rotates]
  exact rotated_rotateFrom logger file positive disk

/-- A log and three of its four backups, each of one byte: the second is
missing. -/
def gappedFiles : Files where
  files path :=
    if path = "log".toList then some [65]
    else if path = "log.1".toList then some [66]
    else if path = "log.3".toList then some [67]
    else if path = "log.4".toList then some [68] else none
  history := []

/-- The files on both sides of the gap move by one, over the last backup. -/
theorem rotated_rotateIfNeeded_gappedFiles :
    let after := (rotateIfNeeded ⟨some "log".toList, 1 / (1024 * 1024), 4, 0⟩ 30000 gappedFiles).2
    after.files "log".toList = none ∧ after.files "log.1".toList = some [65] ∧
      after.files "log.2".toList = some [66] ∧ after.files "log.3".toList = none ∧
      after.files "log.4".toList = some [67] ∧ Rotated "log".toList 4 gappedFiles after := by
  let logger : Logger := ⟨some "log".toList, 1 / (1024 * 1024), 4, 0⟩
  have due : logger.Due "log".toList 30000 gappedFiles :=
    ⟨rfl, by decide, [65], rfl, by norm_num [logger]⟩
  have rotated := rotated_rotateIfNeeded (by decide) due
  exact ⟨rotated.vacated 0 (by decide) (Or.inl rfl), rotated.moved 0 (by decide) [65] rfl,
    rotated.moved 1 (by decide) [66] rfl, rotated.vacated 3 (by decide) (Or.inr rfl),
    rotated.moved 3 (by decide) [67] rfl, rotated⟩

/-- A check that finds nothing to do touches no file. -/
theorem rotateIfNeeded_of_not_due {logger : Logger} {now : ℤ} {disk : Files}
    (idle : ∀ file, ¬logger.Due file now disk) : (logger.rotateIfNeeded now disk).2 = disk := by
  unfold rotateIfNeeded
  split
  · rfl
  · next file isFile =>
      split
      · rfl
      · next checked =>
          rw [rotateBySize]
          split
          · rfl
          · next content found =>
              apply if_pos
              exact not_le.mp fun large =>
                idle file ⟨isFile, not_lt.mp checked, content, found, large⟩

end Logger

end ZcashSoloPool.Logging
