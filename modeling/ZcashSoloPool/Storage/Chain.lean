import ZcashSoloPool.Storage.Disk
import Mathlib.Data.List.Basic

/-!
# Reading a chain of files

A chain of numbered files that only grows at its first file holds a stream: its
contents from the last file to the first, one behind the other.  What an
operation destroyed is in the history of the disk, so that the stream can be
accounted for when the chain is shifted up.
-/

namespace ZcashSoloPool.Storage

universe u v

variable {Path : Type u} {α : Type v}

/-- What an operation destroyed. -/
def Effect.destroyed : Effect Path (List α) → List α
  | removed _ content => content
  | moved _ _ replaced => replaced.getD []

namespace Disk

/-- What all operations destroyed, oldest first. -/
def lost (disk : Disk Path (List α)) : List α :=
  disk.history.flatMap Effect.destroyed

/-- What a path holds, which is nothing where there is no file. -/
def contentAt (disk : Disk Path (List α)) (path : Path) : List α :=
  (disk.files path).getD []

/-- The first files of a chain, read from the last one to the first. -/
def readChain (disk : Disk Path (List α)) (slot : Nat → Path) : Nat → List α
  | 0 => []
  | count + 1 => disk.contentAt (slot count) ++ disk.readChain slot count

/-- Add to the end of a file, which is created if there is none. -/
def append [DecidableEq Path] (disk : Disk Path (List α)) (path : Path) (chunk : List α) :
    Disk Path (List α) :=
  { disk with files := Function.update disk.files path (some (disk.contentAt path ++ chunk)) }

theorem contentAt_of_none {disk : Disk Path (List α)} {path : Path}
    (missing : disk.files path = none) : disk.contentAt path = [] := by
  rw [contentAt, missing, Option.getD_none]

theorem contentAt_congr {before after : Disk Path (List α)} {source target : Path}
    (same : after.files target = before.files source) :
    after.contentAt target = before.contentAt source := by
  rw [contentAt, contentAt, same]

/-- A chain that was shifted up shows the stream of one file less before. -/
theorem readChain_shifted {before after : Disk Path (List α)} {slot : Nat → Path} {count : Nat}
    (shifted : ∀ i < count, after.files (slot (i + 1)) = before.files (slot i))
    (free : after.files (slot 0) = none) :
    after.readChain slot (count + 1) = before.readChain slot count := by
  induction count with
  | zero => rw [readChain, readChain, readChain, contentAt_of_none free, List.append_nil]
  | succ count ih =>
      rw [readChain, ih fun i below => shifted i (Nat.lt_succ_of_lt below), readChain,
        contentAt_congr (shifted count (Nat.lt_succ_self count))]

section Append

variable [DecidableEq Path]

@[simp]
theorem lost_append (disk : Disk Path (List α)) (path : Path) (chunk : List α) :
    (disk.append path chunk).lost = disk.lost :=
  rfl

/-- What is added to the first file is added to the stream. -/
theorem readChain_append {slot : Nat → Path} (injective : Function.Injective slot)
    (disk : Disk Path (List α)) (chunk : List α) (count : Nat) :
    (disk.append (slot 0) chunk).readChain slot (count + 1) =
      disk.readChain slot (count + 1) ++ chunk := by
  induction count with
  | zero => simp [readChain, contentAt, append]
  | succ count ih =>
      have other : slot (count + 1) ≠ slot 0 := injective.ne (Nat.succ_ne_zero count)
      have kept : (disk.append (slot 0) chunk).contentAt (slot (count + 1)) =
          disk.contentAt (slot (count + 1)) :=
        contentAt_congr (Function.update_of_ne other _ _)
      calc (disk.append (slot 0) chunk).readChain slot (count + 1 + 1)
          = disk.contentAt (slot (count + 1)) ++ (disk.readChain slot (count + 1) ++ chunk) := by
            rw [← ih, ← kept]
            rfl
        _ = disk.readChain slot (count + 1 + 1) ++ chunk := (List.append_assoc _ _ _).symm

end Append

end Disk

end ZcashSoloPool.Storage
