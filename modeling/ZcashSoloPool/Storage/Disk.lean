import Mathlib.Logic.Function.Basic

/-!
# Files that are moved and removed

A disk maps paths to contents and remembers what was done to it: a content that
was removed, and a content that was moved together with the one it replaced.
Shifting a chain of files up, from the last to the first, empties each place
before the next content arrives.
-/

namespace ZcashSoloPool.Storage

universe u v

/-- What an operation did. -/
inductive Effect (Path : Type u) (Content : Type v) where
  | removed (path : Path) (content : Content)
  | moved (source target : Path) (replaced : Option Content)

/-- The files and what was done to them, oldest first. -/
structure Disk (Path : Type u) (Content : Type v) where
  files : Path → Option Content
  history : List (Effect Path Content)

namespace Disk

variable {Path : Type u} {Content : Type v} [DecidableEq Path]

/-- There is a file. -/
def exists? (disk : Disk Path Content) (path : Path) : Bool :=
  (disk.files path).isSome

/-- Remove a file. -/
def unlink (disk : Disk Path Content) (path : Path) : Disk Path Content :=
  match disk.files path with
  | none => disk
  | some content =>
      { files := Function.update disk.files path none
        history := disk.history ++ [.removed path content] }

/-- Move a file, over the one that has the new name. -/
def rename (disk : Disk Path Content) (source target : Path) : Disk Path Content :=
  match disk.files source with
  | none => disk
  | some content =>
      { files := Function.update (Function.update disk.files source none) target (some content)
        history := disk.history ++ [.moved source target (disk.files target)] }

/-- Move a file up by one place if it exists. -/
def moveUp (slot : Nat → Path) (place : Nat) (disk : Disk Path Content) : Disk Path Content :=
  if disk.exists? (slot place) then disk.rename (slot place) (slot (place + 1)) else disk

/-- Move the files of the places below a number up, the last one first. -/
def shiftUp (slot : Nat → Path) : Nat → Disk Path Content → Disk Path Content
  | 0, disk => disk
  | count + 1, disk => shiftUp slot count (moveUp slot count disk)

/-- The history has grown by moves onto free places only. -/
def MovedOnly (before after : Disk Path Content) : Prop :=
  ∃ moves : List (Effect Path Content), after.history = before.history ++ moves ∧
    ∀ effect ∈ moves, ∃ source target, effect = .moved source target none

omit [DecidableEq Path] in
theorem MovedOnly.refl (disk : Disk Path Content) : MovedOnly disk disk :=
  ⟨[], (List.append_nil _).symm, by simp⟩

omit [DecidableEq Path] in
theorem MovedOnly.trans {first second third : Disk Path Content}
    (earlier : MovedOnly first second) (later : MovedOnly second third) :
    MovedOnly first third := by
  obtain ⟨moves, movesEq, movesFree⟩ := earlier
  obtain ⟨more, moreEq, moreFree⟩ := later
  refine ⟨moves ++ more, by rw [moreEq, movesEq, List.append_assoc], ?_⟩
  intro effect member
  rcases List.mem_append.mp member with member | member
  · exact movesFree effect member
  · exact moreFree effect member

/-! ## One operation -/

/-- A removed file is gone and every other one stays. -/
theorem files_unlink (disk : Disk Path Content) (path : Path) :
    (disk.unlink path).files = Function.update disk.files path none := by
  cases content : disk.files path with
  | none =>
      rw [← content, Function.update_eq_self]
      simp [unlink, content]
  | some removed => simp [unlink, content]

theorem history_unlink (disk : Disk Path Content) (path : Path) :
    (disk.unlink path).history =
      disk.history ++ ((disk.files path).map (Effect.removed path)).toList := by
  cases content : disk.files path with
  | none => simp [unlink, content]
  | some removed => simp [unlink, content]

/-- The content of a place goes up to a free place and leaves its own. -/
theorem files_moveUp {slot : Nat → Path} {place : Nat} {disk : Disk Path Content}
    (free : disk.files (slot (place + 1)) = none) :
    (moveUp slot place disk).files =
      Function.update (Function.update disk.files (slot place) none) (slot (place + 1))
        (disk.files (slot place)) := by
  cases content : disk.files (slot place) with
  | none =>
      have stays : moveUp slot place disk = disk := by simp [moveUp, exists?, content]
      have vacant : Function.update disk.files (slot place) none = disk.files := by
        rw [← content]
        exact Function.update_eq_self (slot place) disk.files
      rw [stays, vacant, ← free]
      exact (Function.update_eq_self (slot (place + 1)) disk.files).symm
  | some moved => simp [moveUp, exists?, rename, content]

/-- The place that was moved from is free afterwards. -/
theorem files_moveUp_self {slot : Nat → Path} (injective : Function.Injective slot) {place : Nat}
    {disk : Disk Path Content} (free : disk.files (slot (place + 1)) = none) :
    (moveUp slot place disk).files (slot place) = none := by
  have different : slot place ≠ slot (place + 1) :=
    injective.ne (Nat.ne_of_lt (Nat.lt_succ_self place))
  rw [files_moveUp free, Function.update_of_ne different, Function.update_self]

/-- A move onto a free place replaces nothing. -/
theorem movedOnly_moveUp {slot : Nat → Path} {place : Nat} {disk : Disk Path Content}
    (free : disk.files (slot (place + 1)) = none) : MovedOnly disk (moveUp slot place disk) := by
  cases content : disk.files (slot place) with
  | none =>
      have stays : moveUp slot place disk = disk := by simp [moveUp, exists?, content]
      rw [stays]
      exact MovedOnly.refl disk
  | some moved =>
      refine ⟨[.moved (slot place) (slot (place + 1)) none], ?_, ?_⟩
      · simp [moveUp, exists?, rename, content, free]
      · intro effect member
        exact ⟨_, _, List.mem_singleton.mp member⟩

/-! ## The chain -/

section Chain

variable {slot : Nat → Path} (injective : Function.Injective slot)
include injective

/-- Files that are in no place of the chain stay. -/
theorem files_shiftUp_of_ne {count : Nat} {disk : Disk Path Content} {path : Path}
    (free : disk.files (slot count) = none) (outside : ∀ place ≤ count, path ≠ slot place) :
    (shiftUp slot count disk).files path = disk.files path := by
  induction count generalizing disk with
  | zero => rfl
  | succ count ih =>
      rw [shiftUp, ih (files_moveUp_self injective free)
        fun place below => outside place (Nat.le_succ_of_le below), files_moveUp free,
        Function.update_of_ne (outside (count + 1) (Nat.le_refl _)),
        Function.update_of_ne (outside count (Nat.le_succ count))]

/-- The first place is free afterwards. -/
theorem files_shiftUp_first {count : Nat} {disk : Disk Path Content}
    (free : disk.files (slot count) = none) :
    (shiftUp slot count disk).files (slot 0) = none := by
  induction count generalizing disk with
  | zero => exact free
  | succ count ih => exact ih (files_moveUp_self injective free)

/-- Every content below the free place goes up by one. -/
theorem files_shiftUp_succ {count place : Nat} {disk : Disk Path Content}
    (free : disk.files (slot count) = none) (below : place < count) :
    (shiftUp slot count disk).files (slot (place + 1)) = disk.files (slot place) := by
  induction count generalizing disk with
  | zero => contradiction
  | succ count ih =>
      have vacated := files_moveUp_self injective free
      have moved := files_moveUp free
      rw [shiftUp]
      rcases Nat.lt_succ_iff_lt_or_eq.mp below with earlier | rfl
      · have notLast : slot place ≠ slot count := injective.ne (Nat.ne_of_lt earlier)
        have notFree : slot place ≠ slot (count + 1) := injective.ne (Nat.ne_of_lt below)
        rw [ih vacated earlier, moved, Function.update_of_ne notFree,
          Function.update_of_ne notLast]
      · have outside : ∀ other ≤ place, slot (place + 1) ≠ slot other := fun other within =>
          injective.ne (Nat.ne_of_gt (Nat.lt_succ_of_le within))
        rw [files_shiftUp_of_ne injective vacated outside, moved, Function.update_self]

/-- A place is free afterwards if nothing went there. -/
theorem files_shiftUp_vacated {count place : Nat} {disk : Disk Path Content}
    (free : disk.files (slot count) = none) (within : place ≤ count)
    (vacant : place = 0 ∨ disk.files (slot (place - 1)) = none) :
    (shiftUp slot count disk).files (slot place) = none := by
  cases place with
  | zero => exact files_shiftUp_first injective free
  | succ place =>
      rw [files_shiftUp_succ injective free within]
      exact vacant.resolve_left (Nat.succ_ne_zero place)

/-- No content is replaced on the way. -/
theorem movedOnly_shiftUp {count : Nat}
    {disk : Disk Path Content} (free : disk.files (slot count) = none) :
    MovedOnly disk (shiftUp slot count disk) := by
  induction count generalizing disk with
  | zero => exact MovedOnly.refl disk
  | succ count ih =>
      exact (movedOnly_moveUp free).trans (ih (files_moveUp_self injective free))

end Chain

end Disk

end ZcashSoloPool.Storage
