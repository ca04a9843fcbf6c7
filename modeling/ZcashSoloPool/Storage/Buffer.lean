import Mathlib.Data.List.Basic

/-!
# Buffers that are filled in place

A store outside the buffer is no result.  The loop that stores computed values
in consecutive places replaces exactly these places, and needs all of them to
be inside.
-/

namespace ZcashSoloPool.Storage

universe u

variable {α : Type u}

/-- `buffer[index] = value`, with `none` for an index outside the buffer. -/
def store (buffer : List α) (index : Nat) (value : α) : Option (List α) :=
  if index < buffer.length then some (buffer.set index value) else none

/-- The loop `buffer[offset + x] = value(x)` for the `count` values of `x` from
`start` on. -/
def storeLoop (value : Nat → Option α) (offset start count : Nat) (buffer : List α) :
    Option (List α) :=
  (List.range' start count).foldlM
    (fun buffer x => (value x).bind fun stored => store buffer (offset + x) stored) buffer

@[simp]
theorem store_middle (front back : List α) (old value : α) :
    store (front ++ old :: back) front.length value = some (front ++ value :: back) := by
  simp [store]

theorem storeLoop_succ (value : Nat → Option α) (offset start count : Nat) (buffer : List α) :
    storeLoop value offset start (count + 1) buffer =
      ((value start).bind (store buffer (offset + start))).bind
        (storeLoop value offset (start + 1) count) := by
  simp only [storeLoop, List.range'_succ, List.foldlM_cons]
  rfl

/-- Behind a front that is left alone, the loop replaces the places from
`offset + start` on by the values. -/
theorem storeLoop_append {value : Nat → Option α} {result : Nat → α} {offset start count : Nat}
    (front back : List α) (place : front.length = offset + start) (room : count ≤ back.length)
    (computes : ∀ x, start ≤ x → x < start + count → value x = some (result x)) :
    storeLoop value offset start count (front ++ back) =
      some ((front ++ (List.range' start count).map result) ++ back.drop count) := by
  induction count generalizing start front back with
  | zero => simp [storeLoop]
  | succ count ih =>
      cases back with
      | nil => simp at room
      | cons old rest =>
          have first := computes start (Nat.le_refl _) (by omega)
          have placeLater : (front ++ [result start]).length = offset + (start + 1) := by
            rw [List.length_append, place]
            rfl
          have later := ih (front ++ [result start]) rest placeLater (by simpa using room)
            fun x lower upper => computes x (by omega) (by omega)
          rw [storeLoop_succ, first, Option.bind_some, ← place, store_middle, Option.bind_some]
          simpa [List.range'_succ] using later

end ZcashSoloPool.Storage
