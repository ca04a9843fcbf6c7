import ZcashSoloPool.Collections.OrderedMap
import Mathlib.Order.Lattice
import Mathlib.Data.List.Induction

/-!
# Deadlines that are forgotten late

A map from keys to deadlines loses an entry when somebody asks for it behind its
deadline, or when all expired entries are swept out.  Which of them have been
lost depends on the order of questions and sweeps, but no answer does: a key is
alive if and only if the last deadline it was given is still to come.
-/

namespace ZcashSoloPool.Limits

open ZcashSoloPool.Collections

universe u v

variable {K : Type u} {Time : Type v} [DecidableEq K]

/-- The last deadline that a key was given. -/
def latest : List (K × Time) → K → Option Time
  | [], _ => none
  | (given, deadline) :: later, key =>
      (latest later key).or (if given = key then some deadline else none)

theorem latest_append (first second : List (K × Time)) (key : K) :
    latest (first ++ second) key = (latest second key).or (latest first key) := by
  induction first with
  | nil => simp [latest]
  | cons entry rest ih => rw [List.cons_append, latest, ih, latest, Option.or_assoc]

theorem latest_singleton (given key : K) (deadline : Time) :
    latest [(given, deadline)] key = if given = key then some deadline else none :=
  Option.none_or

/-- A key that has a deadline was given it. -/
theorem mem_of_latest {history : List (K × Time)} {key : K} {deadline : Time}
    (found : latest history key = some deadline) : (key, deadline) ∈ history := by
  induction history with
  | nil => contradiction
  | cons entry rest ih =>
      rw [latest, Option.or_eq_some_iff] at found
      rcases found with later | ⟨-, first⟩
      · exact List.mem_cons_of_mem _ (ih later)
      · split at first
        · next same =>
            cases first
            rw [← same]
            exact List.mem_cons_self
        · contradiction

variable [LinearOrder Time]

/-- The map has the last deadlines, but for some that are over. -/
structure Remembers (history : List (K × Time)) (now : Time) (map : OrderedMap K Time) : Prop where
  held : ∀ key deadline, map.get? key = some deadline → latest history key = some deadline
  lost : ∀ key deadline, latest history key = some deadline → map.get? key = none → deadline ≤ now

section Operations

variable {history : List (K × Time)} {now : Time} {map : OrderedMap K Time}

theorem remembers_empty (now : Time) : Remembers ([] : List (K × Time)) now .empty where
  held _ _ found := by contradiction
  lost _ _ found := by contradiction

/-- Time passes. -/
theorem Remembers.mono (remembers : Remembers history now map) {later : Time} (order : now ≤ later) :
    Remembers history later map where
  held := remembers.held
  lost key deadline given gone := (remembers.lost key deadline given gone).trans order

/-- A key is given a deadline. -/
theorem Remembers.set (remembers : Remembers history now map) (given : K) (deadline : Time) :
    Remembers (history ++ [(given, deadline)]) now (map.set given deadline) := by
  constructor
  · intro key found isFound
    rw [latest_append, latest_singleton]
    by_cases same : given = key
    · subst same
      rw [OrderedMap.get?_set_self] at isFound
      rw [if_pos rfl, isFound, Option.some_or]
    · rw [OrderedMap.get?_set_of_ne (Ne.symm same)] at isFound
      rw [if_neg same, Option.none_or]
      exact remembers.held key found isFound
  · intro key found isGiven gone
    rw [latest_append, latest_singleton] at isGiven
    by_cases same : given = key
    · subst same
      rw [OrderedMap.get?_set_self] at gone
      contradiction
    · rw [OrderedMap.get?_set_of_ne (Ne.symm same)] at gone
      rw [if_neg same, Option.none_or] at isGiven
      exact remembers.lost key found isGiven gone

/-- An entry that is over is removed. -/
theorem Remembers.delete (remembers : Remembers history now map) {key : K} {deadline : Time}
    (found : map.get? key = some deadline) (ended : deadline ≤ now) :
    Remembers history now (map.delete key) := by
  constructor
  · intro other held isHeld
    by_cases same : other = key
    · rw [same, OrderedMap.get?_delete_self] at isHeld
      contradiction
    · rw [OrderedMap.get?_delete_of_ne same] at isHeld
      exact remembers.held other held isHeld
  · intro other given isGiven gone
    by_cases same : other = key
    · subst same
      rw [remembers.held other deadline found] at isGiven
      cases isGiven
      exact ended
    · rw [OrderedMap.get?_delete_of_ne same] at gone
      exact remembers.lost other given isGiven gone

/-- All entries that are over are removed. -/
theorem Remembers.sweep (remembers : Remembers history now map) :
    Remembers history now (map.filter fun _ deadline => !decide (deadline ≤ now)) := by
  constructor
  · intro key deadline found
    exact remembers.held key deadline (OrderedMap.get?_filter_eq_some_iff.mp found).1
  · intro key deadline given gone
    by_contra alive
    cases there : map.get? key with
    | none => exact alive (remembers.lost key deadline given there)
    | some held =>
        rw [remembers.held key held there] at given
        cases given
        have kept : (map.filter fun _ deadline => !decide (deadline ≤ now)).get? key =
            some deadline :=
          OrderedMap.get?_filter_eq_some_iff.mpr ⟨there, by simpa using alive⟩
        rw [gone] at kept
        contradiction

/-- Whether a key is alive is decided by the last deadline it was given. -/
theorem Remembers.alive_iff (remembers : Remembers history now map) {key : K} :
    (∃ deadline, map.get? key = some deadline ∧ now < deadline) ↔
      ∃ deadline, latest history key = some deadline ∧ now < deadline := by
  constructor
  · rintro ⟨deadline, found, alive⟩
    exact ⟨deadline, remembers.held key deadline found, alive⟩
  · rintro ⟨deadline, given, alive⟩
    cases there : map.get? key with
    | none => exact absurd (remembers.lost key deadline given there) (not_le.mpr alive)
    | some held =>
        rw [remembers.held key held there] at given
        cases given
        exact ⟨deadline, rfl, alive⟩

end Operations

end ZcashSoloPool.Limits
