import Mathlib.Algebra.Order.Group.Basic
import Mathlib.Algebra.Order.Group.Unbundled.Basic
import Mathlib.Data.List.Pairwise

/-!
# Fixed windows

A limiter that counts requests in windows.  The first request opens a window,
and so does the first request after the last window has run for its width; a
request is let through while its window has counted no more than the limit.  An
interval as long as a window meets two windows at most, so that it sees no more
than twice the limit.
-/

namespace ZcashSoloPool.Limits

universe u

/-- A window: the requests it has counted and the time of the first one. -/
structure Window (Time : Type u) where
  count : Nat
  start : Time
  deriving DecidableEq, Repr

section Counting

variable {Time : Type u} [LE Time] [DecidableLE Time]

/-- How many of the times lie between two bounds, these included. -/
def within (first last : Time) (times : List Time) : Nat :=
  times.countP fun time => decide (first ≤ time) && decide (time ≤ last)

/-- Nothing outside the bounds is counted. -/
theorem within_eq_zero {first last : Time} {times : List Time}
    (outside : ∀ time ∈ times, ¬(first ≤ time ∧ time ≤ last)) : within first last times = 0 := by
  rw [within, List.countP_eq_zero]
  intro time member
  simpa using outside time member

theorem within_cons_le (first last now : Time) (times : List Time) :
    within first last (now :: times) ≤ within first last times + 1 := by
  rw [within, List.countP_cons]
  split
  · exact Nat.le_refl _
  · exact Nat.le_succ _

theorem within_cons_of_outside {first last now : Time} (outside : ¬(first ≤ now ∧ now ≤ last))
    (times : List Time) : within first last (now :: times) = within first last times := by
  rw [within, List.countP_cons_of_neg (by simpa using outside), within]

end Counting

section Definitions

variable {Time : Type u} [Sub Time] [LE Time] [DecidableLE Time]

/-- The window that counts a request, given the last window. -/
def Window.next (width : Time) (last : Option (Window Time)) (now : Time) : Window Time :=
  match last with
  | none => ⟨1, now⟩
  | some window =>
      if width ≤ now - window.start then ⟨1, now⟩ else ⟨window.count + 1, window.start⟩

/-- The answers to requests at the given times. -/
def answers (limit : Nat) (width : Time) : Option (Window Time) → List Time → List Bool
  | _, [] => []
  | last, now :: rest =>
      let window := Window.next width last now
      decide (window.count ≤ limit) :: answers limit width (some window) rest

/-- The times of the requests that are let through. -/
def allowed (limit : Nat) (width : Time) : Option (Window Time) → List Time → List Time
  | _, [] => []
  | last, now :: rest =>
      let window := Window.next width last now
      if window.count ≤ limit then now :: allowed limit width (some window) rest
      else allowed limit width (some window) rest

/-- The last window after requests at the given times. -/
def lastWindow (width : Time) (last : Option (Window Time)) (times : List Time) :
    Option (Window Time) :=
  times.foldl (fun window now => some (Window.next width window now)) last

@[simp]
theorem length_answers (limit : Nat) (width : Time) (last : Option (Window Time))
    (times : List Time) : (answers limit width last times).length = times.length := by
  induction times generalizing last with
  | nil => rfl
  | cons now rest ih => simp [answers, ih]

theorem answers_append (limit : Nat) (width : Time) (last : Option (Window Time))
    (before after : List Time) :
    answers limit width last (before ++ after) =
      answers limit width last before ++
        answers limit width (lastWindow width last before) after := by
  induction before generalizing last with
  | nil => rfl
  | cons now rest ih => simp [answers, lastWindow, ih]

/-- The requests let through are those answered with `true`. -/
theorem allowed_eq (limit : Nat) (width : Time) (last : Option (Window Time))
    (times : List Time) :
    allowed limit width last times =
      ((times.zip (answers limit width last times)).filter Prod.snd).map Prod.fst := by
  induction times generalizing last with
  | nil => rfl
  | cons now rest ih =>
      by_cases fits : (Window.next width last now).count ≤ limit <;>
        simp [allowed, answers, fits, ih]

theorem mem_of_mem_allowed {limit : Nat} {width : Time} {last : Option (Window Time)}
    {times : List Time} {time : Time} (member : time ∈ allowed limit width last times) :
    time ∈ times := by
  rw [allowed_eq] at member
  obtain ⟨entry, entryMember, rfl⟩ := List.mem_map.mp member
  exact (List.of_mem_zip (List.mem_filter.mp entryMember).1).1

/-- A window that is open started at one of the requests. -/
theorem start_mem_of_lastWindow {width : Time} {times : List Time} {window : Window Time}
    (opened : lastWindow width none times = some window) : window.start ∈ times := by
  have general : ∀ (last : Option (Window Time)) (times : List Time),
      lastWindow width last times = some window →
        window.start ∈ times ∨ ∃ earlier, last = some earlier ∧ window.start = earlier.start := by
    intro last times
    induction times generalizing last with
    | nil =>
        intro equal
        exact Or.inr ⟨window, equal, rfl⟩
    | cons now rest ih =>
        intro equal
        rcases ih (some (Window.next width last now)) equal with member | ⟨_, same, startEq⟩
        · exact Or.inl (List.mem_cons_of_mem now member)
        · cases same
          rw [startEq]
          cases last with
          | none => exact Or.inl List.mem_cons_self
          | some earlier =>
              rw [Window.next]
              split
              · exact Or.inl List.mem_cons_self
              · exact Or.inr ⟨earlier, rfl, rfl⟩
  rcases general none times opened with member | ⟨_, absurdity, _⟩
  · exact member
  · contradiction

end Definitions

/-! ## Requests after a silence -/

section Silence

variable {Time : Type u} [Sub Time] [LE Time] [DecidableLE Time]

/-- A window counts at most one request more than the last one did. -/
theorem count_next_le (width : Time) (last : Option (Window Time)) (now : Time) :
    (Window.next width last now).count ≤ (last.elim 0 Window.count) + 1 := by
  cases last with
  | none => exact Nat.le_refl _
  | some window =>
      rw [Window.next]
      split
      · exact Nat.le_add_left 1 window.count
      · exact Nat.le_refl _

/-- What the last window leaves of the limit is let through. -/
theorem answers_getElem?_of_lt {limit : Nat} (width : Time) (last : Option (Window Time))
    {times : List Time} {i : Nat} (left : last.elim 0 Window.count + i < limit)
    (listed : i < times.length) : (answers limit width last times)[i]? = some true := by
  induction times generalizing last i with
  | nil => simp at listed
  | cons now rest ih =>
      have counted := count_next_le width last now
      cases i with
      | zero => simp [answers, Nat.le_trans counted left]
      | succ i =>
          have later : (Window.next width last now).count + i < limit := by omega
          simpa [answers] using ih (some (Window.next width last now)) later
            (Nat.lt_of_succ_lt_succ listed)

end Silence

/-! ## Intervals -/

section Intervals

variable {Time : Type u} [AddCommGroup Time] [LinearOrder Time] [IsOrderedAddMonoid Time]

/-- After a silence as long as a window, requests up to the limit are let
through. -/
theorem answers_after_silence {limit : Nat} {width first : Time} {before after : List Time}
    (silence : ∀ time ∈ before, time + width ≤ first) {i : Nat} (below : i < limit)
    (listed : i < (first :: after).length) :
    (answers limit width none (before ++ first :: after))[before.length + i]? = some true := by
  rw [answers_append, List.getElem?_append_right (by simp), length_answers,
    Nat.add_sub_cancel_left]
  have fresh : Window.next width (lastWindow width none before) first = ⟨1, first⟩ := by
    cases opened : lastWindow width none before with
    | none => rfl
    | some window =>
        have early := silence window.start (start_mem_of_lastWindow opened)
        rw [Window.next, if_pos (le_sub_iff_add_le'.mpr early)]
  rw [answers, fresh]
  cases i with
  | zero => simp [Nat.succ_le_of_lt below]
  | succ i =>
      have later : (some (Window.mk 1 first)).elim 0 Window.count + i < limit := by
        simp only [Option.elim_some]
        omega
      simpa using answers_getElem?_of_lt width (some ⟨1, first⟩) later
        (Nat.lt_of_succ_lt_succ listed)

/-- A request is in its window, which has counted it. -/
theorem next_spec {width : Time} (wide : 0 < width) (last : Option (Window Time)) (now : Time) :
    1 ≤ (Window.next width last now).count ∧ now < (Window.next width last now).start + width := by
  have opens : now < now + width := lt_add_of_pos_right now wide
  cases last with
  | none => exact ⟨Nat.le_refl 1, opens⟩
  | some window =>
      rw [Window.next]
      split
      · exact ⟨Nat.le_refl 1, opens⟩
      · next running => exact ⟨Nat.le_add_left 1 _, lt_add_of_sub_left_lt (not_le.mp running)⟩

variable (limit : Nat) (width : Time)

omit [IsOrderedAddMonoid Time] in
/-- One request more is let through only if it fits into its window. -/
theorem within_allowed_cons_le (first last : Time) (window : Option (Window Time)) (now : Time)
    (rest : List Time) :
    within first last (allowed limit width window (now :: rest)) ≤
      within first last (allowed limit width (some (Window.next width window now)) rest) +
        if (Window.next width window now).count ≤ limit then 1 else 0 := by
  rw [allowed]
  split
  · exact within_cons_le first last now _
  · exact Nat.le_refl _

omit [IsOrderedAddMonoid Time] in
theorem within_allowed_eq_zero {first last : Time} {window : Option (Window Time)}
    {times : List Time} (late : ∀ time ∈ times, last < time) :
    within first last (allowed limit width window times) = 0 :=
  within_eq_zero fun time member between =>
    absurd between.2 (not_le.mpr (late time (mem_of_mem_allowed member)))

/-- An interval that begins before its window sees what is left of the window
and nothing after it. -/
theorem within_allowed_of_lt_start {first : Time} (window : Window Time) {times : List Time}
    (begins : first < window.start) (inOrder : times.Pairwise (· ≤ ·)) :
    within first (first + width) (allowed limit width (some window) times) ≤
      limit - window.count := by
  induction times generalizing window with
  | nil => exact Nat.zero_le _
  | cons now rest ih =>
      obtain ⟨later, restInOrder⟩ := List.pairwise_cons.mp inOrder
      by_cases passed : width ≤ now - window.start
      · have beyond : first + width < now :=
          lt_of_lt_of_le (add_lt_add_left begins width) (le_sub_iff_add_le'.mp passed)
        have late : ∀ time ∈ now :: rest, first + width < time := by
          intro time member
          rcases List.mem_cons.mp member with rfl | member
          · exact beyond
          · exact lt_of_lt_of_le beyond (later time member)
        rw [within_allowed_eq_zero limit width late]
        exact Nat.zero_le _
      · have same : Window.next width (some window) now = ⟨window.count + 1, window.start⟩ := by
          rw [Window.next, if_neg passed]
        have step := within_allowed_cons_le limit width first (first + width) (some window) now
          rest
        have others := ih ⟨window.count + 1, window.start⟩ begins restInOrder
        rw [same] at step
        dsimp only at step others
        split at step <;> omega

/-- An interval that begins before the end of a window sees what is left of the
window and one window more. -/
theorem within_allowed_of_lt_end {first : Time} (window : Window Time) {times : List Time}
    (begins : first < window.start + width) (inOrder : times.Pairwise (· ≤ ·)) :
    within first (first + width) (allowed limit width (some window) times) ≤
      limit - window.count + limit := by
  induction times generalizing window with
  | nil => exact Nat.zero_le _
  | cons now rest ih =>
      obtain ⟨later, restInOrder⟩ := List.pairwise_cons.mp inOrder
      have step := within_allowed_cons_le limit width first (first + width) (some window) now rest
      by_cases passed : width ≤ now - window.start
      · have next : Window.next width (some window) now = ⟨1, now⟩ := by
          rw [Window.next, if_pos passed]
        have afterwards : first < now := lt_of_lt_of_le begins (le_sub_iff_add_le'.mp passed)
        have others := within_allowed_of_lt_start limit width ⟨1, now⟩ afterwards restInOrder
        rw [next] at step
        dsimp only at step others
        split at step <;> omega
      · have same : Window.next width (some window) now = ⟨window.count + 1, window.start⟩ := by
          rw [Window.next, if_neg passed]
        have others := ih ⟨window.count + 1, window.start⟩ begins restInOrder
        rw [same] at step
        dsimp only at step others
        split at step <;> omega

/-- An interval as long as a window sees at most twice the limit. -/
theorem within_allowed_le {width : Time} (wide : 0 < width) {times : List Time}
    (inOrder : times.Pairwise (· ≤ ·)) (first : Time) (last : Option (Window Time)) :
    within first (first + width) (allowed limit width last times) ≤ 2 * limit := by
  induction times generalizing last with
  | nil => exact Nat.zero_le _
  | cons now rest ih =>
      obtain ⟨-, restInOrder⟩ := List.pairwise_cons.mp inOrder
      by_cases early : now < first
      · have skipped : within first (first + width) (allowed limit width last (now :: rest)) =
            within first (first + width)
              (allowed limit width (some (Window.next width last now)) rest) := by
          rw [allowed]
          split
          · exact within_cons_of_outside (fun between => not_le.mpr early between.1) _
          · rfl
        rw [skipped]
        exact ih restInOrder _
      · obtain ⟨counted, inside⟩ := next_spec wide last now
        have begins : first < (Window.next width last now).start + width :=
          lt_of_le_of_lt (not_lt.mp early) inside
        have step := within_allowed_cons_le limit width first (first + width) last now rest
        have others := within_allowed_of_lt_end limit width _ begins restInOrder
        split at step <;> omega

end Intervals

end ZcashSoloPool.Limits
