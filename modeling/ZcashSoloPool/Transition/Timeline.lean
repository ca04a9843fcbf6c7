import ZcashSoloPool.Transition.Run

/-!
# Timed runs

Some events of a run read a clock that does not go back.  What a state holds is
held until the next reading, so that a run tells which values were held within
some time before now.
-/

namespace ZcashSoloPool.Transition

universe u v w

variable {State : Type u} {Event : Type v} {Value : Type w}

section Readings

variable (clock : Event → Option Nat)

/-- The clock does not go back from one reading to the next, nor to now. -/
def Chronological (events : List Event) (now : Nat) : Prop :=
  (events.filterMap clock ++ [now]).Pairwise (· ≤ ·)

instance (events : List Event) (now : Nat) : Decidable (Chronological clock events now) :=
  inferInstanceAs (Decidable (List.Pairwise _ _))

variable {clock}

theorem chronological_iff {events : List Event} {now : Nat} :
    Chronological clock events now ↔
      (events.filterMap clock).Pairwise (· ≤ ·) ∧ ∀ time ∈ events.filterMap clock, time ≤ now := by
  rw [Chronological, List.pairwise_append]
  simp only [List.pairwise_singleton, List.mem_singleton, forall_eq, true_and]

/-- Every part of a run is in order. -/
theorem Chronological.of_append {first second : List Event} {now : Nat}
    (inOrder : Chronological clock (first ++ second) now) : Chronological clock first now := by
  rw [chronological_iff, List.filterMap_append, List.pairwise_append] at inOrder
  rw [chronological_iff]
  constructor
  · exact inOrder.1.1
  · intro time member
    exact inOrder.2 time (List.mem_append_left _ member)

theorem Chronological.of_append_right {first second : List Event} {now : Nat}
    (inOrder : Chronological clock (first ++ second) now) : Chronological clock second now := by
  rw [Chronological, List.filterMap_append, List.append_assoc, List.pairwise_append] at inOrder
  exact inOrder.2.1

/-- The events before a reading are earlier than it. -/
theorem Chronological.before {first later : List Event} {event : Event} {time now : Nat}
    (inOrder : Chronological clock (first ++ event :: later) now)
    (reads : clock event = some time) :
    Chronological clock first time := by
  rw [chronological_iff, List.filterMap_append, List.filterMap_cons_some reads,
    List.pairwise_append] at inOrder
  rw [chronological_iff]
  constructor
  · exact inOrder.1.1
  · intro earlier member
    exact inOrder.1.2.2 earlier member time List.mem_cons_self

/-- The events after a reading are later than it. -/
theorem Chronological.le_of_mem {first later : List Event} {event : Event} {time now : Nat}
    (inOrder : Chronological clock (first ++ event :: later) now)
    (reads : clock event = some time) :
    ∀ reading ∈ (event :: later).filterMap clock ++ [now], time ≤ reading := by
  rw [Chronological, List.filterMap_append, List.append_assoc, List.pairwise_append,
    List.filterMap_cons_some reads, List.cons_append, List.pairwise_cons] at inOrder
  intro reading member
  rw [List.filterMap_cons_some reads, List.cons_append] at member
  rcases List.mem_cons.mp member with rfl | later
  · exact Nat.le_refl _
  · exact inOrder.2.1.1 reading later

end Readings

/-! ## Values that were held -/

variable (react : State → Event → State) (clock : Event → Option Nat) (view : State → Value)

/-- The value was held at some moment of the last `span` before now: by a state
of the run that lasted into that time. -/
def HeldWithin (span now : Nat) (start : State) (events : List Event) (value : Value) : Prop :=
  ∃ first later, events = first ++ later ∧ view (first.foldl react start) = value ∧
    ∀ time ∈ later.filterMap clock, now < time + span

variable {react clock view}

/-- What is held now was held. -/
theorem heldWithin_now (span now : Nat) (start : State) (events : List Event) :
    HeldWithin react clock view span now start events (view (events.foldl react start)) := by
  refine ⟨events, [], (List.append_nil events).symm, rfl, ?_⟩
  intro time member
  contradiction

/-- Before the last event a value was held, or it is held now. -/
theorem heldWithin_concat {span now : Nat} {start : State} {events : List Event} {event : Event}
    {value : Value} :
    HeldWithin react clock view span now start (events ++ [event]) value ↔
      view ((events ++ [event]).foldl react start) = value ∨
        HeldWithin react clock view span now start events value ∧
          ∀ time, clock event = some time → now < time + span := by
  constructor
  · rintro ⟨first, later, split, held, recent⟩
    rcases List.eq_nil_or_concat later with rfl | ⟨front, last, rfl⟩
    · rw [List.append_nil] at split
      subst split
      exact Or.inl held
    · rw [List.concat_eq_append, ← List.append_assoc] at split
      obtain ⟨rfl, rfl⟩ := List.append_singleton_inj.mp split
      rw [List.concat_eq_append, List.filterMap_append] at recent
      right
      constructor
      · refine ⟨first, front, rfl, held, ?_⟩
        intro time member
        exact recent time (List.mem_append_left _ member)
      · intro time reads
        apply recent time
        rw [List.filterMap_cons_some reads]
        exact List.mem_append_right _ List.mem_cons_self
  · rintro (held | ⟨⟨first, later, rfl, held, recent⟩, reads⟩)
    · rw [← held]
      exact heldWithin_now span now start (events ++ [event])
    · refine ⟨first, later ++ [event], List.append_assoc _ _ _, held, ?_⟩
      intro time member
      rw [List.filterMap_append, List.mem_append] at member
      rcases member with earlier | last
      · exact recent time earlier
      · obtain ⟨read, inside, same⟩ := List.mem_filterMap.mp last
        obtain rfl := List.mem_singleton.mp inside
        exact reads time same

/-- What was held within some time of an earlier now was held within that time
and the time since. -/
theorem HeldWithin.mono {span wider now later : Nat} {start : State} {events : List Event}
    {value : Value} (held : HeldWithin react clock view span now start events value)
    (within : later + span ≤ now + wider) :
    HeldWithin react clock view wider later start events value := by
  obtain ⟨first, rest, split, same, recent⟩ := held
  refine ⟨first, rest, split, same, ?_⟩
  intro time member
  have bound := recent time member
  omega

end ZcashSoloPool.Transition
