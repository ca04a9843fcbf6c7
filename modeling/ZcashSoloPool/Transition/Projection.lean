import ZcashSoloPool.Transition.Run

/-!
# Projections of transition systems

A component inside a larger system sees some of its events.  Where every step
of the system is a step of the component or leaves it as it is, runs and laws
of the component can be read off the runs of the system.
-/

namespace ZcashSoloPool.Transition

universe u v u' v'

variable {State : Type u} {Event : Type v} {Part : Type u'} {PartEvent : Type v'}

/-- Every step of the system makes the projected step of the component, or
leaves the component as it is. -/
structure Projects (next : Next State Event) (partNext : Next Part PartEvent) (view : State → Part)
    (project : State → Event → Option PartEvent) : Prop where
  moves : ∀ {state target event partEvent}, next state event = some target →
    project state event = some partEvent → partNext (view state) partEvent = some (view target)
  stays : ∀ {state target event}, next state event = some target →
    project state event = none → view target = view state

/-- The events that the component sees in a run. -/
def projected (next : Next State Event) (project : State → Event → Option PartEvent) :
    State → List Event → List PartEvent
  | _, [] => []
  | state, event :: rest =>
      (project state event).toList ++
        match next state event with
        | some target => projected next project target rest
        | none => []

/-- A law of the component as a law of the system. -/
def Lifted (project : State → Event → Option PartEvent) (view : State → Part)
    (law : Part → PartEvent → Prop) (state : State) (event : Event) : Prop :=
  ∀ partEvent, project state event = some partEvent → law (view state) partEvent

variable {next : Next State Event} {partNext : Next Part PartEvent} {view : State → Part}
  {project : State → Event → Option PartEvent}

theorem projected_cons {start middle : State} {event : Event} {rest : List Event}
    (step : next start event = some middle) :
    projected next project start (event :: rest) =
      (project start event).toList ++ projected next project middle rest := by
  rw [projected, step]

theorem projected_singleton (start : State) (event : Event) :
    projected next project start [event] = (project start event).toList := by
  rw [projected]
  split <;> exact List.append_nil _

theorem projected_append {start middle : State} {first second : List Event}
    (reached : run next start first = some middle) :
    projected next project start (first ++ second) =
      projected next project start first ++ projected next project middle second := by
  induction first generalizing start with
  | nil =>
      cases reached
      rfl
  | cons event rest ih =>
      rcases Option.bind_eq_some_iff.mp reached with ⟨target, step, later⟩
      rw [List.cons_append, projected_cons step, ih later, projected_cons step, List.append_assoc]

/-- Events that the component sees in no state. -/
theorem projected_of_silent {events : List Event}
    (silent : ∀ event ∈ events, ∀ state, project state event = none) (start : State) :
    projected next project start events = [] := by
  induction events generalizing start with
  | nil => rfl
  | cons event rest ih =>
      have unseen := silent event List.mem_cons_self start
      have later := ih fun other member => silent other (List.mem_cons_of_mem _ member)
      rw [projected, unseen, Option.toList_none, List.nil_append]
      split
      · exact later _
      · rfl

/-- A run of the system is a run of the component. -/
theorem Projects.run (projects : Projects next partNext view project) {start target : State}
    {events : List Event} (reached : run next start events = some target) :
    Transition.run partNext (view start) (projected next project start events) =
      some (view target) := by
  induction events generalizing start with
  | nil =>
      cases reached
      rfl
  | cons event rest ih =>
      rcases Option.bind_eq_some_iff.mp reached with ⟨middle, first, later⟩
      have continued := ih later
      cases seen : project start event with
      | none =>
          rw [projects.stays first seen] at continued
          simpa only [projected, seen, first, Option.toList_none, List.nil_append] using continued
      | some partEvent =>
          have moved := projects.moves first seen
          simpa only [projected, seen, first, Option.toList_some, List.singleton_append, run_cons,
            moved, Option.bind_some] using continued

/-- A law of the component is obeyed by a run of the system exactly when it is
obeyed by the run that the component sees. -/
theorem Projects.throughout_iff (projects : Projects next partNext view project)
    (law : Part → PartEvent → Prop) (start : State) (events : List Event) :
    Throughout next (Lifted project view law) start events ↔
      Throughout partNext law (view start) (projected next project start events) := by
  induction events generalizing start with
  | nil => exact Iff.rfl
  | cons event rest ih =>
      cases seen : project start event with
      | none =>
          cases first : next start event with
          | none => simp [Throughout, projected, Lifted, seen, first]
          | some middle =>
              have continued := ih middle
              rw [projects.stays first seen] at continued
              simp [Throughout, projected, Lifted, seen, first, continued]
      | some partEvent =>
          cases first : next start event with
          | none => simp [Throughout, projected, Lifted, seen, first]
          | some middle =>
              have moved := projects.moves first seen
              simp [Throughout, projected, Lifted, seen, first, moved, ih middle]

end ZcashSoloPool.Transition
