import ZcashSoloPool.Effects.Atomic
import ZcashSoloPool.Search.FirstHit

/-!
# Loops that keep a record

A loop that may leave, once more with a record: each body notes what it does,
and the record is kept when the loop is left.  The plan of a body is what it
notes if it goes on; the plan of a loop is the plans of its items in order.
Whatever happens, the record holds the beginning of the plan, and the loop ends
as it does without a record.
-/

namespace ZcashSoloPool.Search

open ZcashSoloPool.Effects

universe u v

variable {σ ρ κ : Type u} {α : Type v}

/-- From states with `pre`, the recording step ends as the plain one and notes
the beginning of its plan, or all of it if it goes on. -/
def Notes (pre : σ → Prop) (plan : List κ) (plain : σ → Except ρ σ)
    (recording : σ → EStateM ρ (List κ) σ) : Prop :=
  ∀ state record, pre state → ∃ noted, noted <+: plan ∧
    match plain state with
    | .error result => recording state record = .error result (record ++ noted)
    | .ok target => recording state record = .ok target (record ++ noted) ∧ noted = plan

/-- An update of the state in front of a step. -/
theorem Notes.comp {pre middle : σ → Prop} {plan : List κ} {plain : σ → Except ρ σ}
    {recording : σ → EStateM ρ (List κ) σ} (notes : Notes middle plan plain recording)
    (update : σ → σ) (updated : ∀ state, pre state → middle (update state)) :
    Notes pre plan (fun state => plain (update state)) fun state => recording (update state) :=
  fun state record holds => notes (update state) record (updated state holds)

/-- Two steps in a row note the plan of the first and then that of the second. -/
theorem Notes.bind {pre middle : σ → Prop} {plan laterPlan : List κ} {first second : σ → Except ρ σ}
    {recordingFirst recordingSecond : σ → EStateM ρ (List κ) σ}
    (notes : Notes pre plan first recordingFirst)
    (keeps : ∀ state target, pre state → first state = .ok target → middle target)
    (later : Notes middle laterPlan second recordingSecond) :
    Notes pre (plan ++ laterPlan) (fun state => first state >>= second)
      fun state => recordingFirst state >>= recordingSecond := by
  intro state record holds
  obtain ⟨noted, isPrefix, ended⟩ := notes state record holds
  cases outcome : first state with
  | error result =>
      rw [outcome] at ended
      refine ⟨noted, isPrefix.trans (List.prefix_append _ _), ?_⟩
      dsimp only
      rw [outcome]
      exact bind_error ended
  | ok target =>
      rw [outcome] at ended
      obtain ⟨returned, rfl⟩ := ended
      obtain ⟨more, morePrefix, laterEnded⟩ :=
        later target (record ++ noted) (keeps state target holds outcome)
      refine ⟨noted ++ more, (List.prefix_append_right_inj _).mpr morePrefix, ?_⟩
      dsimp only
      rw [outcome, bind_ok returned, ← List.append_assoc, List.append_cancel_left_eq]
      exact laterEnded

/-- A loop notes the plans of its items, up to the one at which it leaves. -/
theorem Notes.foldlM {inv : σ → Prop} {hit : α → Option ρ} {plan : α → List κ}
    (plain : σ → α → Except ρ σ) (recording : σ → α → EStateM ρ (List κ) σ) {items : List α}
    (exits : ∀ item ∈ items, Exits inv inv (hit item) fun state => plain state item)
    (each : ∀ item ∈ items, Notes inv (plan item) (fun state => plain state item)
      fun state => recording state item) :
    Notes inv (items.flatMap plan) (fun state => items.foldlM plain state)
      fun state => items.foldlM recording state := by
  induction items with
  | nil =>
      intro state record _
      refine ⟨[], List.nil_prefix, ?_⟩
      rw [List.append_nil]
      exact ⟨rfl, rfl⟩
  | cons item rest ih =>
      have inside := List.mem_cons_self (a := item) (l := rest)
      have later := ih (fun other member => exits other (List.mem_cons_of_mem item member))
        fun other member => each other (List.mem_cons_of_mem item member)
      simp only [List.foldlM_cons, List.flatMap_cons]
      exact (each item inside).bind
        (fun state target holds => (exits item inside).holds_of_ok holds) later

end ZcashSoloPool.Search
