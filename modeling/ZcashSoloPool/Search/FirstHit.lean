import Mathlib.Data.List.Basic

/-!
# Loops that return at the first hit

A loop over a list whose body works on a state in place and may leave the
whole function is a monadic fold over `Except`, with the result as the error.
The judgement `Exits` says from which states a body leaves with which outcome,
and what holds of the state when it does not leave.  A loop leaves at the first
item for which its body leaves; nested loops leave at the first hit of the flat
list of combinations.
-/

namespace ZcashSoloPool.Search

universe u v w

variable {σ : Type u} {ρ : Type v} {α : Type w}

/-- From states with `pre`, the step leaves with `outcome` if there is one, and
otherwise goes on in a state with `post`. -/
def Exits (pre post : σ → Prop) (outcome : Option ρ) (step : σ → Except ρ σ) : Prop :=
  ∀ state, pre state →
    match outcome with
    | some result => step state = .error result
    | none => ∃ target, step state = .ok target ∧ post target

theorem Exits.leaves {pre post : σ → Prop} {result : ρ} {step : σ → Except ρ σ}
    (left : ∀ state, pre state → step state = .error result) :
    Exits pre post (some result) step :=
  left

theorem Exits.continues {pre post : σ → Prop} {step : σ → Except ρ σ}
    (goesOn : ∀ state, pre state → ∃ target, step state = .ok target ∧ post target) :
    Exits pre post none step :=
  goesOn

/-- The condition before may be strengthened and the one after weakened. -/
theorem Exits.mono {pre pre' post post' : σ → Prop} {outcome : Option ρ} {step : σ → Except ρ σ}
    (exits : Exits pre post outcome step) (before : ∀ state, pre' state → pre state)
    (after : ∀ state, post state → post' state) : Exits pre' post' outcome step := by
  intro state holds
  have result := exits state (before state holds)
  cases outcome with
  | some r => exact result
  | none =>
      rcases result with ⟨target, goesOn, holdsAfter⟩
      exact ⟨target, goesOn, after target holdsAfter⟩

/-- An update of the state in front of a step. -/
theorem Exits.comp {pre middle post : σ → Prop} {outcome : Option ρ} {step : σ → Except ρ σ}
    (exits : Exits middle post outcome step) (update : σ → σ)
    (updated : ∀ state, pre state → middle (update state)) :
    Exits pre post outcome fun state => step (update state) :=
  fun state holds => exits (update state) (updated state holds)

/-- A loop leaves at the first item for which its body leaves. -/
theorem Exits.foldlM {inv : σ → Prop} {hit : α → Option ρ} (step : σ → α → Except ρ σ)
    {items : List α}
    (each : ∀ item ∈ items, Exits inv inv (hit item) fun state => step state item) :
    Exits inv inv (items.findSome? hit) fun state => items.foldlM step state := by
  induction items with
  | nil => exact fun state holds => ⟨state, rfl, holds⟩
  | cons item rest ih =>
      intro state holds
      have first := each item List.mem_cons_self state holds
      have later := ih fun other member => each other (List.mem_cons_of_mem item member)
      simp only [List.foldlM_cons, List.findSome?_cons]
      cases outcome : hit item with
      | some result =>
          rw [outcome] at first
          change step state item = .error result at first
          rw [first]
          rfl
      | none =>
          rw [outcome] at first
          rcases first with ⟨target, goesOn, holdsAfter⟩
          change step state item = .ok target at goesOn
          rw [goesOn]
          exact later target holdsAfter

/-- A step that goes on keeps its condition. -/
theorem Exits.holds_of_ok {pre post : σ → Prop} {outcome : Option ρ} {step : σ → Except ρ σ}
    (exits : Exits pre post outcome step) {state target : σ} (holds : pre state)
    (goesOn : step state = .ok target) : post target := by
  have result := exits state holds
  cases outcome with
  | some left =>
      change step state = .error left at result
      rw [result] at goesOn
      contradiction
  | none =>
      rcases result with ⟨other, same, holdsAfter⟩
      rw [same] at goesOn
      cases goesOn
      exact holdsAfter

/-- Where the step goes on, the mark stays, and it is there if the step sets
it. -/
def Marks (pre mark : σ → Prop) (sets : Prop) (step : σ → Except ρ σ) : Prop :=
  ∀ state target, pre state → step state = .ok target → mark state ∨ sets → mark target

/-- An update of the state, that keeps the mark, in front of a step. -/
theorem Marks.comp {pre middle mark : σ → Prop} {sets : Prop} {step : σ → Except ρ σ}
    (marks : Marks middle mark sets step) (update : σ → σ)
    (updated : ∀ state, pre state → middle (update state))
    (kept : ∀ state, mark state → mark (update state)) :
    Marks pre mark sets fun state => step (update state) := by
  intro state target holds goesOn marked
  exact marks (update state) target (updated state holds) goesOn (marked.imp_left (kept state))

/-- A loop sets the mark if its body does for some item. -/
theorem Marks.foldlM {inv mark : σ → Prop} {hit : α → Option ρ} {sets : α → Prop}
    (step : σ → α → Except ρ σ) {items : List α}
    (exits : ∀ item ∈ items, Exits inv inv (hit item) fun state => step state item)
    (each : ∀ item ∈ items, Marks inv mark (sets item) fun state => step state item) :
    Marks inv mark (∃ item ∈ items, sets item) fun state => items.foldlM step state := by
  induction items with
  | nil =>
      intro state target holds goesOn marked
      cases goesOn
      rcases marked with already | ⟨item, member, _⟩
      · exact already
      · contradiction
  | cons item rest ih =>
      intro state target holds goesOn marked
      simp only [List.foldlM_cons] at goesOn
      cases first : step state item with
      | error result =>
          rw [first] at goesOn
          contradiction
      | ok middle =>
          rw [first] at goesOn
          have inside := List.mem_cons_self (a := item) (l := rest)
          have holdsMiddle := (exits item inside).holds_of_ok holds first
          apply ih (fun other member => exits other (List.mem_cons_of_mem item member))
            (fun other member => each other (List.mem_cons_of_mem item member)) middle target
            holdsMiddle goesOn
          rcases marked with already | ⟨other, member, setsOther⟩
          · exact Or.inl (each item inside state middle holds first (Or.inl already))
          · rcases List.mem_cons.mp member with rfl | later
            · exact Or.inl (each other inside state middle holds first (Or.inr setsOther))
            · exact Or.inr ⟨other, later, setsOther⟩

/-- The first hit of a flat list is found group by group. -/
theorem findSome?_flatMap {β : Type*} (groups : List β) (members : β → List α)
    (hit : α → Option ρ) :
    (groups.flatMap members).findSome? hit =
      groups.findSome? fun group => (members group).findSome? hit := by
  induction groups with
  | nil => rfl
  | cons group rest ih =>
      rw [List.flatMap_cons, List.findSome?_append, List.findSome?_cons, ih]
      cases (members group).findSome? hit <;> rfl

/-! ## Places in a list -/

/-- Where a list is cut at two items, the items are the same or one of them
stands before the other. -/
theorem eq_or_mem_of_append_cons_eq {before after before' after' : List α} {item item' : α}
    (same : before ++ item :: after = before' ++ item' :: after') :
    item = item' ∨ item ∈ before' ∨ item' ∈ before := by
  rcases List.append_eq_append_iff.mp same with ⟨gap, rfl, rest⟩ | ⟨gap, rfl, rest⟩
  · cases gap with
    | nil => exact Or.inl (List.cons.inj rest).1
    | cons head tail =>
        obtain ⟨rfl, _⟩ := List.cons.inj rest
        exact Or.inr (Or.inl (List.mem_append_right before List.mem_cons_self))
  · cases gap with
    | nil => exact Or.inl (List.cons.inj rest).1.symm
    | cons head tail =>
        obtain ⟨rfl, _⟩ := List.cons.inj rest
        exact Or.inr (Or.inr (List.mem_append_right before' List.mem_cons_self))

end ZcashSoloPool.Search
