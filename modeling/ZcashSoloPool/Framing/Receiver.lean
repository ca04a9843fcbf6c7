import Mathlib.Data.List.Basic
import Mathlib.Data.List.Infix

/-!
# Receivers of separated frames

A stream is cut into pieces that have nothing to do with its frames.  What
follows the last separator is kept until the next piece; every frame is given to
a reaction, which may leave the loop over the frames of a piece, and a piece
that finds the receiver closed is ignored.
-/

namespace ZcashSoloPool.Framing

universe u v

/-! ## Frames -/

section Frames

variable {α : Type u} [DecidableEq α]

/-- The frames that are complete. -/
def frames (separator : α) (items : List α) : List (List α) :=
  (items.splitOn separator).dropLast

/-- What follows the last separator. -/
def remainder (separator : α) (items : List α) : List α :=
  (items.splitOn separator).getLastD []

theorem splitOn_eq (separator : α) (items : List α) :
    items.splitOn separator = frames separator items ++ [remainder separator items] := by
  have nonempty : items.splitOn separator ≠ [] := List.splitOn_ne_nil separator items
  rw [frames, remainder, List.getLastD_eq_getLast?, List.getLast?_eq_some_getLast nonempty,
    Option.getD_some, List.dropLast_concat_getLast]

theorem frames_of_splitOn {separator : α} {items : List α} {front : List (List α)} {last : List α}
    (split : items.splitOn separator = front ++ [last]) :
    frames separator items = front ∧ remainder separator items = last := by
  rw [splitOn_eq] at split
  exact (List.append_inj' split rfl).imp_right List.singleton_inj.mp

/-- Nothing is a frame without a separator. -/
theorem frames_of_not_mem {separator : α} {items : List α} (absent : separator ∉ items) :
    frames separator items = [] ∧ remainder separator items = items := by
  refine frames_of_splitOn ?_
  rw [List.splitOn_eq_singleton absent, List.nil_append]

/-- A frame and its separator come off the front. -/
theorem frames_append_cons {separator : α} {frame : List α} (absent : separator ∉ frame)
    (items : List α) :
    frames separator (frame ++ separator :: items) = frame :: frames separator items ∧
      remainder separator (frame ++ separator :: items) = remainder separator items := by
  refine frames_of_splitOn ?_
  rw [List.splitOn_append_cons_self_of_not_mem absent, splitOn_eq, List.cons_append]

/-- Items have no separator, or they start with a frame. -/
theorem frame_induction (separator : α) {property : List α → Prop}
    (free : ∀ items, separator ∉ items → property items)
    (framed : ∀ frame rest, separator ∉ frame → property rest →
      property (frame ++ separator :: rest)) (items : List α) : property items := by
  by_cases present : separator ∈ items
  · obtain ⟨frame, rest, split, absent⟩ := List.eq_append_cons_of_mem present
    rw [split]
    exact framed frame rest absent (frame_induction separator free framed rest)
  · exact free items present
termination_by items.length
decreasing_by
  rw [split, List.length_append, List.length_cons]
  omega

/-- What is kept holds no separator. -/
theorem not_mem_remainder (separator : α) (items : List α) :
    separator ∉ remainder separator items := by
  induction items using frame_induction separator with
  | free items absent =>
      rw [(frames_of_not_mem absent).2]
      exact absent
  | framed frame rest absent ih =>
      rw [(frames_append_cons absent rest).2]
      exact ih

/-- Of the first part only what is kept matters to the second. -/
theorem frames_append (separator : α) (first second : List α) :
    frames separator (first ++ second) =
        frames separator first ++ frames separator (remainder separator first ++ second) ∧
      remainder separator (first ++ second) =
        remainder separator (remainder separator first ++ second) := by
  induction first using frame_induction separator with
  | free items absent =>
      rw [(frames_of_not_mem absent).1, (frames_of_not_mem absent).2]
      exact ⟨rfl, rfl⟩
  | framed frame rest absent ih =>
      have first := frames_append_cons absent rest
      have whole := frames_append_cons absent (rest ++ second)
      rw [List.append_assoc, List.cons_append, whole.1, whole.2, first.1, first.2, ih.1, ih.2]
      exact ⟨rfl, rfl⟩

/-- A frame is part of the items. -/
theorem part_of_mem_frames {separator : α} {items frame : List α}
    (member : frame ∈ frames separator items) : frame <:+: items := by
  induction items using frame_induction separator with
  | free items absent =>
      rw [(frames_of_not_mem absent).1] at member
      contradiction
  | framed first rest absent ih =>
      rw [(frames_append_cons absent rest).1] at member
      rcases List.mem_cons.mp member with rfl | later
      · exact (List.prefix_append _ _).isInfix
      · exact (ih later).trans ((List.suffix_cons _ _).trans (List.suffix_append _ _)).isInfix

theorem part_remainder (separator : α) (items : List α) :
    remainder separator items <:+: items := by
  induction items using frame_induction separator with
  | free items absent => rw [(frames_of_not_mem absent).2]
  | framed first rest absent ih =>
      rw [(frames_append_cons absent rest).2]
      exact ih.trans ((List.suffix_cons _ _).trans (List.suffix_append _ _)).isInfix

end Frames

/-! ## Reactions -/

/-- A receiver: its separator, how it reacts to a frame, where `true` leaves
the loop, and which states are closed. -/
structure Receiver (σ : Type v) (α : Type u) where
  separator : α
  react : σ → List α → σ × Bool
  closed : σ → Bool
  /-- The loop is left only with the receiver closed. -/
  closed_of_left : ∀ state frame, (react state frame).2 = true →
    closed (react state frame).1 = true
  /-- A receiver stays closed. -/
  closed_react : ∀ state frame, closed state = true → closed (react state frame).1 = true

/-- The state of a receiver and what it keeps of the stream. -/
structure Feed (σ : Type v) (α : Type u) where
  state : σ
  rest : List α
  deriving DecidableEq, Repr

namespace Receiver

variable {σ : Type v} {α : Type u} (receiver : Receiver σ α)

/-- The loop over frames. -/
def take : σ → List (List α) → σ
  | state, [] => state
  | state, frame :: rest =>
      if (receiver.react state frame).2 then (receiver.react state frame).1
      else take (receiver.react state frame).1 rest

/-- The loop is left before its end. -/
def leaves : σ → List (List α) → Bool
  | _, [] => false
  | state, frame :: rest =>
      (receiver.react state frame).2 || leaves (receiver.react state frame).1 rest

/-- What every reaction keeps, the loop keeps. -/
theorem take_invariant (Inv : σ → Prop)
    (preserved : ∀ state frame, Inv state → Inv (receiver.react state frame).1) {state : σ}
    (initially : Inv state) (items : List (List α)) : Inv (receiver.take state items) := by
  induction items generalizing state with
  | nil => exact initially
  | cons frame rest ih =>
      rw [take]
      split
      · exact preserved state frame initially
      · exact ih (preserved state frame initially)

theorem closed_take {state : σ} (closed : receiver.closed state = true) (items : List (List α)) :
    receiver.closed (receiver.take state items) = true :=
  receiver.take_invariant (fun state => receiver.closed state = true) receiver.closed_react closed
    items

theorem closed_of_leaves {state : σ} {items : List (List α)}
    (left : receiver.leaves state items = true) :
    receiver.closed (receiver.take state items) = true := by
  induction items generalizing state with
  | nil => contradiction
  | cons frame rest ih =>
      rw [take]
      split
      · next here => exact receiver.closed_of_left state frame here
      · next goesOn =>
          rw [leaves, Bool.eq_false_iff.mpr goesOn, Bool.false_or] at left
          exact ih left

/-- Where the loop is not left it goes on with further frames. -/
theorem take_append (state : σ) (first second : List (List α)) :
    receiver.take state (first ++ second) =
      if receiver.leaves state first then receiver.take state first
      else receiver.take (receiver.take state first) second := by
  induction first generalizing state with
  | nil => rfl
  | cons frame rest ih =>
      rw [List.cons_append, take, take, leaves]
      cases left : (receiver.react state frame).2 with
      | true => rfl
      | false => exact ih _

theorem leaves_append (state : σ) (first second : List (List α)) :
    receiver.leaves state (first ++ second) =
      (receiver.leaves state first ||
        receiver.leaves (receiver.take state first) second) := by
  induction first generalizing state with
  | nil => rfl
  | cons frame rest ih =>
      rw [List.cons_append, leaves, leaves, take]
      cases left : (receiver.react state frame).2 with
      | true => rfl
      | false =>
          rw [Bool.false_or, Bool.false_or, if_neg Bool.false_ne_true]
          exact ih _

/-! ## Frames that count -/

/-- The frames that are not blank. -/
def counting (blank : List α → Bool) (items : List (List α)) : List (List α) :=
  items.filter fun frame => !blank frame

/-- Blank frames are skipped, and every other frame shows in the state. -/
structure Progress (blank : List α → Bool) (effort : σ → Nat) : Prop where
  skips : ∀ state frame, blank frame = true → receiver.react state frame = (state, false)
  works : ∀ state frame, blank frame = false →
    effort state < effort (receiver.react state frame).1

namespace Progress

variable {receiver} {blank : List α → Bool} {effort : σ → Nat}

theorem take_of_blank (progress : receiver.Progress blank effort) (state : σ)
    {items : List (List α)} (allBlank : ∀ frame ∈ items, blank frame = true) :
    receiver.take state items = state := by
  induction items with
  | nil => rfl
  | cons frame rest ih =>
      rw [take, progress.skips state frame (allBlank frame List.mem_cons_self),
        if_neg Bool.false_ne_true]
      exact ih fun later member => allBlank later (List.mem_cons_of_mem _ member)

theorem effort_le_take (progress : receiver.Progress blank effort) (state : σ)
    (items : List (List α)) : effort state ≤ effort (receiver.take state items) := by
  induction items generalizing state with
  | nil => exact Nat.le_refl _
  | cons frame rest ih =>
      have first : effort state ≤ effort (receiver.react state frame).1 := by
        cases isBlank : blank frame with
        | false => exact (progress.works state frame isBlank).le
        | true => rw [progress.skips state frame isBlank]
      rw [take]
      split
      · exact first
      · exact first.trans (ih _)

theorem effort_lt_take (progress : receiver.Progress blank effort) (state : σ)
    {items : List (List α)} {frame : List α} (member : frame ∈ items)
    (counts : blank frame = false) : effort state < effort (receiver.take state items) := by
  induction items generalizing state with
  | nil => contradiction
  | cons first rest ih =>
      rw [take]
      cases isBlank : blank first with
      | false =>
          have works := progress.works state first isBlank
          split
          · exact works
          · exact works.trans_le (progress.effort_le_take _ rest)
      | true =>
          rw [progress.skips state first isBlank, if_neg Bool.false_ne_true]
          rcases List.mem_cons.mp member with rfl | later
          · rw [counts] at isBlank
            contradiction
          · exact ih state later

/-- Further frames do not matter after the loop is left, or where all of them
are blank. -/
theorem take_append_eq_iff (progress : receiver.Progress blank effort) (state : σ)
    (items more : List (List α)) :
    receiver.take state items = receiver.take state (items ++ more) ↔
      receiver.leaves state items = true ∨ ∀ frame ∈ more, blank frame = true := by
  rw [take_append]
  cases left : receiver.leaves state items with
  | true => exact ⟨fun _ => Or.inl rfl, fun _ => rfl⟩
  | false =>
      rw [if_neg Bool.false_ne_true]
      constructor
      · refine fun same => Or.inr fun frame member => ?_
        by_contra counts
        have more := progress.effort_lt_take (receiver.take state items) member
          (Bool.eq_false_iff.mpr counts)
        rw [← same] at more
        exact Nat.lt_irrefl _ more
      · rintro (impossible | allBlank)
        · contradiction
        · exact (progress.take_of_blank _ allBlank).symm

end Progress

/-! ## Pieces of a stream -/

variable [DecidableEq α]

/-- Take all frames that a piece completes. -/
def hear (feed : Feed σ α) (piece : List α) : Feed σ α where
  state := receiver.take feed.state (frames receiver.separator (feed.rest ++ piece))
  rest := remainder receiver.separator (feed.rest ++ piece)

/-- A closed receiver ignores what arrives. -/
def receive (feed : Feed σ α) (piece : List α) : Feed σ α :=
  if receiver.closed feed.state then feed else receiver.hear feed piece

/-- Receive one piece after the other. -/
def receiveAll (feed : Feed σ α) (pieces : List (List α)) : Feed σ α :=
  pieces.foldl receiver.receive feed

/-- What is received before the receiver closes, the closing piece included. -/
def delivered : Feed σ α → List (List α) → List α
  | _, [] => []
  | feed, piece :: rest =>
      if receiver.closed feed.state then []
      else piece ++ delivered (receiver.hear feed piece) rest

/-- Two pieces are heard as one where the first leaves the receiver open. -/
theorem hear_append {feed : Feed σ α} {first : List α}
    (isOpen : receiver.closed (receiver.hear feed first).state = false) (second : List α) :
    receiver.hear feed (first ++ second) = receiver.hear (receiver.hear feed first) second := by
  have goesOn : receiver.leaves feed.state
      (frames receiver.separator (feed.rest ++ first)) = false := by
    by_contra left
    have closed := receiver.closed_of_leaves ((Bool.not_eq_false _).mp left)
    exact Bool.false_ne_true (isOpen.symm.trans closed)
  have split := frames_append receiver.separator (feed.rest ++ first) second
  rw [hear, ← List.append_assoc, split.1, split.2, take_append, goesOn,
    if_neg Bool.false_ne_true]
  rfl

/-- A receiver that is closed stays closed when it hears more. -/
theorem closed_hear_append {feed : Feed σ α} {first : List α}
    (closed : receiver.closed (receiver.hear feed first).state = true) (second : List α) :
    receiver.closed (receiver.hear feed (first ++ second)).state = true := by
  have split := frames_append receiver.separator (feed.rest ++ first) second
  rw [hear, ← List.append_assoc, split.1, take_append]
  split
  · exact closed
  · exact receiver.closed_take closed _

theorem receiveAll_of_closed {feed : Feed σ α} (closed : receiver.closed feed.state = true)
    (pieces : List (List α)) : receiver.receiveAll feed pieces = feed := by
  induction pieces with
  | nil => rfl
  | cons piece rest ih =>
      rw [receiveAll, List.foldl_cons, receive, if_pos closed]
      exact ih

/-- Pieces are heard as the one piece that is delivered. -/
theorem receiveAll_eq_hear {feed : Feed σ α} (isOpen : receiver.closed feed.state = false)
    (kept : receiver.separator ∉ feed.rest) (pieces : List (List α)) :
    receiver.receiveAll feed pieces = receiver.hear feed (receiver.delivered feed pieces) := by
  induction pieces generalizing feed with
  | nil =>
      have nothing := frames_of_not_mem kept
      rw [receiveAll, List.foldl_nil, delivered, hear, List.append_nil, nothing.1, nothing.2, take]
  | cons piece rest ih =>
      have goesOn : ¬receiver.closed feed.state = true := Bool.eq_false_iff.mp isOpen
      rw [receiveAll, List.foldl_cons, receive, if_neg goesOn, delivered, if_neg goesOn]
      cases after : receiver.closed (receiver.hear feed piece).state with
      | false =>
          rw [receiver.hear_append after]
          exact ih after (not_mem_remainder _ _)
      | true =>
          have nothing : receiver.delivered (receiver.hear feed piece) rest = [] := by
            cases rest with
            | nil => rfl
            | cons next others => rw [delivered, if_pos after]
          rw [nothing, List.append_nil]
          exact receiver.receiveAll_of_closed after rest

/-- The receiver gets the front of the stream. -/
theorem delivered_front (feed : Feed σ α) (pieces : List (List α)) :
    receiver.delivered feed pieces <+: pieces.flatten := by
  induction pieces generalizing feed with
  | nil => exact List.prefix_rfl
  | cons piece rest ih =>
      rw [delivered]
      split
      · exact List.nil_prefix
      · rw [List.flatten_cons]
        exact (List.prefix_append_right_inj piece).mpr (ih _)

/-- A receiver that ends open got the whole stream. -/
theorem delivered_of_open {feed : Feed σ α} {pieces : List (List α)}
    (isOpen : receiver.closed (receiver.receiveAll feed pieces).state = false) :
    receiver.delivered feed pieces = pieces.flatten := by
  induction pieces generalizing feed with
  | nil => rfl
  | cons piece rest ih =>
      rw [receiveAll, List.foldl_cons, receive] at isOpen
      rw [delivered, List.flatten_cons]
      split
      · next closed =>
          rw [if_pos closed] at isOpen
          have stays := receiver.receiveAll_of_closed closed rest
          rw [receiveAll] at stays
          rw [stays, closed] at isOpen
          contradiction
      · next goesOn =>
          rw [if_neg goesOn] at isOpen
          exact congrArg (piece ++ ·) (ih isOpen)

/-- However a stream is cut, a receiver that stays open ends in one state. -/
theorem receiveAll_eq_of_open {feed : Feed σ α} (isOpen : receiver.closed feed.state = false)
    (kept : receiver.separator ∉ feed.rest) {first second : List (List α)}
    (same : first.flatten = second.flatten)
    (endsOpen : receiver.closed (receiver.receiveAll feed first).state = false) :
    receiver.receiveAll feed first = receiver.receiveAll feed second := by
  have whole := receiver.delivered_of_open endsOpen
  rw [receiver.receiveAll_eq_hear isOpen kept first, whole] at endsOpen ⊢
  have otherOpen : receiver.closed (receiver.receiveAll feed second).state = false := by
    by_contra closed
    rw [receiver.receiveAll_eq_hear isOpen kept second] at closed
    obtain ⟨more, split⟩ := receiver.delivered_front feed second
    have stays := receiver.closed_hear_append ((Bool.not_eq_false _).mp closed) more
    rw [split, ← same, endsOpen] at stays
    contradiction
  rw [receiver.receiveAll_eq_hear isOpen kept second, receiver.delivered_of_open otherOpen, same]

/-! ## Cuts that do not matter -/

/-- Two pieces leave the same remainder, and the loop is left in both or the
same frames count in them. -/
def Alike (blank : List α → Bool) (feed : Feed σ α) (first second : List α) : Prop :=
  let firstFrames := frames receiver.separator (feed.rest ++ first)
  let secondFrames := frames receiver.separator (feed.rest ++ second)
  remainder receiver.separator (feed.rest ++ first) =
      remainder receiver.separator (feed.rest ++ second) ∧
    (receiver.leaves feed.state firstFrames = true ∧
        receiver.leaves feed.state secondFrames = true ∨
      counting blank firstFrames = counting blank secondFrames)

instance (blank : List α → Bool) (feed : Feed σ α) (first second : List α) :
    Decidable (receiver.Alike blank feed first second) :=
  inferInstanceAs (Decidable (_ ∧ (_ ∧ _ ∨ _)))

variable {receiver} {blank : List α → Bool} {effort : σ → Nat}

theorem Alike.symm {feed : Feed σ α} {first second : List α}
    (alike : receiver.Alike blank feed first second) : receiver.Alike blank feed second first :=
  ⟨alike.1.symm, alike.2.imp And.symm Eq.symm⟩

/-- A piece with more items at its end. -/
theorem Progress.hear_append_eq_iff (progress : receiver.Progress blank effort) (feed : Feed σ α)
    (first more : List α) :
    receiver.hear feed first = receiver.hear feed (first ++ more) ↔
      receiver.Alike blank feed first (first ++ more) := by
  have split := frames_append receiver.separator (feed.rest ++ first) more
  rw [Alike, hear, hear, Feed.mk.injEq, and_comm]
  refine and_congr_right fun _ => ?_
  rw [← List.append_assoc, split.1, progress.take_append_eq_iff, leaves_append, counting, counting,
    List.filter_append]
  cases left : receiver.leaves feed.state (frames receiver.separator (feed.rest ++ first)) with
  | true => exact ⟨fun _ => Or.inl ⟨rfl, rfl⟩, fun _ => Or.inl rfl⟩
  | false => simp [List.filter_eq_nil_iff]

/-- Where one cutting of a stream delivers more of it than another, both end in
the same state exactly when what they deliver is alike. -/
theorem Progress.receiveAll_eq_iff (progress : receiver.Progress blank effort) {feed : Feed σ α}
    (isOpen : receiver.closed feed.state = false) (kept : receiver.separator ∉ feed.rest)
    {first second : List (List α)}
    (longer : receiver.delivered feed first <+: receiver.delivered feed second ∨
      receiver.delivered feed second <+: receiver.delivered feed first) :
    receiver.receiveAll feed first = receiver.receiveAll feed second ↔
      receiver.Alike blank feed (receiver.delivered feed first)
        (receiver.delivered feed second) := by
  rw [receiver.receiveAll_eq_hear isOpen kept, receiver.receiveAll_eq_hear isOpen kept]
  rcases longer with ⟨more, longer⟩ | ⟨more, longer⟩
  · rw [← longer]
    exact progress.hear_append_eq_iff feed _ more
  · rw [← longer, eq_comm]
    exact (progress.hear_append_eq_iff feed _ more).trans ⟨Alike.symm, Alike.symm⟩

end Receiver

end ZcashSoloPool.Framing
