import ZcashSoloPool.Pool.Lifetime
import ZcashSoloPool.Rpc.SubmitBlock

/-!
# Blocks and the replies of the node

The ledger with the node's replies as they come over the network: a call of
`submitBlockCandidate` ends with what `submitBlock` makes of them.
-/

namespace ZcashSoloPool.Pool

open ZcashSoloPool.JavaScript
open ZcashSoloPool.Rpc
open ZcashSoloPool.Transition
open ZcashSoloPool.WorkManager (AcceptedShare)

/-- The block of a call, as it is sent. -/
def BlockCall.block (call : BlockCall) : Json :=
  match call.share.blockHex with
  | some blockHex => .string blockHex
  | none => .null

namespace Ledger

/-- A result as the ledger knows it. -/
def resultValue (numbers : NumberFormat) : Option Json → Value
  | some result => result.toValue numbers
  | none => .undefined

/-- `submitBlockCandidate` after `submitBlock` has returned or thrown. -/
def answered (numbers : NumberFormat) (config : LedgerConfig) (ledger : Ledger) (place : Nat)
    (call : BlockCall) (node : Node) (around : Surroundings) (now : Instant) : Ledger :=
  let config := { config with unwritable := Json.unconverted }
  match submitBlock numbers node call.block with
  | .error e => ledger.verdict config place call (.error (String.ofList e.message)) around now
  | .ok result => ledger.verdict config place call (.ok (resultValue numbers result)) around now

end Ledger

/-- What happens to the ledger and to its calls of the node. -/
inductive ReplyEvent where
  /-- Anything but a verdict. -/
  | pool (event : LedgerEvent)
  /-- The node has answered the requests of a call. -/
  | answered (call : Nat) (node : Node) (around : Surroundings) (now : Instant)

namespace ReplyEvent

variable (numbers : NumberFormat) (config : LedgerConfig)

/-- The event loop.  Verdicts come from the node's answers only. -/
def next : Next Ledger ReplyEvent
  | _, .pool (.verdict _ _ _ _) => none
  | ledger, .pool event => Ledger.next config ledger event
  | ledger, .answered place node around now =>
      match ledger.calls[place]? with
      | some call =>
          if call.verdict = .pending then
            some (ledger.answered numbers config place call node around now)
          else none
      | none => none

/-! ## What counts blocks -/

theorem isNullish_resultValue (result : Option Json) :
    Pool.isNullish (Ledger.resultValue numbers result) = Rpc.isNullish result := by
  cases result with
  | none => rfl
  | some json =>
      rw [Ledger.resultValue]
      cases json with
      | number value =>
          rw [Json.toValue]
          split
          · rfl
          · rfl
      | array elements =>
          rw [Json.toValue]
          split
          · rfl
          · rfl
      | object members =>
          rw [Json.toValue]
          split
          · rfl
          · rfl
      | _ => rfl

/-- The node's answers count one block when their result passes for an
acceptance, and none otherwise. -/
theorem blocks_answered (ledger : Ledger) (place : Nat) (call : BlockCall) (node : Node)
    (around : Surroundings) (now : Instant) :
    ((∃ result, submitBlock numbers node call.block = .ok result ∧
        Rpc.isNullish result = true) →
      (ledger.answered numbers config place call node around now).blocks = ledger.blocks + 1) ∧
    ((¬∃ result, submitBlock numbers node call.block = .ok result ∧
        Rpc.isNullish result = true) →
      (ledger.answered numbers config place call node around now).blocks = ledger.blocks) := by
  unfold Ledger.answered
  cases submitBlock numbers node call.block with
  | error e =>
      constructor
      · rintro ⟨_, ⟨⟩, -⟩
      · intro _
        rfl
  | ok result =>
      dsimp only
      rw [Ledger.verdict]
      dsimp only
      rw [isNullish_resultValue]
      cases nullish : Rpc.isNullish result with
      | true =>
          constructor
          · intro _
            rfl
          · intro refused
            exact absurd ⟨result, rfl, nullish⟩ refused
      | false =>
          constructor
          · rintro ⟨_, ⟨⟩, passes⟩
            rw [nullish] at passes
            contradiction
          · intro _
            rw [if_neg Bool.false_ne_true]
            split
            · rfl
            · rfl

/-- No other event counts a block. -/
theorem blocks_pool {ledger target : Ledger} {event : LedgerEvent}
    (step : next numbers config ledger (.pool event) = some target) :
    target.blocks = ledger.blocks := by
  cases event with
  | candidate share worker minerId now =>
      cases step
      rcases Ledger.candidate_eq config ledger share worker minerId now with ⟨-, same⟩ | ⟨-, same⟩
      · rw [same]
        rfl
      · rw [same, Ledger.forward, Ledger.submitBlockCandidate]
        dsimp only
        split
        · rfl
        · rfl
  | verdict place reply around now => contradiction
  | proposal place reply =>
      have proposed : Ledger.next config ledger (.proposal place reply) = some target := step
      obtain ⟨call, result, -, -, rfl⟩ := Ledger.next_proposal proposed
      rfl
  | cleanup now =>
      cases step
      rfl

/-- Answers are to a pending call. -/
theorem next_answered {ledger target : Ledger} {place : Nat} {node : Node} {around : Surroundings}
    {now : Instant} (step : next numbers config ledger (.answered place node around now) =
      some target) :
    ∃ call, ledger.calls[place]? = some call ∧ call.verdict = .pending ∧
      target = ledger.answered numbers config place call node around now := by
  rw [next] at step
  split at step
  · next call called =>
      split at step
      · next waiting =>
          cases step
          exact ⟨call, called, waiting, rfl⟩
      · contradiction
  · contradiction

/-! ## The law of the counter -/

/-- A block is counted only for the reply of a node that accepted it. -/
def CountsSuccess (ledger : Ledger) (event : ReplyEvent) : Prop :=
  ∀ target, next numbers config ledger event = some target → ledger.blocks < target.blocks →
    ∃ place node around now call, event = .answered place node around now ∧
      ledger.calls[place]? = some call ∧ Succeeded numbers node call.block

/-- A waiting call is not answered by a misleading reply. -/
def NotMisled (ledger : Ledger) (event : ReplyEvent) : Prop :=
  ∀ place node around now call, event = .answered place node around now →
    ledger.calls[place]? = some call → call.verdict = .pending →
      ¬Misled numbers node call.block

theorem countsSuccess_iff (ledger : Ledger) (event : ReplyEvent) :
    CountsSuccess numbers config ledger event ↔ NotMisled numbers ledger event := by
  constructor
  · rintro counts place node around now call rfl called waiting misled
    have step : next numbers config ledger (.answered place node around now) =
        some (ledger.answered numbers config place call node around now) := by
      rw [next, called]
      exact if_pos waiting
    have counted := (blocks_answered numbers config ledger place call node around now).1
      (submitBlock_nullish_iff.mpr (Or.inr misled))
    obtain ⟨_, _, _, _, other, ⟨⟩, otherCalled, succeeded⟩ := counts _ step (by omega)
    rw [called] at otherCalled
    cases otherCalled
    exact misled.not_succeeded succeeded
  · intro honest target step grows
    cases event with
    | pool event =>
        have same := blocks_pool numbers config step
        omega
    | answered place node around now =>
        obtain ⟨call, called, waiting, rfl⟩ := next_answered numbers config step
        have verdict := blocks_answered numbers config ledger place call node around now
        by_cases passes : ∃ result, submitBlock numbers node call.block = .ok result ∧
            Rpc.isNullish result = true
        · rcases submitBlock_nullish_iff.mp passes with succeeded | misled
          · exact ⟨place, node, around, now, call, rfl, called, succeeded⟩
          · exact absurd misled (honest place node around now call rfl called waiting)
        · have same := verdict.2 passes
          omega

/-- Over every run, blocks are counted for acceptances only exactly when no
waiting call is answered by a misleading reply. -/
theorem throughout_countsSuccess_iff (start : Ledger) (events : List ReplyEvent) :
    Throughout (next numbers config) (CountsSuccess numbers config) start events ↔
      Throughout (next numbers config) (NotMisled numbers) start events := by
  apply throughout_iff (fun _ => True)
  · intro _ _ _ _ _
    trivial
  · intro ledger event _
    exact countsSuccess_iff numbers config ledger event
  · trivial

/-! ## An empty body -/

/-- A share that is a block. -/
def blockExample : AcceptedShare where
  isBlock := true
  hashed := []
  hash := List.replicate 64 '0'
  shareQuality := "1".toList
  networkQuality := "1".toList
  hashValueHex := List.replicate 64 '0'
  blockHex := some "04000000".toList
  height := .null
  jobNbits := .undefined

/-- A node behind a proxy that answers every request with an empty body. -/
def emptyBody : Node :=
  fun _ _ => .reply (.string [])

/-- The pool forwards the block and gets the empty body for an answer. -/
def emptyBodyRun : List ReplyEvent :=
  [.pool (.candidate blockExample (.value .undefined) 1 ⟨1, Nat.one_ne_zero⟩),
    .answered 0 emptyBody ⟨none, .null, .null⟩ ⟨1, Nat.one_ne_zero⟩]

/-- The empty body is counted as an accepted block. -/
theorem not_throughout_countsSuccess_emptyBody :
    ¬Throughout (next .integers ⟨0, .undefined, Json.unconverted, le_refl 0⟩)
      (CountsSuccess .integers ⟨0, .undefined, Json.unconverted, le_refl 0⟩) Ledger.empty
      emptyBodyRun := by
  rintro ⟨-, later⟩
  obtain ⟨counts, -⟩ := later _ rfl
  rw [countsSuccess_iff] at counts
  apply counts 0 emptyBody _ ⟨1, Nat.one_ne_zero⟩ _ rfl rfl rfl
  exact ⟨[.string "04000000".toList], .string [], rfl, rfl, .text []⟩

end ReplyEvent

end ZcashSoloPool.Pool
