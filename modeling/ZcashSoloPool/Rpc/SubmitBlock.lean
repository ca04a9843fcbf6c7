import ZcashSoloPool.Rpc.Call
import Mathlib.Data.List.Infix

/-!
# Submitting a block to the node

`submitBlock` sends the block with parameters of five shapes in turn, as long as
the node complains about the shape.  What the node says ends up as the result
of one of these calls, where an accepted block is `null`, and so is a member
that the reply does not have.
-/

namespace ZcashSoloPool.Rpc

open ZcashSoloPool.JavaScript

/-- `shouldRetrySubmitBlock`. -/
def shouldRetrySubmitBlock (error : RpcError) : Bool :=
  let msg := error.lowerMessage
  let shape :=
    includes msg "invalid params" ||
    includes msg "wrong number of arguments" ||
    includes msg "invalid parameter" ||
    includes msg "invalid parameter type" ||
    includes msg "expected" ||
    includes msg "cannot unmarshal" ||
    includes msg "type mismatch"
  let reject :=
    includes msg "bad-" ||
    includes msg "invalid block" ||
    includes msg "high-hash" ||
    includes msg "duplicate" ||
    includes msg "already have" ||
    includes msg "already known" ||
    includes msg "rejected"
  if shape then true
  else if reject then false
  else error.hasCode (-1) || includes msg "\"code\":-1" || includes msg "code -1"

/-- `primaryParams`. -/
def primaryParams (blockHex : Json) : List Json :=
  [blockHex]

/-- `alternates`. -/
def alternates (blockHex : Json) : List (List Json) :=
  [[blockHex, .string []],
    [.array [blockHex]],
    [.object [("block".toList, blockHex)]],
    [.object [("hex".toList, blockHex)]]]

/-- The method that blocks are sent to. -/
def submitMethod : Text :=
  "submitblock".toList

/-- The loop over the alternates. -/
def tryAlternates (numbers : NumberFormat) (node : Node) :
    RpcError → List (List Json) → Except RpcError (Option Json)
  | last, [] => .error last
  | _, params :: rest =>
      match call numbers node submitMethod params with
      | .ok result => .ok result
      | .error e2 =>
          if shouldRetrySubmitBlock e2 then tryAlternates numbers node e2 rest else .error e2

/-- `submitBlock`. -/
def submitBlock (numbers : NumberFormat) (node : Node) (blockHex : Json) :
    Except RpcError (Option Json) :=
  match call numbers node submitMethod (primaryParams blockHex) with
  | .ok result => .ok result
  | .error e =>
      if !shouldRetrySubmitBlock e then .error e
      else tryAlternates numbers node e (alternates blockHex)

/-! ## The call that decides -/

/-- All parameters in the order in which they are tried. -/
def attempts (blockHex : Json) : List (List Json) :=
  primaryParams blockHex :: alternates blockHex

/-- The node answers these parameters with an error about their shape. -/
def isRetried (numbers : NumberFormat) (node : Node) (params : List Json) : Bool :=
  match call numbers node submitMethod params with
  | .ok _ => false
  | .error e => shouldRetrySubmitBlock e

/-- The parameters after which there is no other attempt, unless all were
complained about. -/
def decidingParams (numbers : NumberFormat) (node : Node) (blockHex : Json) :
    Option (List Json) :=
  (attempts blockHex).find? fun params => !isRetried numbers node params

theorem tryAlternates_of_find {numbers : NumberFormat} {node : Node} {last : RpcError}
    {others : List (List Json)} :
    (∀ params, (others.find? fun params => !isRetried numbers node params) = some params →
      tryAlternates numbers node last others = call numbers node submitMethod params) ∧
    ((others.find? fun params => !isRetried numbers node params) = none →
      ∃ e, tryAlternates numbers node last others = .error e) := by
  induction others generalizing last with
  | nil =>
      constructor
      · intro params found
        contradiction
      · intro _
        exact ⟨last, rfl⟩
  | cons params rest ih =>
      rw [List.find?_cons]
      cases result : call numbers node submitMethod params with
      | ok value =>
          have decides : isRetried numbers node params = false := by rw [isRetried, result]
          rw [decides, tryAlternates, result]
          constructor
          · rintro _ ⟨⟩
            exact result.symm
          · intro none
            contradiction
      | error e =>
          have same : isRetried numbers node params = shouldRetrySubmitBlock e := by
            rw [isRetried, result]
          rw [same, tryAlternates, result]
          dsimp only
          cases shouldRetrySubmitBlock e with
          | true => exact ih
          | false =>
              constructor
              · rintro _ ⟨⟩
                exact result.symm
              · intro none
                contradiction

/-- The result is that of the deciding call; without one it is an error. -/
theorem submitBlock_of_deciding {numbers : NumberFormat} {node : Node} {blockHex : Json} :
    (∀ params, decidingParams numbers node blockHex = some params →
      submitBlock numbers node blockHex = call numbers node submitMethod params) ∧
    (decidingParams numbers node blockHex = none →
      ∃ e, submitBlock numbers node blockHex = .error e) := by
  have same : ∃ last, submitBlock numbers node blockHex =
      tryAlternates numbers node last (attempts blockHex) := by
    refine ⟨conversionError, ?_⟩
    rw [submitBlock, attempts, tryAlternates]
    cases call numbers node submitMethod (primaryParams blockHex) with
    | ok value => rfl
    | error e =>
        dsimp only
        cases shouldRetrySubmitBlock e with
        | true => rfl
        | false => rfl
  obtain ⟨last, same⟩ := same
  rw [same]
  exact tryAlternates_of_find

/-! ## Replies that pass for an acceptance -/

/-- `_ == null`. -/
def isNullish : Option Json → Bool
  | none => true
  | some value => value.isNull

/-- The reply of a node that accepted the block: an object without an error
whose member `result` is there and is `null`. -/
structure IsSuccess (data : Json) : Prop where
  noError : data.member "error" = none ∨ data.member "error" = some .null
  result : data.member "result" = some .null

/-- Bodies of successful status that are no such reply and hold no error that
counts as true: anything that is not an object (text that is no JSON, and the
empty body, among it), an object without a result, and an object with a false
error beside its null result. -/
inductive IsMisleading : Json → Prop
  | bool (flag : Bool) : IsMisleading (.bool flag)
  | number (value : ℚ) : IsMisleading (.number value)
  | infinity (negative : Bool) : IsMisleading (.infinity negative)
  | text (text : Text) : IsMisleading (.string text)
  | array (elements : List Json) : IsMisleading (.array elements)
  | noResult {members : List (Text × Json)} (error : errorMember (.object members) = none)
      (result : members.lookup "result".toList = none) : IsMisleading (.object members)
  | falseError {members : List (Text × Json)} {error : Json}
      (member : members.lookup "error".toList = some error) (notNull : error.isNull = false)
      (notTrue : error.truthy = false)
      (result : members.lookup "result".toList = some .null) : IsMisleading (.object members)

theorem errorMember_eq_none_iff {data : Json} :
    errorMember data = none ↔ ∀ error, data.member "error" = some error → error.truthy = false := by
  rw [errorMember, Option.filter_eq_none_iff]
  constructor
  · intro falsy error found
    exact Bool.eq_false_of_not_eq_true (falsy error found)
  · intro falsy error found
    rw [falsy error found]
    exact Bool.false_ne_true

theorem isNull_iff {value : Json} : value.isNull = true ↔ value = .null := by
  cases value <;> simp [Json.isNull]

/-- What a returned body must be for its result to pass for an acceptance. -/
theorem passes_iff {data : Json} :
    (errorMember data = none ∧ data.isNull = false ∧ isNullish (data.member "result") = true) ↔
      IsSuccess data ∨ IsMisleading data := by
  constructor
  · rintro ⟨clean, notNull, nullish⟩
    cases data with
    | null => contradiction
    | bool flag => exact Or.inr (.bool flag)
    | number value => exact Or.inr (.number value)
    | infinity negative => exact Or.inr (.infinity negative)
    | string text => exact Or.inr (.text text)
    | array elements => exact Or.inr (.array elements)
    | object members =>
        cases result : members.lookup "result".toList with
        | none => exact Or.inr (.noResult clean result)
        | some value =>
            rw [Json.member, result, isNullish, isNull_iff] at nullish
            cases error : members.lookup "error".toList with
            | none => exact Or.inl ⟨Or.inl error, by rw [Json.member, result, nullish]⟩
            | some e =>
                have falsy := errorMember_eq_none_iff.mp clean e error
                cases null : e.isNull with
                | true =>
                    rw [isNull_iff] at null
                    rw [null] at error
                    exact Or.inl ⟨Or.inr error, by rw [Json.member, result, nullish]⟩
                | false =>
                    rw [nullish] at result
                    exact Or.inr (.falseError error null falsy result)
  · rintro (success | misleading)
    · refine ⟨?_, ?_, by rw [success.result]; rfl⟩
      · rw [errorMember_eq_none_iff]
        intro error found
        rcases success.noError with absent | null
        · rw [absent] at found
          contradiction
        · rw [null] at found
          cases found
          rfl
      · cases data with
        | null => exact absurd success.result (by simp [Json.member])
        | _ => rfl
    · cases misleading with
      | noResult error result => exact ⟨error, rfl, by rw [Json.member, result]; rfl⟩
      | falseError member notNull notTrue result =>
          refine ⟨?_, rfl, by rw [Json.member, result]; rfl⟩
          rw [errorMember_eq_none_iff]
          intro other found
          rw [Json.member, member] at found
          cases found
          exact notTrue
      | _ => exact ⟨rfl, rfl, rfl⟩

/-- A misleading body is not the reply of a node that accepted the block. -/
theorem IsMisleading.not_isSuccess {data : Json} (misleading : IsMisleading data) :
    ¬IsSuccess data := by
  rintro ⟨noError, null⟩
  cases misleading with
  | noResult error result =>
      rw [Json.member, result] at null
      contradiction
  | falseError member notNull notTrue result =>
      rw [Json.member, member] at noError
      rcases noError with absent | isNull
      · contradiction
      · cases isNull
        contradiction
  | _ => contradiction

/-- The body of the deciding reply is misleading. -/
def Misled (numbers : NumberFormat) (node : Node) (blockHex : Json) : Prop :=
  ∃ params data, decidingParams numbers node blockHex = some params ∧
    node submitMethod params = .reply data ∧ IsMisleading data

/-- The deciding reply is one of a node that accepted the block. -/
def Succeeded (numbers : NumberFormat) (node : Node) (blockHex : Json) : Prop :=
  ∃ params data, decidingParams numbers node blockHex = some params ∧
    node submitMethod params = .reply data ∧ IsSuccess data

/-- The result passes for an acceptance when the node accepted the block, and
when the deciding reply is misleading. -/
theorem submitBlock_nullish_iff {numbers : NumberFormat} {node : Node} {blockHex : Json} :
    (∃ result, submitBlock numbers node blockHex = .ok result ∧ isNullish result = true) ↔
      Succeeded numbers node blockHex ∨ Misled numbers node blockHex := by
  cases decides : decidingParams numbers node blockHex with
  | none =>
      obtain ⟨e, thrown⟩ := submitBlock_of_deciding.2 decides
      constructor
      · rintro ⟨result, returned, -⟩
        rw [thrown] at returned
        contradiction
      · rintro (⟨params, data, decided, -⟩ | ⟨params, data, decided, -⟩)
        · rw [decides] at decided
          contradiction
        · rw [decides] at decided
          contradiction
  | some params =>
      have same := submitBlock_of_deciding.1 params decides
      simp only [same, call_eq_ok_iff, Succeeded, Misled, decides]
      constructor
      · rintro ⟨_, ⟨data, replied, clean, notNull, rfl⟩, nullish⟩
        rcases passes_iff.mp ⟨clean, notNull, nullish⟩ with success | misleading
        · exact Or.inl ⟨params, data, rfl, replied, success⟩
        · exact Or.inr ⟨params, data, rfl, replied, misleading⟩
      · rintro (⟨_, data, ⟨⟩, replied, success⟩ | ⟨_, data, ⟨⟩, replied, misleading⟩)
        · obtain ⟨clean, notNull, nullish⟩ := passes_iff.mpr (Or.inl success)
          exact ⟨_, ⟨data, replied, clean, notNull, rfl⟩, nullish⟩
        · obtain ⟨clean, notNull, nullish⟩ := passes_iff.mpr (Or.inr misleading)
          exact ⟨_, ⟨data, replied, clean, notNull, rfl⟩, nullish⟩

/-- The deciding reply is of one kind only. -/
theorem Misled.not_succeeded {numbers : NumberFormat} {node : Node} {blockHex : Json}
    (misled : Misled numbers node blockHex) : ¬Succeeded numbers node blockHex := by
  rintro ⟨params, data, decides, replied, success⟩
  obtain ⟨other, otherData, otherDecides, otherReplied, misleading⟩ := misled
  rw [decides] at otherDecides
  cases otherDecides
  rw [replied] at otherReplied
  cases otherReplied
  exact misleading.not_isSuccess success

end ZcashSoloPool.Rpc
