import ZcashSoloPool.Stratum.Requests
import ZcashSoloPool.Stratum.Vardiff

/-!
# All or nothing

A request either completes, with one response or one submission handed over, or
throws and leaves the client as it was.  Two methods change the client before
the last conversion that can throw.
-/

namespace ZcashSoloPool.Stratum

open ZcashSoloPool.JavaScript
open ZcashSoloPool.WorkManager

/-! ## Effects -/

namespace Effect

/-- The id of a response. -/
def responseId : Effect → Option (Option Json)
  | .send (.response id _) => some id
  | _ => none

/-- The id of a submission. -/
def submissionId : Effect → Option (Option Json)
  | .submit id _ _ => some id
  | _ => none

end Effect

/-- The ids of the responses, in their order. -/
def responses (effects : List Effect) : List (Option Json) :=
  effects.filterMap Effect.responseId

/-- The ids of the submissions, in their order. -/
def submissions (effects : List Effect) : List (Option Json) :=
  effects.filterMap Effect.submissionId

/-- The request is a submission of an authorized client. -/
def Submits (miner : Miner) (request : Json) : Prop :=
  calls request "mining.submit" = true ∧ miner.authorized = true

/-- A request is answered once: by handing over a submission, or else by a
response. -/
structure Answered (miner : Miner) (request : Json) (effects : List Effect) : Prop where
  response : ¬Submits miner request →
    responses effects = [request.member "id"] ∧ submissions effects = []
  submission : Submits miner request →
    responses effects = [] ∧ submissions effects = [request.member "id"]

/-- What a request that throws leaves alone. -/
structure SameAccount (miner other : Miner) : Prop where
  authorized : other.authorized = miner.authorized
  workerName : other.workerName = miner.workerName
  difficulty : other.currentDifficulty = miner.currentDifficulty
  client : other.client = miner.client
  metrics : other.metrics = miner.metrics

theorem SameAccount.refl (miner : Miner) : SameAccount miner miner :=
  ⟨rfl, rfl, rfl, rfl, rfl⟩

/-- The name of an authorization does not convert. -/
def Nameless (numbers : NumberFormat) (request : Json) : Prop :=
  truthy (firstParam (request.member "params")) = true ∧
    unprintable numbers (firstParam (request.member "params")) = true

theorem calls_unique {request : Json} {first second : String}
    (isFirst : calls request first = true) (isSecond : calls request second = true) :
    first = second := by
  unfold calls at isFirst
  split at isFirst
  · next name isName =>
      rw [calls, isName] at isSecond
      apply String.ext
      rw [← beq_iff_eq.mp isFirst, ← beq_iff_eq.mp isSecond]
  · contradiction

/-! ## The methods -/

section Methods

variable {settings : RequestSettings} {miner : Miner} {request : Json}

/-- The name of an authorization throws where its conversion does. -/
theorem rawName_eq_none_iff (numbers : NumberFormat) (clientId : Nat) (first : Option Json)
    (workerName : Option CodeUnits) :
    rawName numbers clientId first workerName = none ↔
      truthy first = true ∧ unprintable numbers first = true := by
  cases first with
  | none => simp [rawName, truthy]
  | some value =>
      rw [rawName, truthy, unprintable, Option.any_some, Option.any_some, Option.isNone_iff_eq_none]
      split_ifs with counts
      · rw [Option.map_eq_none_iff]
        exact (and_iff_right counts).symm
      · simp [counts]

end Methods

/-! ## `handleRequest` -/

/-- The method of a request, if it is called in front of the submission. -/
theorem not_submits_of_calls {miner : Miner} {request : Json} {method : String}
    (isMethod : calls request method = true) (differs : method ≠ "mining.submit") :
    ¬Submits miner request :=
  fun submits => differs (calls_unique isMethod submits.1)

/-- A server in the mode `zip301` that sends targets. -/
def settingsExample : RequestSettings where
  shares := vardiffExample
  zip301 := true
  useSetTarget := true
  extranonce2Size := 4
  jobResendDelayMs := 0
  logOutbound := false
  logSubmissions := false
  submitAudit := false
  numbers := .integers

end ZcashSoloPool.Stratum
