import ZcashSoloPool.Rpc.Call
import ZcashSoloPool.Transition.Run

/-!
# Discovery of the network rate

`getNetworkSolps` asks the node for the rate of the network under several names
and with several parameters.  The first number it gets fixes the method and the
parameters for all later calls; when no method yields a number it gives up for
good, whatever the reason was.
-/

namespace ZcashSoloPool.Rpc

open ZcashSoloPool.JavaScript

/-- The fields of `ZcashRPC` that discovery reads and writes; `none` is the
source's `null`. -/
structure NetworkRate where
  networkRateMethod : Option Text
  networkRateParams : Option (List Json)
  networkRateUnsupported : Bool

/-- The fields of a new `ZcashRPC`. -/
def NetworkRate.initial : NetworkRate :=
  ⟨none, none, false⟩

/-- The local `missingMethod`. -/
def missingMethod (error : RpcError) : Bool :=
  let msg := error.lowerMessage
  error.hasCode (-32601) ||
    includes msg "method not found" ||
    includes msg "not found" ||
    includes msg "unsupported" ||
    includes msg "not implemented"

/-- The local `invalidParams`. -/
def invalidParams (error : RpcError) : Bool :=
  let msg := error.lowerMessage
  error.hasCode (-32602) ||
    includes msg "invalid params" ||
    includes msg "wrong number of arguments" ||
    includes msg "expected"

/-- A method with the parameters to try. -/
structure Candidate where
  method : Text
  paramSets : List (List Json)

/-- The candidates of a node that nothing is known of. -/
def allCandidates : List Candidate :=
  [⟨"getnetworksolps".toList,
      [[], [.number 120], [.number (-1)], [.number 120, .number (-1)]]⟩,
    ⟨"getnetworkhashps".toList,
      [[], [.number 120], [.number (-1)], [.number 120, .number (-1)]]⟩,
    ⟨"getmininginfo".toList, [[]]⟩]

/-- `candidates`.  The cached method is never the empty text. -/
def candidates (rate : NetworkRate) : List Candidate :=
  match rate.networkRateMethod with
  | some method => [⟨method, [rate.networkRateParams.getD []]⟩]
  | none => allCandidates

/-- `left ?? right`. -/
def nullish (left right : Option Json) : Option Json :=
  match left with
  | some value => if value.isNull then right else some value
  | none => right

/-- The value that is read as the rate; `none` is `undefined`. -/
def rateValue (method : Text) (result : Option Json) : Option Json :=
  match result with
  | some value =>
      if method = "getmininginfo".toList && isObject value then
        nullish (nullish (value.member "networksolps") (value.member "networkhashps"))
          (value.member "networkhashpspersec")
      else result
  | none => none

/-- What the body of the loops makes of one request: a rate, the next
parameters, or the next method. -/
inductive Answer where
  | rate (value : ℚ)
  | nextParams
  | nextMethod

/-- The end of the body for an error. -/
def answerError (error : RpcError) : Answer :=
  if missingMethod error then .nextMethod
  else if invalidParams error then .nextParams
  else .nextMethod

/-- The body of the inner loop.  `Number` may throw, and its error is neither of
a missing method nor of invalid parameters. -/
def answer (numbers : NumberFormat) (node : Node) (method : Text) (params : List Json) : Answer :=
  match call numbers node method params with
  | .ok result =>
      match rateValue method result with
      | some value =>
          match value.toNumber? numbers with
          | some (some n) => if 0 ≤ n then .rate n else .nextParams
          | some none => .nextParams
          | none => answerError conversionError
      | none => .nextParams
  | .error error => answerError error

/-- A request: its method and its parameters. -/
abbrev Request :=
  Text × List Json

/-- What the loops do: the requests they make, and the one that was answered with
a rate. -/
structure Walk where
  requests : List Request
  found : Option (Request × ℚ)

/-- The inner loop. -/
def walkParams (numbers : NumberFormat) (node : Node) (method : Text) : List (List Json) → Walk
  | [] => ⟨[], none⟩
  | params :: rest =>
      match answer numbers node method params with
      | .rate value => ⟨[(method, params)], some ((method, params), value)⟩
      | .nextParams =>
          let later := walkParams numbers node method rest
          ⟨(method, params) :: later.requests, later.found⟩
      | .nextMethod => ⟨[(method, params)], none⟩

/-- The outer loop. -/
def walk (numbers : NumberFormat) (node : Node) : List Candidate → Walk
  | [] => ⟨[], none⟩
  | c :: rest =>
      let first := walkParams numbers node c.method c.paramSets
      match first.found with
      | some found => ⟨first.requests, some found⟩
      | none =>
          let later := walk numbers node rest
          ⟨first.requests ++ later.requests, later.found⟩

/-- `getNetworkSolps`: the requests made, the fields afterwards and the result,
which is `none` for `null`. -/
def getNetworkSolps (numbers : NumberFormat) (rate : NetworkRate) (node : Node) :
    List Request × NetworkRate × Option ℚ :=
  if rate.networkRateUnsupported then ([], rate, none)
  else
    let walked := walk numbers node (candidates rate)
    match walked.found with
    | some ((method, params), value) =>
        (walked.requests,
          { rate with networkRateMethod := some method, networkRateParams := some params },
          some value)
    | none =>
        (walked.requests,
          { rate with
            networkRateUnsupported := rate.networkRateUnsupported || rate.networkRateMethod.isNone },
          none)

/-! ## Requests that the loops come to -/

/-- The inner loop comes to these parameters: the ones in front of them were
answered, but not with a rate. -/
def Reached (numbers : NumberFormat) (node : Node) (method : Text)
    (paramSets : List (List Json)) (params : List Json) : Prop :=
  ∃ before after, paramSets = before ++ params :: after ∧
    ∀ earlier ∈ before, answer numbers node method earlier = .nextParams

/-- These parameters are answered with a rate. -/
def Rated (numbers : NumberFormat) (node : Node) (method : Text) (params : List Json) : Prop :=
  ∃ value, answer numbers node method params = .rate value

theorem reached_cons {numbers : NumberFormat} {node : Node} {method : Text}
    {first params : List Json} {rest : List (List Json)} :
    Reached numbers node method (first :: rest) params ↔
      params = first ∨ (answer numbers node method first = .nextParams ∧
        Reached numbers node method rest params) := by
  constructor
  · rintro ⟨before, after, split, passed⟩
    cases before with
    | nil =>
        rw [List.nil_append, List.cons.injEq] at split
        exact Or.inl split.1.symm
    | cons head tail =>
        rw [List.cons_append, List.cons.injEq] at split
        rcases split with ⟨rfl, split⟩
        refine Or.inr ⟨passed first List.mem_cons_self, tail, after, split, ?_⟩
        intro earlier member
        exact passed earlier (List.mem_cons_of_mem _ member)
  · rintro (rfl | ⟨passed, before, after, rfl, others⟩)
    · refine ⟨[], rest, rfl, ?_⟩
      intro earlier member
      contradiction
    · refine ⟨first :: before, after, rfl, ?_⟩
      intro earlier member
      rcases List.mem_cons.mp member with rfl | later
      · exact passed
      · exact others earlier later

theorem not_reached_nil {numbers : NumberFormat} {node : Node} {method : Text}
    {params : List Json} : ¬Reached numbers node method [] params := by
  rintro ⟨before, after, split, -⟩
  exact absurd split.symm (by simp)

/-- The inner loop makes the requests it comes to, and finds a rate when it comes
to one. -/
theorem walkParams_spec (numbers : NumberFormat) (node : Node) (method : Text)
    (paramSets : List (List Json)) :
    (∀ request, request ∈ (walkParams numbers node method paramSets).requests ↔
      request.1 = method ∧ Reached numbers node method paramSets request.2) ∧
    ((walkParams numbers node method paramSets).found = none ↔
      ∀ params, Reached numbers node method paramSets params →
        ¬Rated numbers node method params) := by
  induction paramSets with
  | nil =>
      constructor
      · intro request
        simp [walkParams, not_reached_nil]
      · simp [walkParams, not_reached_nil]
  | cons params rest ih =>
      have only (stops : answer numbers node method params ≠ .nextParams) (other : List Json) :
          Reached numbers node method (params :: rest) other ↔ other = params := by
        simp [reached_cons, stops]
      have pair_iff (request : Request) :
          request = (method, params) ↔ request.1 = method ∧ request.2 = params := Prod.ext_iff
      rw [walkParams]
      cases answered : answer numbers node method params with
      | rate value =>
          have stops : answer numbers node method params ≠ .nextParams := by simp [answered]
          constructor
          · intro request
            rw [only stops, List.mem_singleton, pair_iff]
          · simp only [only stops, reduceCtorEq, forall_eq, false_iff, not_not]
            exact ⟨value, answered⟩
      | nextMethod =>
          have stops : answer numbers node method params ≠ .nextParams := by simp [answered]
          constructor
          · intro request
            rw [only stops, List.mem_singleton, pair_iff]
          · simp only [only stops, forall_eq, true_iff]
            rintro ⟨value, rated⟩
            rw [answered] at rated
            contradiction
      | nextParams =>
          constructor
          · intro request
            dsimp only
            rw [List.mem_cons, pair_iff, ih.1, reached_cons, and_or_left]
            simp [answered]
          · dsimp only
            rw [ih.2]
            constructor
            · intro none other reached
              rcases reached_cons.mp reached with rfl | ⟨-, later⟩
              · rintro ⟨value, rated⟩
                rw [answered] at rated
                contradiction
              · exact none other later
            · intro none other reached
              exact none other (reached_cons.mpr (Or.inr ⟨answered, reached⟩))

/-- The outer loop finds no rate when no method yields one, and then it makes
every request that an inner loop comes to. -/
theorem walk_spec (numbers : NumberFormat) (node : Node) (cs : List Candidate) :
    ((walk numbers node cs).found = none ↔
      ∀ c ∈ cs, ∀ params, Reached numbers node c.method c.paramSets params →
        ¬Rated numbers node c.method params) ∧
    ((walk numbers node cs).found = none →
      ∀ request, request ∈ (walk numbers node cs).requests ↔
        ∃ c ∈ cs, request.1 = c.method ∧
          Reached numbers node c.method c.paramSets request.2) := by
  induction cs with
  | nil =>
      constructor
      · simp [walk]
      · intro _ request
        simp [walk]
  | cons c rest ih =>
      obtain ⟨made, unrated⟩ := walkParams_spec numbers node c.method c.paramSets
      rw [walk]
      cases first : (walkParams numbers node c.method c.paramSets).found with
      | some found =>
          constructor
          · dsimp only
            rw [List.forall_mem_cons, ← unrated, first]
            simp
          · intro none
            contradiction
      | none =>
          constructor
          · dsimp only
            rw [List.forall_mem_cons, ← unrated, first, ih.1]
            simp
          · intro none request
            dsimp only at none ⊢
            rw [List.mem_append, made, ih.2 none, List.exists_mem_cons_iff]

/-! ## One call -/

/-- The fields after a call. -/
def NetworkRate.step (numbers : NumberFormat) (rate : NetworkRate) (node : Node) : NetworkRate :=
  (getNetworkSolps numbers rate node).2.1

/-- The requests of a call. -/
def NetworkRate.requests (numbers : NumberFormat) (rate : NetworkRate) (node : Node) :
    List Request :=
  (getNetworkSolps numbers rate node).1

/-- The request that a former rate came from. -/
def NetworkRate.cached (rate : NetworkRate) : Option Request :=
  rate.networkRateMethod.map fun method => (method, rate.networkRateParams.getD [])

/-- Discovery was not given up where there is a method. -/
def NetworkRate.Sound (rate : NetworkRate) : Prop :=
  rate.networkRateMethod.isSome = true → rate.networkRateUnsupported = false

theorem walk_cached (numbers : NumberFormat) (node : Node) (method : Text)
    (params : List Json) :
    (walk numbers node [⟨method, [params]⟩]).requests = [(method, params)] ∧
      ∀ found, (walk numbers node [⟨method, [params]⟩]).found = some found →
        found.1 = (method, params) := by
  rw [walk, walkParams]
  cases answer numbers node method params with
  | rate value =>
      refine ⟨rfl, ?_⟩
      rintro found ⟨⟩
      rfl
  | nextParams => exact ⟨rfl, fun found none => nomatch none⟩
  | nextMethod => exact ⟨rfl, fun found none => nomatch none⟩

/-- With a cached method, a call makes the one request and leaves it cached. -/
theorem step_of_cached (numbers : NumberFormat) (node : Node) {rate : NetworkRate}
    {request : Request} (known : rate.cached = some request)
    (supported : rate.networkRateUnsupported = false) :
    rate.requests numbers node = [request] ∧ (rate.step numbers node).cached = some request ∧
      (rate.step numbers node).networkRateUnsupported = false := by
  obtain ⟨method, isMethod, rfl⟩ := Option.map_eq_some_iff.mp known
  obtain ⟨requests, found⟩ := walk_cached numbers node method (rate.networkRateParams.getD [])
  have candidate : candidates rate = [⟨method, [rate.networkRateParams.getD []]⟩] := by
    rw [candidates, isMethod]
  rw [NetworkRate.requests, NetworkRate.step, getNetworkSolps, supported, candidate]
  simp only [Bool.false_eq_true, if_false]
  split
  · next other params value isFound =>
      have same := found _ isFound
      cases same
      exact ⟨requests, rfl, rfl⟩
  · refine ⟨requests, known, ?_⟩
    rw [isMethod]
    rfl

theorem step_of_unsupported {numbers : NumberFormat} {rate : NetworkRate} {node : Node}
    (unsupported : rate.networkRateUnsupported = true) :
    rate.requests numbers node = [] ∧ rate.step numbers node = rate := by
  rw [NetworkRate.requests, NetworkRate.step, getNetworkSolps, if_pos unsupported]
  exact ⟨rfl, rfl⟩

/-- Without a cached method, a call walks through all candidates, and gives up
exactly when it finds no rate. -/
theorem step_of_discovery (numbers : NumberFormat) (node : Node) {rate : NetworkRate}
    (unknown : rate.networkRateMethod = none) (supported : rate.networkRateUnsupported = false) :
    rate.requests numbers node = (walk numbers node allCandidates).requests ∧
      ((rate.step numbers node).networkRateUnsupported = true ↔
        (walk numbers node allCandidates).found = none) := by
  have all : candidates rate = allCandidates := by rw [candidates, unknown]
  rw [NetworkRate.requests, NetworkRate.step, getNetworkSolps, supported, all]
  simp only [Bool.false_eq_true, if_false]
  split
  · next method params value isFound =>
      refine ⟨rfl, ?_⟩
      rw [isFound]
      simp
  · next none =>
      refine ⟨rfl, ?_⟩
      rw [none, unknown]
      simp

theorem NetworkRate.Sound.step {numbers : NumberFormat} {rate : NetworkRate} (sound : rate.Sound)
    (node : Node) : (rate.step numbers node).Sound := by
  cases supported : rate.networkRateUnsupported with
  | true =>
      rw [(step_of_unsupported supported).2]
      exact sound
  | false =>
      rw [NetworkRate.step, getNetworkSolps, supported]
      simp only [Bool.false_eq_true, if_false]
      split
      · intro _
        rfl
      · intro known
        rw [Option.isNone_eq_false_iff.mpr known]
        rfl

/-! ## The law of giving up -/

/-- A request failed without an answer of the node: there is no JSON-RPC error
with the failure. -/
def IsTransportFailure : HttpOutcome → Prop
  | .reply _ => False
  | .failure _ response => responseError response = none

/-- A call gives up only if none of its requests failed in transport. -/
def GivesUpRightly (numbers : NumberFormat) (rate : NetworkRate) (node : Node) : Prop :=
  rate.networkRateUnsupported = false → (rate.step numbers node).networkRateUnsupported = true →
    ∀ request ∈ rate.requests numbers node, ¬IsTransportFailure (node request.1 request.2)

/-- Where a discovery comes to a request that fails in transport, it also comes to
one that is answered with a rate. -/
def Recovers (numbers : NumberFormat) (rate : NetworkRate) (node : Node) : Prop :=
  rate.networkRateUnsupported = false → rate.networkRateMethod = none →
    ∀ c ∈ allCandidates, ∀ params, Reached numbers node c.method c.paramSets params →
      IsTransportFailure (node c.method params) →
        ∃ other ∈ allCandidates, ∃ otherParams,
          Reached numbers node other.method other.paramSets otherParams ∧
            Rated numbers node other.method otherParams

theorem givesUpRightly_iff (numbers : NumberFormat) (rate : NetworkRate) (node : Node) :
    GivesUpRightly numbers rate node ↔ Recovers numbers rate node := by
  cases supported : rate.networkRateUnsupported with
  | true => simp [GivesUpRightly, Recovers, supported]
  | false =>
      cases known : rate.networkRateMethod with
      | some method =>
          have cached : rate.cached = some (method, rate.networkRateParams.getD []) := by
            rw [NetworkRate.cached, known]
            rfl
          have stays := (step_of_cached numbers node cached supported).2.2
          simp [GivesUpRightly, Recovers, known, stays]
      | none =>
          obtain ⟨requests, givesUp⟩ := step_of_discovery numbers node known supported
          obtain ⟨unrated, made⟩ := walk_spec numbers node allCandidates
          simp only [GivesUpRightly, Recovers, supported, known, requests, givesUp, true_implies]
          constructor
          · intro rightly c member params reached failed
            by_contra none
            push Not at none
            have unfound := unrated.mpr none
            exact rightly unfound (c.method, params)
              ((made unfound _).mpr ⟨c, member, rfl, reached⟩) failed
          · rintro recovers unfound ⟨method, params⟩ requested failed
            obtain ⟨c, member, rfl, reached⟩ := (made unfound _).mp requested
            obtain ⟨other, otherMember, otherParams, otherReached, rated⟩ :=
              recovers c member params reached failed
            exact unrated.mp unfound other otherMember otherParams otherReached rated

/-! ## Sequences of calls -/

/-- The fields after the calls, each of which met its own node. -/
def rateAfter (numbers : NumberFormat) (nodes : List Node) : NetworkRate :=
  nodes.foldl (fun rate node => rate.step numbers node) .initial

/-- Discovery never gives up on a transient failure, and what it has found it
keeps to. -/
structure KeepsTrying (numbers : NumberFormat) (nodes : List Node) : Prop where
  latch : ∀ before node later, nodes = before ++ node :: later →
    GivesUpRightly numbers (rateAfter numbers before) node
  cached : ∀ before between node later request, nodes = before ++ between ++ node :: later →
    (rateAfter numbers before).cached = some request →
      (rateAfter numbers (before ++ between)).requests numbers node = [request]

theorem sound_rateAfter (numbers : NumberFormat) (nodes : List Node) :
    (rateAfter numbers nodes).Sound := by
  apply Transition.foldl_invariant
  · intro rate node sound
    exact sound.step node
  · intro known
    contradiction

/-- What is cached stays cached. -/
theorem cached_rateAfter {numbers : NumberFormat} {before : List Node} {request : Request}
    (known : (rateAfter numbers before).cached = some request) (between : List Node) :
    (rateAfter numbers (before ++ between)).cached = some request ∧
      (rateAfter numbers (before ++ between)).networkRateUnsupported = false := by
  rw [rateAfter, List.foldl_append]
  apply Transition.foldl_invariant
    (fun (rate : NetworkRate) (node : Node) => rate.step numbers node)
    (fun (rate : NetworkRate) =>
      rate.cached = some request ∧ rate.networkRateUnsupported = false)
  · rintro rate node ⟨cached, supported⟩
    exact (step_of_cached numbers node cached supported).2
  · refine ⟨known, sound_rateAfter numbers before ?_⟩
    obtain ⟨method, isMethod, -⟩ := Option.map_eq_some_iff.mp known
    rw [isMethod]
    rfl

/-- Discovery keeps trying exactly when every discovery that meets a failure in
transport also meets a rate. -/
theorem keepsTrying_iff (numbers : NumberFormat) (nodes : List Node) :
    KeepsTrying numbers nodes ↔
      ∀ before node later, nodes = before ++ node :: later →
        Recovers numbers (rateAfter numbers before) node := by
  constructor
  · intro keeps before node later split
    exact (givesUpRightly_iff numbers _ node).mp
      (keeps.latch before node later split)
  · intro recovers
    constructor
    · intro before node later split
      exact (givesUpRightly_iff numbers _ node).mpr
        (recovers before node later split)
    · rintro before between node later request rfl known
      obtain ⟨cached, supported⟩ := cached_rateAfter known between
      exact (step_of_cached numbers node cached supported).1

/-- A node that cannot be reached in time. -/
def timesOut : Node :=
  fun _ _ => .failure "timeout of 5000ms exceeded".toList none

theorem answerError_ne_rate (error : RpcError) (value : ℚ) : answerError error ≠ .rate value := by
  unfold answerError
  cases missingMethod error with
  | true => nofun
  | false =>
      cases invalidParams error with
      | true => nofun
      | false => nofun

/-- A request that failed in transport is not answered with a rate. -/
theorem IsTransportFailure.not_rated {numbers : NumberFormat} {node : Node} {method : Text}
    {params : List Json} (failure : IsTransportFailure (node method params)) :
    ¬Rated numbers node method params := by
  have thrown : ∃ error, call numbers node method params = .error error := by
    cases result : call numbers node method params with
    | error error => exact ⟨error, rfl⟩
    | ok value =>
        obtain ⟨data, replied, -⟩ := call_eq_ok_iff.mp result
        rw [replied] at failure
        contradiction
  obtain ⟨error, thrown⟩ := thrown
  rintro ⟨value, rated⟩
  rw [answer, thrown] at rated
  exact answerError_ne_rate error value rated

/-- One call during an outage ends discovery for good. -/
theorem not_keepsTrying_timesOut : ¬KeepsTrying .integers [timesOut] := by
  have unknown : NetworkRate.initial.networkRateMethod = none := rfl
  obtain ⟨requests, givesUp⟩ := step_of_discovery .integers timesOut unknown rfl
  obtain ⟨unrated, made⟩ := walk_spec .integers timesOut allCandidates
  have failed (method : Text) (params : List Json) :
      IsTransportFailure (timesOut method params) := rfl
  have unfound : (walk .integers timesOut allCandidates).found = none := by
    apply unrated.mpr
    intro c _ params _
    exact (failed c.method params).not_rated
  have first : ("getnetworksolps".toList, []) ∈
      NetworkRate.initial.requests .integers timesOut := by
    rw [requests]
    apply (made unfound _).mpr
    refine ⟨_, List.mem_cons_self, rfl, [], _, rfl, ?_⟩
    intro earlier member
    exact absurd member List.not_mem_nil
  intro keeps
  have rightly : GivesUpRightly .integers .initial timesOut := keeps.latch [] timesOut [] rfl
  rw [GivesUpRightly] at rightly
  exact rightly rfl (givesUp.mpr unfound) _ first (failed _ _)

end ZcashSoloPool.Rpc
