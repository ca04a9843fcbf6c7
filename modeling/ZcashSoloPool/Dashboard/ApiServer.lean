import ZcashSoloPool.Bytes.Utf8
import ZcashSoloPool.Dashboard.RateLimiter
import ZcashSoloPool.JavaScript.Json
import ZcashSoloPool.Transition.Run

/-!
# The status server

A request is checked when it arrives: preflight requests are answered at once,
then the rate limit and the key decide whether a handler is called.  Handlers
are asynchronous, so that other requests arrive while one waits.  Whatever the
order of arrivals and results, each request is answered once, no handler runs
for a request without the key, and no address makes the handlers run more often
than the limit allows.
-/

namespace ZcashSoloPool.Dashboard

open ZcashSoloPool.Bytes
open ZcashSoloPool.Collections
open ZcashSoloPool.JavaScript
open ZcashSoloPool.Limits
open ZcashSoloPool.Transition

/-! ## Requests and replies -/

/-- The functions of the pool that the server calls. -/
inductive ApiHandler where
  | getHealth
  | getStats
  | getMiners
  | getNetwork
  | getJob
  deriving DecidableEq, Repr

/-- What the server reads of a request, and when it arrives.  A header that is
absent is `none`. -/
structure ApiCall where
  method : Text
  url : Text
  origin : Option Text
  key : Option Text
  remoteAddress : Option Text
  now : ℚ

/-- A reply: its status, its headers and the value whose JSON is its body. -/
structure ApiReply where
  status : Nat
  headers : List (Text × Text)
  body : Option Json

/-- The settings of `ApiServer`, with the handlers that it was given.  An empty
key asks for none; `pathname` is that of `new URL(_, "http://localhost")`, or
`none` where this throws. -/
structure ApiSettings where
  apiKey : Text
  corsOrigin : Text
  handlers : ApiHandler → Bool
  pathname : Text → Option Text

/-- A request, the handler that was called for it and the replies to it. -/
structure Exchange where
  call : ApiCall
  handler : Option ApiHandler
  replies : List ApiReply

/-- The server: its limiter and the requests that arrived, in order. -/
structure ApiServer where
  rateLimiter : RateLimiter
  exchanges : List Exchange

/-- What the server reacts to: a request, and the end of the handler of an
earlier one, with `none` where it throws. -/
inductive ApiEvent where
  | arrives (call : ApiCall)
  | settles (place : Nat) (result : Option Json)

/-! ## The server -/

/-- The origin that `buildCorsHeaders` allows. -/
def allowOrigin (settings : ApiSettings) (origin : Option Text) : Text :=
  if settings.corsOrigin = ['*'] then ['*']
  else
    match origin with
    | some requested => if requested = settings.corsOrigin then requested else settings.corsOrigin
    | none => settings.corsOrigin

/-- `buildCorsHeaders`. -/
def buildCorsHeaders (settings : ApiSettings) (origin : Option Text) : List (Text × Text) :=
  if settings.corsOrigin.isEmpty then []
  else
    [("Access-Control-Allow-Origin".toList, allowOrigin settings origin),
      ("Access-Control-Allow-Methods".toList, "GET, OPTIONS".toList),
      ("Access-Control-Allow-Headers".toList, "Content-Type, X-API-Key".toList),
      ("Access-Control-Max-Age".toList, "86400".toList)] ++
    if allowOrigin settings origin = ['*'] then [] else [("Vary".toList, "Origin".toList)]

/-- A reply with a JSON body. -/
def jsonReply (settings : ApiSettings) (call : ApiCall) (status : Nat) (body : Json) : ApiReply :=
  ⟨status, buildCorsHeaders settings call.origin ++
    [("Content-Type".toList, "application/json".toList)], some body⟩

/-- The body of an error. -/
def errorBody (error : String) : Json :=
  .object [("error".toList, .string error.toList)]

/-- The reply behind `catch`. -/
def internalError (settings : ApiSettings) (call : ApiCall) : ApiReply :=
  jsonReply settings call 500 (errorBody "internal_error")

/-- `crypto.timingSafeEqual` behind the comparison of the lengths. -/
def keyMatches (settings : ApiSettings) (call : ApiCall) : Bool :=
  let keyBuf := encodeUtf8 (call.key.getD [])
  let apiKeyBuf := encodeUtf8 settings.apiKey
  keyBuf.length == apiKeyBuf.length && keyBuf == apiKeyBuf

/-- `routes`. -/
def routes (route : Text) : Option ApiHandler :=
  if route = "/stats".toList then some .getStats
  else if route = "/miners".toList then some .getMiners
  else if route = "/network".toList then some .getNetwork
  else if route = "/job".toList then some .getJob
  else none

/-- `{ ok: true, ...out }` of an object, or of an array, whose indices are its
keys. -/
def healthPayload : Json → Json
  | .object members =>
      .object (("ok".toList, (members.lookup "ok".toList).getD (.bool true)) ::
        members.filter fun entry => entry.1 ≠ "ok".toList)
  | .array elements =>
      .object ((elements.zipIdx.map fun entry => (Nat.toDigits 10 entry.2, entry.1)) ++
        [("ok".toList, .bool true)])
  | _ => .object [("ok".toList, .bool true)]

/-- What a handler's result is answered with. -/
def payload (handler : ApiHandler) (out : Json) : Json :=
  if handler = .getHealth then healthPayload out else out

/-- A request that is answered at once. -/
def answered (call : ApiCall) (reply : ApiReply) : Exchange :=
  ⟨call, none, [reply]⟩

/-- The part behind the checks: a handler is called, or there is none. -/
def dispatch (settings : ApiSettings) (call : ApiCall) (route : Text) : Exchange :=
  if route = "/health".toList then
    if settings.handlers .getHealth then ⟨call, some .getHealth, []⟩
    else answered call (jsonReply settings call 200 (.object [("ok".toList, .bool true)]))
  else
    match (routes route).filter settings.handlers with
    | some handler => ⟨call, some handler, []⟩
    | none => answered call (jsonReply settings call 404 (errorBody "not_found"))

/-- The part behind the limit. -/
def authorized (settings : ApiSettings) (call : ApiCall) (route : Text) : Exchange :=
  if !settings.apiKey.isEmpty && !keyMatches settings call then
    answered call (jsonReply settings call 401 (errorBody "unauthorized"))
  else dispatch settings call route

namespace ApiServer

/-- The constructor. -/
def new : ApiServer :=
  ⟨RateLimiter.new 60 60000, []⟩

/-- The listener of the server up to its first `await`. -/
def accept (settings : ApiSettings) (limiter : RateLimiter) (call : ApiCall) :
    Exchange × RateLimiter :=
  match settings.pathname call.url with
  | none => (answered call (internalError settings call), limiter)
  | some pathname =>
      let route := if pathname.isEmpty then ['/'] else pathname
      if call.method = "OPTIONS".toList then
        (answered call ⟨204, buildCorsHeaders settings call.origin, none⟩, limiter)
      else
        let allowed := limiter.isAllowed (call.remoteAddress.getD []) call.now
        if !allowed.1 then
          (answered call (jsonReply settings call 429 (errorBody "rate_limited")), allowed.2)
        else (authorized settings call route, allowed.2)

/-- The listener behind the `await`. -/
def finish (settings : ApiSettings) (exchange : Exchange) (handler : ApiHandler) :
    Option Json → Exchange
  | none => { exchange with replies := exchange.replies ++ [internalError settings exchange.call] }
  | some out => { exchange with
      replies := exchange.replies ++
        [jsonReply settings exchange.call 200 (payload handler out)] }

/-- One reaction; only a handler that was called and has not ended can end. -/
def next (settings : ApiSettings) : Next ApiServer ApiEvent
  | server, .arrives call =>
      let accepted := accept settings server.rateLimiter call
      some ⟨accepted.2, server.exchanges ++ [accepted.1]⟩
  | server, .settles place result =>
      match server.exchanges[place]? with
      | none => none
      | some exchange =>
          match exchange.handler with
          | none => none
          | some handler =>
              if exchange.replies.isEmpty then
                some { server with
                  exchanges := server.exchanges.set place (finish settings exchange handler result) }
              else none

end ApiServer

/-! ## What the checks are for -/

/-- The bodies that tell nothing of the pool. -/
def Silent (body : Option Json) : Prop :=
  body = none ∨ ∃ error ∈ ["internal_error", "rate_limited", "unauthorized"],
    body = some (errorBody error)

/-- A request that has one reply or waits for its handler, that had the key if a
handler was called for it and was told nothing without it, and whose replies
allow no other origin than the one of the settings. -/
structure Exchange.Guarded (settings : ApiSettings) (exchange : Exchange) : Prop where
  once : (exchange.handler.isSome ∧ exchange.replies = []) ∨ ∃ reply, exchange.replies = [reply]
  keyed : settings.apiKey ≠ [] → exchange.handler.isSome →
    exchange.call.key = some settings.apiKey
  silent : settings.apiKey ≠ [] → exchange.call.key ≠ some settings.apiKey →
    ∀ reply ∈ exchange.replies, Silent reply.body
  cors : ∀ reply ∈ exchange.replies, ∀ origin,
    ("Access-Control-Allow-Origin".toList, origin) ∈ reply.headers → origin = settings.corsOrigin

/-- The requests of a run, in order. -/
def arrivals (events : List ApiEvent) : List ApiCall :=
  events.filterMap fun
    | .arrives call => some call
    | .settles _ _ => none

/-- The request as the limiter sees it, if it does. -/
def limited (settings : ApiSettings) (call : ApiCall) : Option ApiRequest :=
  if (settings.pathname call.url).isSome ∧ call.method ≠ "OPTIONS".toList then
    some ⟨call.remoteAddress.getD [], call.now⟩
  else none

/-- The request and the handler that was called. -/
def Exchange.admission (exchange : Exchange) : ApiCall × Option ApiHandler :=
  (exchange.call, exchange.handler)

namespace ApiServer

/-- The times of the requests of an address for which a handler was called. -/
def handlerTimes (server : ApiServer) (ip : Text) : List ℚ :=
  ((server.exchanges.map Exchange.admission).filter fun admission =>
    decide (admission.1.remoteAddress.getD [] = ip) && admission.2.isSome).map
      fun admission => admission.1.now

end ApiServer

/-! ## One request -/

theorem encodeUtf8_injective : Function.Injective encodeUtf8 :=
  Function.LeftInverse.injective decodeUtf8_encodeUtf8

/-- A request matches a key by having it. -/
theorem key_of_keyMatches {settings : ApiSettings} {call : ApiCall} (nonempty : settings.apiKey ≠ [])
    (matching : keyMatches settings call = true) : call.key = some settings.apiKey := by
  rw [keyMatches, Bool.and_eq_true, beq_iff_eq, beq_iff_eq] at matching
  have same := encodeUtf8_injective matching.2
  cases key : call.key with
  | none =>
      rw [key] at same
      exact absurd same.symm nonempty
  | some text =>
      rw [key] at same
      exact congrArg some same

/-- The origin that is allowed is that of the settings, whatever the request. -/
theorem allowOrigin_eq (settings : ApiSettings) (origin : Option Text) :
    allowOrigin settings origin = settings.corsOrigin := by
  unfold allowOrigin
  split
  · next star => exact star.symm
  · split
    · split
      · next same => exact same
      · rfl
    · rfl

theorem origin_of_mem_corsHeaders {settings : ApiSettings} {requested : Option Text} {origin : Text}
    (member : ("Access-Control-Allow-Origin".toList, origin) ∈ buildCorsHeaders settings requested) :
    origin = settings.corsOrigin := by
  unfold buildCorsHeaders at member
  rw [allowOrigin_eq] at member
  split at member
  · contradiction
  · rcases List.mem_append.mp member with front | vary
    · simpa using front
    · split at vary
      · contradiction
      · simp at vary

theorem origin_of_mem_jsonReply {settings : ApiSettings} {call : ApiCall} {status : Nat} {body : Json}
    {origin : Text} (member : ("Access-Control-Allow-Origin".toList, origin) ∈
      (jsonReply settings call status body).headers) : origin = settings.corsOrigin := by
  rcases List.mem_append.mp member with front | type
  · exact origin_of_mem_corsHeaders front
  · simp at type

/-- A request that is answered at once with a silent body is guarded. -/
theorem guarded_answered {settings : ApiSettings} {call : ApiCall} {reply : ApiReply}
    (cors : ∀ origin, ("Access-Control-Allow-Origin".toList, origin) ∈ reply.headers →
      origin = settings.corsOrigin)
    (silent : settings.apiKey ≠ [] → call.key ≠ some settings.apiKey → Silent reply.body) :
    (answered call reply).Guarded settings where
  once := Or.inr ⟨reply, rfl⟩
  keyed _ called := by contradiction
  silent protects keyless other member := by
    cases List.mem_singleton.mp member
    exact silent protects keyless
  cors other member := by
    cases List.mem_singleton.mp member
    exact cors

theorem guarded_jsonReply {settings : ApiSettings} {call : ApiCall} {status : Nat} {body : Json}
    (silent : settings.apiKey ≠ [] → call.key ≠ some settings.apiKey → Silent (some body)) :
    (answered call (jsonReply settings call status body)).Guarded settings :=
  guarded_answered (fun _ => origin_of_mem_jsonReply) silent

/-- Behind the check of the key nothing has to be hidden. -/
theorem guarded_dispatch {settings : ApiSettings} {call : ApiCall} (route : Text)
    (keyed : settings.apiKey ≠ [] → call.key = some settings.apiKey) :
    (dispatch settings call route).Guarded settings := by
  have open_ : ∀ body : Option Json, settings.apiKey ≠ [] → call.key ≠ some settings.apiKey →
      Silent body := fun _ protects keyless => absurd (keyed protects) keyless
  have waits : ∀ handler, Exchange.Guarded settings ⟨call, some handler, []⟩ := fun handler =>
    ⟨Or.inl ⟨rfl, rfl⟩, fun protects _ => keyed protects, fun _ _ _ member => by contradiction,
      fun _ member => by contradiction⟩
  unfold dispatch
  split
  · split
    · exact waits _
    · exact guarded_jsonReply (open_ _)
  · split
    · exact waits _
    · exact guarded_jsonReply (open_ _)

theorem guarded_authorized {settings : ApiSettings} {call : ApiCall} (route : Text) :
    (authorized settings call route).Guarded settings := by
  unfold authorized
  split
  · exact guarded_jsonReply fun _ _ => Or.inr ⟨"unauthorized", by simp, rfl⟩
  · next matching =>
      apply guarded_dispatch
      intro nonempty
      apply key_of_keyMatches nonempty
      simpa [nonempty] using matching

theorem call_dispatch (settings : ApiSettings) (call : ApiCall) (route : Text) :
    (dispatch settings call route).call = call := by
  unfold dispatch
  split
  · split <;> rfl
  · split <;> rfl

theorem call_authorized (settings : ApiSettings) (call : ApiCall) (route : Text) :
    (authorized settings call route).call = call := by
  unfold authorized
  split
  · rfl
  · exact call_dispatch settings call route

namespace ApiServer

theorem guarded_accept (settings : ApiSettings) (limiter : RateLimiter) (call : ApiCall) :
    (accept settings limiter call).1.Guarded settings := by
  unfold accept
  split
  · exact guarded_jsonReply fun _ _ => Or.inr ⟨"internal_error", by simp, rfl⟩
  · dsimp only
    split
    · exact guarded_answered (fun _ => origin_of_mem_corsHeaders) fun _ _ => Or.inl rfl
    · split
      · exact guarded_jsonReply fun _ _ => Or.inr ⟨"rate_limited", by simp, rfl⟩
      · exact guarded_authorized _

/-- A handler is called for a request that the limiter saw and allowed. -/
theorem accept_spec (settings : ApiSettings) (limiter : RateLimiter) (call : ApiCall) :
    (accept settings limiter call).1.call = call ∧
      ((limited settings call = none ∧ (accept settings limiter call).2 = limiter ∧
        (accept settings limiter call).1.handler = none) ∨
      ∃ request, limited settings call = some request ∧
        request = ⟨call.remoteAddress.getD [], call.now⟩ ∧
        (accept settings limiter call).2 = (limiter.isAllowed request.ip request.now).2 ∧
        ((accept settings limiter call).1.handler.isSome →
          (limiter.isAllowed request.ip request.now).1 = true)) := by
  unfold accept limited
  split
  · next failed => exact ⟨rfl, Or.inl ⟨by simp [failed], rfl, rfl⟩⟩
  · next pathname parsed =>
      dsimp only
      split
      · next options => exact ⟨rfl, Or.inl ⟨by simp [options], rfl, rfl⟩⟩
      · next other =>
          have seen : limited settings call = some ⟨call.remoteAddress.getD [], call.now⟩ := by
            rw [limited, if_pos ⟨by rw [parsed]; rfl, other⟩]
          split
          · exact ⟨rfl, Or.inr ⟨_, seen, rfl, rfl, fun called => by contradiction⟩⟩
          · next allowed =>
              refine ⟨call_authorized settings call _, Or.inr ⟨_, seen, rfl, rfl, fun _ => ?_⟩⟩
              simpa using allowed

/-- The end of a handler is the one reply to its request. -/
theorem guarded_finish {settings : ApiSettings} {exchange : Exchange} {handler : ApiHandler}
    (guarded : exchange.Guarded settings) (called : exchange.handler = some handler)
    (waiting : exchange.replies = []) (result : Option Json) :
    (finish settings exchange handler result).Guarded settings := by
  have isSome : exchange.handler.isSome := by rw [called]; rfl
  have ends : ∀ status body, Exchange.Guarded settings { exchange with
      replies := exchange.replies ++ [jsonReply settings exchange.call status body] } := by
    intro status body
    refine ⟨Or.inr ⟨_, by rw [waiting]; rfl⟩, guarded.keyed, ?_, ?_⟩
    · intro protects keyless
      exact absurd (guarded.keyed protects isSome) keyless
    · intro reply member origin
      rw [waiting] at member
      cases List.mem_singleton.mp member
      exact origin_of_mem_jsonReply
  cases result with
  | none => exact ends 500 _
  | some out => exact ends 200 _

end ApiServer

/-! ## The limiter over a run -/

namespace RateLimiter

/-- The limiter after requests one after the other. -/
def after (limiter : RateLimiter) (requests : List ApiRequest) : RateLimiter :=
  requests.foldl (fun limiter request => (limiter.isAllowed request.ip request.now).2) limiter

theorem after_append (limiter : RateLimiter) (first second : List ApiRequest) :
    limiter.after (first ++ second) = (limiter.after first).after second :=
  List.foldl_append

@[simp]
theorem length_answers (limiter : RateLimiter) (requests : List ApiRequest) :
    (limiter.answers requests).length = requests.length := by
  induction requests generalizing limiter with
  | nil => rfl
  | cons request rest ih => simp [answers, ih]

theorem answers_append (limiter : RateLimiter) (first second : List ApiRequest) :
    limiter.answers (first ++ second) =
      limiter.answers first ++ (limiter.after first).answers second := by
  induction first generalizing limiter with
  | nil => rfl
  | cons request rest ih =>
      rw [List.cons_append, answers, ih]
      rfl

/-- One request more adds its time if it comes from the address and is allowed. -/
theorem allowedTimes_concat (limiter : RateLimiter) (ip : Text) (requests : List ApiRequest)
    (request : ApiRequest) :
    limiter.allowedTimes ip (requests ++ [request]) = limiter.allowedTimes ip requests ++
      if request.ip = ip ∧ ((limiter.after requests).isAllowed request.ip request.now).1 = true then
        [request.now]
      else [] := by
  rw [allowedTimes, answers_append, List.zip_append (length_answers limiter requests).symm,
    List.filter_append, List.map_append, ← allowedTimes]
  congr 1
  simp only [answers, List.zip_cons_cons, List.zip_nil_left, List.filter_cons, List.filter_nil,
    Bool.and_eq_true, decide_eq_true_eq]
  split <;> rfl

end RateLimiter

/-- The requests that the limiter saw. -/
def limitedRequests (settings : ApiSettings) (calls : List ApiCall) : List ApiRequest :=
  calls.filterMap (limited settings)

namespace ApiServer

/-- The limiter has seen the requests of the run that it sees, and handlers were
called for allowed ones only. -/
structure Invariant (settings : ApiSettings) (server : ApiServer) : Prop where
  guarded : ∀ exchange ∈ server.exchanges, exchange.Guarded settings
  limiter : server.rateLimiter = (RateLimiter.new 60 60000).after
    (limitedRequests settings (server.exchanges.map Exchange.call))
  allowed : ∀ ip, (server.handlerTimes ip).Sublist ((RateLimiter.new 60 60000).allowedTimes ip
    (limitedRequests settings (server.exchanges.map Exchange.call)))

theorem invariant_new (settings : ApiSettings) : new.Invariant settings where
  guarded _ member := by contradiction
  limiter := rfl
  allowed _ := List.Sublist.refl []

/-- A handler that ends changes no request and no choice of a handler. -/
theorem map_set_finish (settings : ApiSettings) {exchanges : List Exchange} {place : Nat}
    {exchange : Exchange} (found : exchanges[place]? = some exchange) (handler : ApiHandler)
    (result : Option Json) :
    (exchanges.set place (finish settings exchange handler result)).map Exchange.admission =
      exchanges.map Exchange.admission := by
  have same : (finish settings exchange handler result).admission = exchange.admission := by
    cases result <;> rfl
  apply List.ext_getElem?
  intro i
  rw [List.getElem?_map, List.getElem?_map, List.getElem?_set]
  split
  · next own =>
      subst own
      split
      · rw [found, Option.map_some, Option.map_some, same]
      · next outside => simp [Nat.le_of_not_lt outside]
  · rfl

theorem map_call (exchanges : List Exchange) :
    exchanges.map Exchange.call = (exchanges.map Exchange.admission).map Prod.fst := by
  rw [List.map_map]
  rfl

/-- A request is counted by the limiter, and a handler is called for it only if
it is allowed. -/
theorem Invariant.arrives {settings : ApiSettings} {server : ApiServer}
    (invariant : server.Invariant settings) (call : ApiCall) :
    Invariant settings ⟨(accept settings server.rateLimiter call).2,
      server.exchanges ++ [(accept settings server.rateLimiter call).1]⟩ := by
  obtain ⟨same, seen⟩ := accept_spec settings server.rateLimiter call
  have calls : (server.exchanges ++ [(accept settings server.rateLimiter call).1]).map
      Exchange.call = server.exchanges.map Exchange.call ++ [call] := by
    rw [List.map_append, List.map_singleton, same]
  have grown : limitedRequests settings (server.exchanges.map Exchange.call ++ [call]) =
      limitedRequests settings (server.exchanges.map Exchange.call) ++
        (limited settings call).toList := by
    rw [limitedRequests, List.filterMap_append, limitedRequests]
    cases counted : limited settings call <;> simp [counted]
  refine ⟨?_, ?_, ?_⟩
  · intro exchange member
    rcases List.mem_append.mp member with earlier | last
    · exact invariant.guarded exchange earlier
    · rw [List.mem_singleton.mp last]
      exact guarded_accept settings server.rateLimiter call
  · rw [calls, grown, RateLimiter.after_append, ← invariant.limiter]
    rcases seen with ⟨unseen, unchanged, -⟩ | ⟨request, counted, -, after, -⟩
    · rw [unseen, unchanged]
      rfl
    · rw [counted, after]
      rfl
  · intro ip
    have times : handlerTimes ⟨(accept settings server.rateLimiter call).2,
        server.exchanges ++ [(accept settings server.rateLimiter call).1]⟩ ip =
          server.handlerTimes ip ++ if call.remoteAddress.getD [] = ip ∧
            (accept settings server.rateLimiter call).1.handler.isSome then [call.now] else [] := by
      rw [handlerTimes, List.map_append, List.filter_append, List.map_append, ← handlerTimes]
      congr 1
      simp only [List.map_singleton, List.filter_cons, List.filter_nil, Exchange.admission, same,
        Bool.and_eq_true, decide_eq_true_eq]
      split <;> rfl
    rw [times, calls, grown]
    rcases seen with ⟨unseen, -, uncalled⟩ | ⟨request, counted, rfl, -, allowed⟩
    · rw [unseen, uncalled]
      simpa using invariant.allowed ip
    · rw [counted, Option.toList_some, RateLimiter.allowedTimes_concat, ← invariant.limiter]
      apply (invariant.allowed ip).append
      split
      · next called => rw [if_pos ⟨called.1, allowed called.2⟩]
      · exact List.nil_sublist _

theorem Invariant.settles {settings : ApiSettings} {server : ApiServer}
    (invariant : server.Invariant settings) {place : Nat} {exchange : Exchange}
    {handler : ApiHandler} (found : server.exchanges[place]? = some exchange)
    (called : exchange.handler = some handler) (waiting : exchange.replies = [])
    (result : Option Json) :
    Invariant settings { server with
      exchanges := server.exchanges.set place (finish settings exchange handler result) } := by
  have admissions := map_set_finish settings found handler result
  have calls : (server.exchanges.set place (finish settings exchange handler result)).map
      Exchange.call = server.exchanges.map Exchange.call := by
    rw [map_call, admissions, ← map_call]
  refine ⟨?_, ?_, ?_⟩
  · intro other member
    rcases List.mem_or_eq_of_mem_set member with earlier | rfl
    · exact invariant.guarded other earlier
    · exact guarded_finish (invariant.guarded exchange (List.mem_of_getElem? found)) called waiting
        result
  · rw [calls]
    exact invariant.limiter
  · intro ip
    rw [calls, handlerTimes, admissions]
    exact invariant.allowed ip

/-- What one reaction does. -/
theorem next_cases {settings : ApiSettings} {server target : ApiServer} {event : ApiEvent}
    (step : next settings server event = some target) :
    (∃ call, event = .arrives call ∧
      target = ⟨(accept settings server.rateLimiter call).2,
        server.exchanges ++ [(accept settings server.rateLimiter call).1]⟩) ∨
    ∃ place result exchange handler, event = .settles place result ∧
      server.exchanges[place]? = some exchange ∧ exchange.handler = some handler ∧
      exchange.replies = [] ∧ target = { server with
        exchanges := server.exchanges.set place (finish settings exchange handler result) } := by
  cases event with
  | arrives call =>
      cases step
      exact Or.inl ⟨call, rfl, rfl⟩
  | settles place result =>
      simp only [next] at step
      split at step
      · contradiction
      · next exchange found =>
          split at step
          · contradiction
          · next handler called =>
              split at step
              · next waiting =>
                  cases step
                  exact Or.inr ⟨place, result, exchange, handler, rfl, found, called,
                    List.isEmpty_iff.mp waiting, rfl⟩
              · contradiction

theorem Invariant.next {settings : ApiSettings} {server target : ApiServer} {event : ApiEvent}
    (invariant : server.Invariant settings) (step : next settings server event = some target) :
    target.Invariant settings := by
  rcases next_cases step with ⟨call, rfl, rfl⟩ |
    ⟨place, result, exchange, handler, rfl, found, called, waiting, rfl⟩
  · exact invariant.arrives call
  · exact invariant.settles found called waiting result

/-- The requests of the server are those of the run. -/
theorem calls_of_run {settings : ApiSettings} {start target : ApiServer} {events : List ApiEvent}
    (reached : run (ApiServer.next settings) start events = some target) :
    target.exchanges.map Exchange.call = start.exchanges.map Exchange.call ++ arrivals events := by
  induction events generalizing start with
  | nil =>
      cases reached
      exact (List.append_nil _).symm
  | cons event rest ih =>
      obtain ⟨middle, first, later⟩ := Option.bind_eq_some_iff.mp reached
      rw [ih later]
      rcases next_cases first with ⟨call, rfl, rfl⟩ |
        ⟨place, result, exchange, handler, rfl, found, called, waiting, rfl⟩
      · rw [List.map_append, List.map_singleton, (accept_spec settings _ call).1,
          List.append_assoc]
        rfl
      · rw [map_call, map_set_finish settings found, ← map_call]
        rfl

theorem limit_new : (RateLimiter.new 60 60000).limit = 60 :=
  Nat.floor_ofNat 60

/-- The limiter sees requests in the order of their times if they arrive in it. -/
theorem pairwise_limitedRequests (settings : ApiSettings) {calls : List ApiCall}
    (inOrder : (calls.map ApiCall.now).Pairwise (· ≤ ·)) :
    ((limitedRequests settings calls).map ApiRequest.now).Pairwise (· ≤ ·) := by
  refine List.Pairwise.sublist ?_ inOrder
  induction calls with
  | nil => exact List.Sublist.refl []
  | cons call rest ih =>
      have others := ih (List.pairwise_cons.mp inOrder).2
      rw [limitedRequests, List.filterMap_cons]
      unfold limited
      split
      · next unseen => exact others.cons call.now
      · next request seen =>
          split at seen
          · cases seen
            exact others.cons_cons call.now
          · contradiction

/-- What holds of the server after a run. -/
structure Guarded (settings : ApiSettings) (events : List ApiEvent) (server : ApiServer) :
    Prop where
  calls : server.exchanges.map Exchange.call = arrivals events
  exchanges : ∀ exchange ∈ server.exchanges, exchange.Guarded settings
  limited : ∀ ip first, within first (first + 60000) (server.handlerTimes ip) ≤ 120

/-- Whatever the order in which requests arrive and handlers end: each request
is answered once or waits for its handler, no handler is called and nothing is
told without the key, and within a minute no more than twice the limit of
handlers is called for an address. -/
theorem guarded_of_run {settings : ApiSettings} {events : List ApiEvent} {target : ApiServer}
    (inOrder : ((arrivals events).map ApiCall.now).Pairwise (· ≤ ·))
    (reached : run (ApiServer.next settings) new events = some target) :
    target.Guarded settings events := by
  have invariant := run_invariant (Invariant settings) Invariant.next (invariant_new settings)
    reached
  have calls : target.exchanges.map Exchange.call = arrivals events := calls_of_run reached
  refine ⟨calls, invariant.guarded, ?_⟩
  intro ip first
  have bound : within first (first + 60000) ((RateLimiter.new 60 60000).allowedTimes ip
      (limitedRequests settings (target.exchanges.map Exchange.call))) ≤ 2 * 60 := by
    rw [RateLimiter.allowedTimes_eq, limit_new, calls]
    exact within_allowed_le 60 (by norm_num)
      (RateLimiter.pairwise_timesOf (pairwise_limitedRequests settings inOrder) ip) first _
  exact ((invariant.allowed ip).countP_le).trans bound

/-- A server with a key and all its handlers, for URLs that are plain paths. -/
def settingsExample : ApiSettings where
  apiKey := "secret".toList
  corsOrigin := []
  handlers _ := true
  pathname url := some url

/-- Two requests for the statistics, with the key and without it; the second one
is answered while the handler of the first one runs. -/
def eventsExample : List ApiEvent :=
  [.arrives ⟨"GET".toList, "/stats".toList, none, some "secret".toList, none, 0⟩,
    .arrives ⟨"GET".toList, "/stats".toList, none, none, none, 1⟩,
    .settles 0 (some (.object []))]

theorem guarded_eventsExample : ∃ target,
    run (ApiServer.next settingsExample) new eventsExample = some target ∧
      target.Guarded settingsExample eventsExample := by
  have inOrder : ((arrivals eventsExample).map ApiCall.now).Pairwise (· ≤ ·) := by
    change List.Pairwise (· ≤ ·) [(0 : ℚ), 1]
    norm_num
  exact ⟨_, rfl, guarded_of_run inOrder rfl⟩

example : (run (ApiServer.next settingsExample) new eventsExample).map (fun server =>
    server.exchanges.map fun exchange => exchange.replies.map ApiReply.status) =
      some [[200], [401]] := by
  decide +kernel

end ApiServer

end ZcashSoloPool.Dashboard
