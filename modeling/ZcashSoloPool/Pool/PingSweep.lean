import ZcashSoloPool.Collections.Groups
import ZcashSoloPool.Pool.Lifetime
import ZcashSoloPool.Transition.Run
import Mathlib.Data.List.ReduceOption
import Mathlib.Data.List.TakeWhile

/-!
# Sweeps that ping the miners

A sweep pings the host of every authorized client, each host once, and waits for
all pings together.  Sweeps are asked for by a timer and by every client that is
authorized, and clients come and go while one is under way.
-/

namespace ZcashSoloPool.Pool.PingSweep

open ZcashSoloPool.Collections
open ZcashSoloPool.JavaScript
open ZcashSoloPool.Transition

/-! ## Clients and their hosts -/

/-- What `pingHost` resolves to. -/
inductive PingResult where
  | ok (latencyMs : Option ℚ)
  | unavailable
  | failed (error : Text)
  deriving DecidableEq

/-- The members of the metrics of a client that a sweep writes.  `lastPingStatus`
is `true` for `"ok"` and `false` for `"fail"`. -/
structure PingMetrics where
  lastPingAt : Option ℚ
  lastPingMs : Option ℚ
  lastPingStatus : Option Bool
  lastPingError : Option Text
  pingSuccesses : Nat
  pingFailures : Nat
  deriving DecidableEq

/-- A client: the address of its socket, whether it is in the map of clients, and
whether it is authorized. -/
structure Client where
  remoteAddress : Option Text
  connected : Bool
  authorized : Bool
  metrics : PingMetrics

/-- The metrics of a new client. -/
def PingMetrics.new : PingMetrics :=
  ⟨none, none, none, none, 0, 0⟩

/-- What the result of a ping changes. -/
def PingMetrics.note (metrics : PingMetrics) (now : ℚ) : PingResult → PingMetrics
  | .ok latencyMs => { metrics with
      lastPingAt := now
      lastPingMs := latencyMs.map toFixed2
      lastPingStatus := true
      lastPingError := none
      pingSuccesses := metrics.pingSuccesses + 1 }
  | .failed error => { metrics with
      lastPingAt := now
      lastPingMs := none
      lastPingStatus := false
      lastPingError := if error.isEmpty then "ping failed".toList else error
      pingFailures := metrics.pingFailures + 1 }
  | .unavailable => metrics

/-- `normalizePingAddress`. -/
def normalizePingAddress (address : Option Text) : Option Text :=
  let raw := trim (address.getD [])
  if raw.isEmpty then none
  else if "::ffff:".toList.isPrefixOf raw then some (raw.drop 7)
  else some raw

namespace Client

/-- The host under which a sweep lists a client. -/
def host (client : Client) : Option Text :=
  if client.connected && client.authorized then
    (normalizePingAddress client.remoteAddress).filter fun host => !host.isEmpty
  else none

/-- A client learns the result of a ping. -/
def hear (now : ℚ) (result : PingResult) (client : Client) : Client :=
  { client with metrics := client.metrics.note now result }

end Client

/-! ## Sweeps -/

/-- A sweep that waits for its pings, with the clients as they were when it began,
from which it has its `hostMap`. -/
structure Sweep where
  asked : List Client
  results : List (Option PingResult)

/-- A sweep that is over. -/
structure Ended where
  asked : List Client
  results : List PingResult
  now : ℚ

/-- `hostMap`. -/
def hostMap (clients : List Client) : OrderedMap Text (List Nat) :=
  groupPlaces Client.host clients

/-- The loop over the hosts and their results, and whether it found that there is
no command to ping with. -/
def report (now : ℚ) : List (Text × List Nat) → List PingResult → List Client → List Client × Bool
  | (_, places) :: hosts, result :: results, clients =>
      match result with
      | .unavailable => (clients, true)
      | result => report now hosts results (updateAt (Client.hear now result) places clients)
  | _, _, clients => (clients, false)

/-- The pool, as far as sweeps read and write it: the clients in the order of
their connection, the two flags, the sweeps that wait and those that are over. -/
structure Pinger where
  clients : List Client
  pingSweepInFlight : Bool
  pingCommandUnavailable : Bool
  waiting : List Sweep
  ended : List Ended

/-- What happens: a client connects, is authorized, has no address any more or
leaves, the timer asks for a sweep, a ping of a sweep gives its result, and a
sweep goes on when all its pings have given theirs. -/
inductive PingEvent where
  | connects (remoteAddress : Option Text)
  | authorizes (client : Nat)
  | losesAddress (client : Nat)
  | disconnects (client : Nat)
  | ticks
  | answers (sweep host : Nat) (result : PingResult)
  | resumes (sweep : Nat) (now : ℚ)

namespace Pinger

/-- Before the first client. -/
def initial : Pinger :=
  ⟨[], false, false, [], []⟩

/-- `runMinerPingSweep` up to its pings. -/
def runMinerPingSweep (enabled : Bool) (pinger : Pinger) : Pinger :=
  if !enabled || pinger.pingSweepInFlight || pinger.pingCommandUnavailable then pinger
  else
    let hosts := hostMap pinger.clients
    if hosts.size = 0 then { pinger with pingSweepInFlight := false }
    else { pinger with
      pingSweepInFlight := true
      waiting := pinger.waiting ++ [⟨pinger.clients, List.replicate hosts.size none⟩] }

/-- `runMinerPingSweep` behind its pings. -/
def finish (pinger : Pinger) (place : Nat) (sweep : Sweep) (now : ℚ) : Pinger :=
  let results := sweep.results.reduceOption
  let (clients, unavailable) := report now (hostMap sweep.asked).entries results pinger.clients
  { clients
    pingSweepInFlight := false
    pingCommandUnavailable := pinger.pingCommandUnavailable || unavailable
    waiting := pinger.waiting.eraseIdx place
    ended := pinger.ended ++ [⟨sweep.asked, results, now⟩] }

/-- A client changes. -/
def change (pinger : Pinger) (place : Nat) (update : Client → Client) : Pinger :=
  { pinger with clients := pinger.clients.modify place update }

/-- One event. -/
def next (enabled : Bool) : Next Pinger PingEvent
  | pinger, .connects remoteAddress =>
      some { pinger with clients := pinger.clients ++ [⟨remoteAddress, true, false, .new⟩] }
  | pinger, .authorizes place =>
      some ((pinger.change place fun client => { client with authorized := true }).runMinerPingSweep
        enabled)
  | pinger, .losesAddress place =>
      some (pinger.change place fun client => { client with remoteAddress := none })
  | pinger, .disconnects place =>
      some (pinger.change place fun client => { client with connected := false })
  | pinger, .ticks => some (pinger.runMinerPingSweep enabled)
  | pinger, .answers place host result =>
      match pinger.waiting[place]? with
      | some sweep =>
          match sweep.results[host]? with
          | some none => some { pinger with
              waiting := pinger.waiting.set place
                { sweep with results := sweep.results.set host (some result) } }
          | _ => none
      | none => none
  | pinger, .resumes place now =>
      match pinger.waiting[place]? with
      | some sweep => if sweep.results.all Option.isSome then some (pinger.finish place sweep now)
          else none
      | none => none

end Pinger

/-! ## What a sweep tells -/

/-- The hosts with their results, up to the first ping for which there was no
command. -/
def tidings (hosts : List Text) (results : List PingResult) : List (Text × PingResult) :=
  (hosts.zip results).takeWhile fun pair => pair.2 ≠ .unavailable

/-- What a client is told: the result of the host that it had when the sweep
began, if it is among the tidings. -/
def told (asked : List Client) (results : List PingResult) (place : Nat) : Option PingResult :=
  (asked[place]?.bind Client.host).bind fun host =>
    (tidings ((hostMap asked).entries.map Prod.fst) results).lookup host

/-- A client that may have been told something. -/
def Client.hear? (now : ℚ) (result : Option PingResult) (client : Client) : Client :=
  result.elim client fun result => client.hear now result

theorem lookup_tidings_eq_none {host : Text} {hosts : List Text} (other : host ∉ hosts)
    (results : List PingResult) : (tidings hosts results).lookup host = none := by
  rw [List.lookup_eq_none_iff]
  intro pair member
  have listed : pair.1 ∈ hosts := (List.of_mem_zip (List.takeWhile_sublist _ |>.subset member)).1
  simp only [ne_eq, bne_iff_ne]
  exact fun same => other (same ▸ listed)

theorem tidings_cons {host : Text} {hosts : List Text} {result : PingResult}
    (reached : result ≠ .unavailable) (results : List PingResult) :
    tidings (host :: hosts) (result :: results) = (host, result) :: tidings hosts results := by
  simp [tidings, reached]

/-- Going through the hosts tells every client the result of its own host. -/
theorem getElem?_report {asked : List Client} (now : ℚ) {hosts : List (Text × List Nat)}
    (distinct : (hosts.map Prod.fst).Nodup) (nodup : ∀ entry ∈ hosts, entry.2.Nodup)
    (own : ∀ entry ∈ hosts, ∀ place, place ∈ entry.2 ↔
      asked[place]?.bind Client.host = some entry.1)
    (results : List PingResult) (clients : List Client) (place : Nat) :
    (report now hosts results clients).1[place]? = clients[place]?.map (Client.hear? now
      ((asked[place]?.bind Client.host).bind fun host =>
        (tidings (hosts.map Prod.fst) results).lookup host)) := by
  have untold : ∀ clients : List Client, clients[place]? =
      clients[place]?.map (Client.hear? now (Option.bind (asked[place]?.bind Client.host)
        fun _ => none)) := by
    intro clients
    rw [Option.bind_fun_none]
    cases clients[place]? <;> rfl
  induction hosts generalizing results clients with
  | nil =>
      rw [report.eq_def]
      exact untold clients
  | cons entry hosts ih =>
      obtain ⟨first, places⟩ := entry
      cases results with
      | nil => exact untold clients
      | cons result results =>
          obtain ⟨fresh, distinct⟩ := List.nodup_cons.mp distinct
          have ofFirst := own _ List.mem_cons_self place
          have later := ih distinct (fun entry member => nodup entry (List.mem_cons_of_mem _ member))
            (fun entry member => own entry (List.mem_cons_of_mem _ member)) results
          by_cases missing : result = .unavailable
          · subst missing
            exact untold clients
          · have goesOn : report now ((first, places) :: hosts) (result :: results) clients =
                report now hosts results (updateAt (Client.hear now result) places clients) := by
              cases result with
              | unavailable => contradiction
              | ok latencyMs => rfl
              | failed error => rfl
            rw [goesOn, later, getElem?_updateAt _ (nodup _ List.mem_cons_self), List.map_cons,
              tidings_cons missing]
            by_cases told : place ∈ places
            · rw [if_pos told, ofFirst.mp told, Option.map_map]
              simp only [Option.bind_some, List.lookup_cons_self, lookup_tidings_eq_none fresh]
              rfl
            · rw [if_neg told]
              cases key : asked[place]?.bind Client.host with
              | none => rfl
              | some host =>
                  have other : host ≠ first := by
                    rintro rfl
                    exact told (ofFirst.mpr key)
                  have skipped : (host == first) = false := beq_eq_false_iff_ne.mpr other
                  simp only [Option.bind_some, List.lookup_cons, skipped]

theorem length_report (now : ℚ) (hosts : List (Text × List Nat)) (results : List PingResult)
    (clients : List Client) : (report now hosts results clients).1.length = clients.length := by
  induction hosts generalizing results clients with
  | nil => rw [report.eq_def]
  | cons entry hosts ih =>
      cases results with
      | nil => rfl
      | cons result results =>
          cases result with
          | unavailable => rfl
          | ok latencyMs => exact (ih results _).trans (length_updateAt _ _ _)
          | failed error => exact (ih results _).trans (length_updateAt _ _ _)

/-- Whether the loop found that there is no command. -/
theorem report_unavailable (now : ℚ) {hosts : List (Text × List Nat)} {results : List PingResult}
    (complete : results.length = hosts.length) (clients : List Client) :
    (report now hosts results clients).2 = decide (.unavailable ∈ results) := by
  induction hosts generalizing results clients with
  | nil =>
      rw [List.length_eq_zero_iff.mp complete]
      rfl
  | cons entry hosts ih =>
      cases results with
      | nil => contradiction
      | cons result results =>
          have later := ih (Nat.succ.inj complete)
          cases result with
          | unavailable => simp [report]
          | ok latencyMs => simp [report, later]
          | failed error => simp [report, later]

/-- What every client is told by a sweep. -/
theorem getElem?_report_hostMap (now : ℚ) (asked : List Client) (results : List PingResult)
    (clients : List Client) (place : Nat) :
    (report now (hostMap asked).entries results clients).1[place]? =
      clients[place]?.map (Client.hear? now (told asked results place)) := by
  have groups := groupsOf_groupPlaces Client.host asked
  have listed : ∀ entry ∈ (hostMap asked).entries,
      (groupPlaces Client.host asked).get? entry.1 = some entry.2 := fun entry member =>
    OrderedMap.get?_eq_some_iff.mpr member
  exact getElem?_report now (hostMap asked).nodup
    (fun entry member => groups.nodup _ _ (listed entry member))
    (fun entry member => groups.mem_iff _ _ (listed entry member)) results clients place

/-! ## Invariants -/

/-- What a client has been told by the sweeps that are over. -/
def heard (ended : List Ended) (place : Nat) : List (PingResult × ℚ) :=
  ended.filterMap fun sweep => (told sweep.asked sweep.results place).map (·, sweep.now)

/-- Metrics after some results. -/
def PingMetrics.after (results : List (PingResult × ℚ)) : PingMetrics :=
  results.foldl (fun metrics result => metrics.note result.2 result.1) .new

theorem ne_unavailable_of_mem_heard {ended : List Ended} {place : Nat} {result : PingResult × ℚ}
    (member : result ∈ heard ended place) : result.1 ≠ .unavailable := by
  obtain ⟨sweep, -, isTold⟩ := List.mem_filterMap.mp member
  obtain ⟨outcome, found, rfl⟩ := Option.map_eq_some_iff.mp isTold
  obtain ⟨host, -, listed⟩ := Option.bind_eq_some_iff.mp found
  obtain ⟨before, after, split, -⟩ := List.lookup_eq_some_iff.mp listed
  have among : (host, outcome) ∈ tidings ((hostMap sweep.asked).entries.map Prod.fst)
      sweep.results := by
    rw [split]
    exact List.mem_append_right before List.mem_cons_self
  have passed := List.mem_takeWhile_imp among
  exact of_decide_eq_true passed

/-- Every result is counted, as a success or as a failure. -/
theorem counts_after {results : List (PingResult × ℚ)}
    (reached : ∀ result ∈ results, result.1 ≠ .unavailable) :
    (PingMetrics.after results).pingSuccesses + (PingMetrics.after results).pingFailures =
      results.length := by
  induction results using List.reverseRecOn with
  | nil => rfl
  | append_singleton results last ih =>
      have earlier := ih fun result member => reached result (List.mem_append_left _ member)
      have isLast := reached last (List.mem_append_right _ List.mem_cons_self)
      rw [PingMetrics.after, List.foldl_concat, ← PingMetrics.after, List.length_append,
        List.length_singleton, ← earlier]
      cases outcome : last.1 with
      | unavailable => contradiction
      | ok latencyMs =>
          simp only [PingMetrics.note]
          omega
      | failed error =>
          simp only [PingMetrics.note]
          omega

/-- A sweep that is over found a command to ping with. -/
def Ended.pinged (sweep : Ended) : Prop :=
  PingResult.unavailable ∉ sweep.results

/-- A sweep waits for at least one host, with one place for each result. -/
structure Sweep.Formed (clients : List Client) (sweep : Sweep) : Prop where
  known : sweep.asked.length ≤ clients.length
  some_ : sweep.results ≠ []
  complete : sweep.results.length = (hostMap sweep.asked).entries.length

namespace Pinger

/-- What holds between any two events. -/
structure Invariant (pinger : Pinger) : Prop where
  flag : pinger.pingSweepInFlight = !pinger.waiting.isEmpty
  single : pinger.waiting.length ≤ 1
  formed : ∀ sweep ∈ pinger.waiting, sweep.Formed pinger.clients
  known : ∀ sweep ∈ pinger.ended, sweep.asked.length ≤ pinger.clients.length
  idle : pinger.pingCommandUnavailable = true → pinger.waiting = []
  unavailable : pinger.pingCommandUnavailable = true ↔ ∃ sweep ∈ pinger.ended, ¬sweep.pinged
  last : ∀ sweep ∈ pinger.ended.dropLast, sweep.pinged
  metrics : ∀ (place : Nat) (client : Client), pinger.clients[place]? = some client →
    client.metrics = .after (heard pinger.ended place)

theorem invariant_initial : initial.Invariant := by
  constructor <;> simp [initial]

/-- A client changes other than by what it is told. -/
theorem Invariant.change {pinger : Pinger} (invariant : pinger.Invariant) (place : Nat)
    {update : Client → Client} (same : ∀ client, (update client).metrics = client.metrics) :
    (pinger.change place update).Invariant where
  flag := invariant.flag
  single := invariant.single
  formed sweep member := by
    obtain ⟨known, some_, complete⟩ := invariant.formed sweep member
    exact ⟨by simpa [Pinger.change] using known, some_, complete⟩
  known sweep member := by simpa [Pinger.change] using invariant.known sweep member
  idle := invariant.idle
  unavailable := invariant.unavailable
  last := invariant.last
  metrics other client there := by
    rw [Pinger.change, List.getElem?_modify] at there
    obtain ⟨before, isBefore, rfl⟩ := Option.map_eq_some_iff.mp there
    change _ = PingMetrics.after (heard pinger.ended other)
    rw [← invariant.metrics other before isBefore]
    split
    · exact same before
    · rfl

/-- A client that connects has been told nothing. -/
theorem Invariant.connects {pinger : Pinger} (invariant : pinger.Invariant)
    (remoteAddress : Option Text) : Invariant { pinger with
      clients := pinger.clients ++ [⟨remoteAddress, true, false, .new⟩] } where
  flag := invariant.flag
  single := invariant.single
  formed sweep member := by
    obtain ⟨known, some_, complete⟩ := invariant.formed sweep member
    exact ⟨by simp; omega, some_, complete⟩
  known sweep member := by
    have known := invariant.known sweep member
    simp
    omega
  idle := invariant.idle
  unavailable := invariant.unavailable
  last := invariant.last
  metrics place client there := by
    rcases Nat.lt_or_ge place pinger.clients.length with inside | outside
    · rw [List.getElem?_append_left inside] at there
      exact invariant.metrics place client there
    · rw [List.getElem?_append_right outside] at there
      rw [List.mem_singleton.mp (List.mem_of_getElem? there)]
      have nothing : heard pinger.ended place = [] := by
        rw [heard, List.filterMap_eq_nil_iff]
        intro sweep member
        have unknown := List.getElem?_eq_none ((invariant.known sweep member).trans outside)
        rw [told, unknown]
        rfl
      rw [nothing]
      rfl

/-- A sweep begins where none is under way. -/
theorem Invariant.runMinerPingSweep {pinger : Pinger} (invariant : pinger.Invariant)
    (enabled : Bool) : (pinger.runMinerPingSweep enabled).Invariant := by
  unfold Pinger.runMinerPingSweep
  split
  · exact invariant
  · next free =>
      simp only [Bool.or_eq_true, Bool.not_eq_true', not_or, Bool.not_eq_true,
        Bool.not_eq_false] at free
      obtain ⟨⟨-, notInFlight⟩, command⟩ := free
      have none_ : pinger.waiting = [] := by
        have flag := invariant.flag
        rw [notInFlight] at flag
        simpa using flag.symm
      dsimp only
      split
      · exact { invariant with flag := by simp [none_] }
      · next hosts =>
          refine { invariant with flag := ?_, single := ?_, formed := ?_, idle := ?_ }
          · simp
          · simp [none_]
          · intro sweep member
            rw [none_, List.nil_append, List.mem_singleton] at member
            subst member
            refine ⟨le_refl _, fun empty => hosts ?_, ?_⟩
            · simpa using congrArg List.length empty
            · simp [OrderedMap.size]
          · intro missing
            rw [command] at missing
            contradiction

/-- A ping gives its result. -/
theorem Invariant.answers {pinger : Pinger} (invariant : pinger.Invariant) {place host : Nat}
    {sweep : Sweep} (there : pinger.waiting[place]? = some sweep) (result : PingResult) :
    Invariant { pinger with
      waiting := pinger.waiting.set place
        { sweep with results := sweep.results.set host (some result) } } where
  flag := by
    rw [invariant.flag]
    cases pinger.waiting <;> cases place <;> rfl
  single := by simpa using invariant.single
  formed other member := by
    rcases List.mem_or_eq_of_mem_set member with old | rfl
    · exact invariant.formed other old
    · obtain ⟨known, some_, complete⟩ := invariant.formed sweep (List.mem_of_getElem? there)
      exact ⟨known, by simpa using some_, by simpa using complete⟩
  known := invariant.known
  idle missing := by
    have none_ := invariant.idle missing
    rw [none_] at there
    contradiction
  unavailable := invariant.unavailable
  last := invariant.last
  metrics := invariant.metrics

/-- A sweep ends. -/
theorem Invariant.finish {pinger : Pinger} (invariant : pinger.Invariant) {place : Nat}
    {sweep : Sweep} (there : pinger.waiting[place]? = some sweep)
    (all : sweep.results.all Option.isSome = true) (now : ℚ) :
    (pinger.finish place sweep now).Invariant := by
  have member := List.mem_of_getElem? there
  have formed := invariant.formed sweep member
  have onlyOne : pinger.waiting = [sweep] := by
    have single := invariant.single
    cases waiting : pinger.waiting with
    | nil =>
        rw [waiting] at member
        contradiction
    | cons first rest =>
        rw [waiting, List.length_cons] at single
        have noRest : rest = [] := List.length_eq_zero_iff.mp (by omega)
        rw [waiting, noRest, List.mem_singleton] at member
        rw [noRest, member]
  have done : pinger.waiting.eraseIdx place = [] := by
    rw [onlyOne] at there ⊢
    obtain rfl : place = 0 := by
      have inside := (List.getElem?_eq_some_iff.mp there).1
      simpa using inside
    rfl
  have command : pinger.pingCommandUnavailable = false := by
    cases missing : pinger.pingCommandUnavailable with
    | false => rfl
    | true =>
        rw [invariant.idle missing] at onlyOne
        contradiction
  have complete : sweep.results.reduceOption.length = (hostMap sweep.asked).entries.length := by
    rw [← formed.complete, List.reduceOption_length_eq_iff]
    exact fun result isResult => List.all_eq_true.mp all result isResult
  have earlier : ∀ other ∈ pinger.ended, other.pinged := by
    intro other isEnded
    by_contra unpinged
    rw [invariant.unavailable.mpr ⟨other, isEnded, unpinged⟩] at command
    contradiction
  have unavailable := report_unavailable now complete pinger.clients
  have length := length_report now (hostMap sweep.asked).entries sweep.results.reduceOption
    pinger.clients
  have known : ∀ sweep' ∈ (pinger.finish place sweep now).ended,
      sweep'.asked.length ≤ (pinger.finish place sweep now).clients.length := by
    intro other isEnded
    rw [Pinger.finish, length]
    rcases List.mem_append.mp isEnded with old | new
    · exact invariant.known other old
    · rw [List.mem_singleton.mp new]
      exact formed.known
  have flag : (pinger.finish place sweep now).pingCommandUnavailable =
      decide (PingResult.unavailable ∈ sweep.results.reduceOption) := by
    change (pinger.pingCommandUnavailable || _) = _
    rw [command, Bool.false_or]
    exact unavailable
  refine ⟨?_, ?_, ?_, known, fun _ => done, ?_, ?_, ?_⟩
  · change false = !(pinger.waiting.eraseIdx place).isEmpty
    rw [done]
    rfl
  · change (pinger.waiting.eraseIdx place).length ≤ 1
    rw [done]
    exact Nat.zero_le 1
  · intro other waits
    change other ∈ pinger.waiting.eraseIdx place at waits
    rw [done] at waits
    contradiction
  · rw [flag, decide_eq_true_iff]
    constructor
    · intro missing
      exact ⟨_, List.mem_append_right _ List.mem_cons_self, fun pinged => pinged missing⟩
    · rintro ⟨other, isEnded, unpinged⟩
      rcases List.mem_append.mp isEnded with old | new
      · exact absurd (earlier other old) unpinged
      · rw [List.mem_singleton.mp new] at unpinged
        exact not_not.mp unpinged
  · intro other isEnded
    change other ∈ (pinger.ended ++ [_]).dropLast at isEnded
    rw [List.dropLast_concat] at isEnded
    exact earlier other isEnded
  · intro other client isClient
    change (report now _ _ pinger.clients).1[other]? = some client at isClient
    rw [getElem?_report_hostMap] at isClient
    obtain ⟨before, isBefore, rfl⟩ := Option.map_eq_some_iff.mp isClient
    have metrics := invariant.metrics other before isBefore
    change _ = PingMetrics.after (heard (pinger.ended ++ [_]) other)
    rw [heard, List.filterMap_append, PingMetrics.after, List.foldl_append, ← heard,
      ← PingMetrics.after, ← metrics]
    cases isTold : told sweep.asked sweep.results.reduceOption other <;> simp [isTold] <;> rfl

/-- Every event keeps the invariant. -/
theorem Invariant.next {enabled : Bool} {pinger target : Pinger} {event : PingEvent}
    (invariant : pinger.Invariant) (step : Pinger.next enabled pinger event = some target) :
    target.Invariant := by
  cases event with
  | connects remoteAddress =>
      cases step
      exact invariant.connects remoteAddress
  | authorizes place =>
      cases step
      apply Invariant.runMinerPingSweep
      exact invariant.change place fun _ => rfl
  | losesAddress place =>
      cases step
      exact invariant.change place fun _ => rfl
  | disconnects place =>
      cases step
      exact invariant.change place fun _ => rfl
  | ticks =>
      cases step
      exact invariant.runMinerPingSweep enabled
  | answers place host result =>
      simp only [Pinger.next] at step
      split at step
      · next sweep there =>
          split at step
          · cases step
            exact invariant.answers there result
          · contradiction
      · contradiction
  | resumes place now =>
      simp only [Pinger.next] at step
      split at step
      · next sweep there =>
          split at step
          · next all =>
              cases step
              exact invariant.finish there all now
          · contradiction
      · contradiction

/-- What holds of sweeps after a run. -/
structure Swept (pinger : Pinger) : Prop where
  flag : pinger.pingSweepInFlight = !pinger.waiting.isEmpty
  single : pinger.waiting.length ≤ 1
  formed : ∀ sweep ∈ pinger.waiting, sweep.Formed pinger.clients
  unavailable : pinger.pingCommandUnavailable = true ↔ ∃ sweep ∈ pinger.ended, ¬sweep.pinged
  idle : pinger.pingCommandUnavailable = true → pinger.waiting = []
  last : ∀ sweep ∈ pinger.ended.dropLast, sweep.pinged
  metrics : ∀ (place : Nat) (client : Client), pinger.clients[place]? = some client →
    client.metrics = .after (heard pinger.ended place)
  counted : ∀ (place : Nat) (client : Client), pinger.clients[place]? = some client →
    client.metrics.pingSuccesses + client.metrics.pingFailures = (heard pinger.ended place).length

/-- Whatever the order of events: at most one sweep is under way, and the flag
tells so; no sweep follows one that found no command to ping with; and every
client has counted exactly the results of the host that it had when the sweeps
began. -/
theorem swept_of_run {enabled : Bool} {events : List PingEvent} {target : Pinger}
    (reached : run (Pinger.next enabled) initial events = some target) : target.Swept := by
  have invariant : target.Invariant :=
    run_invariant Invariant (fun invariant step => invariant.next step) invariant_initial reached
  refine ⟨invariant.flag, invariant.single, invariant.formed, invariant.unavailable, invariant.idle,
    invariant.last, invariant.metrics, fun place client there => ?_⟩
  rw [invariant.metrics place client there]
  exact counts_after fun result => ne_unavailable_of_mem_heard

/-- Two miners behind one address, given in two forms, and a third miner.  The
second one is authorized while the first sweep is under way and is pinged by the
second sweep only, during which the first miner leaves. -/
def eventsExample : List PingEvent :=
  [.connects "10.0.0.1".toList, .connects "::ffff:10.0.0.1".toList, .connects "10.0.0.2".toList,
    .authorizes 0, .authorizes 1, .answers 0 0 (.ok (some 3)), .resumes 0 5, .authorizes 2,
    .ticks, .answers 0 1 (.failed []), .answers 0 0 (.ok none), .disconnects 0, .resumes 0 9]

theorem swept_eventsExample : ∃ target,
    run (Pinger.next true) initial eventsExample = some target ∧ target.Swept :=
  ⟨_, rfl, swept_of_run (rfl : run (Pinger.next true) initial eventsExample = some _)⟩

example : (run (Pinger.next true) initial eventsExample).map (fun pinger =>
    pinger.clients.map fun client => (client.metrics.pingSuccesses, client.metrics.pingFailures)) =
      some [(2, 0), (1, 0), (0, 1)] := by
  decide +kernel

end Pinger

end ZcashSoloPool.Pool.PingSweep
