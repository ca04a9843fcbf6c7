import ZcashSoloPool.Collections.OrderedMap
import ZcashSoloPool.JavaScript.Value
import ZcashSoloPool.Limits.FixedWindow
import Mathlib.Algebra.Order.Floor.Semifield
import Mathlib.Data.Rat.Floor
import Mathlib.Tactic.Linarith

/-!
# The rate limiter of the status server

One fixed window for every address.  The buckets of all addresses lie in one
map, but a request touches only that of its own address, so that each address
meets a limiter of its own.
-/

namespace ZcashSoloPool.Dashboard

open ZcashSoloPool.Collections
open ZcashSoloPool.JavaScript
open ZcashSoloPool.Limits

/-! ## The limiter -/

/-- The value that `_buckets` has for an address. -/
structure Bucket where
  count : Nat
  windowStart : ℚ

/-- `RateLimiter`. -/
structure RateLimiter where
  requestsPerWindow : ℚ
  windowMs : ℚ
  buckets : OrderedMap Text Bucket

/-- A request: the address it comes from and the time at which it is answered. -/
structure ApiRequest where
  ip : Text
  now : ℚ
  deriving DecidableEq, Repr

namespace RateLimiter

/-- The constructor. -/
def new (requestsPerWindow windowMs : ℚ) : RateLimiter :=
  ⟨requestsPerWindow, windowMs, .empty⟩

/-- `isAllowed`, with the limiter it leaves. -/
def isAllowed (limiter : RateLimiter) (ip : Text) (now : ℚ) : Bool × RateLimiter :=
  let bucket : Bucket :=
    match limiter.buckets.get? ip with
    | none => ⟨0, now⟩
    | some bucket =>
        if now - bucket.windowStart ≥ limiter.windowMs then ⟨0, now⟩ else bucket
  let counted : Bucket := { bucket with count := bucket.count + 1 }
  (decide ((counted.count : ℚ) ≤ limiter.requestsPerWindow),
    { limiter with buckets := limiter.buckets.set ip counted })

/-- The answers to requests one after the other. -/
def answers (limiter : RateLimiter) : List ApiRequest → List Bool
  | [] => []
  | request :: rest =>
      let answered := limiter.isAllowed request.ip request.now
      answered.1 :: answers answered.2 rest

/-- The answers given to an address. -/
def answersTo (limiter : RateLimiter) (ip : Text) (requests : List ApiRequest) : List Bool :=
  ((requests.zip (limiter.answers requests)).filter fun entry => entry.1.ip = ip).map Prod.snd

/-- The times of the requests of an address that are allowed. -/
def allowedTimes (limiter : RateLimiter) (ip : Text) (requests : List ApiRequest) : List ℚ :=
  ((requests.zip (limiter.answers requests)).filter fun entry =>
    decide (entry.1.ip = ip) && entry.2).map fun entry => entry.1.now

/-- How many requests fit into a window: the whole part of the setting, and
none if that is negative. -/
def limit (limiter : RateLimiter) : Nat :=
  ⌊limiter.requestsPerWindow⌋₊

/-- The window of an address. -/
def window? (limiter : RateLimiter) (ip : Text) : Option (Window ℚ) :=
  (limiter.buckets.get? ip).map fun bucket => ⟨bucket.count, bucket.windowStart⟩

end RateLimiter

/-- The times at which an address sends requests. -/
def timesOf (ip : Text) (requests : List ApiRequest) : List ℚ :=
  (requests.filter fun request => request.ip = ip).map ApiRequest.now

/-! ## One limiter for each address -/

namespace RateLimiter

/-- A request counts in the window of its address. -/
theorem window?_isAllowed (limiter : RateLimiter) (ip : Text) (now : ℚ) :
    (limiter.isAllowed ip now).2.window? ip =
      some (Window.next limiter.windowMs (limiter.window? ip) now) := by
  rw [window?, window?, isAllowed, OrderedMap.get?_set_self]
  cases limiter.buckets.get? ip with
  | none => rfl
  | some bucket =>
      simp only [Option.map_some, Window.next, ge_iff_le]
      split <;> rfl

/-- A request changes the window of no other address. -/
theorem window?_isAllowed_of_ne (limiter : RateLimiter) {ip other : Text} (now : ℚ)
    (different : other ≠ ip) :
    (limiter.isAllowed ip now).2.window? other = limiter.window? other := by
  rw [window?, window?, isAllowed, OrderedMap.get?_set_of_ne different]

/-- A request is allowed if its window has counted no more than the limit. -/
theorem isAllowed_fst (limiter : RateLimiter) (ip : Text) (now : ℚ) :
    (limiter.isAllowed ip now).1 =
      decide ((Window.next limiter.windowMs (limiter.window? ip) now).count ≤ limiter.limit) := by
  have fits : ∀ count : Nat, decide (((count + 1 : Nat) : ℚ) ≤ limiter.requestsPerWindow) =
      decide (count + 1 ≤ limiter.limit) := fun count =>
    decide_eq_decide.mpr (Nat.le_floor_iff' (Nat.succ_ne_zero count)).symm
  rw [isAllowed, window?]
  cases limiter.buckets.get? ip with
  | none => exact fits 0
  | some bucket =>
      simp only [Option.map_some, Window.next, ge_iff_le]
      split
      · exact fits 0
      · exact fits bucket.count

/-- An address meets a limiter of its own. -/
theorem answersTo_eq (limiter : RateLimiter) (ip : Text) (requests : List ApiRequest) :
    limiter.answersTo ip requests =
      Limits.answers limiter.limit limiter.windowMs (limiter.window? ip) (timesOf ip requests) := by
  induction requests generalizing limiter with
  | nil => rfl
  | cons request rest ih =>
      have later := ih (limiter.isAllowed request.ip request.now).2
      rw [answersTo, timesOf] at later ⊢
      by_cases own : request.ip = ip
      · subst own
        simp only [answers, List.zip_cons_cons, decide_true, List.filter_cons_of_pos,
          List.map_cons, Limits.answers, isAllowed_fst]
        rw [later, window?_isAllowed]
        rfl
      · have other : (limiter.isAllowed request.ip request.now).2.window? ip =
            limiter.window? ip :=
          limiter.window?_isAllowed_of_ne request.now (Ne.symm own)
        rw [other] at later
        simp only [answers, List.zip_cons_cons, own, decide_false, Bool.false_eq_true,
          not_false_eq_true, List.filter_cons_of_neg]
        exact later

/-- The allowed requests of an address are those that its own limiter lets
through. -/
theorem allowedTimes_eq (limiter : RateLimiter) (ip : Text) (requests : List ApiRequest) :
    limiter.allowedTimes ip requests =
      Limits.allowed limiter.limit limiter.windowMs (limiter.window? ip)
        (timesOf ip requests) := by
  have paired : ∀ (requests : List ApiRequest) (answers : List Bool),
      (((requests.zip answers).filter fun entry =>
        decide (entry.1.ip = ip) && entry.2).map fun entry => entry.1.now) =
      (((timesOf ip requests).zip
        (((requests.zip answers).filter fun entry => entry.1.ip = ip).map Prod.snd)).filter
          Prod.snd).map Prod.fst := by
    intro requests
    induction requests with
    | nil => intro answers; rfl
    | cons request rest ih =>
        intro answers
        cases answers with
        | nil => simp
        | cons answer others =>
            by_cases own : request.ip = ip
            · cases answer <;> simpa [timesOf, own] using ih others
            · simpa [timesOf, own] using ih others
  rw [Limits.allowed_eq, ← answersTo_eq]
  exact paired requests (limiter.answers requests)

/-- The requests of one address are in order if all requests are. -/
theorem pairwise_timesOf {requests : List ApiRequest}
    (inOrder : (requests.map ApiRequest.now).Pairwise (· ≤ ·)) (ip : Text) :
    (timesOf ip requests).Pairwise (· ≤ ·) :=
  inOrder.sublist (List.filter_sublist.map ApiRequest.now)

/-- For every setting: the answers to an address depend on the times of its own
requests; no interval as long as a window sees more of them allowed than twice
the limit; and those after a silence as long as a window are allowed up to the
limit.  The times do not go back; an interval has its two ends, or the first
only where a window has no width. -/
theorem rateLimiter_laws (requestsPerWindow windowMs : ℚ) :
    (∀ ip first second, timesOf ip first = timesOf ip second →
      (new requestsPerWindow windowMs).answersTo ip first =
        (new requestsPerWindow windowMs).answersTo ip second) ∧
    ∀ requests, (requests.map ApiRequest.now).Pairwise (· ≤ ·) → ∀ ip,
      (∀ start : ℚ,
        (((new requestsPerWindow windowMs).allowedTimes ip requests).countP fun time =>
            decide (start ≤ time) && decide (time < start + windowMs)) ≤
          2 * (new requestsPerWindow windowMs).limit ∧
        (0 < windowMs →
          (((new requestsPerWindow windowMs).allowedTimes ip requests).countP fun time =>
              decide (start ≤ time) && decide (time ≤ start + windowMs)) ≤
            2 * (new requestsPerWindow windowMs).limit)) ∧
      ∀ before first after, timesOf ip requests = before ++ first :: after →
        (∀ time ∈ before, time + windowMs ≤ first) →
        ∀ i, i < (new requestsPerWindow windowMs).limit → i < (first :: after).length →
          ((new requestsPerWindow windowMs).answersTo ip requests)[before.length + i]? =
            some true := by
  constructor
  · intro ip first second sameTimes
    rw [answersTo_eq, answersTo_eq, sameTimes]
  · intro requests inOrder ip
    have ownInOrder := pairwise_timesOf inOrder ip
    constructor
    · intro start
      rw [allowedTimes_eq]
      have closed := fun wide : 0 < windowMs =>
        within_allowed_le (new requestsPerWindow windowMs).limit wide ownInOrder start none
      refine ⟨?_, closed⟩
      by_cases wide : 0 < windowMs
      · refine Nat.le_trans (List.countP_mono_left ?_) (closed wide)
        intro time _ between
        simp only [Bool.and_eq_true, decide_eq_true_eq] at between ⊢
        exact ⟨between.1, between.2.le⟩
      · have empty : ∀ time, ¬(start ≤ time ∧ time < start + windowMs) := by
          rintro time ⟨low, high⟩
          linarith
        rw [List.countP_eq_zero.mpr]
        · exact Nat.zero_le _
        · intro time _
          simpa using empty time
    · intro before first after times silence i below listed
      rw [answersTo_eq, times]
      exact answers_after_silence silence below listed

/-- Two requests for each second, when one address has sent three. -/
theorem rateLimiter_laws_two :
    let limiter := new 2 1000
    let requests : List ApiRequest := [⟨"a".toList, 0⟩, ⟨"b".toList, 5⟩, ⟨"a".toList, 900⟩,
      ⟨"a".toList, 950⟩]
    within 0 1000 (limiter.allowedTimes "a".toList requests) ≤ 4 ∧
      (limiter.answersTo "a".toList requests)[1]? = some true := by
  dsimp only
  have limitEq : (new 2 1000).limit = 2 := Nat.floor_ofNat 2
  have inOrder : (([⟨"a".toList, 0⟩, ⟨"b".toList, 5⟩, ⟨"a".toList, 900⟩,
      ⟨"a".toList, 950⟩] : List ApiRequest).map ApiRequest.now).Pairwise (· ≤ ·) := by
    norm_num
  have laws := (rateLimiter_laws 2 1000).2 _ inOrder "a".toList
  constructor
  · have bound := (laws.1 0).2 (by norm_num)
    rw [limitEq, zero_add] at bound
    exact bound
  · exact laws.2 [] 0 [900, 950] rfl (by simp) 1 (by rw [limitEq]; decide) (by decide)

end RateLimiter

end ZcashSoloPool.Dashboard
