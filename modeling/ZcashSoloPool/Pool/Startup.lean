import ZcashSoloPool.Rpc.NodeInfo
import Mathlib.Algebra.Order.Archimedean.Basic
import Mathlib.Data.Rat.Floor
import Mathlib.Tactic.Linarith

/-!
# Waiting for the node

At its start the pool asks the node again and again until it has told of itself
and given a template.  As long as the node answers that it is warming up, the
pool waits for a while and asks again; every other error ends the start, and so
does the time limit.  Whatever the node answers, the pool stops waiting, and the
first attempt that is not put off decides how.
-/

namespace ZcashSoloPool.Pool

open ZcashSoloPool.JavaScript
open ZcashSoloPool.Rpc

/-- The numbers that the settings `startupRetryMs` and `startupTimeoutMs` are read
as, where they are finite. -/
structure StartupConfig where
  startupRetryMs : Option ℚ
  startupTimeoutMs : Option ℚ

namespace StartupConfig

/-- `intervalMs`. -/
def intervalMs (config : StartupConfig) : ℚ :=
  (config.startupRetryMs.filter fun ms => 1000 ≤ ms).getD 3000

/-- `timeoutMs`. -/
def timeoutMs (config : StartupConfig) : ℚ :=
  (config.startupTimeoutMs.filter fun ms => config.intervalMs ≤ ms).getD 300000

/-- The delay that `setTimeout` makes of the interval: a whole number, and a single
millisecond where the number does not fit. -/
def delay (config : StartupConfig) : ℤ :=
  if config.intervalMs ≤ 2 ^ 31 - 1 then ⌊config.intervalMs⌋ else 1

theorem intervalMs_ge (config : StartupConfig) : 1000 ≤ config.intervalMs := by
  unfold intervalMs
  cases kept : config.startupRetryMs.filter fun ms => 1000 ≤ ms with
  | none => norm_num
  | some ms =>
      obtain ⟨-, least⟩ := Option.filter_eq_some_iff.mp kept
      exact of_decide_eq_true least

theorem timeoutMs_pos (config : StartupConfig) : 0 < config.timeoutMs := by
  have interval := config.intervalMs_ge
  unfold timeoutMs
  cases kept : config.startupTimeoutMs.filter fun ms => config.intervalMs ≤ ms with
  | none => norm_num
  | some ms =>
      obtain ⟨-, least⟩ := Option.filter_eq_some_iff.mp kept
      have enough : config.intervalMs ≤ ms := of_decide_eq_true least
      exact lt_of_lt_of_le (by linarith) enough

theorem delay_pos (config : StartupConfig) : 0 < config.delay := by
  have interval := config.intervalMs_ge
  unfold delay
  split
  · exact Int.floor_pos.mpr (by linarith)
  · decide

end StartupConfig

/-! ## Errors of a node that is not ready -/

/-- `isNodeWarmupError`, with `none` where the conversion of the message throws. -/
def isNodeWarmupError (numbers : NumberFormat) (error : RpcError) : Option Bool :=
  let text :=
    match (error.rpc.bind (Json.member "message")).filter Json.truthy with
    | some message => message.toText? numbers
    | none => some error.message
  text.map fun text =>
    let msg := lowerCase text
    error.hasCode (-28) ||
      includes msg "warming up" ||
      includes msg "warmup" ||
      includes msg "loading" ||
      includes msg "verifying blocks" ||
      includes msg "rescanning" ||
      includes msg "reindex" ||
      includes msg "downloading"

/-! ## Attempts -/

/-- An attempt: what the clock shows before it, and how the node answers. -/
structure Attempt where
  checkedAt : ℤ
  node : Node

/-- The parameters of `getBlockTemplate`. -/
def templateParams : List Json :=
  [.object [("mode".toList, .string "template".toList),
    ("capabilities".toList, .array
      (["coinbasetxn", "coinbasevalue", "longpoll"].map fun name => .string name.toList))]]

/-- The condition of the loop. -/
def Attempt.InTime (config : StartupConfig) (startedAt : ℤ) (attempt : Attempt) : Prop :=
  ((attempt.checkedAt - startedAt : ℤ) : ℚ) ≤ config.timeoutMs

instance (config : StartupConfig) (startedAt : ℤ) (attempt : Attempt) :
    Decidable (attempt.InTime config startedAt) :=
  inferInstanceAs (Decidable (_ ≤ _))

/-- What the pool starts with, or the error that ends the start. -/
abbrev StartResult :=
  Except RpcError Info

/-- How conversions and assignments go that the language does. -/
structure Language where
  numbers : NumberFormat
  typeError : Option Json → RpcError

section Waiting

variable (language : Language)

/-- The body of `try`. -/
def askNode (node : Node) (rate : NetworkRate) : NetworkRate × StartResult :=
  match getInfo language.numbers language.typeError node rate with
  | (rate, .error error) => (rate, .error error)
  | (rate, .ok info) =>
      match call language.numbers node "getblocktemplate".toList templateParams with
      | .error error => (rate, .error error)
      | .ok _ => (rate, .ok info)

/-- The error after the loop. -/
def timedOut (lastError : Option RpcError) : RpcError :=
  lastError.getD ⟨"Timed out waiting for Zcash RPC to become ready".toList, none⟩

/-- The loop of `waitForNodeReady`; `none` as long as it goes on. -/
def waitFrom (config : StartupConfig) (startedAt : ℤ) :
    Option RpcError → NetworkRate → List Attempt → Option StartResult
  | _, _, [] => none
  | lastError, rate, attempt :: later =>
      if attempt.InTime config startedAt then
        let asked := askNode language attempt.node rate
        match asked.2 with
        | .ok info => some (.ok info)
        | .error error =>
            match isNodeWarmupError language.numbers error with
            | some true => waitFrom config startedAt (some error) asked.1 later
            | some false => some (.error error)
            | none => some (.error conversionError)
      else some (.error (timedOut lastError))

/-- `waitForNodeReady`, for the attempts so far. -/
def waitForNodeReady (config : StartupConfig) (startedAt : ℤ) (rate : NetworkRate)
    (attempts : List Attempt) : Option StartResult :=
  waitFrom language config startedAt none rate attempts

/-! ## What ends the wait -/

variable (config : StartupConfig) (startedAt : ℤ) (rate : NetworkRate) (attempts : ℕ → Attempt)

/-- What is known of the rate of the network before an attempt. -/
def rateAt : ℕ → NetworkRate
  | 0 => rate
  | i + 1 => (askNode language (attempts i).node (rateAt i)).1

/-- What an attempt comes to. -/
def outcomeAt (i : ℕ) : StartResult :=
  (askNode language (attempts i).node (rateAt language rate attempts i)).2

/-- The error of the attempt before, if there was one. -/
def errorBefore : ℕ → Option RpcError
  | 0 => none
  | i + 1 =>
      match outcomeAt language rate attempts i with
      | .error error => some error
      | .ok _ => none

/-- The node is warming up, and there is time to ask again. -/
def PutOff (i : ℕ) : Prop :=
  (attempts i).InTime config startedAt ∧ ∃ error,
    outcomeAt language rate attempts i = .error error ∧
      isNodeWarmupError language.numbers error = some true

/-- How an attempt ends the wait. -/
inductive Decides (i : ℕ) : StartResult → Prop where
  | ready (inTime : (attempts i).InTime config startedAt) (info : Info)
      (told : outcomeAt language rate attempts i = .ok info) : Decides i (.ok info)
  | refused (inTime : (attempts i).InTime config startedAt) (error : RpcError)
      (told : outcomeAt language rate attempts i = .error error)
      (other : isNodeWarmupError language.numbers error = some false) : Decides i (.error error)
  | unreadable (inTime : (attempts i).InTime config startedAt) (error : RpcError)
      (told : outcomeAt language rate attempts i = .error error)
      (throws : isNodeWarmupError language.numbers error = none) :
      Decides i (.error conversionError)
  | late (ended : ¬(attempts i).InTime config startedAt) :
      Decides i (.error (timedOut (errorBefore language rate attempts i)))

variable {language config startedAt rate attempts}

theorem decides_of_not_putOff {i : ℕ}
    (decisive : ¬PutOff language config startedAt rate attempts i) :
    ∃ result, Decides language config startedAt rate attempts i result := by
  by_cases inTime : (attempts i).InTime config startedAt
  · cases told : outcomeAt language rate attempts i with
    | ok info => exact ⟨_, Decides.ready inTime info told⟩
    | error error =>
        cases warmup : isNodeWarmupError language.numbers error with
        | none => exact ⟨_, Decides.unreadable inTime error told warmup⟩
        | some flag =>
            cases flag with
            | false => exact ⟨_, Decides.refused inTime error told warmup⟩
            | true => exact absurd ⟨inTime, error, told, warmup⟩ decisive
  · exact ⟨_, Decides.late inTime⟩

/-- One turn of the loop. -/
theorem waitFrom_attempt (i : ℕ) (later : List Attempt) :
    waitFrom language config startedAt (errorBefore language rate attempts i)
        (rateAt language rate attempts i) (attempts i :: later) =
      if (attempts i).InTime config startedAt then
        match outcomeAt language rate attempts i with
        | .ok info => some (.ok info)
        | .error error =>
            match isNodeWarmupError language.numbers error with
            | some true =>
                waitFrom language config startedAt (errorBefore language rate attempts (i + 1))
                  (rateAt language rate attempts (i + 1)) later
            | some false => some (.error error)
            | none => some (.error conversionError)
      else some (.error (timedOut (errorBefore language rate attempts i))) := by
  rw [waitFrom, rateAt, outcomeAt]
  dsimp only
  cases told : (askNode language (attempts i).node (rateAt language rate attempts i)).2 with
  | ok info => rfl
  | error error =>
      have handed : errorBefore language rate attempts (i + 1) = some error := by
        rw [errorBefore, outcomeAt, told]
      rw [handed]

/-- An attempt that is put off hands its error and its rate to the next one. -/
theorem waitFrom_of_putOff {i : ℕ} (putOff : PutOff language config startedAt rate attempts i)
    (later : List Attempt) :
    waitFrom language config startedAt (errorBefore language rate attempts i)
        (rateAt language rate attempts i) (attempts i :: later) =
      waitFrom language config startedAt (errorBefore language rate attempts (i + 1))
        (rateAt language rate attempts (i + 1)) later := by
  obtain ⟨inTime, error, told, warmup⟩ := putOff
  rw [waitFrom_attempt, if_pos inTime, told]
  dsimp only
  rw [warmup]

theorem waitFrom_of_decides {i : ℕ} {result : StartResult}
    (decides : Decides language config startedAt rate attempts i result) (later : List Attempt) :
    waitFrom language config startedAt (errorBefore language rate attempts i)
        (rateAt language rate attempts i) (attempts i :: later) = some result := by
  rw [waitFrom_attempt]
  cases decides with
  | ready inTime info told => rw [if_pos inTime, told]
  | refused inTime error told other =>
      rw [if_pos inTime, told]
      dsimp only
      rw [other]
  | unreadable inTime error told throws =>
      rw [if_pos inTime, told]
      dsimp only
      rw [throws]
  | late ended => rw [if_neg ended]

/-- The loop goes on over the attempts that are put off and ends with the first one
that is not. -/
theorem waitFrom_attempts {n : ℕ} {result : StartResult}
    (putOff : ∀ i < n, PutOff language config startedAt rate attempts i)
    (decides : Decides language config startedAt rate attempts n result) (m : ℕ) :
    ∀ i ≤ n, waitFrom language config startedAt (errorBefore language rate attempts i)
        (rateAt language rate attempts i) ((List.range' i m).map attempts) =
      if n < i + m then some result else none := by
  induction m with
  | zero =>
      intro i reached
      rw [if_neg (by omega)]
      rfl
  | succ m ih =>
      intro i reached
      rw [List.range'_succ, List.map_cons]
      rcases Nat.lt_or_eq_of_le reached with before | rfl
      · rw [waitFrom_of_putOff (putOff i before), ih (i + 1) before]
        congr 1
        apply propext
        omega
      · rw [waitFrom_of_decides decides, if_pos (by omega)]

/-- The pool waits at least for the interval between two attempts. -/
def Paced (config : StartupConfig) (startedAt : ℤ) (attempts : ℕ → Attempt) : Prop :=
  startedAt ≤ (attempts 0).checkedAt ∧
    ∀ i, (attempts i).checkedAt + config.delay ≤ (attempts (i + 1)).checkedAt

theorem Paced.le_checkedAt (paced : Paced config startedAt attempts) (i : ℕ) :
    (i : ℤ) * config.delay ≤ (attempts i).checkedAt - startedAt := by
  induction i with
  | zero =>
      have begun := paced.1
      simp
      exact begun
  | succ i ih =>
      have waited := paced.2 i
      push_cast
      linarith

/-- Attempts before the time limit are few. -/
theorem Paced.le_timeoutMs (paced : Paced config startedAt attempts) {i : ℕ}
    (inTime : (attempts i).InTime config startedAt) :
    (i : ℚ) * config.delay ≤ config.timeoutMs := by
  refine le_trans ?_ inTime
  exact_mod_cast paced.le_checkedAt i

theorem Paced.exists_not_putOff (paced : Paced config startedAt attempts) :
    ∃ i, ¬PutOff language config startedAt rate attempts i := by
  obtain ⟨i, large⟩ := exists_nat_gt config.timeoutMs
  refine ⟨i, fun putOff => ?_⟩
  have few := paced.le_timeoutMs putOff.1
  have delay : (1 : ℚ) ≤ config.delay := by exact_mod_cast config.delay_pos
  have count : (0 : ℚ) ≤ i := Nat.cast_nonneg i
  nlinarith

/-- The pool stops waiting for its node: a first attempt is not put off, within the
time limit and one interval more, and it decides with what the pool starts or
fails. -/
theorem waitForNodeReady_decided (paced : Paced config startedAt attempts) :
    ∃ n result, (∀ i < n, PutOff language config startedAt rate attempts i) ∧
      Decides language config startedAt rate attempts n result ∧
      (n : ℚ) * config.delay ≤ config.timeoutMs + config.delay ∧
      ∀ m, waitForNodeReady language config startedAt rate ((List.range m).map attempts) =
        if n < m then some result else none := by
  classical
  have ends : ∃ i, ¬PutOff language config startedAt rate attempts i := paced.exists_not_putOff
  have putOff : ∀ i < Nat.find ends, PutOff language config startedAt rate attempts i := by
    intro i earlier
    exact not_not.mp (Nat.find_min ends earlier)
  obtain ⟨result, decides⟩ := decides_of_not_putOff (Nat.find_spec ends)
  refine ⟨Nat.find ends, result, putOff, decides, ?_, ?_⟩
  · have delay : (0 : ℚ) < config.delay := by exact_mod_cast config.delay_pos
    cases count : Nat.find ends with
    | zero =>
        have limit := config.timeoutMs_pos
        simp
        linarith
    | succ last =>
        have inTime := (putOff last (by omega)).1
        have few := paced.le_timeoutMs inTime
        push_cast
        linarith
  · intro m
    have run := waitFrom_attempts putOff decides m 0 (Nat.zero_le _)
    rw [Nat.zero_add, ← List.range_eq_range'] at run
    exact run

end Waiting

/-! ## A node that warms up -/

/-- Strings convert to numbers as integers do, and assignments fail with an empty
message. -/
def languageExample : Language :=
  ⟨.integers, fun _ => ⟨[], none⟩⟩

/-- A node that is loading its blocks. -/
def warmingNode : Node := fun _ _ =>
  .reply (.object [("error".toList, .object [("code".toList, .number (-28)),
    ("message".toList, .string "Loading block index...".toList)])])

/-- A node that answers every request. -/
def readyNode : Node := fun _ _ =>
  .reply (.object [("result".toList, .object [("blocks".toList, .number 7)])])

/-- A node that is ready at the third attempt. -/
def attemptsExample (i : ℕ) : Attempt :=
  ⟨3000 * i, if i < 2 then warmingNode else readyNode⟩

theorem waitForNodeReady_decided_attemptsExample :
    ∃ n result, (∀ i < n, PutOff languageExample ⟨none, none⟩ 0 .initial attemptsExample i) ∧
      Decides languageExample ⟨none, none⟩ 0 .initial attemptsExample n result ∧
      (n : ℚ) * StartupConfig.delay ⟨none, none⟩ ≤
        StartupConfig.timeoutMs ⟨none, none⟩ + StartupConfig.delay ⟨none, none⟩ ∧
      ∀ m, waitForNodeReady languageExample ⟨none, none⟩ 0 .initial
        ((List.range m).map attemptsExample) = if n < m then some result else none := by
  apply waitForNodeReady_decided
  constructor
  · decide
  · intro i
    have delay : StartupConfig.delay ⟨none, none⟩ = 3000 := by decide +kernel
    rw [delay]
    simp only [attemptsExample]
    push_cast
    omega

end ZcashSoloPool.Pool
