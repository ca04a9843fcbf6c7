import ZcashSoloPool.WorkManager.Encoding

/-!
# The configured share target

The stratum server and the work manager each read `shareTarget` from the
configuration of the pool, with a reader of their own and a default of their
own.  The work manager reads the target as a field of whole bytes, so that it
refuses an odd number of digits, which the server pads.
-/

namespace ZcashSoloPool.Stratum

open ZcashSoloPool.Bytes
open ZcashSoloPool.JavaScript

/-- The test `/^[0-9a-f]{1,64}$/`. -/
def isTargetText (text : Text) : Bool :=
  isHexText text && decide (text.length ≤ 64)

/-- `StratumServer.normalizeTarget`. -/
def normalizeTarget : Value → Option Text
  | .string target =>
      let normalized := strip0x (toLowerCase (trim target))
      if isTargetText normalized then some (padStart 64 normalized) else none
  | _ => none

/-- The target of difficulty one that the server starts from. -/
def baseTarget (shareTarget : Value) : Text :=
  (normalizeTarget shareTarget).getD
    "00003fffffffffffffffffffffffffffffffffffffffffffffffffffffffffff".toList

/-- The target that the work manager falls back to. -/
def poolTarget (shareTarget : Value) : Text :=
  (WorkManager.normalizeTarget shareTarget).getD (List.replicate 64 'f')

/-- The two components read the same target from a text, of 64 digits, and a
text that sets the target of the server sets that of the work manager. -/
structure TargetsAgree (shareTarget : Text) : Prop where
  parsed : normalizeTarget (.string shareTarget) = WorkManager.normalizeTarget (.string shareTarget)
  digits : ∀ target, normalizeTarget (.string shareTarget) = some target →
    IsLowerHex target ∧ target.length = 64
  configured : ∀ target, normalizeTarget (.string shareTarget) = some target →
    baseTarget (.string shareTarget) = target ∧ poolTarget (.string shareTarget) = target

/-- An odd number of digits below 64, after an optional `0x`. -/
def OddDigits (shareTarget : Text) : Prop :=
  let normalized := strip0x (toLowerCase (trim shareTarget))
  isHexText normalized = true ∧ normalized.length % 2 = 1 ∧ normalized.length < 64

/-! ## The two readers -/

/-- What the work manager reads from a text. -/
theorem workManager_normalizeTarget_string (target : Text) :
    WorkManager.normalizeTarget (.string target) =
      if isTargetText (strip0x (toLowerCase (trim target))) = true ∧
          (strip0x (toLowerCase (trim target))).length % 2 = 0 then
        some (padStart 64 (strip0x (toLowerCase (trim target))))
      else none := by
  generalize normalizedEq : strip0x (toLowerCase (trim target)) = normalized
  simp only [WorkManager.normalizeTarget, WorkManager.normalizeHexField, WorkManager.hexSource,
    normalizedEq, WorkManager.padOddLength, isTargetText, Option.bind_eq_bind, Option.bind_some,
    Bool.false_and]
  by_cases hex : isHexText normalized = true
  · by_cases even : normalized.length % 2 = 0
    · by_cases short : normalized.length ≤ 64
      · simp [hex, even, short]
      · simp [hex, even, short, Nat.lt_of_not_le short]
    · simp [hex, even]
  · simp [hex]

/-- What the server reads has exactly 64 digits. -/
theorem normalizeTarget_digits {shareTarget : Value} {target : Text}
    (parsed : normalizeTarget shareTarget = some target) :
    IsLowerHex target ∧ target.length = 64 := by
  cases shareTarget with
  | string text =>
      rw [normalizeTarget] at parsed
      split at parsed
      · next accepted =>
          rw [← Option.some.inj parsed]
          simp only [isTargetText, Bool.and_eq_true, decide_eq_true_eq] at accepted
          refine ⟨isLowerHex_padStart (isHexText_iff.mp accepted.1).2 64, ?_⟩
          simp [accepted.2]
      · contradiction
  | _ => simp [normalizeTarget] at parsed

/-- The two components read a text alike exactly if it has no odd number of
digits. -/
theorem normalizeTarget_eq_iff (shareTarget : Text) :
    normalizeTarget (.string shareTarget) = WorkManager.normalizeTarget (.string shareTarget) ↔
      ¬OddDigits shareTarget := by
  rw [workManager_normalizeTarget_string, normalizeTarget, OddDigits]
  generalize strip0x (toLowerCase (trim shareTarget)) = normalized
  by_cases accepted : isTargetText normalized = true
  · have ⟨hex, short⟩ : isHexText normalized = true ∧ normalized.length ≤ 64 := by
      simpa [isTargetText] using accepted
    by_cases even : normalized.length % 2 = 0
    · simp [accepted, even]
    · have odd : normalized.length % 2 = 1 := by omega
      have below : normalized.length < 64 := by omega
      simp [accepted, hex, odd, below]
  · have refused : ¬(isHexText normalized = true ∧ normalized.length ≤ 64) := by
      simpa [isTargetText] using accepted
    have notOdd : ¬(isHexText normalized = true ∧ normalized.length % 2 = 1 ∧
        normalized.length < 64) := by
      rintro ⟨hex, -, below⟩
      exact refused ⟨hex, below.le⟩
    simp [accepted, notOdd]

/-- The two components agree on a configured target exactly if it has no odd
number of digits. -/
theorem targetsAgree_iff (shareTarget : Text) :
    TargetsAgree shareTarget ↔ ¬OddDigits shareTarget := by
  constructor
  · intro agree
    exact (normalizeTarget_eq_iff shareTarget).mp agree.parsed
  · intro notOdd
    have parsed := (normalizeTarget_eq_iff shareTarget).mpr notOdd
    refine ⟨parsed, fun target accepted => normalizeTarget_digits accepted, ?_⟩
    intro target accepted
    have other : WorkManager.normalizeTarget (.string shareTarget) = some target := by
      rw [← parsed, accepted]
    simp [baseTarget, poolTarget, accepted, other]

/-- The default target of the server with one leading zero left out. -/
theorem not_targetsAgree_odd :
    ¬TargetsAgree "0003fffffffffffffffffffffffffffffffffffffffffffffffffffffffffff".toList := by
  intro agree
  have := agree.parsed
  revert this
  decide

end ZcashSoloPool.Stratum
