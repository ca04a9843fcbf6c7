import ZcashSoloPool.WorkManager.ValidateShare

/-!
# Messages of the stratum server

What a miner is sent for a job and what the server makes of a submission.
Miners order the fields of a submission differently, so `parseSubmit` guesses
which is which.
-/

namespace ZcashSoloPool.Stratum

open ZcashSoloPool.Bytes
open ZcashSoloPool.JavaScript
open ZcashSoloPool.WorkManager

/-! ## Connections -/

/-- The `extranonce1` that a connection gets from its number. -/
def extranonce1 (clientId : Nat) : Text :=
  padStart 8 (hexText clientId)

/-- A connection: whether `mining.authorize` was received, and the fields that
the validation of shares reads. -/
structure Connection where
  authorized : Bool
  client : Client
  deriving DecidableEq, Repr

/-! ## `mining.notify` -/

/-- `reverseHexBytes`. -/
def reverseHexBytes : Value → Value
  | .string hex => if hex.length % 2 ≠ 0 then .string hex else .string (reverseHex hex)
  | value => value

/-- The parameters of `mining.notify` in the ZIP 301 modes. -/
structure Notify where
  jobId : Value
  version : Value
  prevhash : Value
  merkleRoot : Value
  reserved : Value
  time : Value
  bits : Value
  cleanJobs : Bool
  deriving DecidableEq, Repr

/-- The parameters that `sendJob` puts together for a job.  Its `nbitsLE` is
set in no job. -/
def sendJob (job : Job) : Notify where
  jobId := .string job.jobId
  version := (Value.string job.versionLE).or
    ((Value.string job.version).or (.string "04000000".toList))
  prevhash := (Value.string job.prevhashLE).or job.prevhash
  merkleRoot := (Value.string job.merkleRootLE).or (.string job.merkleRoot)
  reserved := (Value.string job.reservedLE).or (.string (List.replicate 64 '0'))
  time := (Value.string job.ntimeLE).or (.string job.ntime)
  bits := Value.undefined.or (reverseHexBytes job.nbits)
  cleanJobs := job.cleanJobs

/-- The header that a miner builds from the message, its time and a nonce. -/
def Notify.header (notify : Notify) (time nonce : List UInt8) : List UInt8 :=
  ofHex notify.version.toText ++ ofHex notify.prevhash.toText ++
    ofHex notify.merkleRoot.toText ++ ofHex notify.reserved.toText ++ time ++
      ofHex notify.bits.toText ++ nonce

/-! ## `mining.submit` -/

/-- `params || []` of a request: an array, or something else with its member
`length`. -/
inductive Params where
  | array (values : List Value)
  | other (length : Value)
  deriving DecidableEq, Repr

/-- The elements of an array. -/
def Params.values? : Params → Option (List Value)
  | array values => some values
  | other _ => none

/-- A template with the length throws. -/
def Params.lengthThrows (hostile : Nat → Bool) : Params → Bool
  | array _ => false
  | other length => length.throwsOn hostile

/-- The local `asHex` of `parseSubmit`.  Of other letters than those of ASCII, which
occur in no field, the case is kept. -/
def asHex : Value → Text
  | .string v => trim (strip0x (toLowerCase v))
  | _ => []

/-- The local `isNTimeHex` of `parseSubmit`. -/
def isNTimeHex (v : Value) : Bool :=
  (asHex v).length == 8 && isHexText (asHex v)

/-- The local `isHexLike` of `parseSubmit`. -/
def isHexLike (v : Value) : Bool :=
  !(asHex v).isEmpty && (asHex v).all fun c => (hexValue c).isSome

/-- The result of `parseSubmit`. -/
structure ParsedSubmit where
  worker : Value
  jobId : Option Text
  nTime : Option Text
  nonce : Option Text
  solution : Option Text
  deriving DecidableEq, Repr

/-- The result for parameters that are not understood. -/
def ParsedSubmit.nothing : ParsedSubmit :=
  ⟨.null, none, none, none, none⟩

/-- The time and the nonce by their places, when the search did not find
both. -/
def guessPlaces (p2 p3 : Value) : Value × Value :=
  if isNTimeHex p2 && !isNTimeHex p3 then (p2, p3)
  else if !isNTimeHex p2 && isNTimeHex p3 then (p3, p2)
  else (p2.or .null, p3.or .null)

/-- The time and the nonce among the parameters between the job and the
solution: the first time, and the longest text that is another value. -/
def findTimeAndNonce (middle : List Value) : Value × Value :=
  let nTime := (middle.find? isNTimeHex).getD .null
  let nonceCandidates := middle.filter fun v => decide (v ≠ nTime) && isHexLike v
  let sorted := nonceCandidates.mergeSort fun a b =>
    decide ((asHex b).length ≤ (asHex a).length)
  (nTime, sorted.headD .null)

/-- `parseSubmit`, where no conversion throws; parameters that are no array are
`none`. -/
def parseSubmit : Option (List Value) → ParsedSubmit
  | none => .nothing
  | some params =>
      let param := fun i => params.getD i Value.undefined
      if params.length ≥ 5 then
        let tail := params.drop 2
        let found := findTimeAndNonce tail.dropLast
        let (nTime, nonce) :=
          if !found.1.truthy || !found.2.truthy then guessPlaces (param 2) (param 3) else found
        { worker := param 0
          jobId := some (param 1).joinText
          nTime := some (asHex nTime)
          nonce := some (asHex nonce)
          solution := some (asHex (tail.getLastD .undefined)) }
      else if params.length = 4 then
        let (nTime, nonce) :=
          if !isNTimeHex (param 1) && isNTimeHex (param 2) then (param 2, param 1)
          else (param 1, param 2)
        { worker := .null
          jobId := some (param 0).joinText
          nTime := some (asHex nTime)
          nonce := some (asHex nonce)
          solution := some (asHex (param 3)) }
      else .nothing

/-- The parameter that `parseSubmit` converts to a string. -/
def jobIdParam (params : Option (List Value)) : Value :=
  match params with
  | some values =>
      if values.length ≥ 5 then values.getD 1 .undefined
      else if values.length = 4 then values.getD 0 .undefined
      else .undefined
  | none => .undefined

/-- `parseSubmit`, which throws with the conversion of its job id. -/
def parseSubmit? (hostile : Nat → Bool) (params : Option (List Value)) : Option ParsedSubmit :=
  if (jobIdParam params).throwsOn hostile then none else some (parseSubmit params)

/-- The branch `mining.submit` of `handleRequest`, where no conversion to a string
throws: the submission that is passed on, or `none` for the reply
`Unauthorized`. -/
def handleSubmit (connection : Connection) (params : Option (List Value)) : Option Submission :=
  if connection.authorized then
    let parsed := parseSubmit params
    some {
      client := connection.client
      jobId := parsed.jobId
      nTime := parsed.nTime
      nonce := parsed.nonce
      solution := parsed.solution }
  else none

/-! ## Fields of ZIP 301 -/

theorem asHex_of_spells {text : Text} {bytes : List UInt8} (spells : Spells text bytes) :
    asHex (.string text) = toHex bytes := by
  have lower := (isHexBytes_toHex bytes).lower
  rw [asHex, show toLowerCase text = toHex bytes from spells, strip0x_of_isLowerHex lower,
    trim_of_isLowerHex lower]

theorem isNTimeHex_iff_of_spells {text : Text} {bytes : List UInt8} (spells : Spells text bytes) :
    isNTimeHex (.string text) = true ↔ bytes.length = 4 := by
  rw [isNTimeHex, asHex_of_spells spells, Bool.and_eq_true_iff, beq_iff_eq, length_toHex,
    isHexText_iff]
  constructor
  · rintro ⟨length, _⟩
    omega
  · intro length
    refine ⟨by omega, ?_, (isHexBytes_toHex bytes).lower⟩
    rw [← List.length_pos_iff, length_toHex]
    omega

theorem truthy_of_spells {text : Text} {bytes : List UInt8} (spells : Spells text bytes)
    (nonempty : bytes ≠ []) : (Value.string text).truthy = true := by
  have length := spells.length_eq
  have long := List.length_pos_iff.mpr nonempty
  have textNonempty : text ≠ [] := List.ne_nil_of_length_pos (by omega)
  simp [Value.truthy, textNonempty]

theorem isHexLike_of_spells {text : Text} {bytes : List UInt8} (spells : Spells text bytes)
    (nonempty : bytes ≠ []) : isHexLike (.string text) = true := by
  have long := toHex_ne_nil nonempty
  have digits : ∀ c ∈ toHex bytes, (hexValue c).isSome = true := by
    intro c member
    rcases exists_hexValue_of_mem ((isHexBytes_toHex bytes).lower c member) with
      ⟨value, _, digit, _⟩
    rw [digit]
    rfl
  rw [isHexLike, asHex_of_spells spells]
  simpa [long] using digits

/-- The five parameters in the order of ZIP 301 are told apart. -/
theorem parseSubmit_zip301 (worker : Value) (jobId : Text) {nTime nonce solution : Text}
    {timeBytes nonceBytes solutionBytes : List UInt8} (timeSpelled : Spells nTime timeBytes)
    (nonceSpelled : Spells nonce nonceBytes) (solutionSpelled : Spells solution solutionBytes)
    (timeLength : timeBytes.length = 4) (nonceLength : 4 < nonceBytes.length) :
    parseSubmit (some [worker, .string jobId, .string nTime, .string nonce, .string solution]) =
      ⟨worker, some jobId, some (toHex timeBytes), some (toHex nonceBytes),
        some (toHex solutionBytes)⟩ := by
  have isTime : isNTimeHex (.string nTime) = true :=
    (isNTimeHex_iff_of_spells timeSpelled).mpr timeLength
  have notTime : ¬isNTimeHex (.string nonce) = true := by
    rw [isNTimeHex_iff_of_spells nonceSpelled]
    omega
  have different : nonce ≠ nTime := by
    rintro rfl
    exact notTime isTime
  have timeNonempty : timeBytes ≠ [] := List.ne_nil_of_length_pos (by omega)
  have nonceNonempty : nonceBytes ≠ [] := List.ne_nil_of_length_pos (by omega)
  have isHex := isHexLike_of_spells nonceSpelled nonceNonempty
  have found :
      findTimeAndNonce [.string nTime, .string nonce] = (.string nTime, .string nonce) := by
    simp [findTimeAndNonce, isTime, different, isHex]
  have long : [worker, .string jobId, .string nTime, .string nonce, .string solution].length ≥ 5 :=
    Nat.le_refl 5
  have both : (!(Value.string nTime).truthy || !(Value.string nonce).truthy) = false := by
    rw [truthy_of_spells timeSpelled timeNonempty, truthy_of_spells nonceSpelled nonceNonempty]
    rfl
  have last : [Value.string nTime, .string nonce, .string solution].getLastD .undefined =
      .string solution := rfl
  rw [parseSubmit]
  dsimp only
  rw [if_pos long]
  simp only [List.drop_succ_cons, List.drop_zero, List.dropLast_cons_cons, List.dropLast_singleton,
    found, both, Bool.false_eq_true, if_false, last, asHex_of_spells timeSpelled,
    asHex_of_spells nonceSpelled, asHex_of_spells solutionSpelled]
  rfl

/-- The four parameters without a worker. -/
theorem parseSubmit_four (jobId : Text) {nTime nonce solution : Text}
    {timeBytes nonceBytes solutionBytes : List UInt8} (timeSpelled : Spells nTime timeBytes)
    (nonceSpelled : Spells nonce nonceBytes) (solutionSpelled : Spells solution solutionBytes)
    (timeLength : timeBytes.length = 4) :
    parseSubmit (some [.string jobId, .string nTime, .string nonce, .string solution]) =
      ⟨.null, some jobId, some (toHex timeBytes), some (toHex nonceBytes),
        some (toHex solutionBytes)⟩ := by
  have isTime : isNTimeHex (.string nTime) = true :=
    (isNTimeHex_iff_of_spells timeSpelled).mpr timeLength
  have short : ¬[Value.string jobId, .string nTime, .string nonce, .string solution].length ≥ 5 :=
    Nat.not_le_of_lt (Nat.lt_succ_self 4)
  have four : [Value.string jobId, .string nTime, .string nonce, .string solution].length = 4 := rfl
  rw [parseSubmit]
  dsimp only
  rw [if_neg short, if_pos four]
  simp only [List.getD_cons_succ, List.getD_cons_zero, isTime, Bool.not_true, Bool.false_and,
    Bool.false_eq_true, if_false, asHex_of_spells timeSpelled, asHex_of_spells nonceSpelled,
    asHex_of_spells solutionSpelled]
  rfl

end ZcashSoloPool.Stratum
