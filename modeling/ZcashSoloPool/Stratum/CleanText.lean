import ZcashSoloPool.Stratum.AllOrNothing

/-!
# Clean text

A client's name is bounded whatever the client sends.  What a request logs is
free of its control characters exactly when the values that the lines show
unchanged are.
-/

namespace ZcashSoloPool.Stratum

open ZcashSoloPool.JavaScript
open ZcashSoloPool.WorkManager

/-! ## Names -/

/-- A text of at most 128 units without a control character. -/
def Bounded (units : CodeUnits) : Prop :=
  units.length ≤ maxWorkerNameLength ∧ units.any isControl = false

theorem bounded_sanitizeWorkerName (rawName : CodeUnits) :
    Bounded (sanitizeWorkerName rawName) := by
  constructor
  · exact List.length_take_le _ _
  · rw [sanitizeWorkerName, List.any_eq_false]
    intro u member
    have clean := any_stripControls rawName
    rw [List.any_eq_false] at clean
    exact clean u (List.mem_of_mem_take member)

/-- The client has no name or a bounded one. -/
def BoundedName (miner : Miner) : Prop :=
  ∀ name, miner.workerName = some name → Bounded name

theorem BoundedName.of_same {miner other : Miner} (bounded : BoundedName miner)
    (same : other.workerName = miner.workerName) : BoundedName other := by
  unfold BoundedName
  rw [same]
  exact bounded

/-- A label that is a bounded text. -/
def WorkerLabel.Bounded : WorkerLabel → Prop
  | .name units => Stratum.Bounded units
  | .value (.string text) => Stratum.Bounded (codeUnits text)
  | .value _ => False

/-! ## Lines -/

/-- A control character is left in the error of a response: JSON escapes all of
them but one.  Only the errors of code 20 can name a method of the client. -/
def Body.forges : Body → Bool
  | .failure code message => code == 20 && message.any fun u => u.toNat == 0x7f
  | _ => false

/-- The JSON text of a message has a control character of the client. -/
def Outbound.forges (numbers : NumberFormat) : Outbound → Bool
  | .response id body =>
      id.any (fun json => (json.stringify numbers).any isControlChar) || body.forges
  | _ => false

/-- A part of a line has a control character of the client. -/
def Piece.forges (numbers : NumberFormat) : Piece → Bool
  | .own _ => false
  | .number _ => false
  | .client units => units.any isControl
  | .message data => data.forges numbers

/-- A line has a control character of the client. -/
def forged (numbers : NumberFormat) (line : Line) : Bool :=
  line.any (Piece.forges numbers)

/-- No line that the effects log is forged.  A message is logged unless its
socket is destroyed, be it by a message before it. -/
def LogsCleanly (settings : RequestSettings) : Prop → List Effect → (Nat → Nat) → Prop
  | _, [], _ => True
  | isOpen, .log line :: rest, backlog =>
      forged settings.numbers line = false ∧
        LogsCleanly settings isOpen rest fun place => backlog (place + 1)
  | isOpen, .send message :: rest, backlog =>
      (isOpen → settings.logOutbound = true → message.forges settings.numbers = false) ∧
        LogsCleanly settings (isOpen ∧ backlog 0 ≤ maxBufferBytes) rest fun place =>
          backlog (place + 1)
  | isOpen, _ :: rest, backlog =>
      LogsCleanly settings isOpen rest fun place => backlog (place + 1)

/-- An effect that logs nothing of the client's. -/
def Effect.harmless (numbers : NumberFormat) : Effect → Bool
  | .log line => !forged numbers line
  | .send message => !message.forges numbers
  | _ => true

/-- The line that an effect logs by itself. -/
def Effect.line? : Effect → Option Line
  | .log line => some line
  | _ => none

/-- An effect that sends a message. -/
def Effect.isSend : Effect → Bool
  | .send _ => true
  | _ => false

section Effects

variable {settings : RequestSettings}

/-- Effects that send nothing log their lines. -/
theorem logsCleanly_iff_of_unsent {effects : List Effect}
    (unsent : ∀ effect ∈ effects, effect.isSend = false) {isOpen : Prop} {backlog : Nat → Nat} :
    LogsCleanly settings isOpen effects backlog ↔
      ∀ line ∈ effects.filterMap Effect.line?, forged settings.numbers line = false := by
  induction effects generalizing isOpen backlog with
  | nil => exact iff_of_true trivial fun line member => by contradiction
  | cons effect rest ih =>
      have first := unsent effect List.mem_cons_self
      have later : ∀ {isOpen : Prop} {backlog : Nat → Nat},
          LogsCleanly settings isOpen rest backlog ↔
            ∀ line ∈ rest.filterMap Effect.line?, forged settings.numbers line = false :=
        ih fun other member => unsent other (List.mem_cons_of_mem _ member)
      cases effect with
      | log line =>
          have lines : (Effect.log line :: rest).filterMap Effect.line? =
              line :: rest.filterMap Effect.line? := rfl
          rw [lines, List.forall_mem_cons, LogsCleanly, later]
      | send message => contradiction
      | submit id worker parsed => exact later
      | resendLater => exact later

/-- Effects each of which is clean where it is logged. -/
theorem logsCleanly_of_each {effects : List Effect} {isOpen : Prop} {backlog : Nat → Nat}
    (each : ∀ effect ∈ effects, effect.harmless settings.numbers = true ∨
      ∃ message, effect = .send message ∧
        (isOpen → settings.logOutbound = true → message.forges settings.numbers = false)) :
    LogsCleanly settings isOpen effects backlog := by
  induction effects generalizing isOpen backlog with
  | nil => exact trivial
  | cons effect rest ih =>
      have later : ∀ {stillOpen : Prop} {shifted : Nat → Nat}, (stillOpen → isOpen) →
          LogsCleanly settings stillOpen rest shifted := by
        intro stillOpen shifted weaker
        apply ih
        intro other member
        rcases each other (List.mem_cons_of_mem _ member) with harmless | ⟨message, isSend, clean⟩
        · exact Or.inl harmless
        · exact Or.inr ⟨message, isSend, fun alive => clean (weaker alive)⟩
      have first := each effect List.mem_cons_self
      cases effect with
      | log line =>
          rcases first with harmless | ⟨message, impossible, _⟩
          · rw [Effect.harmless, Bool.not_eq_true'] at harmless
            exact ⟨harmless, later id⟩
          · contradiction
      | send message =>
          refine ⟨?_, later And.left⟩
          rcases first with harmless | ⟨other, same, clean⟩
          · rw [Effect.harmless, Bool.not_eq_true'] at harmless
            exact fun _ _ => harmless
          · cases same
            exact clean
      | submit _ _ _ => exact later id
      | resendLater => exact later id

theorem logsCleanly_of_harmless {effects : List Effect}
    (harmless : ∀ effect ∈ effects, effect.harmless settings.numbers = true) (isOpen : Prop)
    (backlog : Nat → Nat) : LogsCleanly settings isOpen effects backlog :=
  logsCleanly_of_each fun effect member => Or.inl (harmless effect member)

/-- A response in front of effects that log nothing of the client's. -/
theorem logsCleanly_send {message : Outbound} {rest : List Effect}
    (harmless : ∀ effect ∈ rest, effect.harmless settings.numbers = true) {isOpen : Prop}
    {backlog : Nat → Nat} :
    LogsCleanly settings isOpen (.send message :: rest) backlog ↔
      (isOpen → settings.logOutbound = true → message.forges settings.numbers = false) :=
  and_iff_left (logsCleanly_of_harmless harmless _ _)

theorem logsCleanly_log {line : Line} (clean : forged settings.numbers line = false)
    {rest : List Effect} {isOpen : Prop} {backlog : Nat → Nat} :
    LogsCleanly settings isOpen (.log line :: rest) backlog ↔
      LogsCleanly settings isOpen rest fun place => backlog (place + 1) :=
  and_iff_right clean

/-- Messages without a text of the client in front of other effects. -/
theorem logsCleanly_sends {messages : List Outbound}
    (harmless : ∀ message ∈ messages, message.forges settings.numbers = false) {rest : List Effect}
    {isOpen : Prop} {backlog : Nat → Nat} :
    LogsCleanly settings isOpen (messages.map .send ++ rest) backlog ↔
      LogsCleanly settings (isOpen ∧ ∀ place < messages.length, backlog place ≤ maxBufferBytes) rest
        fun place => backlog (place + messages.length) := by
  induction messages generalizing isOpen backlog with
  | nil => simp
  | cons message others ih =>
      have first := harmless message List.mem_cons_self
      have fits : ((isOpen ∧ backlog 0 ≤ maxBufferBytes) ∧
          ∀ place < others.length, backlog (place + 1) ≤ maxBufferBytes) ↔
            isOpen ∧ ∀ place < (message :: others).length, backlog place ≤ maxBufferBytes := by
        rw [and_assoc, List.length_cons, Nat.forall_lt_succ_left]
      rw [List.map_cons, List.cons_append, LogsCleanly, and_iff_right (fun _ _ => first),
        ih fun other member => harmless other (List.mem_cons_of_mem _ member), propext fits]
      have shifted : (fun place => backlog (place + others.length + 1)) =
          fun place => backlog (place + (message :: others).length) := rfl
      rw [shifted]

end Effects

/-! ## The values that lines show -/

/-- The strings and keys of a value have no `DEL`. -/
def NoDel (value : Option Json) : Prop :=
  ∀ json, value = some json → ∀ text ∈ json.texts, ∀ c ∈ text, isDel c = false

/-- A value that is shown as a text, unless it counts as false. -/
def CleanShown (numbers : NumberFormat) (value : Option Json) : Prop :=
  truthy value = true → (shownText numbers value).any isControlChar = false

/-- A field of the parsed submission. -/
def CleanField (field : Option Text) : Prop :=
  (field.getD []).any isControlChar = false

/-- A field of which the first and the last twelve digits are shown. -/
def CleanEnds (field : Option Text) : Prop :=
  ∀ text, field = some text →
    let digits := codeUnits (strip0x (toLowerCase (trim text)))
    (digits.take 12).any isControl = false ∧
      (digits.drop (digits.length - 12)).any isControl = false

section Pieces

variable {numbers : NumberFormat}

theorem any_stringify_eq_false_iff (json : Json) :
    (json.stringify numbers).any isControlChar = false ↔
      ∀ text ∈ json.texts, ∀ c ∈ text, isDel c = false := by
  simp only [Json.any_stringify, List.any_eq_false, List.any_eq_true, not_exists, not_and,
    Bool.not_eq_true]

/-- A response shows the id of its request. -/
theorem forges_response {id : Option Json} {body : Body} (own : body.forges = false) :
    (Outbound.response id body).forges numbers = false ↔ NoDel id := by
  rw [Outbound.forges, own, Bool.or_false]
  cases id with
  | none => exact iff_of_true rfl (fun json isJson => by contradiction)
  | some json =>
      rw [Option.any_some, any_stringify_eq_false_iff]
      constructor
      · intro clean other same
        cases same
        exact clean
      · intro clean
        exact clean json rfl

theorem forges_shown (value : Option Json) (fallback : String) :
    (shown numbers value fallback).forges numbers = false ↔ CleanShown numbers value := by
  unfold shown CleanShown
  split
  · next counts =>
      rw [Piece.forges, any_codeUnits]
      exact (imp_iff_right counts).symm
  · next counts => exact iff_of_true rfl fun other => absurd other counts

theorem forges_shownField (field : Option Text) (fallback : String) :
    (shownField field fallback).forges numbers = false ↔ CleanField field := by
  unfold shownField CleanField
  split
  · rw [Piece.forges, any_codeUnits]
  · next empty =>
      rw [ne_eq, not_not] at empty
      rw [empty]
      exact iff_of_true rfl rfl

/-- The ends of a short list are the whole list. -/
theorem any_ends {units : CodeUnits} (short : units.length ≤ 24) :
    units.any isControl = false ↔ (units.take 12).any isControl = false ∧
      (units.drop (units.length - 12)).any isControl = false := by
  constructor
  · intro clean
    rw [List.any_eq_false] at clean
    constructor
    · rw [List.any_eq_false]
      exact fun u member => clean u (List.mem_of_mem_take member)
    · rw [List.any_eq_false]
      exact fun u member => clean u (List.mem_of_mem_drop member)
  · rintro ⟨front, back⟩
    have covered : units.drop 12 = (units.drop (units.length - 12)).drop
        (12 - (units.length - 12)) := by
      rw [List.drop_drop]
      congr 1
      omega
    rw [← List.take_append_drop 12 units, List.any_append, front, Bool.false_or, covered,
      List.any_eq_false]
    intro u member
    rw [List.any_eq_false] at back
    exact back u (List.mem_of_mem_drop member)

theorem forges_previewHex (field : Option Text) :
    (previewHex field).forges numbers = false ↔ CleanEnds field := by
  unfold CleanEnds
  cases field with
  | none => exact iff_of_true rfl fun text isText => by contradiction
  | some text =>
      rw [previewHex]
      dsimp only
      have dots : (codeUnits "...".toList).any isControl = false := by decide
      have one : ∀ {p : Text → Prop}, (∀ other, some text = some other → p other) ↔ p text := by
        intro p
        constructor
        · exact fun all => all text rfl
        · rintro holds other same
          cases same
          exact holds
      rw [one]
      split_ifs with empty short
      · rw [List.isEmpty_iff] at empty
        rw [empty]
        exact iff_of_true rfl ⟨rfl, rfl⟩
      · exact any_ends short
      · rw [Piece.forges, List.any_append, List.any_append, dots, Bool.or_false,
          Bool.or_eq_false_iff]

end Pieces

/-! ## Requests -/

/-- The lines of a submission show clean values. -/
structure CleanSubmission (settings : RequestSettings) (params : Option Json) (worker : Option Json)
    (parsed : ParsedSubmit) : Prop where
  jobId : CleanField parsed.jobId
  nTime : CleanField parsed.nTime
  detail : settings.logSubmissions = true → CleanShown settings.numbers worker ∧
    CleanEnds parsed.nonce ∧ CleanEnds parsed.solution ∧
      (truthy params = true → NoDel params)
  audit : settings.submitAudit = true →
    unprintable settings.numbers (paramsLength params) = false →
      CleanShown settings.numbers worker ∧
        (shownText settings.numbers (paramsLength params)).any isControlChar = false

/-- The lines of a request show clean values. -/
structure CleanValues (settings : RequestSettings) (miner : Miner) (request : Json) : Prop where
  authorize : calls request "mining.authorize" = true →
    CleanShown settings.numbers (firstParam (request.member "params"))
  submit : Submits miner request →
    let values := submitParams (request.member "params")
    unprintable settings.numbers (jobParam values) = false →
      ¬(truthy (workerParam values) = true ∧
        unprintable settings.numbers (workerParam values) = true) →
      CleanSubmission settings (request.member "params") (workerParam values)
        (parseSubmit (values.map fun list => list.map (Json.toValue settings.numbers)))

/-- How many messages stand in front of the response to a request, if there is
one. -/
def answerPlace (settings : RequestSettings) (miner : Miner) (request : Json) : Option Nat :=
  let first := firstParam (request.member "params")
  if calls request "mining.suggest_difficulty" then
    (suggestedNumber settings.numbers first).map fun suggested =>
      if (parsePositiveNumber suggested).isSome then (announcement settings miner).length else 0
  else if calls request "mining.authorize" then
    if truthy first && unprintable settings.numbers first then none else some 0
  else if calls request "mining.submit" then if miner.authorized then none else some 0
  else if truthy (request.member "method") && unprintable settings.numbers (request.member "method")
    then none
  else some 0

/-- The response to a request is logged: its socket is open when it is sent. -/
def AnswerLogged (settings : RequestSettings) (isOpen : Prop) (backlog : Nat → Nat) (miner : Miner)
    (request : Json) : Prop :=
  isOpen ∧ settings.logOutbound = true ∧ ∃ count, answerPlace settings miner request = some count ∧
    ∀ place < count, backlog place ≤ maxBufferBytes

/-- What a request has logged is clean: the values in its lines are, and so is
its id if the response is logged. -/
structure CleanRequest (settings : RequestSettings) (isOpen : Prop) (backlog : Nat → Nat)
    (miner : Miner) (request : Json) : Prop where
  values : CleanValues settings miner request
  answer : AnswerLogged settings isOpen backlog miner request → NoDel (request.member "id")

section Requests

variable {settings : RequestSettings} {miner : Miner} {request : Json} {isOpen : Prop}
  {backlog : Nat → Nat}

/-- Only an authorization and a submission show values. -/
theorem cleanValues_of_other (noAuthorize : calls request "mining.authorize" = false)
    (noSubmit : ¬Submits miner request) : CleanValues settings miner request := by
  constructor
  · intro isAuthorize
    exact absurd (noAuthorize.symm.trans isAuthorize) Bool.false_ne_true
  · exact fun submits => absurd submits noSubmit

/-- A method that shows no value: only its response counts. -/
theorem cleanRequest_iff_of_answer (noAuthorize : calls request "mining.authorize" = false)
    (noSubmit : ¬Submits miner request) {count : Nat}
    (place : answerPlace settings miner request = some count) :
    CleanRequest settings isOpen backlog miner request ↔
      (isOpen ∧ (∀ place < count, backlog place ≤ maxBufferBytes) → settings.logOutbound = true →
        NoDel (request.member "id")) := by
  constructor
  · rintro ⟨_, answer⟩ ⟨alive, fits⟩ logged
    exact answer ⟨alive, logged, count, place, fits⟩
  · intro clean
    constructor
    · exact cleanValues_of_other noAuthorize noSubmit
    · rintro ⟨alive, logged, other, same, fits⟩
      cases place.symm.trans same
      exact clean ⟨alive, fits⟩ logged

/-- A method that shows no value and throws. -/
theorem cleanRequest_of_silent (noAuthorize : calls request "mining.authorize" = false)
    (noSubmit : ¬Submits miner request) (place : answerPlace settings miner request = none) :
    CleanRequest settings isOpen backlog miner request := by
  constructor
  · exact cleanValues_of_other noAuthorize noSubmit
  · rintro ⟨_, _, count, same, _⟩
    exact absurd (place.symm.trans same) (Option.some_ne_none count).symm

/-- The response is the first effect. -/
theorem logsCleanly_response {id : Option Json} {body : Body} (own : body.forges = false)
    {rest : List Effect} (harmless : ∀ effect ∈ rest, effect.harmless settings.numbers = true) :
    LogsCleanly settings isOpen (.send (.response id body) :: rest) backlog ↔
      (isOpen → settings.logOutbound = true → NoDel id) := by
  rw [logsCleanly_send harmless, forges_response own]

/-- The response is the first effect, and the only one with a value. -/
theorem logsCleanly_first {body : Body} (own : body.forges = false) {rest : List Effect}
    (harmless : ∀ effect ∈ rest, effect.harmless settings.numbers = true)
    (noAuthorize : calls request "mining.authorize" = false) (noSubmit : ¬Submits miner request)
    (place : answerPlace settings miner request = some 0) :
    LogsCleanly settings isOpen (.send (.response (request.member "id") body) :: rest) backlog ↔
      CleanRequest settings isOpen backlog miner request := by
  have none : (∀ place < 0, backlog place ≤ maxBufferBytes) ↔ True :=
    iff_of_true (fun place below => absurd below (Nat.not_lt_zero place)) trivial
  rw [cleanRequest_iff_of_answer noAuthorize noSubmit place, none, and_true,
    logsCleanly_response own harmless]

theorem harmless_map_send {messages : List Outbound}
    (harmless : ∀ message ∈ messages, message.forges settings.numbers = false) :
    ∀ effect ∈ messages.map Effect.send, effect.harmless settings.numbers = true := by
  intro effect member
  obtain ⟨message, isMessage, rfl⟩ := List.mem_map.mp member
  rw [Effect.harmless, harmless message isMessage]
  rfl

theorem forges_targetMessages (numbers : NumberFormat) :
    ∀ message ∈ targetMessages settings miner, message.forges numbers = false := by
  unfold targetMessages
  intro message member
  split at member
  · rw [List.mem_singleton.mp member]
    rfl
  · contradiction

theorem forges_announcement (numbers : NumberFormat) :
    ∀ message ∈ announcement settings miner, message.forges numbers = false := by
  unfold announcement
  intro message member
  split at member
  · rcases List.mem_cons.mp member with isDifficulty | isTarget
    · rw [isDifficulty]
      rfl
    · exact forges_targetMessages numbers message isTarget
  · contradiction

theorem harmless_welcomeJob (lastJob : Option Job) :
    ∀ effect ∈ welcomeJob settings lastJob, effect.harmless settings.numbers = true := by
  cases lastJob with
  | none =>
      intro effect member
      contradiction
  | some job =>
      unfold welcomeJob
      dsimp only
      split
      · rintro effect (_ | ⟨_, _ | ⟨_, impossible⟩⟩)
        · rfl
        · rfl
        · contradiction
      · intro effect member
        rw [List.mem_singleton.mp member]
        rfl

/-- A call of one method is no call of another. -/
theorem calls_eq_false {method other : String} (isMethod : calls request method = true)
    (differ : method ≠ other) : calls request other = false := by
  rw [← Bool.not_eq_true]
  exact fun isOther => differ (calls_unique isMethod isOther)

theorem subscribe_logsCleanly (isMethod : calls request "mining.subscribe" = true) (clientId : Nat)
    (place : answerPlace settings miner request = some 0) :
    LogsCleanly settings isOpen (subscribe settings clientId (request.member "id") miner).effects
      backlog ↔ CleanRequest settings isOpen backlog miner request := by
  have noAuthorize := calls_eq_false isMethod (show _ ≠ "mining.authorize" by decide)
  have noSubmit : ¬Submits miner request := not_submits_of_calls isMethod (by decide)
  unfold subscribe
  dsimp only
  split
  · have own : forged settings.numbers (subscribeLine settings clientId miner) = false := rfl
    rw [logsCleanly_log own, logsCleanly_response rfl (by simp),
      cleanRequest_iff_of_answer noAuthorize noSubmit place]
    simp only [Nat.not_lt_zero, false_implies, implies_true, and_true]
  · apply logsCleanly_first rfl _ noAuthorize noSubmit place
    intro effect member
    rw [List.mem_singleton.mp member]
    rfl

theorem suggestDifficulty_logsCleanly
    (isMethod : calls request "mining.suggest_difficulty" = true) (clientId now : Nat) :
    LogsCleanly settings isOpen (suggestDifficulty settings clientId (request.member "id")
        (firstParam (request.member "params")) now miner).effects backlog ↔
      CleanRequest settings isOpen backlog miner request := by
  have noAuthorize := calls_eq_false isMethod (show _ ≠ "mining.authorize" by decide)
  have noSubmit : ¬Submits miner request := not_submits_of_calls isMethod (by decide)
  have place : answerPlace settings miner request =
      (suggestedNumber settings.numbers (firstParam (request.member "params"))).map fun suggested =>
        if (parsePositiveNumber suggested).isSome then (announcement settings miner).length
        else 0 := by
    rw [answerPlace, if_pos isMethod]
  unfold suggestDifficulty
  split
  · next throws =>
      rw [throws] at place
      exact iff_of_true trivial (cleanRequest_of_silent noAuthorize noSubmit place)
  · next suggested converts =>
      rw [converts, Option.map_some] at place
      split
      · next notPositive =>
          rw [notPositive] at place
          exact logsCleanly_first rfl (by simp) noAuthorize noSubmit place
      · next difficulty positive =>
          rw [positive] at place
          have own : forged settings.numbers (suggestLine clientId difficulty miner
              (miner.applyDifficulty settings.shares difficulty now)) = false := rfl
          have length : (announcement settings
              (miner.applyDifficulty settings.shares difficulty now)).length =
                (announcement settings miner).length := by
            unfold announcement targetMessages Miner.applyDifficulty
            split_ifs <;> rfl
          dsimp only
          rw [logsCleanly_sends (forges_announcement settings.numbers), logsCleanly_log own,
            logsCleanly_response rfl (by simp), length,
            cleanRequest_iff_of_answer noAuthorize noSubmit place]
          rfl

theorem forged_authorizeLine (clientId : Nat) (first : Option Json) :
    forged settings.numbers (authorizeLine settings clientId first) = false ↔
      CleanShown settings.numbers first := by
  have parts : forged settings.numbers (authorizeLine settings clientId first) =
      ((shown settings.numbers first "unknown").forges settings.numbers || false) := rfl
  rw [parts, Bool.or_false, forges_shown]

/-- Behind a line and a response, what welcomes a client logs nothing of its. -/
theorem logsCleanly_welcome {line : Line} {id : Option Json} (named : Miner)
    (lastJob : Option Job) :
    LogsCleanly settings isOpen ([.log line, .send (.response id .success),
        .send (difficultyMessage named)] ++ (targetMessages settings named).map .send ++
          welcomeJob settings lastJob) backlog ↔
      forged settings.numbers line = false ∧
        (isOpen → settings.logOutbound = true → NoDel id) := by
  have rest : ∀ effect ∈ [Effect.send (difficultyMessage named)] ++
      (targetMessages settings named).map Effect.send ++ welcomeJob settings lastJob,
        effect.harmless settings.numbers = true := by
    intro effect member
    rcases List.mem_append.mp member with isMessage | isJob
    · rcases List.mem_append.mp isMessage with isDifficulty | isTarget
      · rw [List.mem_singleton.mp isDifficulty]
        rfl
      · exact harmless_map_send (forges_targetMessages settings.numbers) effect isTarget
    · exact harmless_welcomeJob lastJob effect isJob
  exact and_congr_right fun _ => logsCleanly_response rfl rest

/-- A value whose conversion throws is never shown. -/
theorem cleanShown_of_unprintable {numbers : NumberFormat} {value : Option Json}
    (throws : unprintable numbers value = true) : CleanShown numbers value := by
  intro _
  cases value with
  | none => contradiction
  | some json =>
      rw [unprintable, Option.any_some, Option.isNone_iff_eq_none] at throws
      rw [shownText, throws]
      rfl

theorem authorize_logsCleanly (isMethod : calls request "mining.authorize" = true)
    (clientId : Nat) (lastJob : Option Job) :
    LogsCleanly settings isOpen (authorize settings clientId (request.member "id")
        (firstParam (request.member "params")) lastJob miner).effects backlog ↔
      CleanRequest settings isOpen backlog miner request := by
  have noSubmit : ¬Submits miner request := not_submits_of_calls isMethod (by decide)
  have noSuggest := calls_eq_false isMethod (show _ ≠ "mining.suggest_difficulty" by decide)
  have throws := rawName_eq_none_iff settings.numbers clientId
    (firstParam (request.member "params")) miner.workerName
  have place : answerPlace settings miner request =
      if truthy (firstParam (request.member "params")) &&
        unprintable settings.numbers (firstParam (request.member "params")) then none
      else some 0 := by
    rw [answerPlace, noSuggest, if_neg Bool.false_ne_true, if_pos isMethod]
  rw [← Bool.and_eq_true] at throws
  unfold authorize
  dsimp only
  split
  · next nameless =>
      rw [if_pos (throws.mp nameless)] at place
      apply iff_of_true trivial
      constructor
      · constructor
        · rw [Bool.and_eq_true] at throws
          exact fun _ => cleanShown_of_unprintable (throws.mp nameless).2
        · exact fun submits => absurd submits noSubmit
      · rintro ⟨_, _, count, same, _⟩
        exact absurd (place.symm.trans same) (Option.some_ne_none count).symm
  · next name named =>
      rw [if_neg fun both => by rw [throws.mpr both] at named; contradiction] at place
      rw [logsCleanly_welcome, forged_authorizeLine]
      constructor
      · rintro ⟨clean, answer⟩
        constructor
        · constructor
          · exact fun _ => clean
          · exact fun submits => absurd submits noSubmit
        · rintro ⟨alive, logged, _⟩
          exact answer alive logged
      · rintro ⟨values, answer⟩
        constructor
        · exact values.authorize isMethod
        · intro alive logged
          exact answer ⟨alive, logged, 0, place, fun other below => by contradiction⟩

/-! ## Submissions -/

variable {params worker : Option Json} {parsed : ParsedSubmit}

theorem forged_submitLine (numbers : NumberFormat) (clientId : Nat) (parsed : ParsedSubmit) :
    forged numbers (submitLine clientId parsed) = false ↔
      CleanField parsed.jobId ∧ CleanField parsed.nTime := by
  have parts : forged numbers (submitLine clientId parsed) =
      ((shownField parsed.jobId "unknown").forges numbers ||
        ((shownField parsed.nTime "n/a").forges numbers || false)) := rfl
  rw [parts, Bool.or_false, Bool.or_eq_false_iff, forges_shownField, forges_shownField]

theorem any_stringifiedParams (numbers : NumberFormat) (params : Option Json) :
    (stringifiedParams numbers params).any isControlChar = false ↔
      (truthy params = true → NoDel params) := by
  cases params with
  | none => exact iff_of_true rfl fun counts => by contradiction
  | some value =>
      rw [stringifiedParams, truthy, Option.any_some]
      split
      · next counts =>
          rw [any_stringify_eq_false_iff, imp_iff_right counts]
          constructor
          · rintro clean json same
            cases same
            exact clean
          · exact fun clean => clean value rfl
      · next counts => exact iff_of_true rfl fun other => absurd other counts

theorem forged_detailLine (clientId : Nat) :
    forged settings.numbers (detailLine settings clientId params worker parsed) = false ↔
      CleanShown settings.numbers worker ∧ CleanEnds parsed.nonce ∧ CleanEnds parsed.solution ∧
        (truthy params = true → NoDel params) := by
  have parts : forged settings.numbers (detailLine settings clientId params worker parsed) =
      ((shown settings.numbers worker "n/a").forges settings.numbers ||
        ((previewHex parsed.nonce).forges settings.numbers ||
          ((previewHex parsed.solution).forges settings.numbers ||
            ((codeUnits (stringifiedParams settings.numbers params)).any isControl || false)))) :=
    rfl
  rw [parts, Bool.or_false, any_codeUnits, Bool.or_eq_false_iff, Bool.or_eq_false_iff,
    Bool.or_eq_false_iff, forges_shown, forges_previewHex, forges_previewHex,
    any_stringifiedParams]

theorem forged_auditLine (clientId : Nat) :
    forged settings.numbers (auditLine settings clientId params worker parsed) = false ↔
      CleanShown settings.numbers worker ∧ CleanField parsed.jobId ∧
        (shownText settings.numbers (paramsLength params)).any isControlChar = false := by
  have parts : forged settings.numbers (auditLine settings clientId params worker parsed) =
      ((shown settings.numbers worker "n/a").forges settings.numbers ||
        ((shownField parsed.jobId "n/a").forges settings.numbers ||
          ((codeUnits (shownText settings.numbers (paramsLength params))).any isControl ||
            false))) := rfl
  rw [parts, Bool.or_false, any_codeUnits, Bool.or_eq_false_iff, Bool.or_eq_false_iff,
    forges_shown, forges_shownField]

/-- What a submission logs in front of the audit. -/
theorem clean_submitLines (clientId : Nat) :
    (∀ line ∈ (submitLines settings clientId params worker parsed).filterMap Effect.line?,
        forged settings.numbers line = false) ↔
      (CleanField parsed.jobId ∧ CleanField parsed.nTime) ∧
        (settings.logSubmissions = true → CleanShown settings.numbers worker ∧
          CleanEnds parsed.nonce ∧ CleanEnds parsed.solution ∧
            (truthy params = true → NoDel params)) := by
  unfold submitLines
  by_cases detailed : settings.logSubmissions = true
  · have lines : (Effect.log (submitLine clientId parsed) ::
        if settings.logSubmissions then [.log (detailLine settings clientId params worker parsed)]
        else []).filterMap Effect.line? =
          [submitLine clientId parsed, detailLine settings clientId params worker parsed] := by
      rw [if_pos detailed]
      rfl
    rw [lines, List.forall_mem_cons, List.forall_mem_singleton, forged_submitLine,
      forged_detailLine, imp_iff_right detailed]
  · have lines : (Effect.log (submitLine clientId parsed) ::
        if settings.logSubmissions then [.log (detailLine settings clientId params worker parsed)]
        else []).filterMap Effect.line? = [submitLine clientId parsed] := by
      rw [if_neg detailed]
      rfl
    rw [lines, List.forall_mem_singleton, forged_submitLine]
    exact (and_iff_left fun isDetailed => absurd isDetailed detailed).symm

/-- What the audit logs, unless the length of the parameters throws. -/
theorem clean_auditLine (clientId : Nat) (id : Option Json)
    (jobId : CleanField parsed.jobId) :
    (∀ line ∈ [Effect.log (auditLine settings clientId params worker parsed),
        .submit id worker parsed].filterMap Effect.line?, forged settings.numbers line = false) ↔
      CleanShown settings.numbers worker ∧
        (shownText settings.numbers (paramsLength params)).any isControlChar = false := by
  have lines : [Effect.log (auditLine settings clientId params worker parsed),
      .submit id worker parsed].filterMap Effect.line? =
        [auditLine settings clientId params worker parsed] := rfl
  rw [lines, List.forall_mem_singleton, forged_auditLine, and_iff_right jobId]

theorem unsent_submitLines (clientId : Nat) :
    ∀ effect ∈ submitLines settings clientId params worker parsed, effect.isSend = false := by
  unfold submitLines
  intro effect member
  rcases List.mem_cons.mp member with isFirst | isDetail
  · rw [isFirst]
    rfl
  · split at isDetail
    · rw [List.mem_singleton.mp isDetail]
      rfl
    · contradiction

/-- What a submission logs behind its first lines. -/
theorem logsCleanly_submission (clientId : Nat) {rest : List Effect}
    (unsent : ∀ effect ∈ rest, effect.isSend = false)
    (audits : CleanField parsed.jobId →
      ((∀ line ∈ rest.filterMap Effect.line?, forged settings.numbers line = false) ↔
        (settings.submitAudit = true →
          unprintable settings.numbers (paramsLength params) = false →
            CleanShown settings.numbers worker ∧
              (shownText settings.numbers (paramsLength params)).any isControlChar = false))) :
    LogsCleanly settings isOpen (submitLines settings clientId params worker parsed ++ rest)
      backlog ↔ CleanSubmission settings params worker parsed := by
  have all : ∀ effect ∈ submitLines settings clientId params worker parsed ++ rest,
      effect.isSend = false := by
    intro effect member
    rcases List.mem_append.mp member with isLine | isRest
    · exact unsent_submitLines clientId effect isLine
    · exact unsent effect isRest
  rw [logsCleanly_iff_of_unsent all, List.filterMap_append, List.forall_mem_append,
    clean_submitLines]
  constructor
  · rintro ⟨⟨⟨jobId, nTime⟩, detail⟩, audit⟩
    exact ⟨jobId, nTime, detail, (audits jobId).mp audit⟩
  · rintro ⟨jobId, nTime, detail, audit⟩
    exact ⟨⟨⟨jobId, nTime⟩, detail⟩, (audits jobId).mpr audit⟩

/-- A submission of an authorized client: only its lines count. -/
theorem cleanRequest_iff_of_submits (submits : Submits miner request) :
    CleanRequest settings isOpen backlog miner request ↔
      (unprintable settings.numbers (jobParam (submitParams (request.member "params"))) = false →
        ¬(truthy (workerParam (submitParams (request.member "params"))) = true ∧
          unprintable settings.numbers
            (workerParam (submitParams (request.member "params"))) = true) →
        CleanSubmission settings (request.member "params")
          (workerParam (submitParams (request.member "params")))
          (parseSubmit ((submitParams (request.member "params")).map fun list =>
            list.map (Json.toValue settings.numbers)))) := by
  have noAuthorize := calls_eq_false submits.1 (show _ ≠ "mining.authorize" by decide)
  have noSuggest := calls_eq_false submits.1 (show _ ≠ "mining.suggest_difficulty" by decide)
  have place : answerPlace settings miner request = none := by
    rw [answerPlace, noSuggest, noAuthorize, if_neg Bool.false_ne_true, if_neg Bool.false_ne_true,
      if_pos submits.1, if_pos submits.2]
  constructor
  · exact fun clean => clean.values.submit submits
  · intro clean
    constructor
    · constructor
      · intro isAuthorize
        exact absurd (noAuthorize.symm.trans isAuthorize) Bool.false_ne_true
      · exact fun _ => clean
    · rintro ⟨_, _, count, same, _⟩
      exact absurd (place.symm.trans same) (Option.some_ne_none count).symm

theorem submit_logsCleanly_of_unauthorized (isMethod : calls request "mining.submit" = true)
    (unauthorized : miner.authorized = false) (clientId : Nat) :
    LogsCleanly settings isOpen (submit settings clientId (request.member "id")
        (request.member "params") miner).effects backlog ↔
      CleanRequest settings isOpen backlog miner request := by
  have noAuthorize := calls_eq_false isMethod (show _ ≠ "mining.authorize" by decide)
  have noSuggest := calls_eq_false isMethod (show _ ≠ "mining.suggest_difficulty" by decide)
  have place : answerPlace settings miner request = some 0 := by
    rw [answerPlace, noSuggest, noAuthorize, if_neg Bool.false_ne_true, if_neg Bool.false_ne_true,
      if_pos isMethod, unauthorized, if_neg Bool.false_ne_true]
  have noSubmit : ¬Submits miner request := by
    rintro ⟨_, authorized⟩
    exact Bool.false_ne_true (unauthorized.symm.trans authorized)
  unfold submit
  rw [unauthorized, if_pos (by decide)]
  exact logsCleanly_first (by decide) (by simp) noAuthorize noSubmit place

theorem submit_logsCleanly (isMethod : calls request "mining.submit" = true) (clientId : Nat) :
    LogsCleanly settings isOpen (submit settings clientId (request.member "id")
        (request.member "params") miner).effects backlog ↔
      CleanRequest settings isOpen backlog miner request := by
  cases authorized : miner.authorized with
  | false => exact submit_logsCleanly_of_unauthorized isMethod authorized clientId
  | true =>
      rw [cleanRequest_iff_of_submits ⟨isMethod, authorized⟩]
      unfold submit
      rw [authorized, if_neg (by decide)]
      dsimp only
      by_cases early : unprintable settings.numbers
          (jobParam (submitParams (request.member "params"))) = true
      · rw [if_pos early]
        exact iff_of_true trivial fun late => absurd (early.symm.trans late) (by decide)
      · rw [if_neg early]
        rw [Bool.not_eq_true] at early
        rw [imp_iff_right early]
        split
        · next throws =>
            rw [Bool.and_eq_true] at throws
            exact iff_of_true trivial fun other => absurd throws other
        · next converts =>
            rw [Bool.and_eq_true] at converts
            rw [imp_iff_right converts]
            split
            · next audit =>
                split
                · next throws =>
                    rw [← List.append_nil (submitLines _ _ _ _ _)]
                    apply logsCleanly_submission clientId (by simp)
                    intro _
                    apply iff_of_true (by simp)
                    exact fun _ other => absurd (throws.symm.trans other) (by decide)
                · next shows =>
                    rw [Bool.not_eq_true] at shows
                    apply logsCleanly_submission clientId (by simp [Effect.isSend])
                    intro jobId
                    rw [clean_auditLine clientId _ jobId, imp_iff_right audit, imp_iff_right shows]
            · next silent =>
                apply logsCleanly_submission clientId (by simp [Effect.isSend])
                intro _
                apply iff_of_true (by simp [Effect.line?])
                exact fun audit => absurd audit silent

/-! ## `handleRequest` -/

/-- A method that is known is a string. -/
theorem printable_of_calls {method : String} (isMethod : calls request method = true)
    (numbers : NumberFormat) : unprintable numbers (request.member "method") = false := by
  unfold calls at isMethod
  split at isMethod
  · next name isName =>
      rw [isName]
      rfl
  · contradiction

/-- Methods without a case of their own are answered at once. -/
theorem answerPlace_of_other (noSuggest : calls request "mining.suggest_difficulty" = false)
    (noAuthorize : calls request "mining.authorize" = false)
    (noSubmit : calls request "mining.submit" = false) :
    answerPlace settings miner request =
      if truthy (request.member "method") &&
        unprintable settings.numbers (request.member "method") then none
      else some 0 := by
  rw [answerPlace, noSuggest, noAuthorize, noSubmit, if_neg Bool.false_ne_true,
    if_neg Bool.false_ne_true, if_neg Bool.false_ne_true]

theorem answerPlace_of_calls {method : String} (isMethod : calls request method = true)
    (noSuggest : method ≠ "mining.suggest_difficulty") (noAuthorize : method ≠ "mining.authorize")
    (noSubmit : method ≠ "mining.submit") : answerPlace settings miner request = some 0 := by
  rw [answerPlace_of_other (calls_eq_false isMethod noSuggest)
      (calls_eq_false isMethod noAuthorize) (calls_eq_false isMethod noSubmit),
    printable_of_calls isMethod, Bool.and_false, if_neg Bool.false_ne_true]

/-- The name of a method that is not known is clean in the reply. -/
theorem forges_unsupported (name : CodeUnits) :
    (Body.failure 20 (codeUnits "Unsupported method ".toList ++
      (stripControls name).take 64)).forges = false := by
  have front : (codeUnits "Unsupported method ".toList).any (fun u => u.toNat == 0x7f) = false := by
    decide
  rw [Body.forges, beq_self_eq_true, Bool.true_and, List.any_append, front, Bool.false_or,
    List.any_eq_false]
  intro u member isDelete
  have clean := any_stripControls name
  rw [List.any_eq_false] at clean
  apply clean u (List.mem_of_mem_take member)
  rw [isControl, isDelete, Bool.or_true]

theorem unsupported_logsCleanly (noSuggest : calls request "mining.suggest_difficulty" = false)
    (noAuthorize : calls request "mining.authorize" = false)
    (noSubmit : calls request "mining.submit" = false) :
    LogsCleanly settings isOpen (unsupported settings.numbers (request.member "id")
        (request.member "method") miner).effects backlog ↔
      CleanRequest settings isOpen backlog miner request := by
  have other : ¬Submits miner request := by
    rintro ⟨isSubmit, _⟩
    exact Bool.false_ne_true (noSubmit.symm.trans isSubmit)
  have place : answerPlace settings miner request =
      if truthy (request.member "method") &&
        unprintable settings.numbers (request.member "method") then none
      else some 0 := answerPlace_of_other noSuggest noAuthorize noSubmit
  unfold unsupported
  split
  · next throws =>
      rw [if_pos throws] at place
      exact iff_of_true trivial (cleanRequest_of_silent noAuthorize other place)
  · next converts =>
      rw [if_neg converts] at place
      exact logsCleanly_first (forges_unsupported _) (by simp) noAuthorize other place

/-- A request logs cleanly exactly when the values that it shows are clean. -/
theorem handleRequest_logsCleanly (settings : RequestSettings) (clientId : Nat)
    (lastJob : Option Job) (now : Nat) (miner : Miner) (request : Json) (isOpen : Prop)
    (backlog : Nat → Nat) :
    LogsCleanly settings isOpen
        (handleRequest settings clientId lastJob now miner request).effects backlog ↔
      CleanRequest settings isOpen backlog miner request := by
  unfold handleRequest
  dsimp only
  split
  · next isMethod =>
      exact logsCleanly_first rfl (by simp) (calls_eq_false isMethod (by decide))
        (not_submits_of_calls isMethod (by decide))
        (answerPlace_of_calls isMethod (by decide) (by decide) (by decide))
  · split
    · next isMethod =>
        exact subscribe_logsCleanly isMethod clientId
          (answerPlace_of_calls isMethod (by decide) (by decide) (by decide))
    · split
      · next isMethod =>
          exact logsCleanly_first rfl (by simp) (calls_eq_false isMethod (by decide))
            (not_submits_of_calls isMethod (by decide))
            (answerPlace_of_calls isMethod (by decide) (by decide) (by decide))
      · split
        · next isMethod => exact suggestDifficulty_logsCleanly isMethod clientId now
        · next noSuggest =>
            split
            · next isMethod => exact authorize_logsCleanly isMethod clientId lastJob
            · next noAuthorize =>
                split
                · next isMethod => exact submit_logsCleanly isMethod clientId
                · next noSubmit =>
                    rw [Bool.not_eq_true] at noSuggest noAuthorize noSubmit
                    exact unsupported_logsCleanly noSuggest noAuthorize noSubmit

/-- A client's name stays bounded whatever the request. -/
theorem handleRequest_boundedName (bounded : BoundedName miner) (settings : RequestSettings)
    (clientId : Nat) (lastJob : Option Job) (now : Nat) (request : Json) :
    BoundedName (handleRequest settings clientId lastJob now miner request).miner := by
  have named : ∀ (other : Miner) (rawName : CodeUnits),
      other.workerName = some (sanitizeWorkerName rawName) → BoundedName other := by
    intro other rawName same name isName
    rw [same] at isName
    cases isName
    exact bounded_sanitizeWorkerName rawName
  unfold handleRequest
  dsimp only
  split
  · exact bounded
  · split
    · unfold subscribe
      dsimp only
      split <;> exact bounded
    · split
      · exact bounded
      · split
        · unfold suggestDifficulty
          split
          · exact bounded
          · split <;> exact bounded
        · split
          · unfold authorize
            dsimp only
            split
            · exact bounded
            · next name _ => exact named _ name rfl
          · split
            · have kept : BoundedName (nameSubmit settings.numbers
                  (workerParam (submitParams (request.member "params"))) miner) := by
                unfold nameSubmit
                split
                · exact named _ _ rfl
                · exact bounded
              unfold submit
              dsimp only
              split_ifs
              · exact bounded
              · exact bounded
              · exact bounded
              · exact kept
              · exact kept
              · exact kept
            · unfold unsupported
              split <;> exact bounded

/-! ## Submissions that are handed over -/

/-- Clean effects log no forged line, whatever the socket. -/
theorem LogsCleanly.of_mem {effects : List Effect}
    (clean : LogsCleanly settings isOpen effects backlog)
    {line : Line} (member : Effect.log line ∈ effects) : forged settings.numbers line = false := by
  induction effects generalizing isOpen backlog with
  | nil => contradiction
  | cons effect rest ih =>
      rcases List.mem_cons.mp member with isFirst | isLater
      · rw [← isFirst] at clean
        exact clean.1
      · cases effect with
        | log other => exact ih clean.2 isLater
        | send message => exact ih clean.2 isLater
        | submit id worker parsed => exact ih clean isLater
        | resendLater => exact ih clean isLater

theorem submit_not_mem_map_send (messages : List Outbound) (id worker : Option Json)
    (parsed : ParsedSubmit) : Effect.submit id worker parsed ∉ messages.map Effect.send := by
  intro member
  obtain ⟨message, _, same⟩ := List.mem_map.mp member
  contradiction

theorem submit_not_mem_welcomeJob (lastJob : Option Job) (id worker : Option Json)
    (parsed : ParsedSubmit) : Effect.submit id worker parsed ∉ welcomeJob settings lastJob := by
  unfold welcomeJob
  cases lastJob with
  | none => exact List.not_mem_nil
  | some job =>
      dsimp only
      split <;> simp

theorem submit_not_mem_submitLines (clientId : Nat) (id other : Option Json)
    (handed : ParsedSubmit) :
    Effect.submit id other handed ∉ submitLines settings clientId params worker parsed := by
  unfold submitLines
  split <;> simp

/-- The job id of a submission that is handed over has been logged. -/
theorem log_of_submit {clientId now : Nat} {lastJob : Option Job} {id worker : Option Json}
    {parsed : ParsedSubmit}
    (member : Effect.submit id worker parsed ∈
      (handleRequest settings clientId lastJob now miner request).effects) :
    Effect.log (submitLine clientId parsed) ∈
      (handleRequest settings clientId lastJob now miner request).effects := by
  unfold handleRequest at member ⊢
  dsimp only at member ⊢
  split at member
  · simp at member
  · split at member
    · unfold subscribe at member
      split at member <;> simp at member
    · split at member
      · simp at member
      · split at member
        · unfold suggestDifficulty at member
          split at member
          · simp at member
          · split at member
            · simp at member
            · simp [submit_not_mem_map_send] at member
        · split at member
          · unfold authorize at member
            dsimp only at member
            split at member
            · simp at member
            · simp [submit_not_mem_map_send, submit_not_mem_welcomeJob] at member
          · split at member
            · next first second third fourth fifth isSubmit =>
                rw [if_neg first, if_neg second, if_neg third, if_neg fourth, if_neg fifth,
                  if_pos isSubmit]
                unfold submit at member ⊢
                dsimp only at member ⊢
                split_ifs at member ⊢
                · simp at member
                · simp at member
                · simp at member
                · exact absurd member (submit_not_mem_submitLines _ _ _ _)
                · simp only [List.mem_append, submit_not_mem_submitLines, false_or, List.mem_cons,
                    List.not_mem_nil, or_false, reduceCtorEq, Effect.submit.injEq] at member
                  rw [member.2.2]
                  exact List.mem_append_left _ List.mem_cons_self
                · simp only [List.mem_append, submit_not_mem_submitLines, false_or, List.mem_cons,
                    List.not_mem_nil, or_false, Effect.submit.injEq] at member
                  rw [member.2.2]
                  exact List.mem_append_left _ List.mem_cons_self
            · unfold unsupported at member
              split at member <;> simp at member

end Requests

end ZcashSoloPool.Stratum
