import ZcashSoloPool.Stratum.AllOrNothing

/-!
# What a client was told

A client knows its difficulty and its target from the last messages on them.
Whatever changes the one or the other of an authorized client sends the new
value, and a job is sent only to a client that knows both.
-/

namespace ZcashSoloPool.Stratum

open ZcashSoloPool.JavaScript
open ZcashSoloPool.WorkManager

/-! ## Messages -/

namespace Outbound

/-- The difficulty that a message reports. -/
def difficulty? : Outbound → Option ℚ
  | setDifficulty difficulty => some difficulty
  | _ => none

/-- The target that a message reports. -/
def target? : Outbound → Option (Option Text)
  | setTarget shareTarget => some shareTarget
  | _ => none

/-- The message is a job. -/
def isNotify : Outbound → Bool
  | notify _ => true
  | _ => false

end Outbound

/-- The message of an effect. -/
def Effect.message? : Effect → Option Outbound
  | .send message => some message
  | _ => none

/-- The messages among effects. -/
def outbound (effects : List Effect) : List Outbound :=
  effects.filterMap Effect.message?

/-- The last difficulty that was sent. -/
def lastDifficulty (messages : List Outbound) : Option ℚ :=
  (messages.filterMap Outbound.difficulty?).getLast?

/-- The last target that was sent. -/
def lastTarget (messages : List Outbound) : Option (Option Text) :=
  (messages.filterMap Outbound.target?).getLast?

/-- The messages end with the difficulty, and with the target if the server
sends targets. -/
structure Informed (settings : RequestSettings) (difficulty : ℚ) (shareTarget : Option Text)
    (messages : List Outbound) : Prop where
  difficulty : lastDifficulty messages = some difficulty
  target : settings.useSetTarget = true → lastTarget messages = some shareTarget

/-- The client knows its difficulty and its target. -/
def Knows (settings : RequestSettings) (miner : Miner) (messages : List Outbound) : Prop :=
  Informed settings miner.currentDifficulty miner.client.shareTarget messages

theorem outbound_append (first second : List Effect) :
    outbound (first ++ second) = outbound first ++ outbound second :=
  List.filterMap_append

theorem outbound_map_send (messages : List Outbound) :
    outbound (messages.map .send) = messages := by
  rw [outbound, List.filterMap_map]
  exact List.filterMap_some

theorem outbound_map_log (lines : List Line) : outbound (lines.map .log) = [] := by
  rw [outbound, List.filterMap_map, List.filterMap_eq_nil_iff]
  exact fun _ _ => rfl

theorem lastDifficulty_append (first second : List Outbound) :
    lastDifficulty (first ++ second) = (lastDifficulty second).or (lastDifficulty first) := by
  rw [lastDifficulty, List.filterMap_append, List.getLast?_append]
  rfl

theorem lastTarget_append (first second : List Outbound) :
    lastTarget (first ++ second) = (lastTarget second).or (lastTarget first) := by
  rw [lastTarget, List.filterMap_append, List.getLast?_append]
  rfl

section Messages

variable {settings : RequestSettings} {miner : Miner} {before : List Outbound}

/-- Messages on other things do not matter. -/
theorem Informed.append {difficulty : ℚ} {shareTarget : Option Text}
    (informed : Informed settings difficulty shareTarget before) {messages : List Outbound}
    (noDifficulty : lastDifficulty messages = none) (noTarget : lastTarget messages = none) :
    Informed settings difficulty shareTarget (before ++ messages) where
  difficulty := by
    rw [lastDifficulty_append, noDifficulty, Option.none_or]
    exact informed.difficulty
  target := by
    intro sends
    rw [lastTarget_append, noTarget, Option.none_or]
    exact informed.target sends

/-- A client that knows its target is sent its difficulty. -/
theorem Knows.append_difficulty (knows : Knows settings miner before) :
    Knows settings miner (before ++ [difficultyMessage miner]) where
  difficulty := lastDifficulty_append _ _
  target := by
    intro sends
    rw [lastTarget_append]
    exact knows.target sends

/-- The difficulty and the target are sent. -/
theorem knows_append_both (settings : RequestSettings) (miner : Miner) (before : List Outbound) :
    Knows settings miner (before ++ (difficultyMessage miner :: targetMessages settings miner)) := by
  unfold targetMessages
  constructor
  · rw [lastDifficulty_append]
    split_ifs <;> rfl
  · intro sends
    rw [lastTarget_append, if_pos sends]
    rfl

end Messages

/-! ## Jobs are sent to those who know -/

/-- Messages after which an authorized client knows its difficulty, and in which
a job is sent to a client that knows it. -/
structure Keeps (settings : RequestSettings) (miner : Miner) (before messages : List Outbound) :
    Prop where
  knows : miner.authorized = true → Knows settings miner (before ++ messages)
  notified : ∀ first message rest, messages = first ++ message :: rest →
    message.isNotify = true → Knows settings miner (before ++ first)

/-- No message is a job. -/
def Jobless (messages : List Outbound) : Prop :=
  ∀ message ∈ messages, message.isNotify = false

theorem Jobless.keeps {settings : RequestSettings} {miner : Miner} {before messages : List Outbound}
    (jobless : Jobless messages)
    (knows : miner.authorized = true → Knows settings miner (before ++ messages)) :
    Keeps settings miner before messages where
  knows := knows
  notified := by
    rintro first message rest rfl isJob
    have none := jobless message (List.mem_append_right _ List.mem_cons_self)
    exact absurd (none.symm.trans isJob) Bool.false_ne_true

/-- A job after messages without one. -/
theorem Jobless.keeps_concat {settings : RequestSettings} {miner : Miner}
    {before messages : List Outbound} (jobless : Jobless messages)
    (knows : Knows settings miner (before ++ messages)) (job : Job) :
    Keeps settings miner before (messages ++ [.notify job]) where
  knows := by
    intro _
    rw [← List.append_assoc]
    exact Informed.append knows rfl rfl
  notified := by
    intro first message rest split isJob
    rcases List.append_eq_append_iff.mp split with
      ⟨middle, isFirst, isRest⟩ | ⟨middle, isMessages, isRest⟩
    · cases middle with
      | nil =>
          rw [isFirst, List.append_nil]
          exact knows
      | cons other more =>
          have short := congrArg List.length isRest
          simp at short
    · cases middle with
      | nil =>
          rw [List.append_nil] at isMessages
          rw [← isMessages]
          exact knows
      | cons other more =>
          rw [List.cons_append, List.cons.injEq] at isRest
          have none := jobless other (by
            rw [isMessages]
            exact List.mem_append_right _ List.mem_cons_self)
          rw [← isRest.1] at none
          exact absurd (none.symm.trans isJob) Bool.false_ne_true

theorem jobless_announcement (settings : RequestSettings) (miner : Miner) :
    Jobless (announcement settings miner) := by
  intro message member
  unfold announcement targetMessages at member
  split_ifs at member <;> aesop

/-- A change of the difficulty is announced to an authorized client. -/
theorem keeps_announcement (settings : RequestSettings) (miner : Miner) (before : List Outbound) :
    Keeps settings miner before (announcement settings miner) := by
  apply (jobless_announcement settings miner).keeps
  intro authorized
  rw [announcement, if_pos authorized]
  exact knows_append_both settings miner before

/-! ## Requests -/

section Requests

variable {settings : RequestSettings} {miner : Miner} {before : List Outbound}

/-- What a client knows depends on its difficulty and its targets. -/
theorem Knows.of_same {other : Miner} (knows : Knows settings miner before)
    (same : Miner.SameTargets miner other) : Knows settings other before := by
  unfold Knows
  rw [same.difficulty, same.client]
  exact knows

/-- A client that knows is sent nothing on its difficulty. -/
theorem keeps_of_other {messages : List Outbound} (jobless : Jobless messages)
    (knows : miner.authorized = true → Knows settings miner before)
    (noDifficulty : lastDifficulty messages = none) (noTarget : lastTarget messages = none) :
    Keeps settings miner before messages := by
  apply jobless.keeps
  intro authorized
  exact Informed.append (knows authorized) noDifficulty noTarget

theorem jobless_response (id : Option Json) (body : Body) : Jobless [.response id body] := by
  intro message member
  rw [List.mem_singleton.mp member]
  rfl

theorem keeps_response (knows : miner.authorized = true → Knows settings miner before)
    (id : Option Json) (body : Body) : Keeps settings miner before [.response id body] :=
  keeps_of_other (jobless_response id body) knows rfl rfl

theorem keeps_nothing (knows : miner.authorized = true → Knows settings miner before) :
    Keeps settings miner before [] :=
  keeps_of_other (fun _ member => absurd member List.not_mem_nil) knows rfl rfl

theorem subscribe_keeps (knows : miner.authorized = true → Knows settings miner before)
    (clientId : Nat) (id : Option Json) :
    Keeps settings miner before (outbound (subscribe settings clientId id miner).effects) := by
  unfold subscribe
  dsimp only
  split_ifs
  · exact keeps_response knows id _
  · apply Jobless.keeps
    · intro message member
      rcases List.mem_cons.mp member with rfl | member
      · rfl
      · rw [List.mem_singleton.mp member]
        rfl
    · intro authorized
      have answered : Knows settings miner (before ++ [.response id
          (.subscription miner.client.extranonce1 settings.extranonce2Size)]) :=
        Informed.append (knows authorized) rfl rfl
      have told := Knows.append_difficulty answered
      rwa [List.append_assoc] at told

theorem suggestDifficulty_keeps (served : Miner.Served settings.shares miner)
    (knows : miner.authorized = true → Knows settings miner before) (clientId : Nat)
    (id first : Option Json) (now : Nat) :
    let handled := suggestDifficulty settings clientId id first now miner
    Miner.Served settings.shares handled.miner ∧
      Keeps settings handled.miner before (outbound handled.effects) := by
  unfold suggestDifficulty
  dsimp only
  split
  · exact ⟨served, keeps_nothing knows⟩
  · split
    · exact ⟨served, keeps_response knows id _⟩
    · next difficulty _ =>
        constructor
        · exact Miner.served_applyDifficulty served difficulty now
        · dsimp only
          rw [outbound_append, outbound_map_send]
          have announced := keeps_announcement settings
            (miner.applyDifficulty settings.shares difficulty now) before
          apply Jobless.keeps
          · intro message member
            rcases List.mem_append.mp member with change | answer
            · exact jobless_announcement settings _ message change
            · exact jobless_response id _ message answer
          · intro authorized
            rw [← List.append_assoc]
            exact Informed.append (announced.knows authorized) rfl rfl

theorem jobless_targetMessages (settings : RequestSettings) (miner : Miner) :
    Jobless (targetMessages settings miner) := by
  intro message member
  unfold targetMessages at member
  split_ifs at member
  · rw [List.mem_singleton.mp member]
    rfl
  · contradiction

/-- An authorized client is welcomed with its difficulty, its target and the
last job. -/
theorem authorize_keeps (served : Miner.Served settings.shares miner) (clientId : Nat)
    (id first : Option Json) (lastJob : Option Job)
    (named : rawName settings.numbers clientId first miner.workerName ≠ none) :
    let handled := authorize settings clientId id first lastJob miner
    Miner.Served settings.shares handled.miner ∧
      Keeps settings handled.miner before (outbound handled.effects) := by
  unfold authorize
  dsimp only
  split
  · next unnamed => exact absurd unnamed named
  · next name _ =>
      constructor
      · exact served.of_same ⟨rfl, rfl⟩
      · have told := knows_append_both settings { miner with
          authorized := true
          workerName := some (sanitizeWorkerName name) } (before ++ [.response id .success])
        have jobless : Jobless (.response id .success :: difficultyMessage miner ::
            targetMessages settings miner) := by
          intro message member
          rcases List.mem_cons.mp member with rfl | member
          · rfl
          · rcases List.mem_cons.mp member with rfl | member
            · rfl
            · exact jobless_targetMessages settings miner message member
        rw [List.append_assoc] at told
        dsimp only
        rw [outbound_append, outbound_append, outbound_map_send]
        cases lastJob with
        | none => exact (List.append_nil _).symm ▸ jobless.keeps fun _ => told
        | some job =>
            have isLast : outbound (welcomeJob settings (some job)) = [.notify job] := by
              unfold welcomeJob
              dsimp only
              split_ifs <;> rfl
            rw [isLast]
            exact jobless.keeps_concat told job

theorem sameTargets_nameSubmit (numbers : NumberFormat) (worker : Option Json) (miner : Miner) :
    Miner.SameTargets miner (nameSubmit numbers worker miner) ∧
      (nameSubmit numbers worker miner).authorized = miner.authorized := by
  unfold nameSubmit
  split_ifs <;> exact ⟨⟨rfl, rfl⟩, rfl⟩

theorem outbound_submitLines (settings : RequestSettings) (clientId : Nat)
    (params worker : Option Json) (parsed : ParsedSubmit) :
    outbound (submitLines settings clientId params worker parsed) = [] := by
  unfold submitLines
  split_ifs <;> rfl

/-- A submission does not change the difficulty and sends nothing, unless it is
refused. -/
theorem submit_keeps (served : Miner.Served settings.shares miner)
    (knows : miner.authorized = true → Knows settings miner before) (clientId : Nat)
    (id params : Option Json) :
    let handled := submit settings clientId id params miner
    Miner.Served settings.shares handled.miner ∧
      Keeps settings handled.miner before (outbound handled.effects) := by
  have quiet : ∀ other : Miner, Miner.SameTargets miner other →
      other.authorized = miner.authorized → ∀ effects, outbound effects = [] →
        Miner.Served settings.shares other ∧ Keeps settings other before (outbound effects) := by
    intro other same authorized effects silent
    constructor
    · exact served.of_same same
    · rw [silent]
      apply keeps_nothing
      intro isAuthorized
      exact (knows (authorized.symm.trans isAuthorized)).of_same same
  have named := sameTargets_nameSubmit settings.numbers (workerParam (submitParams params)) miner
  have lines := outbound_submitLines settings clientId params (workerParam (submitParams params))
    (parseSubmit ((submitParams params).map fun list => list.map (Json.toValue settings.numbers)))
  unfold submit
  split
  · exact ⟨served, keeps_response knows id _⟩
  · dsimp only
    split
    · exact quiet miner (.refl miner) rfl [] rfl
    · split
      · exact quiet (countSubmit miner) ⟨rfl, rfl⟩ rfl [] rfl
      · split
        · split
          · exact quiet _ named.1 named.2 _ lines
          · apply quiet _ named.1 named.2
            rw [outbound_append, lines]
            rfl
        · apply quiet _ named.1 named.2
          rw [outbound_append, lines]
          rfl

/-- A request keeps the client served and informed, unless it is an
authorization whose name does not convert. -/
theorem handleRequest_keeps (served : Miner.Served settings.shares miner)
    (knows : miner.authorized = true → Knows settings miner before) (clientId : Nat)
    (lastJob : Option Job) (now : Nat) {request : Json}
    (named : calls request "mining.authorize" = true → ¬Nameless settings.numbers request) :
    let handled := handleRequest settings clientId lastJob now miner request
    Miner.Served settings.shares handled.miner ∧
      Keeps settings handled.miner before (outbound handled.effects) := by
  unfold handleRequest
  dsimp only
  split
  · exact ⟨served, keeps_response knows _ _⟩
  · split
    · constructor
      · unfold subscribe
        dsimp only
        split_ifs <;> exact served
      · have kept := subscribe_keeps knows clientId (request.member "id")
        unfold subscribe at kept ⊢
        dsimp only at kept ⊢
        split_ifs at kept ⊢ <;> exact kept
    · split
      · exact ⟨served, keeps_response knows _ _⟩
      · split
        · exact suggestDifficulty_keeps served knows clientId _ _ now
        · split
          · next authorizes =>
              apply authorize_keeps served
              rw [Ne, rawName_eq_none_iff]
              exact named authorizes
          · split
            · exact submit_keeps served knows clientId _ _
            · unfold unsupported
              split
              · exact ⟨served, keeps_nothing knows⟩
              · exact ⟨served, keeps_response knows _ _⟩

end Requests

end ZcashSoloPool.Stratum
