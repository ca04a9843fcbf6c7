import ZcashSoloPool.Pool.Service
import ZcashSoloPool.Pool.ShareAccounting
import ZcashSoloPool.Stratum.Told

/-!
# Agreement on the difficulty

The pool and its clients agree on the difficulty: what the pool measures the
shares of an authorized client with is what it sent to the client last, and the
client had it before any job.
-/

namespace ZcashSoloPool.Pool

open ZcashSoloPool.JavaScript
open ZcashSoloPool.Stratum
open ZcashSoloPool.Transition
open ZcashSoloPool.WorkManager (AcceptedShare Externals Job)

/-! ## Sockets -/

/-- The messages on a socket, oldest first. -/
def Socket.messages (socket : Socket) : List Outbound :=
  socket.written.map Written.message

/-- A message with what the client has when it is written. -/
def stamp (miner : Miner) (message : Outbound) : Written :=
  ⟨message, miner.currentDifficulty, miner.client.shareTarget⟩

/-- A write does nothing, destroys the socket, or is made. -/
theorem send_cases (settings : RequestSettings) (clientId : Nat) (miner : Miner)
    (message : Outbound) (backlog : Nat) (channel : Channel) :
    let after := channel.send settings clientId miner message backlog
    (channel.socket.destroyed = true ∧ after.socket = channel.socket) ∨
      (channel.socket.destroyed = false ∧ after.socket.destroyed = true ∧
        after.socket.written = channel.socket.written) ∨
      (channel.socket.destroyed = false ∧ after.socket.destroyed = false ∧
        after.socket.written = channel.socket.written ++ [stamp miner message]) := by
  unfold Channel.send
  dsimp only
  cases alive : channel.socket.destroyed with
  | true => exact Or.inl ⟨rfl, rfl⟩
  | false =>
      apply Or.inr
      rw [if_neg Bool.false_ne_true]
      split
      · exact Or.inl ⟨rfl, rfl, rfl⟩
      · exact Or.inr ⟨rfl, rfl, rfl⟩

/-- Nothing is written to a destroyed socket; on another one the messages are
written in their order, all of them unless the socket is destroyed on the way. -/
theorem performAll_cases (settings : RequestSettings) (clientId : Nat) (miner : Miner)
    (effects : List Effect) (backlog : Nat → Nat) (channel : Channel) :
    let after := Channel.performAll settings clientId miner effects backlog channel
    (channel.socket.destroyed = true ∧ after.socket = channel.socket) ∨
      (channel.socket.destroyed = false ∧ ∃ sent rest, outbound effects = sent ++ rest ∧
        after.socket.written = channel.socket.written ++ sent.map (stamp miner) ∧
          (after.socket.destroyed = false → rest = [])) := by
  induction effects generalizing backlog channel with
  | nil =>
      cases alive : channel.socket.destroyed with
      | true => exact Or.inl ⟨rfl, rfl⟩
      | false =>
          apply Or.inr
          refine ⟨rfl, [], [], rfl, ?_, fun _ => rfl⟩
          exact (List.append_nil _).symm
  | cons effect rest ih =>
      have later := ih (fun place => backlog (place + 1))
        (channel.perform settings clientId miner effect (backlog 0))
      cases effect with
      | send message =>
          rw [Channel.performAll]
          rw [Channel.perform] at later ⊢
          rcases send_cases settings clientId miner message (backlog 0) channel with
            ⟨dead, same⟩ | ⟨alive, dead, same⟩ | ⟨alive, open', written⟩
          · apply Or.inl
            rcases later with ⟨_, unchanged⟩ | ⟨open', _⟩
            · exact ⟨dead, unchanged.trans same⟩
            · rw [same] at open'
              exact absurd (dead.symm.trans open') (by decide)
          · apply Or.inr
            rcases later with ⟨_, unchanged⟩ | ⟨open', _⟩
            · refine ⟨alive, [], message :: outbound rest, rfl, ?_, ?_⟩
              · rw [unchanged, same]
                exact (List.append_nil _).symm
              · intro open'
                rw [unchanged] at open'
                exact absurd (dead.symm.trans open') (by decide)
            · exact absurd (dead.symm.trans open') (by decide)
          · apply Or.inr
            rcases later with ⟨dead, _⟩ | ⟨_, sent, unsent, parts, after, all⟩
            · exact absurd (dead.symm.trans open') (by decide)
            · refine ⟨alive, message :: sent, unsent, congrArg (message :: ·) parts, ?_, all⟩
              rw [after, written, List.map_cons, List.append_assoc]
              rfl
      | log line => exact later
      | submit id worker parsed => exact later
      | resendLater => exact later

/-- The pool and the client agree. -/
structure Agreed (settings : RequestSettings) (miner : Miner) (socket : Socket) : Prop where
  served : Miner.Served settings.shares miner
  knows : miner.authorized = true → socket.destroyed = false →
    Knows settings miner socket.messages
  /-- A job was sent to a client that knew the difficulty and the target it had. -/
  notified : ∀ before entry rest, socket.written = before ++ entry :: rest →
    entry.message.isNotify = true →
      Informed settings entry.difficulty entry.shareTarget (before.map Written.message)

/-- The jobs among the messages that are written now. -/
theorem notified_append {settings : RequestSettings} {miner : Miner} {socket : Socket}
    (agreed : Agreed settings miner socket) {after : Miner} {sent rest : List Outbound}
    (keeps : Stratum.Keeps settings after socket.messages (sent ++ rest)) :
    ∀ before entry later, socket.written ++ sent.map (stamp after) = before ++ entry :: later →
      entry.message.isNotify = true →
        Informed settings entry.difficulty entry.shareTarget (before.map Written.message) := by
  intro before entry later split isJob
  rcases List.append_eq_append_iff.mp split with
    ⟨middle, isBefore, isSent⟩ | ⟨middle, isWritten, isLater⟩
  · obtain ⟨first, others, isAll, isMiddle, isOthers⟩ := List.map_eq_append_iff.mp isSent
    obtain ⟨message, more, rfl, rfl, _⟩ := List.map_eq_cons_iff.mp isOthers
    have told := keeps.notified first message (more ++ rest)
      (by rw [isAll, List.append_assoc, List.cons_append]) isJob
    rw [isBefore, ← isMiddle, List.map_append, List.map_map]
    have messages : (Written.message ∘ stamp after) = id := rfl
    rw [messages, List.map_id]
    exact told
  · cases middle with
    | nil =>
        rw [List.append_nil] at isWritten
        obtain ⟨message, more, isAll, isEntry, _⟩ := List.map_eq_cons_iff.mp isLater.symm
        have told := keeps.notified [] message (more ++ rest) (by rw [isAll]; rfl)
          (by rw [← isEntry] at isJob; exact isJob)
        rw [List.append_nil] at told
        rw [← isWritten, ← isEntry]
        exact told
    | cons other others =>
        rw [List.cons_append, List.cons.injEq] at isLater
        rw [← isLater.1] at isWritten
        exact agreed.notified before entry others isWritten isJob

/-- Effects that keep an open client informed keep the agreement. -/
theorem Agreed.performAll {settings : RequestSettings} {miner : Miner} {channel : Channel}
    (agreed : Agreed settings miner channel.socket) {after : Miner} {effects : List Effect}
    (served : Miner.Served settings.shares after)
    (keeps : channel.socket.destroyed = false →
      Stratum.Keeps settings after channel.socket.messages (outbound effects))
    (writer : RequestSettings) (clientId : Nat) (backlog : Nat → Nat) :
    Agreed settings after
      (Channel.performAll writer clientId after effects backlog channel).socket := by
  rcases performAll_cases writer clientId after effects backlog channel with
    ⟨dead, same⟩ | ⟨alive, sent, rest, split, written, all⟩
  · rw [same]
    constructor
    · exact served
    · intro _ open'
      exact absurd (dead.symm.trans open') (by decide)
    · exact agreed.notified
  · have kept := keeps alive
    rw [split] at kept
    constructor
    · exact served
    · intro authorized open'
      have told := kept.knows authorized
      rw [all open', List.append_nil] at told
      rw [Socket.messages, written, List.map_append, List.map_map]
      have messages : (Written.message ∘ stamp after) = id := rfl
      rw [messages, List.map_id]
      exact told
    · rw [written]
      exact notified_append agreed kept

/-! ## Clients -/

namespace Service

/-- Every client has a socket, on which it and the pool agree. -/
structure Accord (settings : RequestSettings) (service : Service) : Prop where
  length : service.sockets.length = service.desk.miners.length
  agreed : ∀ (client : Nat) (miner : Miner) (socket : Socket),
    service.desk.miners[client]? = some miner →
      service.sockets[client]? = some socket → Agreed settings miner socket

variable {settings : RequestSettings}

theorem perform_of_socket (writer : ServiceConfig) {service : Service} {client : Nat}
    {socket : Socket} (found : service.sockets[client]? = some socket) (miner : Miner)
    (effects : List Effect) (backlog : Nat → Nat) :
    (service.perform writer client miner effects backlog).sockets =
      service.sockets.set client (Channel.performAll writer.requests (client + 1) miner effects
        backlog ⟨socket, service.lines⟩).socket := by
  rw [perform, found]

theorem length_perform (writer : ServiceConfig) (service : Service) (client : Nat) (miner : Miner)
    (effects : List Effect) (backlog : Nat → Nat) :
    (service.perform writer client miner effects backlog).sockets.length =
      service.sockets.length := by
  unfold perform
  split
  · exact List.length_set
  · rfl

/-- A step that changes one client and carries out its effects. -/
theorem Accord.perform {service : Service} (accord : Accord settings service) (target : Service)
    {client : Nat} {miner after : Miner} (present : service.desk.miners[client]? = some miner)
    (miners : target.desk.miners = service.desk.miners.set client after) (writer : ServiceConfig)
    (effects : List Effect) (backlog : Nat → Nat)
    (sockets : target.sockets = (service.perform writer client after effects backlog).sockets)
    (served : Miner.Served settings.shares after)
    (keeps : ∀ socket, Agreed settings miner socket → socket.destroyed = false →
      Stratum.Keeps settings after socket.messages (outbound effects)) :
    Accord settings target where
  length := by
    rw [sockets, miners, length_perform, List.length_set]
    exact accord.length
  agreed := by
    have bound := (List.getElem?_eq_some_iff.mp present).1
    have inside : client < service.sockets.length := by
      rw [accord.length]
      exact bound
    have found : service.sockets[client]? = some service.sockets[client] :=
      List.getElem?_eq_getElem inside
    have agreed := accord.agreed client miner _ present found
    rw [miners, sockets, perform_of_socket writer found]
    intro other otherMiner socket isMiner isSocket
    by_cases same : client = other
    · rw [← same, List.getElem?_set_self bound] at isMiner
      rw [← same, List.getElem?_set_self inside] at isSocket
      cases isMiner
      cases isSocket
      exact agreed.performAll served (keeps _ agreed) _ _ _
    · rw [List.getElem?_set_ne same] at isMiner isSocket
      exact accord.agreed other otherMiner socket isMiner isSocket

theorem mem_places {miners : List Miner} {client : Nat} {miner : Miner} :
    (client, miner) ∈ places miners ↔ miners[client]? = some miner := by
  rw [places, List.mem_map]
  constructor
  · rintro ⟨⟨other, place⟩, member, same⟩
    cases same
    exact List.mem_zipIdx_iff_getElem?.mp member
  · intro found
    exact ⟨(miner, client), List.mem_zipIdx_iff_getElem?.mpr found, rfl⟩

theorem nodup_places (miners : List Miner) : ((places miners).map Prod.fst).Nodup := by
  rw [places, List.map_map]
  have keys : (Prod.fst ∘ Prod.swap : Miner × Nat → Nat) = Prod.snd := rfl
  rw [keys, List.zipIdx_map_snd]
  exact List.nodup_range'

theorem length_performEach (writer : ServiceConfig) (effects : Nat → Miner → List Effect)
    (backlog : Nat → Nat → Nat) (entries : List (Nat × Miner)) (service : Service) :
    (performEach writer effects backlog entries service).sockets.length =
      service.sockets.length := by
  induction entries generalizing service with
  | nil => rfl
  | cons entry rest ih => exact (ih _).trans (length_perform writer service _ _ _ _)

/-- Every client has its own effects carried out. -/
theorem performEach_socket (writer : ServiceConfig) (effects : Nat → Miner → List Effect)
    (backlog : Nat → Nat → Nat) {entries : List (Nat × Miner)}
    (nodup : (entries.map Prod.fst).Nodup) {service : Service} {client : Nat} {socket : Socket}
    (found : service.sockets[client]? = some socket) :
    let after := performEach writer effects backlog entries service
    (client ∉ entries.map Prod.fst → after.sockets[client]? = some socket) ∧
      ∀ miner, (client, miner) ∈ entries → ∃ lines, after.sockets[client]? =
        some (Channel.performAll writer.requests (client + 1) miner (effects client miner)
          (backlog client) ⟨socket, lines⟩).socket := by
  induction entries generalizing service socket with
  | nil => exact ⟨fun _ => found, fun miner member => absurd member List.not_mem_nil⟩
  | cons entry rest ih =>
      obtain ⟨place, first⟩ := entry
      rw [List.map_cons, List.nodup_cons] at nodup
      dsimp only
      rw [performEach]
      by_cases same : place = client
      · subst same
        have bound := (List.getElem?_eq_some_iff.mp found).1
        have performed : (service.perform writer place first (effects place first)
            (backlog place)).sockets[place]? = some (Channel.performAll writer.requests (place + 1)
              first (effects place first) (backlog place) ⟨socket, service.lines⟩).socket := by
          rw [perform_of_socket writer found, List.getElem?_set_self bound]
        have later := (ih nodup.2 performed).1 nodup.1
        constructor
        · intro absent
          exact absurd List.mem_cons_self absent
        · intro miner member
          rcases List.mem_cons.mp member with isFirst | isLater
          · cases isFirst
            exact ⟨service.lines, later⟩
          · exact absurd (List.mem_map_of_mem isLater) nodup.1
      · have untouched : (service.perform writer place first (effects place first)
            (backlog place)).sockets[client]? = some socket := by
          unfold Service.perform
          split
          · exact (List.getElem?_set_ne same).trans found
          · exact found
        have later := ih nodup.2 untouched
        constructor
        · intro absent
          exact later.1 (fun member => absent (List.mem_cons_of_mem _ member))
        · intro miner member
          rcases List.mem_cons.mp member with isFirst | isLater
          · cases isFirst
            exact absurd rfl same
          · exact later.2 miner isLater

/-- A step that changes every client and carries out its effects. -/
theorem Accord.performEach {service start : Service} (accord : Accord settings service)
    (target : Service) {writer : ServiceConfig} {effects : Nat → Miner → List Effect}
    {backlog : Nat → Nat → Nat}
    (length : target.desk.miners.length = service.desk.miners.length)
    (same : start.sockets = service.sockets)
    (sockets : target.sockets =
      (Service.performEach writer effects backlog (places target.desk.miners) start).sockets)
    (served : ∀ miner ∈ target.desk.miners, Miner.Served settings.shares miner)
    (keeps : ∀ client miner after socket, service.desk.miners[client]? = some miner →
      target.desk.miners[client]? = some after → Agreed settings miner socket →
        socket.destroyed = false →
          Stratum.Keeps settings after socket.messages (outbound (effects client after))) :
    Accord settings target where
  length := by
    rw [sockets, length_performEach, same, length]
    exact accord.length
  agreed := by
    intro client after socket isMiner isSocket
    have bound := (List.getElem?_eq_some_iff.mp isMiner).1
    rw [length] at bound
    have inside : client < start.sockets.length := by
      rw [same, accord.length]
      exact bound
    have present : service.desk.miners[client]? = some service.desk.miners[client] :=
      List.getElem?_eq_getElem bound
    obtain ⟨old, found⟩ : ∃ old, start.sockets[client]? = some old :=
      ⟨_, List.getElem?_eq_getElem inside⟩
    have agreed := accord.agreed client _ old present (by rw [← same]; exact found)
    obtain ⟨lines, written⟩ :=
      (performEach_socket writer effects backlog (nodup_places target.desk.miners) found).2 after
        (mem_places.mpr isMiner)
    rw [sockets, written] at isSocket
    cases isSocket
    have channel : Agreed settings service.desk.miners[client]
        (Channel.mk old lines).socket := agreed
    exact channel.performAll (served after (List.mem_of_getElem? isMiner))
      (keeps client _ after _ present isMiner agreed) _ _ _

/-! ## Events -/

section Events

variable {config : ServiceConfig} {service : Service}

/-- A change that leaves the targets of a client alone. -/
theorem Accord.withMiner {target : Service} (accord : Accord settings service) {client : Nat}
    {miner after : Miner} (present : service.desk.miners[client]? = some miner)
    (miners : target.desk.miners = service.desk.miners.set client after)
    (sockets : target.sockets = service.sockets) (same : Miner.SameTargets miner after)
    (authorized : after.authorized = miner.authorized) : Accord settings target where
  length := by
    rw [sockets, miners, List.length_set]
    exact accord.length
  agreed := by
    have bound := (List.getElem?_eq_some_iff.mp present).1
    rw [miners, sockets]
    intro other otherMiner socket isMiner isSocket
    by_cases equal : client = other
    · rw [← equal, List.getElem?_set_self bound] at isMiner
      cases isMiner
      have agreed := accord.agreed client miner socket present (by rw [equal]; exact isSocket)
      constructor
      · exact agreed.served.of_same same
      · intro isAuthorized open'
        exact (agreed.knows (authorized.symm.trans isAuthorized) open').of_same same
      · exact agreed.notified
    · rw [List.getElem?_set_ne equal] at isMiner
      exact accord.agreed other otherMiner socket isMiner isSocket

theorem Accord.of_same {target : Service} (accord : Accord settings service)
    (miners : target.desk.miners = service.desk.miners)
    (sockets : target.sockets = service.sockets) : Accord settings target where
  length := by
    rw [sockets, miners]
    exact accord.length
  agreed := by
    rw [sockets, miners]
    exact accord.agreed

/-- The node and the timers leave the clients alone. -/
theorem miners_of_isNode {deps : Externals} {hostile : Nat → Bool} {desk target : Desk}
    {event : DeskEvent} {deskConfig : DeskConfig} (node : isNode event = true)
    (step : Desk.next deps hostile deskConfig desk event = some target) :
    target.miners = desk.miners := by
  cases event with
  | generateJob cleanJobs reply =>
      cases step
      rfl
  | network network =>
      cases step
      rfl
  | verdict call reply now =>
      obtain ⟨ledger, _, rfl⟩ := Option.map_eq_some_iff.mp step
      rfl
  | proposal call reply =>
      obtain ⟨ledger, _, rfl⟩ := Option.map_eq_some_iff.mp step
      rfl
  | cleanup now =>
      cases step
      rfl
  | _ => contradiction

/-- A new client agrees with the pool. -/
theorem agreed_connected (settings : RequestSettings) (clientId now : Nat) :
    Agreed settings (Miner.connected settings.shares clientId now) .opened where
  served := Miner.served_connected settings.shares clientId now
  knows := by
    intro authorized
    contradiction
  notified := by
    intro before entry rest written
    exact absurd (congrArg List.length written) (by simp [Socket.opened])

theorem Accord.connect (accord : Accord config.requests service) (now : Nat) {target : Service}
    (miners : target.desk.miners = service.desk.miners ++
      [Miner.connected config.requests.shares (service.desk.miners.length + 1) now])
    (sockets : target.sockets = service.sockets ++ [.opened]) : Accord config.requests target where
  length := by
    rw [sockets, miners, List.length_append, List.length_append, accord.length]
    rfl
  agreed := by
    rw [miners, sockets]
    intro client miner socket isMiner isSocket
    by_cases old : client < service.desk.miners.length
    · rw [List.getElem?_append_left old] at isMiner
      rw [List.getElem?_append_left (by rw [accord.length]; exact old)] at isSocket
      exact accord.agreed client miner socket isMiner isSocket
    · rw [not_lt] at old
      rw [List.getElem?_append_right old, List.getElem?_singleton] at isMiner
      rw [List.getElem?_append_right (by rw [accord.length]; exact old),
        List.getElem?_singleton] at isSocket
      split at isMiner
      · cases isMiner
        split at isSocket
        · cases isSocket
          exact agreed_connected config.requests _ now
        · contradiction
      · contradiction

theorem Accord.destroy (accord : Accord settings service) (client : Nat) :
    Accord settings (service.destroy client) where
  length := by
    rw [Service.destroy, List.length_modify]
    exact accord.length
  agreed := by
    intro other miner socket isMiner isSocket
    rw [Service.destroy, List.getElem?_modify] at isSocket
    obtain ⟨old, found, rfl⟩ := Option.map_eq_some_iff.mp isSocket
    have agreed := accord.agreed other miner old isMiner found
    split
    · constructor
      · exact agreed.served
      · intro _ alive
        contradiction
      · exact agreed.notified
    · exact agreed

/-- A client whose difficulty is the same has the same target. -/
theorem knows_of_not_retargeted {miner after : Miner} {before : List Outbound}
    (knows : Knows settings miner before) (served : Miner.Served settings.shares miner)
    (servedAfter : Miner.Served settings.shares after) (same : ¬Retargeted miner after) :
    Knows settings after before := by
  have difficulty : after.currentDifficulty = miner.currentDifficulty := not_not.mp same
  have target : after.client.shareTarget = miner.client.shareTarget := by
    rw [servedAfter.target, served.target, difficulty]
  unfold Knows
  rw [difficulty, target]
  exact knows

/-- A retarget is announced, behind other messages. -/
theorem keeps_retarget {miner after : Miner} {before first : List Outbound}
    (knows : miner.authorized = true → Knows settings miner before)
    (served : Miner.Served settings.shares miner)
    (servedAfter : Miner.Served settings.shares after)
    (authorized : after.authorized = miner.authorized) (jobless : Jobless first)
    (noDifficulty : lastDifficulty first = none) (noTarget : lastTarget first = none) :
    Stratum.Keeps settings after before
      (first ++ outbound (retargetEffects settings miner after)) := by
  unfold retargetEffects
  split
  · rw [outbound_map_send]
    have announced := keeps_announcement settings after (before ++ first)
    apply Jobless.keeps
    · intro message member
      rcases List.mem_append.mp member with isFirst | change
      · exact jobless message isFirst
      · exact jobless_announcement settings after message change
    · intro isAuthorized
      rw [← List.append_assoc]
      exact announced.knows isAuthorized
  · next same =>
      have empty : outbound [] = [] := rfl
      rw [empty, List.append_nil]
      apply keeps_of_other jobless _ noDifficulty noTarget
      intro isAuthorized
      exact knows_of_not_retargeted (knows (authorized.symm.trans isAuthorized)) served
        servedAfter same

/-! ## Retargets of the pool -/

theorem applyDifficulty_authorized (shares : ShareConfig) (miner : Miner) (difficulty : ℚ)
    (now : Nat) : (miner.applyDifficulty shares difficulty now).authorized = miner.authorized :=
  rfl

theorem noteAcceptedShare_authorized (shares : ShareConfig) (miner : Miner) (now : Nat) :
    (miner.noteAcceptedShare shares now).authorized = miner.authorized := by
  rcases Miner.noteAcceptedShare_cases shares miner now with
    ⟨avg, proposed, _, applied⟩ | ⟨_, shareTimes, lastRetargetAt, noted, _⟩
  · rw [applied, applyDifficulty_authorized]
    rfl
  · rw [noted]
    rfl

theorem checkIdle_authorized (shares : ShareConfig) (miner : Miner) (now : Nat)
    (enabled : shares.vardiff.enabled = true) :
    (miner.checkIdle shares now).authorized = miner.authorized := by
  rcases Miner.checkIdle_cases shares miner now enabled with ⟨proposed, _, applied⟩ | ⟨_, same⟩
  · rw [applied, applyDifficulty_authorized]
    rfl
  · rw [same]

/-- The client of an accepted share is served on, and stays authorized. -/
theorem creditMiner_served (config : ServiceConfig) (desk : Desk) (share : AcceptedShare)
    {miner : Miner}
    (served : Miner.Served config.requests.shares miner) (now : Instant) :
    let after := desk.creditMiner config.desk share miner now
    Miner.Served config.requests.shares after ∧ after.authorized = miner.authorized := by
  have recorded : Miner.Served config.requests.shares
      (recordShareOutcome config.requests.shares miner (desk.acceptedOutcome share miner) now.ms) :=
    served.of_same ⟨rfl, rfl⟩
  have noted := recorded.react (.noteAcceptedShare now.ms)
  have authorized := noteAcceptedShare_authorized config.requests.shares
    (recordShareOutcome config.requests.shares miner (desk.acceptedOutcome share miner) now.ms)
    now.ms
  unfold Desk.creditMiner
  dsimp only
  split
  · exact ⟨noted.of_same ⟨rfl, rfl⟩, authorized⟩
  · exact ⟨noted, authorized⟩

/-- What the messages of an accepted share are. -/
theorem outbound_acceptedEffects (desk : Desk) (handler : Handler) (miner : Miner)
    (requestId : Option Json) (share : AcceptedShare) (now : Instant) :
    outbound (acceptedEffects config desk handler miner requestId share now) =
      [.response requestId .success] ++ outbound (retargetEffects config.requests miner
        (desk.creditMiner config.desk share miner now)) := by
  unfold acceptedEffects
  dsimp only
  rw [outbound_append, outbound_append, outbound_append, outbound_append, outbound_append,
    outbound_map_log]
  split_ifs <;> simp [outbound, Effect.message?]

/-- The client of a handler that continues is served on and kept informed. -/
theorem resume_keeps (config : ServiceConfig) (desk : Desk) (place : Nat) (handler : Handler)
    {miner : Miner}
    (served : Miner.Served config.requests.shares miner) (requestId : Option Json) (now : Instant) :
    ∃ after, (desk.resume config.desk place handler miner now).miners =
        desk.miners.set handler.client after ∧
      Miner.Served config.requests.shares after ∧
      ∀ before, (miner.authorized = true → Knows config.requests miner before) →
        Stratum.Keeps config.requests after before
          (outbound (resumeEffects config desk handler miner requestId now)) := by
  unfold Desk.resume resumeEffects
  rcases handler.result with message | (share | error)
  · refine ⟨_, rfl, served.of_same ⟨rfl, rfl⟩, fun before knows => ?_⟩
    apply keeps_response
    exact fun authorized => (knows authorized).of_same ⟨rfl, rfl⟩
  · obtain ⟨servedAfter, authorized⟩ := creditMiner_served config desk share served now
    refine ⟨_, rfl, servedAfter, fun before knows => ?_⟩
    dsimp only
    rw [outbound_acceptedEffects]
    exact keeps_retarget knows served servedAfter authorized (jobless_response requestId _) rfl rfl
  · refine ⟨_, rfl, served.of_same ⟨rfl, rfl⟩, fun before knows => ?_⟩
    apply keeps_response
    exact fun authorized => (knows authorized).of_same ⟨rfl, rfl⟩

/-- An open client that is authorized knows. -/
theorem knows_of_open {miner : Miner} {socket : Socket} (agreed : Agreed settings miner socket)
    (alive : socket.destroyed = false) (authorized : miner.authorized = true) :
    Knows settings miner socket.messages :=
  agreed.knows authorized alive

/-- Every client is served. -/
theorem Accord.served (accord : Accord settings service) {client : Nat} {miner : Miner}
    (present : service.desk.miners[client]? = some miner) :
    Miner.Served settings.shares miner := by
  have inside : client < service.sockets.length := by
    rw [accord.length]
    exact (List.getElem?_eq_some_iff.mp present).1
  exact (accord.agreed client miner _ present (List.getElem?_eq_getElem inside)).served

theorem Accord.resume (accord : Accord config.requests service) {place : Nat} {handler : Handler}
    {miner : Miner} (waits : service.desk.waiting place = some (handler, miner)) (now : Instant)
    (backlog : Nat → Nat) :
    Accord config.requests (service.resume config place handler miner now backlog) := by
  obtain ⟨_, _, present⟩ := Desk.waiting_eq_some_iff.mp waits
  have bound := (List.getElem?_eq_some_iff.mp present).1
  obtain ⟨after, miners, servedAfter, keeps⟩ := resume_keeps config service.desk place handler
    (accord.served present) (service.requestIds.getD place none) now
  have isAfter : (service.desk.resume config.desk place handler miner now).miners.getD
      handler.client miner = after := by
    rw [miners, List.getD_eq_getElem?_getD, List.getElem?_set_self bound]
    rfl
  apply accord.perform (service.resume config place handler miner now backlog) present miners config
    _ backlog _ servedAfter
  · intro socket agreed alive
    exact keeps socket.messages (knows_of_open agreed alive)
  · unfold Service.resume
    dsimp only
    rw [isAfter]

/-- The name of every authorization converts, as that of a string or of a missing
name does. -/
def NamesConvert (numbers : NumberFormat) (_ : Service) : ServiceEvent → Prop
  | .request _ line _ _ => calls line "mining.authorize" = true → ¬Nameless numbers line
  | _ => True

/-- A name that is missing or a string converts. -/
theorem not_nameless {numbers : NumberFormat} {line : Json}
    (isText : firstParam (line.member "params") = none ∨
      ∃ text, firstParam (line.member "params") = some (.string text)) :
    ¬Nameless numbers line := by
  rintro ⟨_, throws⟩
  rcases isText with missing | ⟨text, isString⟩
  · rw [missing] at throws
    contradiction
  · rw [isString] at throws
    contradiction

theorem Accord.request (accord : Accord config.requests service) {client : Nat} {miner : Miner}
    (present : service.desk.miners[client]? = some miner) {line : Json}
    (named : calls line "mining.authorize" = true → ¬Nameless config.requests.numbers line)
    (deps : Externals) (now : Instant) (backlog : Nat → Nat) :
    Accord config.requests (service.request deps config client miner line now backlog) := by
  have served := accord.served present
  have keeps := fun (before : List Outbound)
      (knows : miner.authorized = true → Knows config.requests miner before) =>
    handleRequest_keeps served knows (client + 1) service.lastJob now.ms named
  apply accord.perform (service.request deps config client miner line now backlog) present rfl config
    _ backlog rfl
  · exact (keeps _ fun _ => knows_append_both config.requests miner []).1
  · intro socket agreed alive
    exact (keeps socket.messages (knows_of_open agreed alive)).2

theorem outbound_idleEffects (config : ServiceConfig) (clientId : Nat) (before after : Miner) :
    outbound (idleEffects config clientId before after) =
      outbound (retargetEffects config.requests before after) := by
  unfold idleEffects
  rw [outbound_append]
  split_ifs <;> exact List.append_nil _

/-- A client after the sweep. -/
theorem swept_served {miners : List Miner}
    (served : ∀ miner ∈ miners, Miner.Served config.requests.shares miner) (now : Instant)
    {client : Nat} {miner after : Miner} (isMiner : miners[client]? = some miner)
    (isAfter : (if config.requests.shares.vardiff.enabled then
      miners.map (Miner.checkIdle config.requests.shares now.ms) else miners)[client]? =
        some after) :
    Miner.Served config.requests.shares after ∧ after.authorized = miner.authorized := by
  have old := served miner (List.mem_of_getElem? isMiner)
  split at isAfter
  · next enabled =>
      rw [List.getElem?_map, isMiner, Option.map_some] at isAfter
      cases isAfter
      have swept := old.react (.checkIdle now.ms)
      rw [Miner.react, if_pos enabled] at swept
      exact ⟨swept, checkIdle_authorized config.requests.shares miner now.ms enabled⟩
  · rw [isMiner] at isAfter
    cases isAfter
    exact ⟨old, rfl⟩

/-- The sweep tells every client whose difficulty it lowers. -/
theorem Accord.checkIdleMiners (accord : Accord config.requests service) (now : Instant)
    (backlog : Nat → Nat → Nat) :
    Accord config.requests (service.checkIdleMiners config now backlog) := by
  have served : ∀ miner ∈ service.desk.miners, Miner.Served config.requests.shares miner := by
    intro miner member
    obtain ⟨client, found⟩ := List.mem_iff_getElem?.mp member
    exact accord.served found
  have length : (service.checkIdleMiners config now backlog).desk.miners.length =
      service.desk.miners.length := by
    unfold Service.checkIdleMiners
    dsimp only
    split
    · exact List.length_map _
    · rfl
  have found : ∀ {client : Nat} {after : Miner},
      (service.checkIdleMiners config now backlog).desk.miners[client]? = some after →
        ∃ miner, service.desk.miners[client]? = some miner ∧
          Miner.Served config.requests.shares after ∧ after.authorized = miner.authorized := by
    intro client after isAfter
    have bound := (List.getElem?_eq_some_iff.mp isAfter).1
    rw [length] at bound
    have isMiner := List.getElem?_eq_getElem bound
    exact ⟨_, isMiner, swept_served served now isMiner isAfter⟩
  apply accord.performEach (service.checkIdleMiners config now backlog) length rfl rfl
  · intro after member
    obtain ⟨client, isAfter⟩ := List.mem_iff_getElem?.mp member
    obtain ⟨miner, _, servedAfter, _⟩ := found isAfter
    exact servedAfter
  · intro client miner after socket isMiner isAfter agreed alive
    obtain ⟨same, isSame, servedAfter, authorized⟩ := found isAfter
    have equal : same = miner := Option.some.inj (isSame.symm.trans isMiner)
    rw [equal] at authorized
    have old : service.desk.miners.getD client after = miner := by
      rw [List.getD_eq_getElem?_getD, isMiner]
      rfl
    rw [outbound_idleEffects, old]
    exact keeps_retarget (knows_of_open agreed alive) agreed.served servedAfter authorized
      (fun _ member => absurd member List.not_mem_nil) rfl rfl

theorem desk_performEach (writer : ServiceConfig) (effects : Nat → Miner → List Effect)
    (backlog : Nat → Nat → Nat) (entries : List (Nat × Miner)) (service : Service) :
    (performEach writer effects backlog entries service).desk = service.desk := by
  induction entries generalizing service with
  | nil => rfl
  | cons entry rest ih =>
      apply (ih _).trans
      unfold Service.perform
      split <;> rfl

/-- A job for a client that knows. -/
theorem keeps_notify {miner : Miner} {before : List Outbound}
    (knows : Knows settings miner before) (job : Job) :
    Stratum.Keeps settings miner before [.notify job] := by
  have none : Jobless [] := fun _ member => absurd member List.not_mem_nil
  apply none.keeps_concat
  rw [List.append_nil]
  exact knows

/-- A job is sent to clients that know. -/
theorem Accord.broadcastJob (accord : Accord config.requests service) (job : Job)
    (backlog : Nat → Nat) :
    Accord config.requests (service.broadcastJob config job backlog) := by
  have desk : (service.broadcastJob config job backlog).desk = service.desk :=
    desk_performEach _ _ _ _ _
  have start : Accord config.requests { service with lastJob := some job } :=
    accord.of_same rfl rfl
  have sockets : (service.broadcastJob config job backlog).sockets =
      (Service.performEach { config with requests := { config.requests with logOutbound := false } }
        (fun _ miner => if miner.listed && miner.authorized then [.send (.notify job)] else [])
        (fun client _ => backlog client)
        (places (service.broadcastJob config job backlog).desk.miners)
        { service with lastJob := some job }).sockets := by
    rw [desk]
    rfl
  apply start.performEach (service.broadcastJob config job backlog) _ rfl sockets
  · rw [desk]
    intro miner member
    obtain ⟨client, found⟩ := List.mem_iff_getElem?.mp member
    exact accord.served found
  · rw [desk]
    intro client miner after socket isMiner isAfter agreed alive
    have same : after = miner := Option.some.inj (isAfter.symm.trans isMiner)
    rw [same]
    split
    · next receives =>
        rw [Bool.and_eq_true] at receives
        exact keeps_notify (agreed.knows receives.2 alive) job
    · exact keeps_nothing (knows_of_open agreed alive)
  · rw [desk]

theorem Accord.resend (accord : Accord config.requests service) {client : Nat} {miner : Miner}
    (present : service.desk.miners[client]? = some miner) (backlog : Nat) :
    Accord config.requests (service.resend config client miner backlog) := by
  unfold Service.resend
  split
  · next job _ =>
      split
      · next authorized =>
          have unchanged : (service.perform config client miner [.send (.notify job)]
              fun _ => backlog).desk.miners = service.desk.miners.set client miner := by
            obtain ⟨bound, rfl⟩ := List.getElem?_eq_some_iff.mp present
            rw [List.set_getElem_self]
            unfold Service.perform
            split <;> rfl
          apply accord.perform _ present unchanged config _ _ rfl (accord.served present)
          intro socket agreed alive
          exact keeps_notify (agreed.knows authorized alive) job
      · exact accord
  · exact accord

/-! ## Runs -/

theorem accord_initial (settings : RequestSettings) (walletAddress poolTarget : Text)
    (ledger : Ledger) (best : BestShare) :
    Accord settings (initial walletAddress poolTarget ledger best) where
  length := rfl
  agreed := by
    intro client miner socket isMiner
    contradiction

/-- Every event keeps the accord. -/
theorem Accord.next {deps : Externals} {target : Service} {event : ServiceEvent}
    (accord : Accord config.requests service)
    (named : NamesConvert config.requests.numbers service event)
    (step : Service.next deps config service event = some target) :
    Accord config.requests target := by
  cases event with
  | node event =>
      rw [Service.next] at step
      split at step
      · next node =>
          obtain ⟨desk, moved, rfl⟩ := Option.map_eq_some_iff.mp step
          exact accord.of_same (miners_of_isNode node moved) rfl
      · contradiction
  | connect now =>
      cases step
      exact accord.connect now.ms rfl rfl
  | disconnect client =>
      obtain ⟨desk, moved, rfl⟩ := Option.map_eq_some_iff.mp step
      obtain ⟨miner, present, rfl⟩ := Option.map_eq_some_iff.mp moved
      exact accord.withMiner present rfl rfl ⟨rfl, rfl⟩ rfl
  | destroy client =>
      cases step
      exact accord.destroy client
  | request client line now backlog =>
      obtain ⟨miner, present, rfl⟩ := Option.map_eq_some_iff.mp step
      exact accord.request present named deps now backlog
  | resume place now backlog =>
      obtain ⟨⟨handler, miner⟩, waits, rfl⟩ := Option.map_eq_some_iff.mp step
      exact accord.resume waits now backlog
  | checkIdleMiners now backlog =>
      cases step
      exact accord.checkIdleMiners now backlog
  | broadcastJob job backlog =>
      cases step
      exact accord.broadcastJob job backlog
  | resend client backlog =>
      obtain ⟨miner, present, rfl⟩ := Option.map_eq_some_iff.mp step
      exact accord.resend present backlog

end Events

/-- In every run whose authorizations have names that convert, the pool and
every client agree on the difficulty. -/
theorem agreed_of_run {deps : Externals} {config : ServiceConfig} {walletAddress poolTarget : Text}
    {ledger : Ledger} {best : BestShare} {events : List ServiceEvent} {service : Service}
    (named : Throughout (next deps config) (NamesConvert config.requests.numbers)
      (initial walletAddress poolTarget ledger best) events)
    (reached : run (next deps config) (initial walletAddress poolTarget ledger best) events =
      some service) {client : Nat} {miner : Miner}
    (present : service.desk.miners[client]? = some miner) :
    ∃ socket, service.sockets[client]? = some socket ∧ Agreed config.requests miner socket ∧
      ∀ current previous, miner.client.shareTarget = some current →
        miner.client.previousShareTarget = some previous →
          hexNumber current ≤ hexNumber previous := by
  have accord : Accord config.requests service :=
    named.invariant (Accord config.requests) (fun accord named step => accord.next named step)
      (accord_initial config.requests walletAddress poolTarget ledger best) reached
  have bound : client < service.sockets.length := by
    rw [accord.length]
    exact (List.getElem?_eq_some_iff.mp present).1
  have found := List.getElem?_eq_getElem bound
  have agreed := accord.agreed client miner _ present found
  refine ⟨_, found, agreed, ?_⟩
  intro current previous isCurrent isPrevious
  rw [agreed.served.target] at isCurrent
  cases isCurrent
  rw [hexNumber_targetForDifficulty]
  exact agreed.served.previous previous isPrevious

/-! ## One client -/

/-- The settings of a pool that sends targets. -/
def serviceExample : ServiceConfig :=
  ⟨settingsExample, Desk.configExample.ledger⟩

/-- The state at the start of a new pool. -/
def freshService : Service :=
  initial WorkManager.walletExample WorkManager.easiestTarget Desk.freshExample.ledger
    Desk.freshExample.allTimeBestShare

/-- A request with one parameter. -/
def requestExample (method : String) (param : Json) : Json :=
  .object [("id".toList, .number 1), ("method".toList, .string method.toList),
    ("params".toList, .array [param])]

/-- A client suggests a difficulty, authorizes, and suggests another. -/
def greetingEvents : List ServiceEvent :=
  [.connect Desk.noon,
    .request 0 (requestExample "mining.suggest_difficulty" (.number 5)) Desk.noon fun _ => 0,
    .request 0 (requestExample "mining.authorize" (.string "alice".toList)) Desk.noon fun _ => 0,
    .request 0 (requestExample "mining.suggest_difficulty" (.number 9)) Desk.noon fun _ => 0]

theorem namesConvert_greetingEvents :
    Throughout (next WorkManager.packagesExample serviceExample)
      (NamesConvert serviceExample.requests.numbers) freshService greetingEvents := by
  refine ⟨trivial, fun _ _ => ⟨?_, fun _ _ => ⟨?_, fun _ _ => ⟨?_, fun _ _ => trivial⟩⟩⟩⟩
  · rintro other
    contradiction
  · exact fun _ => not_nameless (Or.inr ⟨"alice".toList, rfl⟩)
  · rintro other
    contradiction

theorem agreed_greetingEvents : ∃ service miner,
    run (next WorkManager.packagesExample serviceExample) freshService greetingEvents =
        some service ∧
      service.desk.miners[0]? = some miner ∧
      ∃ socket, service.sockets[0]? = some socket ∧ Agreed settingsExample miner socket ∧
        ∀ current previous, miner.client.shareTarget = some current →
          miner.client.previousShareTarget = some previous →
            hexNumber current ≤ hexNumber previous := by
  have some' : ((run (next WorkManager.packagesExample serviceExample) freshService
      greetingEvents).bind fun service => service.desk.miners[0]?).isSome = true := rfl
  obtain ⟨miner, found⟩ := Option.isSome_iff_exists.mp some'
  obtain ⟨service, reached, present⟩ := Option.bind_eq_some_iff.mp found
  exact ⟨service, miner, reached, present,
    agreed_of_run namesConvert_greetingEvents reached present⟩

end Service

end ZcashSoloPool.Pool
