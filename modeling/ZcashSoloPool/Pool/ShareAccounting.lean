import ZcashSoloPool.Pool.SubmitHandler
import ZcashSoloPool.WorkManager.BlockSearch

/-!
# Share accounting

The counters of shares, of the clients and of the pool, against the handlers of
submissions.  Only submissions and the continuations of their handlers touch
them.
-/

namespace ZcashSoloPool.Pool

open ZcashSoloPool.Bytes
open ZcashSoloPool.JavaScript
open ZcashSoloPool.Stratum
open ZcashSoloPool.Transition
open ZcashSoloPool.WorkManager

namespace Desk

variable {deps : Externals} {hostile : Nat → Bool} {config : DeskConfig}

/-! ## Steps that concern no share -/

/-- The accounts of the clients. -/
def accounts (desk : Desk) : List (Metrics × List Nat) :=
  desk.miners.map Miner.account

theorem accounts_getElem? {desk : Desk} {client : Nat} {miner : Miner}
    (present : desk.miners[client]? = some miner) :
    desk.accounts[client]? = some miner.account := by
  rw [accounts, List.getElem?_map, present]
  rfl

/-- The shares are as before; a new client starts with an empty account. -/
structure SameShares (desk target : Desk) : Prop where
  accounts : target.accounts = desk.accounts ∨
    target.accounts = desk.accounts ++ [(.initial, [])]
  handlers : target.handlers = desk.handlers
  responses : target.responses = desk.responses
  outcomes : target.outcomes = desk.outcomes
  unconvertible : target.unconvertible = desk.unconvertible
  shares : target.shares = desk.shares
  rejectedShares : target.rejectedShares = desk.rejectedShares

theorem SameShares.refl (desk : Desk) : SameShares desk desk :=
  ⟨Or.inl rfl, rfl, rfl, rfl, rfl, rfl, rfl⟩

/-- An account after such a step is an earlier one or the empty one of the new
client. -/
theorem SameShares.account_cases {desk target : Desk} (same : SameShares desk target)
    {client : Nat} {account : Metrics × List Nat}
    (found : target.accounts[client]? = some account) :
    desk.accounts[client]? = some account ∨
      client = desk.accounts.length ∧ account = (.initial, []) := by
  rcases same.accounts with equal | added
  · rw [equal] at found
    exact Or.inl found
  · rw [added] at found
    by_cases inside : client < desk.accounts.length
    · rw [List.getElem?_append_left inside] at found
      exact Or.inl found
    · have bound := (List.getElem?_eq_some_iff.mp found).1
      rw [List.length_append, List.length_singleton] at bound
      have isNew : client = desk.accounts.length := by omega
      subst isNew
      rw [List.getElem?_concat_length] at found
      cases found
      exact Or.inr ⟨rfl, rfl⟩

theorem sameShares_withMiner {desk target : Desk} {client : Nat} {change : Miner → Miner}
    (step : desk.withMiner client change = some target)
    (kept : ∀ miner, (change miner).account = miner.account) : SameShares desk target := by
  obtain ⟨miner, present, rfl⟩ := Option.map_eq_some_iff.mp step
  exact ⟨Or.inl (map_set_of_eq present (kept miner)), rfl, rfl, rfl, rfl, rfl, rfl⟩

theorem sameShares_withLedger {desk target : Desk} {event : LedgerEvent}
    (step : desk.withLedger config event = some target) : SameShares desk target := by
  obtain ⟨ledger, _, rfl⟩ := Option.map_eq_some_iff.mp step
  exact ⟨Or.inl rfl, rfl, rfl, rfl, rfl, rfl, rfl⟩

/-- Neither a submission nor the continuation of one. -/
def Quiet : DeskEvent → Prop
  | .submit _ _ _ _ => False
  | .resume _ _ => False
  | _ => True

theorem next_quiet {desk target : Desk} {event : DeskEvent}
    (step : next deps hostile config desk event = some target) (quiet : Quiet event) :
    SameShares desk target := by
  cases event with
  | generateJob cleanJobs reply =>
      cases step
      exact ⟨Or.inl rfl, rfl, rfl, rfl, rfl, rfl, rfl⟩
  | network network =>
      cases step
      exact ⟨Or.inl rfl, rfl, rfl, rfl, rfl, rfl, rfl⟩
  | connect now =>
      cases step
      exact ⟨Or.inr (List.map_append.trans rfl), rfl, rfl, rfl, rfl, rfl, rfl⟩
  | disconnect client => exact sameShares_withMiner step fun _ => rfl
  | authorize client user => exact sameShares_withMiner step fun _ => rfl
  | authorizeThrows client => exact sameShares_withMiner step fun _ => rfl
  | suggestDifficulty client suggested now =>
      exact sameShares_withMiner step fun miner =>
        Miner.account_suggestDifficulty config.shares suggested now.ms miner
  | checkIdleMiners now =>
      cases step
      split
      · refine ⟨Or.inl ?_, rfl, rfl, rfl, rfl, rfl, rfl⟩
        rw [accounts, List.map_map]
        exact List.map_congr_left fun miner _ =>
          Miner.account_checkIdle config.shares now.ms miner
      · exact .refl desk
  | submit client requestId params now => exact absurd quiet id
  | resume place now => exact absurd quiet id
  | verdict call reply now => exact sameShares_withLedger step
  | proposal call reply => exact sameShares_withLedger step
  | cleanup now => exact sameShares_withLedger step

/-! ## The continuation of a handler -/

/-- The handler's validation threw. -/
def threw (handler : Handler) : Bool :=
  match handler.result with
  | .error _ => true
  | .ok _ => false

/-- The handler's validation accepted the share. -/
def accepts (handler : Handler) : Bool :=
  match handler.result with
  | .ok (.valid _) => true
  | _ => false

/-- The outcome is the one of the handler. -/
def Records (handler : Handler) (recorded : Recorded) : Prop :=
  recorded.client = handler.client ∧ recorded.outcome.isAccepted = accepts handler

/-- What the continuation of a handler changes: it responds once and records
one outcome. -/
structure Settles (desk : Desk) (place : Nat) (handler : Handler) (miner : Miner) (target : Desk)
    (recorded : Recorded) (after : Miner) : Prop where
  handlers : target.handlers = desk.handlers.set place { handler with settled := true }
  responses : ∃ reply, target.responses =
    desk.responses ++ [⟨place, handler.client, handler.requestId, reply⟩]
  outcomes : target.outcomes = desk.outcomes ++ [recorded]
  recordedPlace : recorded.handler = place
  records : Records handler recorded
  miners : target.miners = desk.miners.set handler.client after
  unconvertible : target.unconvertible = desk.unconvertible
  submits : after.metrics.submits = miner.metrics.submits
  accepted : after.metrics.accepted =
    miner.metrics.accepted + if accepts handler then 1 else 0
  rejected : after.metrics.rejected =
    miner.metrics.rejected + if accepts handler then 0 else 1
  recentAccepted : after.metrics.recentAccepted.length ≤
    miner.metrics.recentAccepted.length + if accepts handler then 1 else 0
  shareTimes : after.shareTimes.length ≤
    miner.shareTimes.length + if accepts handler then 1 else 0
  shares : target.shares = desk.shares + if accepts handler then 1 else 0
  rejectedShares : (target.rejectedShares + if threw handler then 1 else 0) =
    desk.rejectedShares + if accepts handler then 0 else 1

theorem settles_refuse (config : DeskConfig) (desk : Desk) (place : Nat) {handler : Handler}
    (miner : Miner) (code : Nat) (reason : String) (now : Instant) (extra : Nat)
    (refused : accepts handler = false)
    (counted : (extra + if threw handler then 1 else 0) = 1) :
    ∃ recorded after, Settles desk place handler miner
      { desk.refuse config place handler miner code reason now with
        rejectedShares := desk.rejectedShares + extra } recorded after := by
  have counts := counts_recordShareOutcome config.shares miner (.rejected reason) now.ms
  refine ⟨_, _, rfl, ⟨_, rfl⟩, rfl, rfl, ⟨rfl, refused.symm⟩, rfl, rfl, counts.submits, ?_, ?_, ?_,
    ?_, ?_, ?_⟩
  · rw [refused]
    exact counts.accepted
  · rw [refused]
    exact counts.rejected
  · rw [refused]
    exact counts.recentAccepted
  · exact Nat.le_add_right _ _
  · rw [refused]
    rfl
  · rw [refused, Nat.add_assoc, counted]
    rfl

/-- The account after an accepted share. -/
theorem account_creditMiner (config : DeskConfig) (desk : Desk) (share : AcceptedShare)
    (miner : Miner) (now : Instant) :
    let after := desk.creditMiner config share miner now
    Counts miner.metrics { after.metrics with blocksFound := miner.metrics.blocksFound } true ∧
      (after.metrics.blocksFound =
        miner.metrics.blocksFound + if share.isBlock then 1 else 0) ∧
      after.shareTimes.length ≤ miner.shareTimes.length + 1 := by
  let recorded := recordShareOutcome config.shares miner (desk.acceptedOutcome share miner) now.ms
  have counts : Counts miner.metrics recorded.metrics true :=
    counts_recordShareOutcome config.shares miner (desk.acceptedOutcome share miner) now.ms
  have times := recorded.length_shareTimes_noteAcceptedShare_le config.shares now.ms
  rw [← recorded.metrics_noteAcceptedShare config.shares now.ms] at counts
  unfold creditMiner
  dsimp only
  split
  · exact ⟨{ counts with blocksFound := rfl }, congrArg (· + 1) counts.blocksFound, times⟩
  · exact ⟨{ counts with blocksFound := rfl }, counts.blocksFound, times⟩

theorem settles_resume (config : DeskConfig) (desk : Desk) (place : Nat) (handler : Handler)
    (miner : Miner) (now : Instant) :
    ∃ recorded after, Settles desk place handler miner
      (desk.resume config place handler miner now) recorded after := by
  unfold resume
  split
  · next message thrown =>
      exact settles_refuse config desk place miner 20 _ now 0 (by rw [accepts, thrown])
        (by rw [threw, thrown]; rfl)
  · next error invalid =>
      exact settles_refuse config desk place miner 23 error now 1 (by rw [accepts, invalid])
        (by rw [threw, invalid]; rfl)
  · next share valid =>
      obtain ⟨counts, _, times⟩ :=
        account_creditMiner config desk share miner now
      have accepted : accepts handler = true := by rw [accepts, valid]
      have calm : threw handler = false := by rw [threw, valid]
      refine ⟨_, _, rfl, ⟨_, rfl⟩, rfl, rfl, ⟨rfl, accepted.symm⟩, rfl, rfl, counts.submits, ?_, ?_,
        ?_, ?_, ?_, ?_⟩
      · rw [accepted]
        exact counts.accepted
      · rw [accepted]
        exact counts.rejected
      · rw [accepted]
        exact counts.recentAccepted
      · rw [accepted]
        exact times
      · rw [accepted]
        rfl
      · rw [accepted, calm]
        rfl

/-! ## One answer for each handler -/

/-- Each settled handler has exactly one entry, which fits it, and the others
have none. -/
def Answered {α : Type} (number : α → Nat) (fits : Handler → α → Prop) (handlers : List Handler)
    (entries : List α) : Prop :=
  ∀ place,
    (∃ handler entry, handlers[place]? = some handler ∧ handler.settled = true ∧
      fits handler entry ∧ entries.filter (fun e => decide (number e = place)) = [entry]) ∨
    ((∀ handler, handlers[place]? = some handler → handler.settled = false) ∧
      entries.filter (fun e => decide (number e = place)) = [])

theorem Answered.start {α : Type} {number : α → Nat} {fits : Handler → α → Prop}
    {handlers : List Handler} {entries : List α} (answered : Answered number fits handlers entries)
    {handler : Handler} (open' : handler.settled = false) :
    Answered number fits (handlers ++ [handler]) entries := by
  intro place
  rcases answered place with ⟨other, entry, found, settled⟩ | ⟨unsettled, none⟩
  · refine Or.inl ⟨other, entry, ?_, settled⟩
    rw [List.getElem?_append_left (List.getElem?_eq_some_iff.mp found).1]
    exact found
  · refine Or.inr ⟨fun other found => ?_, none⟩
    by_cases inside : place < handlers.length
    · rw [List.getElem?_append_left inside] at found
      exact unsettled other found
    · rw [List.getElem?_append_right (Nat.le_of_not_lt inside)] at found
      rw [List.mem_singleton.mp (List.mem_of_getElem? found)]
      exact open'

theorem Answered.settle {α : Type} {number : α → Nat} {fits : Handler → α → Prop}
    {handlers : List Handler} {entries : List α} (answered : Answered number fits handlers entries)
    {place : Nat} {handler settled : Handler} (found : handlers[place]? = some handler)
    (open' : handler.settled = false) (closed : settled.settled = true) {entry : α}
    (numbered : number entry = place) (fit : fits settled entry) :
    Answered number fits (handlers.set place settled) (entries ++ [entry]) := by
  have bound := (List.getElem?_eq_some_iff.mp found).1
  intro other
  rw [List.filter_append]
  by_cases same : place = other
  · subst same
    refine Or.inl ⟨settled, entry, List.getElem?_set_self bound, closed, fit, ?_⟩
    rcases answered place with ⟨earlier, _, earlierFound, earlierSettled, _⟩ | ⟨_, none⟩
    · rw [found] at earlierFound
      cases earlierFound
      rw [open'] at earlierSettled
      contradiction
    · simp [none, numbered]
  · have unlike : [entry].filter (fun e => decide (number e = other)) = [] := by
      simp [numbered, same]
    rw [List.getElem?_set_ne same, unlike, List.append_nil]
    exact answered other

/-! ## The counters against the handlers -/

/-- The submissions of a client that wait for their validation. -/
def inFlight (desk : Desk) (client : Nat) : Nat :=
  desk.handlers.countP fun handler => !handler.settled && decide (handler.client = client)

/-- The completed submissions of a client that were accepted. -/
def credits (desk : Desk) (client : Nat) : Nat :=
  desk.handlers.countP fun handler =>
    handler.settled && accepts handler && decide (handler.client = client)

/-- The account of a client: every submission that was counted is accepted,
rejected, in flight or lost, and nothing but a credit adds to the window and to
the times. -/
structure Balances (desk : Desk) (client : Nat) (account : Metrics × List Nat) : Prop where
  submits : account.1.submits = account.1.accepted + account.1.rejected + desk.inFlight client +
    desk.unconvertible.count client
  accepted : account.1.accepted = desk.credits client
  recentAccepted : account.1.recentAccepted.length ≤ desk.credits client
  shareTimes : account.2.length ≤ desk.credits client

/-- The responses and the counters against the handlers. -/
structure Accounted (desk : Desk) : Prop where
  responses : Answered Response.handler
    (fun handler response => response.client = handler.client ∧
      response.requestId = handler.requestId) desk.handlers desk.responses
  outcomes : Answered Recorded.handler Records desk.handlers desk.outcomes
  handlerClients : ∀ handler ∈ desk.handlers, handler.client < desk.accounts.length
  lostClients : ∀ client ∈ desk.unconvertible, client < desk.accounts.length
  clients : ∀ client account, desk.accounts[client]? = some account →
    Balances desk client account
  shares : desk.shares =
    desk.handlers.countP fun handler => handler.settled && accepts handler
  completed : desk.shares + desk.rejectedShares +
      desk.handlers.countP (fun handler => handler.settled && threw handler) =
    desk.handlers.countP fun handler => handler.settled

theorem accounted_initial (walletAddress poolTarget : Text) (ledger : Ledger) (best : BestShare) :
    Accounted (initial walletAddress poolTarget ledger best) where
  responses := fun _ => Or.inr ⟨fun _ found => by simp [initial] at found, rfl⟩
  outcomes := fun _ => Or.inr ⟨fun _ found => by simp [initial] at found, rfl⟩
  handlerClients := fun _ member => absurd member List.not_mem_nil
  lostClients := fun _ member => absurd member List.not_mem_nil
  clients := fun client account present => by simp [accounts, initial] at present
  shares := rfl
  completed := rfl

/-- A client with a number that nothing has. -/
theorem Accounted.balances_new {desk : Desk} (accounted : Accounted desk) :
    Balances desk desk.accounts.length (.initial, []) := by
  have flying : desk.inFlight desk.accounts.length = 0 := by
    rw [inFlight, List.countP_eq_zero]
    intro handler member
    have bound := accounted.handlerClients handler member
    simp [Nat.ne_of_lt bound]
  have credited : desk.credits desk.accounts.length = 0 := by
    rw [credits, List.countP_eq_zero]
    intro handler member
    have bound := accounted.handlerClients handler member
    simp [Nat.ne_of_lt bound]
  have lost : desk.unconvertible.count desk.accounts.length = 0 := by
    rw [List.count_eq_zero]
    exact fun member => Nat.lt_irrefl _ (accounted.lostClients _ member)
  refine ⟨?_, ?_, Nat.zero_le _, Nat.zero_le _⟩
  · rw [flying, lost]
    rfl
  · rw [credited]
    rfl

theorem Balances.of_same {desk target : Desk} (same : SameShares desk target) {client : Nat}
    {account : Metrics × List Nat} (balances : Balances desk client account) :
    Balances target client account := by
  have flying : target.inFlight client = desk.inFlight client := by
    rw [inFlight, same.handlers, inFlight]
  have credited : target.credits client = desk.credits client := by
    rw [credits, same.handlers, credits]
  refine ⟨?_, ?_, ?_, ?_⟩
  · rw [flying, same.unconvertible]
    exact balances.submits
  · rw [credited]
    exact balances.accepted
  · rw [credited]
    exact balances.recentAccepted
  · rw [credited]
    exact balances.shareTimes

theorem Accounted.of_same {desk target : Desk} (accounted : Accounted desk)
    (same : SameShares desk target) : Accounted target := by
  have grows : desk.accounts.length ≤ target.accounts.length := by
    rcases same.accounts with equal | added
    · rw [equal]
    · rw [added, List.length_append]
      exact Nat.le_add_right _ _
  refine ⟨?_, ?_, ?_, ?_, fun client account present => ?_, ?_, ?_⟩
  · rw [same.handlers, same.responses]
    exact accounted.responses
  · rw [same.handlers, same.outcomes]
    exact accounted.outcomes
  · rw [same.handlers]
    exact fun handler member =>
      Nat.lt_of_lt_of_le (accounted.handlerClients handler member) grows
  · rw [same.unconvertible]
    exact fun client member => Nat.lt_of_lt_of_le (accounted.lostClients client member) grows
  · refine Balances.of_same same ?_
    rcases same.account_cases present with earlier | ⟨rfl, rfl⟩
    · exact accounted.clients client account earlier
    · exact accounted.balances_new
  · rw [same.shares, same.handlers]
    exact accounted.shares
  · rw [same.shares, same.rejectedShares, same.handlers]
    exact accounted.completed

/-! ## Steps that concern shares -/

/-- The account that a change of one client leaves to a client. -/
theorem accounts_set {desk target : Desk} {client : Nat} {before after : Miner}
    (present : desk.miners[client]? = some before)
    (miners : target.miners = desk.miners.set client after) {other : Nat}
    {account : Metrics × List Nat} (found : target.accounts[other]? = some account) :
    (other = client ∧ account = after.account) ∨
      (other ≠ client ∧ desk.accounts[other]? = some account) := by
  have bound := (List.getElem?_eq_some_iff.mp (accounts_getElem? present)).1
  have target' : target.accounts = desk.accounts.set client after.account := by
    rw [accounts, miners, List.map_set, accounts]
  rw [target'] at found
  by_cases same : client = other
  · subst same
    rw [List.getElem?_set_self bound] at found
    cases found
    exact Or.inl ⟨rfl, rfl⟩
  · rw [List.getElem?_set_ne same] at found
    exact Or.inr ⟨Ne.symm same, found⟩

theorem length_accounts_set (desk target : Desk) {client : Nat} {after : Miner}
    (miners : target.miners = desk.miners.set client after) :
    target.accounts.length = desk.accounts.length := by
  rw [accounts, miners, List.length_map, List.length_set, accounts, List.length_map]

/-- A submission that is counted and lost. -/
theorem Accounted.lose {desk : Desk} (accounted : Accounted desk) {client : Nat} {miner : Miner}
    (present : desk.miners[client]? = some miner) :
    Accounted { desk with
      miners := desk.miners.set client (countSubmit miner)
      unconvertible := desk.unconvertible ++ [client] } := by
  have lengths := length_accounts_set desk { desk with
    miners := desk.miners.set client (countSubmit miner)
    unconvertible := desk.unconvertible ++ [client] } rfl
  have bound := (List.getElem?_eq_some_iff.mp (accounts_getElem? present)).1
  refine ⟨accounted.responses, accounted.outcomes, ?_, ?_, fun other account found => ?_,
    accounted.shares, accounted.completed⟩
  · rw [lengths]
    exact accounted.handlerClients
  · rw [lengths]
    intro other member
    rcases List.mem_append.mp member with earlier | new
    · exact accounted.lostClients other earlier
    · rw [List.mem_singleton.mp new]
      exact bound
  · rcases accounts_set present rfl found with ⟨rfl, rfl⟩ | ⟨different, before⟩
    · have balances := accounted.clients other miner.account (accounts_getElem? present)
      refine ⟨?_, balances.accepted, balances.recentAccepted, balances.shareTimes⟩
      have submits := balances.submits
      rw [List.count_append, List.count_singleton_self]
      change miner.metrics.submits = _ at submits
      change miner.metrics.submits + 1 = _
      rw [submits]
      rfl
    · have balances := accounted.clients other account before
      refine ⟨?_, balances.accepted, balances.recentAccepted, balances.shareTimes⟩
      rw [List.count_append, List.count_singleton, beq_eq_false_iff_ne.mpr (Ne.symm different)]
      exact balances.submits

/-- A submission that starts a handler. -/
theorem Accounted.start {desk : Desk} (accounted : Accounted desk) {client : Nat}
    {miner named : Miner} (present : desk.miners[client]? = some miner)
    (counted : named.account = (countSubmit miner).account) {handler : Handler}
    (ofClient : handler.client = client) (open' : handler.settled = false) :
    Accounted { desk with
      miners := desk.miners.set client named
      handlers := desk.handlers ++ [handler] } := by
  have lengths := length_accounts_set desk { desk with
    miners := desk.miners.set client named
    handlers := desk.handlers ++ [handler] } rfl
  have bound := (List.getElem?_eq_some_iff.mp (accounts_getElem? present)).1
  have credited : ∀ other, Desk.credits { desk with
      miners := desk.miners.set client named
      handlers := desk.handlers ++ [handler] } other = desk.credits other := by
    intro other
    rw [credits, List.countP_append, List.countP_singleton, open']
    rfl
  refine ⟨accounted.responses.start open', accounted.outcomes.start open', ?_, ?_,
    fun other account found => ?_, ?_, ?_⟩
  · rw [lengths]
    intro other member
    rcases List.mem_append.mp member with earlier | new
    · exact accounted.handlerClients other earlier
    · rw [List.mem_singleton.mp new, ofClient]
      exact bound
  · rw [lengths]
    exact accounted.lostClients
  · rcases accounts_set present rfl found with ⟨rfl, rfl⟩ | ⟨different, before⟩
    · have balances := accounted.clients other miner.account (accounts_getElem? present)
      rw [counted]
      refine ⟨?_, balances.accepted.trans (credited _).symm,
        (credited _).symm ▸ balances.recentAccepted, (credited _).symm ▸ balances.shareTimes⟩
      have submits := balances.submits
      change miner.metrics.submits = _ at submits
      change miner.metrics.submits + 1 = miner.metrics.accepted + miner.metrics.rejected +
        (desk.handlers ++ [handler]).countP _ + desk.unconvertible.count other
      change miner.metrics.submits = miner.metrics.accepted + miner.metrics.rejected +
        desk.handlers.countP _ + desk.unconvertible.count other at submits
      rw [List.countP_append, List.countP_singleton, open', ofClient, submits]
      simp only [Bool.not_false, decide_true, Bool.and_self, if_true]
      omega
    · have balances := accounted.clients other account before
      refine ⟨?_, balances.accepted.trans (credited _).symm,
        (credited _).symm ▸ balances.recentAccepted, (credited _).symm ▸ balances.shareTimes⟩
      rw [inFlight, List.countP_append, List.countP_singleton, ofClient,
        decide_eq_false (Ne.symm different), Bool.and_false, if_neg Bool.false_ne_true, Nat.add_zero]
      exact balances.submits
  · have shares := accounted.shares
    simpa [List.countP_append, open'] using shares
  · have completed := accounted.completed
    simpa [List.countP_append, open'] using completed

/-- Counting with one entry replaced. -/
theorem countP_set_add {handlers : List Handler} {place : Nat} {old : Handler} (new : Handler)
    (found : handlers[place]? = some old) (test : Handler → Bool) :
    (handlers.set place new).countP test + (if test old then 1 else 0) =
      handlers.countP test + if test new then 1 else 0 := by
  obtain ⟨bound, rfl⟩ := List.getElem?_eq_some_iff.mp found
  rw [List.countP_set bound]
  have one : (if test handlers[place] then 1 else 0) ≤ handlers.countP test := by
    split
    · next yes => exact List.countP_pos_iff.mpr ⟨_, List.getElem_mem bound, yes⟩
    · exact Nat.zero_le _
  omega

theorem Settles.inFlight {desk target : Desk} {place : Nat} {handler : Handler}
    {miner after : Miner}
    {recorded : Recorded} (settles : Settles desk place handler miner target recorded after)
    (found : desk.handlers[place]? = some handler) (open' : handler.settled = false)
    (client : Nat) :
    target.inFlight client + (if handler.client = client then 1 else 0) = desk.inFlight client := by
  have replaced := countP_set_add { handler with settled := true } found
    fun handler => !handler.settled && decide (handler.client = client)
  simp only [open', Bool.not_false, Bool.true_and, decide_eq_true_eq, Bool.not_true,
    Bool.false_and, Bool.false_eq_true, if_false, Nat.add_zero] at replaced
  rw [Desk.inFlight, settles.handlers]
  exact replaced

theorem Settles.credits {desk target : Desk} {place : Nat} {handler : Handler} {miner after : Miner}
    {recorded : Recorded} (settles : Settles desk place handler miner target recorded after)
    (found : desk.handlers[place]? = some handler) (open' : handler.settled = false)
    (client : Nat) :
    target.credits client = desk.credits client +
      if accepts handler = true ∧ handler.client = client then 1 else 0 := by
  have replaced := countP_set_add { handler with settled := true } found
    fun handler => handler.settled && accepts handler && decide (handler.client = client)
  have same : accepts { handler with settled := true } = accepts handler := rfl
  simp only [open', Bool.false_and, Bool.false_eq_true, if_false, Nat.add_zero, Bool.true_and,
    same, Bool.and_eq_true, decide_eq_true_eq] at replaced
  rw [Desk.credits, settles.handlers]
  exact replaced

/-- The continuation of a handler. -/
theorem Accounted.settle {desk target : Desk} (accounted : Accounted desk) {place : Nat}
    {handler : Handler} {miner after : Miner} {recorded : Recorded}
    (settles : Settles desk place handler miner target recorded after)
    (found : desk.handlers[place]? = some handler) (open' : handler.settled = false)
    (present : desk.miners[handler.client]? = some miner) : Accounted target := by
  have lengths := length_accounts_set desk target settles.miners
  have bound := (List.getElem?_eq_some_iff.mp (accounts_getElem? present)).1
  have flying := settles.inFlight found open'
  have credited := settles.credits found open'
  refine ⟨?_, ?_, ?_, ?_, fun other account found => ?_, ?_, ?_⟩
  · rcases settles.responses with ⟨reply, responses⟩
    rw [settles.handlers, responses]
    exact accounted.responses.settle found open' rfl rfl ⟨rfl, rfl⟩
  · rw [settles.handlers, settles.outcomes]
    exact accounted.outcomes.settle found open' rfl settles.recordedPlace settles.records
  · rw [lengths, settles.handlers]
    intro other member
    rcases List.mem_or_eq_of_mem_set member with earlier | rfl
    · exact accounted.handlerClients other earlier
    · exact bound
  · rw [lengths, settles.unconvertible]
    exact accounted.lostClients
  · rcases accounts_set present settles.miners found with ⟨rfl, rfl⟩ | ⟨different, before⟩
    · have balances := accounted.clients _ miner.account (accounts_getElem? present)
      have flyingHere := flying handler.client
      have creditedHere := credited handler.client
      rw [if_pos rfl] at flyingHere
      simp only [and_true] at creditedHere
      refine ⟨?_, ?_, ?_, ?_⟩
      · have submits := balances.submits
        change miner.metrics.submits = miner.metrics.accepted + miner.metrics.rejected + _ + _
          at submits
        change after.metrics.submits = after.metrics.accepted + after.metrics.rejected + _ + _
        rw [settles.submits, settles.accepted, settles.rejected, settles.unconvertible]
        split <;> omega
      · rw [creditedHere]
        exact settles.accepted.trans (congrArg (· + _) balances.accepted)
      · rw [creditedHere]
        exact settles.recentAccepted.trans (Nat.add_le_add_right balances.recentAccepted _)
      · rw [creditedHere]
        exact settles.shareTimes.trans (Nat.add_le_add_right balances.shareTimes _)
    · have balances := accounted.clients other account before
      have flyingOther := flying other
      have creditedOther := credited other
      rw [if_neg (Ne.symm different)] at flyingOther
      rw [if_neg fun both => different both.2.symm] at creditedOther
      refine ⟨?_, ?_, ?_, ?_⟩
      · rw [settles.unconvertible, ← Nat.add_zero (target.inFlight other), flyingOther]
        exact balances.submits
      · rw [creditedOther]
        exact balances.accepted
      · rw [creditedOther]
        exact balances.recentAccepted
      · rw [creditedOther]
        exact balances.shareTimes
  · have acceptedCount := countP_set_add { handler with settled := true } found
      fun handler => handler.settled && accepts handler
    have same : accepts { handler with settled := true } = accepts handler := rfl
    simp only [open', Bool.false_and, Bool.false_eq_true, if_false, Nat.add_zero, Bool.true_and,
      same] at acceptedCount
    rw [settles.shares, accounted.shares, settles.handlers, acceptedCount]
  · have settledCount := countP_set_add { handler with settled := true } found
      fun handler => handler.settled
    have threwCount := countP_set_add { handler with settled := true } found
      fun handler => handler.settled && threw handler
    have same : threw { handler with settled := true } = threw handler := rfl
    simp only [open', Bool.false_and, Bool.false_eq_true, if_false, Nat.add_zero, Bool.true_and,
      if_true, same] at settledCount threwCount
    have completed := accounted.completed
    have rejected := settles.rejectedShares
    have shares := settles.shares
    have one : (if accepts handler then 1 else 0) + (if accepts handler then 0 else 1) = 1 := by
      split <;> rfl
    rw [settles.handlers, settledCount, threwCount]
    omega

theorem Accounted.next {desk target : Desk} {event : DeskEvent} (accounted : Accounted desk)
    (step : Desk.next deps hostile config desk event = some target) : Accounted target := by
  cases event with
  | submit client requestId params now =>
      obtain ⟨miner, present, rfl⟩ := Option.map_eq_some_iff.mp step
      rcases submit_cases deps hostile config desk client miner requestId params now with
        ⟨_, same⟩ | ⟨_, lost⟩ | ⟨_, _, submission, workerName, _, started⟩
      · rw [same]
        exact accounted
      · rw [lost]
        exact accounted.lose present
      · rw [started]
        refine accounted.start present ?_ ?_ ?_
        · rfl
        · rfl
        · rfl
  | resume place now =>
      obtain ⟨handler, miner, found, open', present, rfl⟩ := next_resume step
      obtain ⟨recorded, after, settles⟩ :=
        settles_resume config desk place handler miner now
      exact accounted.settle settles found open' present
  | _ => exact accounted.of_same (next_quiet step trivial)

theorem accounted_of_run {walletAddress poolTarget : Text} {ledger : Ledger} {best : BestShare}
    {events : List DeskEvent} {desk : Desk}
    (reached : run (Desk.next deps hostile config) (initial walletAddress poolTarget ledger best)
      events = some desk) : Accounted desk :=
  run_invariant Accounted (fun accounted step => accounted.next step)
    (accounted_initial walletAddress poolTarget ledger best) reached

/-! ## Conservation -/

/-- The event is a submission of an authorized client whose parameters
parse. -/
def submits (hostile : Nat → Bool) (desk : Desk) : DeskEvent → Bool
  | .submit client _ params _ =>
      match desk.miners[client]? with
      | some miner => parses hostile miner params
      | none => false
  | _ => false

/-- The number of these in a run. -/
def submitted (deps : Externals) (hostile : Nat → Bool) (config : DeskConfig) :
    Desk → List DeskEvent → Nat
  | _, [] => 0
  | desk, event :: rest =>
      (if submits hostile desk event then 1 else 0) +
        match next deps hostile config desk event with
        | some target => submitted deps hostile config target rest
        | none => 0

/-- No submission is lost to a worker that throws or to a length that throws in the
line of the audit, and no handler continues whose validation threw. -/
def Answerable (hostile : Nat → Bool) (config : DeskConfig) (desk : Desk) : DeskEvent → Prop
  | .submit client _ params _ => ∀ miner, desk.miners[client]? = some miner →
      ¬Loses hostile config miner params
  | .resume place _ => ∀ handler, desk.handlers[place]? = some handler → threw handler = false
  | _ => True

/-- The submissions that were lost or whose validation threw. -/
def faults (desk : Desk) : Nat :=
  desk.unconvertible.length +
    desk.handlers.countP fun handler => handler.settled && threw handler

theorem SameShares.faults {desk target : Desk} (same : SameShares desk target) :
    target.faults = desk.faults := by
  rw [Desk.faults, same.unconvertible, same.handlers, Desk.faults]

/-- Faults come from steps that are not answerable, one from each. -/
theorem faults_next {desk target : Desk} {event : DeskEvent}
    (step : next deps hostile config desk event = some target) :
    (Answerable hostile config desk event ∧ target.faults = desk.faults) ∨
      (¬Answerable hostile config desk event ∧ target.faults = desk.faults + 1) := by
  cases event with
  | submit client requestId params now =>
      obtain ⟨miner, present, rfl⟩ := Option.map_eq_some_iff.mp step
      have answerable : Answerable hostile config desk (.submit client requestId params now) ↔
          ¬Loses hostile config miner params := by
        refine ⟨fun all => all miner present, fun kept other found => ?_⟩
        rw [present] at found
        cases found
        exact kept
      rw [answerable]
      rcases submit_cases deps hostile config desk client miner requestId params now with
        ⟨unparsed, same⟩ | ⟨loses, lost⟩ | ⟨_, kept, submission, workerName, _, started⟩
      · refine Or.inl ⟨fun loses => ?_, by rw [same]⟩
        rw [loses.1] at unparsed
        contradiction
      · refine Or.inr ⟨not_not.mpr loses, ?_⟩
        rw [lost, faults, List.length_append, List.length_singleton, Nat.add_right_comm, faults]
      · refine Or.inl ⟨kept, ?_⟩
        rw [started, faults, List.countP_append, List.countP_singleton]
        rfl
  | resume place now =>
      obtain ⟨handler, miner, found, open', present, rfl⟩ := next_resume step
      obtain ⟨recorded, after, settles⟩ :=
        settles_resume config desk place handler miner now
      have answerable : Answerable hostile config desk (.resume place now) ↔
          threw handler = false := by
        refine ⟨fun all => all handler found, fun sound other otherFound => ?_⟩
        rw [found] at otherFound
        cases otherFound
        exact sound
      have counted := countP_set_add { handler with settled := true } found
        fun handler => handler.settled && threw handler
      have same : threw { handler with settled := true } = threw handler := rfl
      simp only [open', Bool.false_and, Bool.false_eq_true, if_false, Nat.add_zero, Bool.true_and,
        same] at counted
      rw [answerable, faults, settles.unconvertible, settles.handlers, counted, ← Nat.add_assoc]
      cases thrown : threw handler with
      | false => exact Or.inl ⟨rfl, rfl⟩
      | true => exact Or.inr ⟨Bool.noConfusion, rfl⟩
  | _ => exact Or.inl ⟨trivial, (next_quiet step trivial).faults⟩

/-- The submissions that were counted have a handler or are lost. -/
theorem handled_next {desk target : Desk} {event : DeskEvent}
    (step : next deps hostile config desk event = some target) :
    target.handlers.length + target.unconvertible.length =
      desk.handlers.length + desk.unconvertible.length +
        if submits hostile desk event then 1 else 0 := by
  cases event with
  | submit client requestId params now =>
      obtain ⟨miner, present, rfl⟩ := Option.map_eq_some_iff.mp step
      have parsed : submits hostile desk (.submit client requestId params now) =
          parses hostile miner params := by
        rw [submits, present]
      rw [parsed]
      rcases submit_cases deps hostile config desk client miner requestId params now with
        ⟨unparsed, same⟩ | ⟨loses, lost⟩ | ⟨parsed, _, submission, workerName, _, started⟩
      · rw [unparsed, same]
        rfl
      · rw [loses.1, lost, List.length_append]
        rfl
      · rw [parsed, started, List.length_append, if_pos rfl, Nat.add_right_comm]
        rfl
  | resume place now =>
      obtain ⟨handler, miner, _, _, _, rfl⟩ := next_resume step
      obtain ⟨recorded, after, settles⟩ :=
        settles_resume config desk place handler miner now
      rw [settles.handlers, settles.unconvertible, List.length_set]
      rfl
  | _ =>
      have same := next_quiet step trivial
      rw [same.handlers, same.unconvertible]
      rfl

theorem handled_run {start target : Desk} {events : List DeskEvent}
    (reached : run (next deps hostile config) start events = some target) :
    target.handlers.length + target.unconvertible.length =
      start.handlers.length + start.unconvertible.length +
        submitted deps hostile config start events := by
  induction events generalizing start with
  | nil =>
      cases reached
      rfl
  | cons event rest ih =>
      rcases Option.bind_eq_some_iff.mp reached with ⟨middle, first, later⟩
      rw [ih later, handled_next first, submitted, first, Nat.add_assoc]

/-- Share accounting is conserved after this number of submissions of
authorized clients whose parameters parse. -/
structure Conserved (submissions : Nat) (desk : Desk) : Prop where
  /-- Each of them is handled. -/
  handled : desk.handlers.length = submissions
  /-- A completed one has exactly one response with its request id. -/
  responses : Answered Response.handler
    (fun handler response => response.client = handler.client ∧
      response.requestId = handler.requestId) desk.handlers desk.responses
  /-- A completed one has exactly one outcome. -/
  outcomes : Answered Recorded.handler Records desk.handlers desk.outcomes
  clients : ∀ client miner, desk.miners[client]? = some miner →
    miner.metrics.submits = miner.metrics.accepted + miner.metrics.rejected + desk.inFlight client
  totals : desk.shares + desk.rejectedShares = desk.handlers.countP fun handler => handler.settled

theorem Accounted.conserved_iff {desk : Desk} (accounted : Accounted desk) {submissions : Nat}
    (handled : desk.handlers.length + desk.unconvertible.length = submissions) :
    Conserved submissions desk ↔ desk.faults = 0 := by
  have completed := accounted.completed
  constructor
  · intro conserved
    have lengths := conserved.handled
    have totals := conserved.totals
    rw [faults]
    omega
  · intro none
    rw [faults, Nat.add_eq_zero_iff, List.length_eq_zero_iff] at none
    rw [none.2, Nat.add_zero] at completed
    rw [none.1, List.length_nil, Nat.add_zero] at handled
    refine ⟨handled, accounted.responses, accounted.outcomes, fun client miner present => ?_,
      completed⟩
    have submits := (accounted.clients client _ (accounts_getElem? present)).submits
    rw [none.1, List.count_nil, Nat.add_zero] at submits
    exact submits

/-- Share accounting is conserved exactly in the runs where no submission is lost
and no validation throws. -/
theorem conserved_iff_answerable {walletAddress poolTarget : Text} {ledger : Ledger}
    {best : BestShare} {events : List DeskEvent} {desk : Desk}
    (reached : run (next deps hostile config) (initial walletAddress poolTarget ledger best)
      events = some desk) :
    Conserved (submitted deps hostile config (initial walletAddress poolTarget ledger best) events)
        desk ↔
      Throughout (next deps hostile config) (Answerable hostile config)
        (initial walletAddress poolTarget ledger best) events := by
  have handled := handled_run reached
  have none : (initial walletAddress poolTarget ledger best).handlers.length +
      (initial walletAddress poolTarget ledger best).unconvertible.length = 0 := rfl
  rw [none, Nat.zero_add] at handled
  rw [(accounted_of_run reached).conserved_iff handled]
  exact count_eq_zero_iff faults faults_next rfl reached

/-! ## Credit -/

/-- Every accepted submission is credited once, and nothing else is. -/
structure CreditedOnce (desk : Desk) : Prop where
  /-- A completed submission has exactly one outcome, which says whether it was
  accepted. -/
  outcomes : Answered Recorded.handler Records desk.handlers desk.outcomes
  shares : desk.shares =
    desk.handlers.countP fun handler => handler.settled && accepts handler
  accepted : ∀ client miner, desk.miners[client]? = some miner →
    miner.metrics.accepted = desk.credits client
  recentAccepted : ∀ client miner, desk.miners[client]? = some miner →
    miner.metrics.recentAccepted.length ≤ desk.credits client
  shareTimes : ∀ client miner, desk.miners[client]? = some miner →
    miner.shareTimes.length ≤ desk.credits client

theorem creditedOnce_of_run {walletAddress poolTarget : Text} {ledger : Ledger} {best : BestShare}
    {events : List DeskEvent} {desk : Desk}
    (reached : run (next deps hostile config) (initial walletAddress poolTarget ledger best)
      events = some desk) : CreditedOnce desk := by
  have accounted := accounted_of_run reached
  have balances : ∀ client miner, desk.miners[client]? = some miner →
      Balances desk client miner.account :=
    fun client miner present => accounted.clients client _ (accounts_getElem? present)
  exact ⟨accounted.outcomes, accounted.shares,
    fun client miner present => (balances client miner present).accepted,
    fun client miner present => (balances client miner present).recentAccepted,
    fun client miner present => (balances client miner present).shareTimes⟩

/-- The header and the solution of an accepted share. -/
def proofOfWork (share : AcceptedShare) : List UInt8 × Option (List UInt8) :=
  (share.hashed.take 140, readDelimited (share.hashed.drop 140))

/-- The proofs of work that were credited. -/
def creditedWork (desk : Desk) : List (List UInt8 × Option (List UInt8)) :=
  desk.handlers.filterMap fun handler =>
    match handler.settled, handler.result with
    | true, .ok (.valid share) => some (proofOfWork share)
    | _, _ => none

/-! ## One client and one job -/

theorem windowExample_nonneg : (0 : ℚ) ≤ 120000 := by
  norm_num

/-- The settings with a constant difficulty of one, which is the easiest
target. -/
def configExample : DeskConfig where
  shares := {
    vardiff := {
      enabled := false
      initialDifficulty := 1
      minDifficulty := 1
      maxDifficulty := 1
      targetTime := 1
      retargetTime := 1
      variancePercent := 0
      minSamples := 2
      initial_pos := zero_lt_one
      min_pos := zero_lt_one
      max_pos := zero_lt_one
      targetTime_pos := zero_lt_one
      retargetTime_pos := zero_lt_one
      variancePercent_nonneg := le_refl 0
      two_le_minSamples := le_refl 2 }
    baseTargetBI := maxTarget
    hashrateWindowSeconds := 600 }
  ledger := ⟨120000, .undefined, fun _ => true, windowExample_nonneg⟩
  submitAudit := true

/-- A reading of the clock. -/
def noon : Instant :=
  ⟨1, Nat.one_ne_zero⟩

/-- A pool that has never run. -/
def freshExample : Desk :=
  initial walletExample easiestTarget {
    recentBlockSubmissions := .empty
    blocks := 0
    blockCandidates := 0
    blockSubmitsRejected := 0
    lastBlockAt := none
    lastBlockHash := none
    lastBlockDifficulty := none
    lastBlockSubmitResult := none
    lastBlockWorker := none
    lastBlockHeight := .null
    lastBlockReward := .null
    blockHistory := []
    calls := []
    found := []
    appended := []
    suppressed := 0
    clock := 0 } ⟨0, none, none, none⟩

/-- The client. -/
def minerExample (config : DeskConfig) : Miner :=
  Miner.authorize 1 none (.connected config.shares 1 noon.ms)

/-- The pool with one job and the client. -/
def readyExample (config : DeskConfig) (target : Text) : Desk :=
  { freshExample with
    history := .after packagesExample walletExample easiestTarget (callsExample target)
    miners := [minerExample config] }

theorem history_readyExample (config : DeskConfig) (target : Text) :
    (readyExample config target).history =
      .after packagesExample walletExample easiestTarget (callsExample target) := by
  rw [readyExample]

theorem safe_two : (2 : Int).natAbs < 2 ^ 53 := by
  decide

/-- The job, the client and its authorization. -/
def readyEvents (target : Text) : List DeskEvent :=
  [.generateJob true (.ok (some (templateExample ⟨2, safe_two⟩ target payingCoinbase))),
    .connect noon, .authorize 0 none]

theorem run_readyEvents (config : DeskConfig) (hostile : Nat → Bool) (target : Text) :
    run (next packagesExample hostile config) freshExample (readyEvents target) =
      some (readyExample config target) := by
  have issued : freshExample.history.perform packagesExample
      (.generateJob true (.ok (some (templateExample ⟨2, safe_two⟩ target payingCoinbase)))) =
        .after packagesExample walletExample easiestTarget (callsExample target) := by
    rw [History.after, callsExample, List.foldl_cons, List.foldl_nil]
    rfl
  simp only [readyEvents, run_cons, run_nil, next, issued, Option.bind_some, withMiner]
  rfl

/-- The parameters of a submission without a worker. -/
def paramsExample : List Value :=
  [.string (hexText 1), .string (toHex (List.replicate 4 0)), .string (toHex (List.replicate 32 0)),
    .string (toHex (overlongField zeroSolution))]

/-- What the server makes of them. -/
def submissionExample (config : DeskConfig) : Submission :=
  { overlongSubmission with client := (minerExample config).client }

/-- The handler of the submission. -/
def handlerExample (config : DeskConfig) (target : Text) : Handler where
  client := 0
  requestId := .null
  worker := .null
  result := validateShare packagesExample (managerExample target) (submissionExample config) noon.ms
  settled := false
  checked :=
    (prepare (managerExample target) (submissionExample config) noon.ms).toOption
  difficulty := (minerExample config).currentDifficulty

/-! ## Submissions of the example -/

theorem parseSubmit_paramsExample :
    parseSubmit (some paramsExample) = ⟨.null, some (hexText 1),
      some (toHex (List.replicate 4 0)), some (toHex (List.replicate 32 0)),
      some (toHex (overlongField zeroSolution))⟩ :=
  parseSubmit_four (hexText 1) (spells_toHex _) (spells_toHex _) (spells_toHex _) rfl

theorem handleSubmit_paramsExample (config : DeskConfig) :
    handleSubmit ⟨true, (minerExample config).client⟩ (some paramsExample) =
      some (submissionExample config) := by
  rw [handleSubmit, if_pos rfl, parseSubmit_paramsExample]
  rfl

/-- The validation does not depend on the time, since the client has no earlier
target. -/
theorem prepare_submissionExample (config : DeskConfig) (target : Text) (now : Instant) :
    prepare (managerExample target) (submissionExample config) now.ms =
      prepare (managerExample target) (submissionExample config) noon.ms :=
  rfl

theorem validateShare_submissionExample (config : DeskConfig) (target : Text) (now : Instant) :
    validateShare packagesExample (managerExample target) (submissionExample config) now.ms =
      (handlerExample config target).result := by
  rw [handlerExample, validateShare, validateShare, prepare_submissionExample]

/-- A submission of the example waits for its validation. -/
theorem next_submit_paramsExample (config : DeskConfig) (hostile : Nat → Bool) {target : Text}
    (desk : Desk) (miner : Miner) (history : desk.history =
      .after packagesExample walletExample easiestTarget (callsExample target))
    (miners : desk.miners = [miner]) (authorized : miner.authorized = true)
    (client : miner.client = (minerExample config).client)
    (difficulty : miner.currentDifficulty = (minerExample config).currentDifficulty)
    (now : Instant) :
    next packagesExample hostile config desk (.submit 0 .null (.array paramsExample) now) =
      some { desk with
        miners := [countSubmit miner]
        handlers := desk.handlers ++ [handlerExample config target] } := by
  have present : desk.miners[0]? = some miner := by
    rw [miners]
    rfl
  have submitted : handleSubmit ⟨miner.authorized, miner.client⟩ (some paramsExample) =
      some (submissionExample config) := by
    rw [authorized, client, handleSubmit_paramsExample]
  have unnamed : (parseSubmit (some paramsExample)).worker = .null := by
    rw [parseSubmit_paramsExample]
  have started : desk.startHandler packagesExample 0 .null .null (countSubmit miner)
      (submissionExample config) now = handlerExample config target := by
    unfold startHandler
    rw [history, show (countSubmit miner).currentDifficulty = _ from difficulty,
      ← managerExample, validateShare_submissionExample, prepare_submissionExample, handlerExample]
  rw [next, present, Option.map_some, submit_of_unnamed submitted rfl (by rw [unnamed]; rfl),
    unnamed, started, miners]
  rfl

/-- The submission. -/
def submitExample : DeskEvent :=
  .submit 0 .null (.array paramsExample) noon

/-- What holds of a job, of a client and of its submission holds of these events. -/
theorem forall_waitingEvents {property : DeskEvent → Prop} (target : Text)
    (job : ∀ reply, property (.generateJob true reply)) (connect : property (.connect noon))
    (authorize : property (.authorize 0 none)) (submit : property submitExample) :
    ∀ event ∈ readyEvents target ++ [submitExample], property event := by
  intro event member
  simp only [readyEvents, List.cons_append, List.nil_append, List.mem_cons, List.not_mem_nil,
    or_false] at member
  rcases member with rfl | rfl | rfl | rfl
  · exact job _
  · exact connect
  · exact authorize
  · exact submit

/-- The pool while the submission waits for its validation. -/
def waitingExample (config : DeskConfig) (target : Text) : Desk :=
  { readyExample config target with
    miners := [countSubmit (minerExample config)]
    handlers := (readyExample config target).handlers ++ [handlerExample config target] }

/-- The pool while it waits a second time. -/
def waitingTwice (config : DeskConfig) (target : Text) : Desk :=
  { waitingExample config target with
    miners := [countSubmit (countSubmit (minerExample config))]
    handlers := (waitingExample config target).handlers ++ [handlerExample config target] }

theorem run_waitingExample (config : DeskConfig) (hostile : Nat → Bool) (target : Text) :
    run (next packagesExample hostile config) freshExample (readyEvents target ++ [submitExample]) =
      some (waitingExample config target) := by
  have submitted := next_submit_paramsExample config hostile (readyExample config target)
    (minerExample config) (history_readyExample config target) rfl rfl rfl rfl noon
  rw [run_append, run_readyEvents, Option.bind_some, run_cons, submitExample,
    submitted, Option.bind_some, run_nil, waitingExample]

theorem next_waitingExample (config : DeskConfig) (hostile : Nat → Bool) (target : Text) :
    next packagesExample hostile config (waitingExample config target) submitExample =
      some (waitingTwice config target) := by
  have history : (waitingExample config target).history =
      .after packagesExample walletExample easiestTarget (callsExample target) := by
    rw [waitingExample, history_readyExample]
  rw [submitExample, next_submit_paramsExample config hostile (waitingExample config target)
    (countSubmit (minerExample config)) history rfl rfl rfl rfl noon, waitingTwice]

/-- The submission is accepted where the client has the easiest target. -/
theorem exists_share_handlerExample (config : DeskConfig) (target : Text)
    (lower : IsLowerHex target)
    (nonempty : target ≠ [])
    (easiest : (minerExample config).client.shareTarget = some (targetForDifficulty maxTarget 1)) :
    ∃ share, (handlerExample config target).result = .ok (.valid share) ∧
      (handlerExample config target).checked = some (overlongContext target) ∧
      acceptShare packagesExample (overlongContext target) (overlongCandidate target).headerBuf
        (overlongCandidate target).solution.solutionFieldHex = .ok (.valid share) := by
  have zip := prepared_overlongContext target lower nonempty
  have number : targetNumber maxTarget 1 = hexNumber easiestTarget := by
    decide +kernel
  have nonce : normalizeHexField (.ofText? (some (List.replicate 64 '0'))) true 128 =
      some (List.replicate 64 '0') := by
    decide
  have prepared : Prepared (managerExample target) (submissionExample config) noon.ms
      (overlongContext target) := {
    zip with
    poolTarget := (bigIntOfHex_clientTargetHex easiest).trans (congrArg some number)
    nonce := ⟨List.replicate 64 '0', nonce, rfl⟩
    graceTarget := rfl }
  have issued : Issued packagesExample (jobExample target) :=
    ⟨_, _, _, _, buildJob_jobExample target⟩
  rcases validateShare_of_issued prepared issued (firstHit_overlongCandidate lower nonempty) with
    ⟨share, result, accepted⟩
  refine ⟨share, ?_, ?_, accepted⟩
  · rw [handlerExample, result]
  · rw [handlerExample, prepare_eq_ok_iff.mpr prepared]
    rfl

theorem easiest_configExample :
    (minerExample configExample).client.shareTarget = some (targetForDifficulty maxTarget 1) := by
  have clamped : clampDifficulty configExample.shares.vardiff 1 = 1 := by
    norm_num [clampDifficulty, configExample]
  change some (targetForDifficulty maxTarget (clampDifficulty configExample.shares.vardiff
    (clampDifficulty configExample.shares.vardiff 1))) = _
  rw [clamped, clamped]

/-- The pool after the submission of the example is credited. -/
def creditedExample (config : DeskConfig) (target : Text) (share : AcceptedShare) : Desk :=
  (waitingExample config target).credit config 0 (handlerExample config target)
    (countSubmit (minerExample config)) share noon

theorem run_creditedExample {config : DeskConfig} (hostile : Nat → Bool) {target : Text}
    {share : AcceptedShare} (valid : (handlerExample config target).result = .ok (.valid share)) :
    run (next packagesExample hostile config) freshExample
      (readyEvents target ++ [submitExample] ++ [.resume 0 noon]) =
        some (creditedExample config target share) := by
  have credited : next packagesExample hostile config (waitingExample config target)
      (.resume 0 noon) = some (creditedExample config target share) :=
    next_resume_of_valid rfl rfl rfl valid noon
  rw [run_append, run_waitingExample, Option.bind_some, run_cons, credited, Option.bind_some,
    run_nil]

/-- Two submissions of the same share, one after the other. -/
def eventsTwice (target : Text) : List DeskEvent :=
  readyEvents target ++ [submitExample] ++ [submitExample, .resume 0 noon, .resume 1 noon]

/-- Both are completed. -/
theorem run_eventsTwice {config : DeskConfig} (hostile : Nat → Bool) {target : Text}
    {share : AcceptedShare} (valid : (handlerExample config target).result = .ok (.valid share)) :
    ∃ desk, run (next packagesExample hostile config) freshExample (eventsTwice target) =
        some desk ∧
      desk.handlers = [{ handlerExample config target with settled := true },
        { handlerExample config target with settled := true }] ∧
      (share.isBlock = true → ∃ first second, desk.ledger =
        (freshExample.ledger.candidate config.ledger share first 1 noon).candidate config.ledger
          share second 1 noon) := by
  let twice := countSubmit (countSubmit (minerExample config))
  let once := (waitingTwice config target).credit config 0 (handlerExample config target) twice
    share noon
  let credited := (waitingTwice config target).creditMiner config share twice noon
  let both := once.credit config 1 (handlerExample config target) credited share noon
  have first : next packagesExample hostile config (waitingTwice config target) (.resume 0 noon) =
      some once := next_resume_of_valid rfl rfl rfl valid noon
  have second : next packagesExample hostile config once (.resume 1 noon) = some both :=
    next_resume_of_valid rfl rfl rfl valid noon
  refine ⟨both, ?_, ?_, fun isBlock => ?_⟩
  · rw [eventsTwice, run_append, run_waitingExample, Option.bind_some, run_cons,
      next_waitingExample, Option.bind_some, run_cons, first, Option.bind_some, run_cons, second,
      Option.bind_some, run_nil]
  · rfl
  · have onceLedger : once.ledger = freshExample.ledger.candidate config.ledger share
        (label (handlerExample config target) twice) 1 noon := if_pos isBlock
    have bothLedger : both.ledger = once.ledger.candidate config.ledger share
        (label (handlerExample config target) credited) 1 noon := if_pos isBlock
    exact ⟨_, _, bothLedger.trans (congrArg (Ledger.candidate _ · _ _ _ _) onceLedger)⟩

/-- A share is credited as often as it is submitted. -/
theorem not_nodup_creditedWork :
    ¬∀ (deps : Externals) (hostile : Nat → Bool) (config : DeskConfig)
        (walletAddress poolTarget : Text) (ledger : Ledger) (best : BestShare)
        (events : List DeskEvent) (desk : Desk),
      run (next deps hostile config) (initial walletAddress poolTarget ledger best) events =
        some desk → (creditedWork desk).Nodup := by
  intro once
  obtain ⟨share, valid, _⟩ := exists_share_handlerExample configExample
    easiestTarget (by decide) (List.cons_ne_nil _ _) easiest_configExample
  obtain ⟨desk, reached, handlers, _⟩ := run_eventsTwice (fun _ => false) valid
  have twice : creditedWork desk = [proofOfWork share, proofOfWork share] := by
    rw [creditedWork, handlers]
    simp only [List.filterMap_cons, List.filterMap_nil, valid]
  have nodup := once _ _ _ _ _ _ _ _ _ reached
  rw [twice] at nodup
  simp at nodup

theorem creditedOnce_eventsTwice : ∃ desk,
    run (next packagesExample (fun _ => false) configExample) freshExample
      (eventsTwice easiestTarget) = some desk ∧ CreditedOnce desk := by
  obtain ⟨share, valid, _⟩ := exists_share_handlerExample configExample
    easiestTarget (by decide) (List.cons_ne_nil _ _) easiest_configExample
  obtain ⟨desk, reached, _⟩ := run_eventsTwice (fun _ => false) valid
  exact ⟨desk, reached, creditedOnce_of_run reached⟩

/-- A submission whose worker is an object. -/
def eventsObject : List DeskEvent :=
  [.connect noon, .authorize 0 none,
    .submit 0 .null (.array [.object 0 [] none, .null, .null, .null, .null]) noon]

/-- The pool after it, where the object throws. -/
def lostExample : Desk :=
  { freshExample with
    miners := [countSubmit (minerExample configExample)]
    unconvertible := [0] }

theorem run_eventsObject :
    run (next packagesExample (fun _ => true) configExample) freshExample eventsObject =
      some lostExample :=
  rfl

theorem not_conserved_lostExample (submissions : Nat) : ¬Conserved submissions lostExample := by
  intro conserved
  have counted := conserved.clients 0 _ rfl
  exact absurd counted Nat.one_ne_zero

/-- The submission is counted, and nothing comes of it. -/
theorem not_conserved_eventsObject :
    ¬∀ (deps : Externals) (hostile : Nat → Bool) (config : DeskConfig)
        (walletAddress poolTarget : Text) (ledger : Ledger) (best : BestShare)
        (events : List DeskEvent) (desk : Desk),
      run (next deps hostile config) (initial walletAddress poolTarget ledger best) events =
        some desk →
      Conserved (submitted deps hostile config (initial walletAddress poolTarget ledger best)
        events) desk :=
  fun conserved => not_conserved_lostExample _ (conserved _ _ _ _ _ _ _ _ _ run_eventsObject)

theorem not_answerable_eventsObject :
    ¬Throughout (next packagesExample (fun _ => true) configExample)
      (Answerable (fun _ => true) configExample) freshExample eventsObject :=
  fun answerable => not_conserved_lostExample _
    ((conserved_iff_answerable run_eventsObject).mpr answerable)

end Desk

end ZcashSoloPool.Pool
