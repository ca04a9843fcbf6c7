import ZcashSoloPool.Collections.Census
import ZcashSoloPool.Stratum.Acl
import ZcashSoloPool.Transition.Run

/-!
# Admitting and releasing connections

The part of `start` that admits a socket and registers its handlers, and the
`cleanup` that several of them share.  Next to the map of clients stands a map
from an address to the number of its clients.  A socket may report its end, its
close and errors in any order and any number of times; the variables of its
handlers live as long as the socket does.
-/

namespace ZcashSoloPool.Stratum.Admission

open ZcashSoloPool.JavaScript
open ZcashSoloPool.Collections
open ZcashSoloPool.Transition

/-- What the server is configured with: its access list, and the number that is
given as the limit, if it is a finite one. -/
structure Settings where
  platform : Platform
  connectionAcl : ConnectionAcl
  maxConn : Option ℚ

/-- `this.maxConnectionsPerIp`. -/
def Settings.maxConnectionsPerIp (settings : Settings) : Nat :=
  match settings.maxConn with
  | some n => if 0 < n then ⌊n⌋.toNat else 8
  | none => 8

/-- A client, as far as admission reads it. -/
structure Client where
  id : Nat
  remoteAddress : Text
  deriving DecidableEq, Repr

/-- The variables of the handlers of an admitted socket. -/
structure Handlers where
  client : Client
  cleanedUp : Bool
  destroyed : Bool
  deriving DecidableEq, Repr

/-- The events that the server emits. -/
inductive Announcement where
  | clientConnected (clientId : Nat)
  | clientDisconnected (clientId : Nat)
  deriving DecidableEq, Repr

/-- The server, with the handlers of every socket it has admitted. -/
structure Server where
  clients : OrderedMap Nat Client
  clientCounter : Nat
  ipCount : OrderedMap Text Nat
  addressBanUntil : OrderedMap Text Nat
  handlers : OrderedMap Nat Handlers
  announcements : List Announcement

/-- What happens to the server: a socket connects, a refused socket reports
something, to which nothing listens, an admitted socket reports something, a
handler or a timer destroys an admitted socket or bans its address, or expired
bans are swept. -/
inductive Event where
  | connection (remoteAddress : Option Text) (now : Nat)
  | unheard
  | ended (clientId : Nat)
  | close (clientId : Nat) (hadError : Bool)
  | error (clientId : Nat) (message : Text)
  | timeout (clientId : Nat)
  | destroy (clientId : Nat)
  | ban (clientId seconds now : Nat)
  | sweep (now : Nat)

/-- The event runs the cleanup of a client. -/
def Event.cleansUp (event : Event) (clientId : Nat) : Bool :=
  match event with
  | .ended id => decide (id = clientId)
  | .close id _ => decide (id = clientId)
  | .error id _ => decide (id = clientId)
  | _ => false

namespace Server

/-- Before the first connection. -/
def initial : Server where
  clients := .empty
  clientCounter := 0
  ipCount := .empty
  addressBanUntil := .empty
  handlers := .empty
  announcements := []

/-- `countConnectionsFromIp`. -/
def countConnectionsFromIp (server : Server) (ip : Text) : Nat :=
  (server.ipCount.get? ip).getD 0

/-- `isAddressBanned`: an expired ban is removed. -/
def isAddressBanned (server : Server) (addressRaw : Text) (now : Nat) : Server × Bool :=
  let address := normalizeRemoteAddress addressRaw
  if address.isEmpty then (server, false)
  else
    match server.addressBanUntil.get? address with
    | some until_ =>
        if until_ ≤ now then
          ({ server with addressBanUntil := server.addressBanUntil.delete address }, false)
        else (server, true)
    | none => (server, false)

/-- `banAddress`. -/
def banAddress (server : Server) (addressRaw : Text) (seconds now : Nat) : Server :=
  let address := normalizeRemoteAddress addressRaw
  if address.isEmpty then server
  else
    let ttlSeconds := max 1 seconds
    { server with
      addressBanUntil := server.addressBanUntil.set address (now + ttlSeconds * 1000) }

/-- `cleanupAddressBans`. -/
def cleanupAddressBans (server : Server) (now : Nat) : Server :=
  { server with
    addressBanUntil := server.addressBanUntil.filter fun _ until_ => !decide (until_ ≤ now) }

/-- The end of the connection handler: a client that is let in. -/
def accept (server : Server) (remoteAddress : Text) : Server :=
  let clientId := server.clientCounter + 1
  let client : Client := ⟨clientId, remoteAddress⟩
  { server with
    clientCounter := clientId
    clients := server.clients.set clientId client
    ipCount := server.ipCount.set remoteAddress ((server.ipCount.get? remoteAddress).getD 0 + 1)
    handlers := server.handlers.set clientId ⟨client, false, false⟩
    announcements := server.announcements ++ [.clientConnected clientId] }

/-- The connection handler.  A socket that is refused has no handlers. -/
def connection (settings : Settings) (server : Server) (socketAddress : Option Text) (now : Nat) :
    Server :=
  let remoteAddress := normalizeRemoteAddress (socketAddress.getD [])
  if server.countConnectionsFromIp remoteAddress ≥ settings.maxConnectionsPerIp then server
  else
    let (server, banned) := server.isAddressBanned remoteAddress now
    if banned then server
    else if !settings.platform.isAddressAllowed settings.connectionAcl remoteAddress then server
    else server.accept remoteAddress

/-- `(_ || 1) - 1`. -/
def oneLess : Option Nat → Nat
  | some (n + 1) => n
  | _ => 0

/-- What `cleanup` does the first time. -/
def release (server : Server) (clientId : Nat) (handlers : Handlers) : Server :=
  let remoteAddress := handlers.client.remoteAddress
  let ipCount := oneLess (server.ipCount.get? remoteAddress)
  { server with
    handlers := server.handlers.set clientId { handlers with cleanedUp := true }
    clients := server.clients.delete clientId
    ipCount :=
      if ipCount = 0 then server.ipCount.delete remoteAddress
      else server.ipCount.set remoteAddress ipCount
    announcements := server.announcements ++ [.clientDisconnected clientId] }

/-- `cleanup`. -/
def cleanup (server : Server) (clientId : Nat) (handlers : Handlers) : Server :=
  if handlers.cleanedUp then server else server.release clientId handlers

/-- `socket.destroy()`. -/
def destroy (server : Server) (clientId : Nat) (handlers : Handlers) : Server :=
  { server with handlers := server.handlers.set clientId { handlers with destroyed := true } }

/-- One event.  Only an admitted socket reports to the server. -/
def next (settings : Settings) : Next Server Event
  | server, .connection remoteAddress now => some (server.connection settings remoteAddress now)
  | server, .unheard => some server
  | server, .ended clientId => (server.handlers.get? clientId).map (server.cleanup clientId)
  | server, .close clientId _ => (server.handlers.get? clientId).map (server.cleanup clientId)
  | server, .error clientId _ => (server.handlers.get? clientId).map (server.cleanup clientId)
  | server, .timeout clientId => (server.handlers.get? clientId).map (server.destroy clientId)
  | server, .destroy clientId => (server.handlers.get? clientId).map (server.destroy clientId)
  | server, .ban clientId seconds now =>
      (server.handlers.get? clientId).map fun handlers =>
        server.banAddress handlers.client.remoteAddress seconds now
  | server, .sweep now => some (server.cleanupAddressBans now)

/-- The client of an admitted socket, and whether its cleanup has run. -/
def standing (server : Server) (clientId : Nat) : Option (Client × Bool) :=
  (server.handlers.get? clientId).map fun handlers => (handlers.client, handlers.cleanedUp)

/-! ## What a step can do -/

/-- Neither the clients nor what is counted and announced about them changes. -/
structure Quiet (before after : Server) : Prop where
  clients : after.clients = before.clients
  clientCounter : after.clientCounter = before.clientCounter
  ipCount : after.ipCount = before.ipCount
  standing : after.standing = before.standing
  announcements : after.announcements = before.announcements

theorem Quiet.refl (server : Server) : Quiet server server :=
  ⟨rfl, rfl, rfl, rfl, rfl⟩

theorem quiet_isAddressBanned (server : Server) (address : Text) (now : Nat) :
    Quiet server (server.isAddressBanned address now).1 := by
  unfold isAddressBanned
  dsimp only
  split
  · exact .refl server
  · split
    · split
      · exact ⟨rfl, rfl, rfl, rfl, rfl⟩
      · exact .refl server
    · exact .refl server

theorem quiet_banAddress (server : Server) (address : Text) (seconds now : Nat) :
    Quiet server (server.banAddress address seconds now) := by
  unfold banAddress
  dsimp only
  split
  · exact .refl server
  · exact ⟨rfl, rfl, rfl, rfl, rfl⟩

theorem quiet_destroy {server : Server} {clientId : Nat} {handlers : Handlers}
    (found : server.handlers.get? clientId = some handlers) :
    Quiet server (server.destroy clientId handlers) := by
  refine ⟨rfl, rfl, rfl, ?_, rfl⟩
  funext other
  by_cases same : other = clientId
  · subst same
    simp [standing, destroy, found]
  · simp [standing, destroy, OrderedMap.get?_set_of_ne same]

/-- A connection changes nothing that counts, or is admitted below the limit. -/
theorem connection_cases (settings : Settings) (server : Server) (address : Option Text)
    (now : Nat) :
    Quiet server (server.connection settings address now) ∨
      ∃ middle remoteAddress, Quiet server middle ∧
        middle.countConnectionsFromIp remoteAddress < settings.maxConnectionsPerIp ∧
        server.connection settings address now = middle.accept remoteAddress := by
  have quiet := server.quiet_isAddressBanned (normalizeRemoteAddress (address.getD [])) now
  unfold connection
  dsimp only
  split
  · exact Or.inl (.refl server)
  · next below =>
      split
      · exact Or.inl quiet
      · split
        · exact Or.inl quiet
        · refine Or.inr ⟨_, _, quiet, ?_, rfl⟩
          rw [countConnectionsFromIp, quiet.ipCount]
          exact Nat.lt_of_not_le below

/-! ## The invariant -/

/-- How many clients have an address. -/
def population (server : Server) (address : Text) : Nat :=
  OrderedMap.population Client.remoteAddress server.clients address

/-- How often a client was announced as disconnected. -/
def farewells (server : Server) (clientId : Nat) : Nat :=
  server.announcements.count (.clientDisconnected clientId)

/-- The second map counts the clients, the limit is kept, and the clients are
those that are admitted and not cleaned up. -/
structure Invariant (settings : Settings) (server : Server) : Prop where
  census : OrderedMap.Census Client.remoteAddress server.clients server.ipCount
  limit : ∀ address, server.population address ≤ settings.maxConnectionsPerIp
  fresh : ∀ clientId, server.clientCounter < clientId → server.standing clientId = none
  unknown : ∀ clientId, server.standing clientId = none →
    server.clients.get? clientId = none ∧ server.farewells clientId = 0
  present : ∀ clientId client, server.standing clientId = some (client, false) →
    server.clients.get? clientId = some client ∧ server.farewells clientId = 0
  gone : ∀ clientId client, server.standing clientId = some (client, true) →
    server.clients.get? clientId = none ∧ server.farewells clientId = 1
  admitted : ∀ clientId, .clientConnected clientId ∈ server.announcements ↔
    (server.standing clientId).isSome = true

theorem invariant_initial (settings : Settings) : Invariant settings initial where
  census := OrderedMap.census_empty _
  limit _ := Nat.zero_le _
  fresh _ _ := rfl
  unknown _ _ := ⟨rfl, rfl⟩
  present _ _ known := by cases known
  gone _ _ known := by cases known
  admitted clientId := by simp [initial, standing]

theorem Invariant.quiet {settings : Settings} {server target : Server}
    (inv : Invariant settings server) (quiet : Quiet server target) :
    Invariant settings target := by
  have population (address : Text) : target.population address = server.population address := by
    rw [Server.population, quiet.clients, Server.population]
  have farewells (clientId : Nat) : target.farewells clientId = server.farewells clientId := by
    rw [Server.farewells, quiet.announcements, Server.farewells]
  constructor
  · rw [quiet.clients, quiet.ipCount]
    exact inv.census
  · intro address
    rw [population]
    exact inv.limit address
  · rw [quiet.clientCounter, quiet.standing]
    exact inv.fresh
  · simp only [farewells, quiet.clients, quiet.standing]
    exact inv.unknown
  · simp only [farewells, quiet.clients, quiet.standing]
    exact inv.present
  · simp only [farewells, quiet.clients, quiet.standing]
    exact inv.gone
  · rw [quiet.announcements, quiet.standing]
    exact inv.admitted

/-! ### Admission -/

theorem standing_accept (server : Server) (address : Text) (clientId : Nat) :
    (server.accept address).standing clientId =
      if clientId = server.clientCounter + 1 then some (⟨clientId, address⟩, false)
      else server.standing clientId := by
  split
  · next new =>
      subst new
      simp [standing, accept]
  · next old => simp [standing, accept, OrderedMap.get?_set_of_ne old]

theorem farewells_accept (server : Server) (address : Text) (clientId : Nat) :
    (server.accept address).farewells clientId = server.farewells clientId := by
  simp [farewells, accept]

theorem Invariant.accept {settings : Settings} {server : Server} (inv : Invariant settings server)
    {address : Text}
    (below : server.countConnectionsFromIp address < settings.maxConnectionsPerIp) :
    Invariant settings (server.accept address) := by
  have new : server.standing (server.clientCounter + 1) = none :=
    inv.fresh _ (Nat.lt_succ_self _)
  have freshKey := (inv.unknown _ new).1
  have counted : server.countConnectionsFromIp address = server.population address :=
    inv.census.getD_get? address
  have get? {clientId : Nat} (old : clientId ≠ server.clientCounter + 1) :
      (server.accept address).clients.get? clientId = server.clients.get? clientId :=
    OrderedMap.get?_set_of_ne old _
  constructor
  · have census := inv.census.set (⟨server.clientCounter + 1, address⟩ : Client) freshKey
    rw [← inv.census.getD_get?] at census
    exact census
  · intro other
    change OrderedMap.population _ (server.clients.set _ _) other ≤ _
    rw [OrderedMap.population_set _ freshKey]
    split
    · next same =>
        dsimp only at same
        subst same
        rw [counted] at below
        exact below
    · exact inv.limit other
  · intro clientId later
    change server.clientCounter + 1 < clientId at later
    rw [standing_accept, if_neg (by omega)]
    exact inv.fresh clientId (by omega)
  · intro clientId
    rw [standing_accept, farewells_accept]
    split
    · intro known
      cases known
    · next old =>
        rw [get? old]
        exact inv.unknown clientId
  · intro clientId client
    rw [standing_accept, farewells_accept]
    split
    · next same =>
        intro known
        cases known
        subst same
        exact ⟨OrderedMap.get?_set_self _ _ _, (inv.unknown _ new).2⟩
    · next old =>
        rw [get? old]
        exact inv.present clientId client
  · intro clientId client
    rw [standing_accept, farewells_accept]
    split
    · intro known
      cases known
    · next old =>
        rw [get? old]
        exact inv.gone clientId client
  · intro clientId
    rw [standing_accept]
    change _ ∈ server.announcements ++ [_] ↔ _
    rw [List.mem_append, List.mem_singleton, inv.admitted, Announcement.clientConnected.injEq]
    split
    · next same => simp [same]
    · next old => simp [old]

/-! ### Cleanup -/

theorem standing_release (server : Server) (clientId : Nat) (handlers : Handlers) (other : Nat) :
    (server.release clientId handlers).standing other =
      if other = clientId then some (handlers.client, true) else server.standing other := by
  split
  · next same =>
      subst same
      simp [standing, release]
  · next different => simp [standing, release, OrderedMap.get?_set_of_ne different]

theorem farewells_release (server : Server) (clientId : Nat) (handlers : Handlers) (other : Nat) :
    (server.release clientId handlers).farewells other =
      server.farewells other + if other = clientId then 1 else 0 := by
  have single : [Announcement.clientDisconnected clientId].count (.clientDisconnected other) =
      if other = clientId then 1 else 0 := by
    by_cases same : other = clientId
    · subst same
      simp
    · simp [same, Ne.symm same]
  rw [farewells, release, List.count_append, single, ← farewells]

/-- The count of the address of a client that is still there goes down by one. -/
theorem census_release {server : Server} {clientId : Nat} {handlers : Handlers}
    (census : OrderedMap.Census Client.remoteAddress server.clients server.ipCount)
    (present : server.clients.get? clientId = some handlers.client) :
    OrderedMap.Census Client.remoteAddress (server.release clientId handlers).clients
      (server.release clientId handlers).ipCount := by
  have counted := OrderedMap.population_delete Client.remoteAddress present
    handlers.client.remoteAddress
  rw [if_pos rfl] at counted
  have number := census handlers.client.remoteAddress
  rw [← counted, OrderedMap.stored, if_neg (Nat.succ_ne_zero _)] at number
  dsimp only [release]
  rw [number, oneLess]
  split
  · next last => exact census.delete_last present (by omega)
  · next more =>
      have lower := census.delete present (by omega)
      rw [← counted, Nat.add_sub_cancel] at lower
      exact lower

theorem Invariant.release {settings : Settings} {server : Server} (inv : Invariant settings server)
    {clientId : Nat} {handlers : Handlers}
    (found : server.handlers.get? clientId = some handlers) (notYet : handlers.cleanedUp = false) :
    Invariant settings (server.release clientId handlers) := by
  have stood : server.standing clientId = some (handlers.client, false) := by
    rw [standing, found, Option.map_some, notYet]
  obtain ⟨present, silent⟩ := inv.present _ _ stood
  have get? {other : Nat} (different : other ≠ clientId) :
      (server.release clientId handlers).clients.get? other = server.clients.get? other :=
    OrderedMap.get?_delete_of_ne different
  constructor
  · exact census_release inv.census present
  · intro address
    have fewer := OrderedMap.population_delete Client.remoteAddress present address
    exact (Nat.le_of_add_right_le fewer.le).trans (inv.limit address)
  · intro other later
    have different : other ≠ clientId := by
      rintro rfl
      rw [inv.fresh other later] at stood
      cases stood
    rw [standing_release, if_neg different]
    exact inv.fresh other later
  · intro other
    rw [standing_release, farewells_release]
    split
    · intro known
      cases known
    · next different =>
        rw [get? different]
        exact inv.unknown other
  · intro other client
    rw [standing_release, farewells_release]
    split
    · intro known
      cases known
    · next different =>
        rw [get? different]
        exact inv.present other client
  · intro other client
    rw [standing_release, farewells_release]
    split
    · next same =>
        intro _
        subst same
        exact ⟨OrderedMap.get?_delete_self _ _, by rw [silent]⟩
    · next different =>
        rw [get? different]
        exact inv.gone other client
  · intro other
    rw [standing_release]
    change _ ∈ server.announcements ++ [_] ↔ _
    rw [List.mem_append, List.mem_singleton, inv.admitted]
    split
    · next same =>
        subst same
        simp [stood]
    · simp

/-! ## Runs -/

/-- The cleanup has run for a client. -/
def released (server : Server) (clientId : Nat) : Bool :=
  (server.standing clientId).any Prod.snd

theorem Invariant.cleanup {settings : Settings} {server : Server} (inv : Invariant settings server)
    {clientId : Nat} {handlers : Handlers}
    (found : server.handlers.get? clientId = some handlers) :
    Invariant settings (server.cleanup clientId handlers) ∧
      ∀ other, (server.cleanup clientId handlers).released other =
        (server.released other || decide (clientId = other)) := by
  cases done : handlers.cleanedUp with
  | true =>
      rw [Server.cleanup, done, if_pos rfl]
      refine ⟨inv, fun other => ?_⟩
      by_cases same : clientId = other
      · subst same
        simp [released, standing, found, done]
      · simp [same]
  | false =>
      rw [Server.cleanup, done, if_neg Bool.false_ne_true]
      refine ⟨inv.release found done, fun other => ?_⟩
      rw [released, standing_release]
      by_cases same : clientId = other
      · simp [same]
      · simp [same, Ne.symm same, released]

theorem Quiet.released {server target : Server} (quiet : Quiet server target) (clientId : Nat) :
    target.released clientId = server.released clientId := by
  rw [Server.released, quiet.standing, Server.released]

/-- Every step keeps the invariant, and just the end, the close or an error of a
client releases it. -/
theorem Invariant.next {settings : Settings} {server target : Server} {event : Event}
    (inv : Invariant settings server) (step : next settings server event = some target) :
    Invariant settings target ∧
      ∀ clientId, target.released clientId =
        (server.released clientId || event.cleansUp clientId) := by
  have still {after : Server} (quiet : Quiet server after) :
      Invariant settings after ∧
        ∀ clientId, after.released clientId = (server.released clientId || false) :=
    ⟨inv.quiet quiet, fun clientId => by rw [quiet.released, Bool.or_false]⟩
  cases event with
  | connection address now =>
      cases step
      rcases connection_cases settings server address now with quiet |
        ⟨middle, remoteAddress, quiet, below, admitted⟩
      · exact still quiet
      · have kept := inv.quiet quiet
        rw [admitted]
        refine ⟨kept.accept below, fun clientId => ?_⟩
        have silent : (Event.connection address now).cleansUp clientId = false := rfl
        rw [released, standing_accept, ← quiet.released, silent, Bool.or_false]
        split
        · next new =>
            rw [released, kept.fresh clientId (by omega)]
            rfl
        · rfl
  | unheard =>
      cases step
      exact still (.refl server)
  | ended id =>
      obtain ⟨handlers, found, rfl⟩ := Option.map_eq_some_iff.mp step
      exact inv.cleanup found
  | close id hadError =>
      obtain ⟨handlers, found, rfl⟩ := Option.map_eq_some_iff.mp step
      exact inv.cleanup found
  | error id message =>
      obtain ⟨handlers, found, rfl⟩ := Option.map_eq_some_iff.mp step
      exact inv.cleanup found
  | timeout id =>
      obtain ⟨handlers, found, rfl⟩ := Option.map_eq_some_iff.mp step
      exact still (quiet_destroy found)
  | destroy id =>
      obtain ⟨handlers, found, rfl⟩ := Option.map_eq_some_iff.mp step
      exact still (quiet_destroy found)
  | ban id seconds now =>
      obtain ⟨handlers, found, rfl⟩ := Option.map_eq_some_iff.mp step
      exact still (quiet_banAddress server _ seconds now)
  | sweep now =>
      cases step
      exact still ⟨rfl, rfl, rfl, rfl, rfl⟩

/-- After a run just those clients are released whose end, close or error is
among its events. -/
theorem Invariant.run {settings : Settings} {events : List Event} {start target : Server}
    (inv : Invariant settings start)
    (reached : run (Server.next settings) start events = some target) :
    Invariant settings target ∧
      ∀ clientId, target.released clientId =
        (start.released clientId || events.any fun event => event.cleansUp clientId) := by
  induction events generalizing start with
  | nil =>
      cases reached
      exact ⟨inv, fun clientId => (Bool.or_false _).symm⟩
  | cons event rest ih =>
      obtain ⟨middle, step, later⟩ := Option.bind_eq_some_iff.mp reached
      obtain ⟨kept, first⟩ := inv.next step
      obtain ⟨final, others⟩ := ih kept later
      refine ⟨final, fun clientId => ?_⟩
      rw [others, first, List.any_cons, Bool.or_assoc]

/-- In every state that any sequence of events reaches, what is stored for an
address is the number of its clients, which is within the limit; and a client
that was admitted has been removed and announced as disconnected once if its end,
close or error occurred, and is there unannounced if not. -/
theorem perIpLimit_exact (settings : Settings) {events : List Event} {server : Server}
    (reached : run (Server.next settings) initial events = some server) :
    (∀ address, server.ipCount.get? address =
        if server.population address = 0 then none else some (server.population address)) ∧
      (∀ address, server.population address ≤ settings.maxConnectionsPerIp) ∧
      ∀ clientId, .clientConnected clientId ∈ server.announcements →
        if ∃ event ∈ events, event.cleansUp clientId = true then
          server.clients.get? clientId = none ∧
            server.announcements.count (.clientDisconnected clientId) = 1
        else
          (server.clients.get? clientId).isSome = true ∧
            server.announcements.count (.clientDisconnected clientId) = 0 := by
  obtain ⟨inv, released⟩ := (invariant_initial settings).run reached
  refine ⟨inv.census, inv.limit, fun clientId connected => ?_⟩
  obtain ⟨⟨client, done⟩, stood⟩ :=
    Option.isSome_iff_exists.mp ((inv.admitted clientId).mp connected)
  have noted := released clientId
  rw [Server.released, stood] at noted
  cases done with
  | true =>
      have occurred : ∃ event ∈ events, event.cleansUp clientId = true :=
        List.any_eq_true.mp noted.symm
      rw [if_pos occurred]
      exact inv.gone clientId client stood
  | false =>
      have quietSoFar : ¬∃ event ∈ events, event.cleansUp clientId = true := by
        rw [← List.any_eq_true, ← show _ = events.any _ from noted]
        exact Bool.false_ne_true
      rw [if_neg quietSoFar]
      obtain ⟨present, silent⟩ := inv.present clientId client stood
      exact ⟨by rw [present]; rfl, silent⟩

/-- One connection is allowed from an address. -/
def settingsExample : Settings where
  platform := platformExample
  connectionAcl := aclExample [.ipv4Cidr 0x0a000000 0xff000000]
  maxConn := some 1

/-- A client whose second connection is refused, whose first one fails and is
closed, and who connects again. -/
def eventsExample : List Event :=
  [.connection (some "::ffff:10.0.0.5".toList) 0, .connection (some "10.0.0.5".toList) 1,
    .error 1 "read ECONNRESET".toList, .close 1 true, .connection (some "10.0.0.5".toList) 2]

/-- The server after these events. -/
def serverExample : Server where
  clients := ⟨[(2, ⟨2, "10.0.0.5".toList⟩)], by decide⟩
  clientCounter := 2
  ipCount := ⟨[("10.0.0.5".toList, 1)], by decide⟩
  addressBanUntil := .empty
  handlers := ⟨[(1, ⟨⟨1, "10.0.0.5".toList⟩, true, false⟩),
    (2, ⟨⟨2, "10.0.0.5".toList⟩, false, false⟩)], by decide⟩
  announcements := [.clientConnected 1, .clientDisconnected 1, .clientConnected 2]

theorem run_eventsExample :
    run (Server.next settingsExample) initial eventsExample = some serverExample :=
  rfl

/-- The error and the close of the first client release it once. -/
theorem perIpLimit_exact_reconnect :
    serverExample.ipCount.get? "10.0.0.5".toList = some 1 ∧
      serverExample.clients.get? 1 = none ∧
      serverExample.announcements.count (.clientDisconnected 1) = 1 := by
  obtain ⟨stored, -, closed⟩ := perIpLimit_exact settingsExample run_eventsExample
  have first := closed 1 List.mem_cons_self
  have occurred : ∃ event ∈ eventsExample, event.cleansUp 1 = true := by
    refine ⟨.close 1 true, ?_, rfl⟩
    simp [eventsExample]
  rw [if_pos occurred] at first
  exact ⟨stored "10.0.0.5".toList, first⟩

end Server

end ZcashSoloPool.Stratum.Admission
