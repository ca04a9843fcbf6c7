import ZcashSoloPool.Limits.Expiry
import ZcashSoloPool.Stratum.Admission
import ZcashSoloPool.Transition.Timeline
import Mathlib.Data.Nat.Basic

/-!
# Bans of addresses

A ban is forgotten when its address asks for a connection too late, or when a
timer sweeps the bans that are over.  Neither the one nor the other can be told
from the outside: an address is refused for a ban if and only if the last ban
that it was given is not over.
-/

namespace ZcashSoloPool.Stratum.Admission

open ZcashSoloPool.Collections
open ZcashSoloPool.JavaScript
open ZcashSoloPool.Limits
open ZcashSoloPool.Transition

/-- The reading of the clock that an event makes. -/
def Event.reading : Event → Option Nat
  | .connection _ now => some now
  | .ban _ _ now => some now
  | .sweep now => some now
  | _ => none

namespace Server

/-- The ban that an event is about, with its end. -/
def issued (server : Server) : Event → Option (Text × Nat)
  | .ban clientId seconds now =>
      (server.handlers.get? clientId).bind fun handlers =>
        let address := normalizeRemoteAddress handlers.client.remoteAddress
        if address.isEmpty then none else some (address, now + max 1 seconds * 1000)
  | _ => none

/-- All bans of a run. -/
def bans (settings : Settings) : Server → List Event → List (Text × Nat)
  | _, [] => []
  | server, event :: rest =>
      (server.issued event).toList ++
        (next settings server event).elim [] fun target => bans settings target rest

/-! ## Steps -/

section Steps

variable {settings : Settings} {server target : Server} {history : List (Text × Nat)} {now : Nat}

theorem remembers_isAddressBanned (remembers : Remembers history now server.addressBanUntil)
    (address : Text) :
    Remembers history now (server.isAddressBanned address now).1.addressBanUntil := by
  unfold isAddressBanned
  dsimp only
  split
  · exact remembers
  · split
    · next deadline found =>
        split
        · next ended => exact remembers.delete found ended
        · exact remembers
    · exact remembers

theorem remembers_connection (remembers : Remembers history now server.addressBanUntil)
    (address : Option Text) :
    Remembers history now (server.connection settings address now).addressBanUntil := by
  have asked := remembers_isAddressBanned remembers (normalizeRemoteAddress (address.getD []))
  unfold connection
  dsimp only
  split
  · exact remembers
  · generalize server.isAddressBanned (normalizeRemoteAddress (address.getD [])) now = outcome
      at asked
    obtain ⟨after, banned⟩ := outcome
    dsimp only at asked ⊢
    split
    · exact asked
    · split
      · exact asked
      · exact asked

theorem remembers_banAddress (remembers : Remembers history now server.addressBanUntil)
    (address : Text) (seconds : Nat) :
    Remembers (history ++ (if (normalizeRemoteAddress address).isEmpty then none
        else some (normalizeRemoteAddress address, now + max 1 seconds * 1000)).toList) now
      (server.banAddress address seconds now).addressBanUntil := by
  unfold banAddress
  dsimp only
  split
  · rw [Option.toList_none, List.append_nil]
    exact remembers
  · exact remembers.set _ _

theorem addressBanUntil_cleanup (server : Server) (clientId : Nat) (handlers : Handlers) :
    (server.cleanup clientId handlers).addressBanUntil = server.addressBanUntil := by
  unfold cleanup
  split <;> rfl

/-- An event leaves the bans alone. -/
theorem remembers_of_same (remembers : Remembers history now server.addressBanUntil)
    (same : target.addressBanUntil = server.addressBanUntil) :
    Remembers (history ++ []) now target.addressBanUntil := by
  rw [same, List.append_nil]
  exact remembers

/-- What an event does to the bans, at the time that it reads. -/
theorem remembers_next (remembers : Remembers history now server.addressBanUntil) {event : Event}
    (upTo : ∀ time, event.reading = some time → now ≤ time)
    (step : next settings server event = some target) :
    Remembers (history ++ (server.issued event).toList) (event.reading.getD now)
      target.addressBanUntil := by
  have cleansUp {clientId : Nat}
      (cleaned : (server.handlers.get? clientId).map (server.cleanup clientId) = some target) :
      target.addressBanUntil = server.addressBanUntil := by
    obtain ⟨handlers, -, rfl⟩ := Option.map_eq_some_iff.mp cleaned
    exact addressBanUntil_cleanup server clientId handlers
  have destroys {clientId : Nat}
      (destroyed : (server.handlers.get? clientId).map (server.destroy clientId) = some target) :
      target.addressBanUntil = server.addressBanUntil := by
    obtain ⟨handlers, -, rfl⟩ := Option.map_eq_some_iff.mp destroyed
    rfl
  cases event with
  | connection address time =>
      cases step
      change Remembers (history ++ []) time _
      rw [List.append_nil]
      exact remembers_connection (remembers.mono (upTo time rfl)) address
  | unheard =>
      cases step
      exact remembers_of_same remembers rfl
  | ended clientId => exact remembers_of_same remembers (cleansUp step)
  | close clientId hadError => exact remembers_of_same remembers (cleansUp step)
  | error clientId message => exact remembers_of_same remembers (cleansUp step)
  | timeout clientId => exact remembers_of_same remembers (destroys step)
  | destroy clientId => exact remembers_of_same remembers (destroys step)
  | ban clientId seconds time =>
      obtain ⟨handlers, found, rfl⟩ := Option.map_eq_some_iff.mp step
      rw [issued, found, Option.bind_some]
      exact remembers_banAddress (remembers.mono (upTo time rfl)) _ seconds
  | sweep time =>
      cases step
      change Remembers (history ++ []) time _
      rw [List.append_nil]
      exact (remembers.mono (upTo time rfl)).sweep

/-- What a run does to the bans. -/
theorem remembers_run {events : List Event} {later : Nat}
    (remembers : Remembers history now server.addressBanUntil)
    (inOrder : Chronological Event.reading events later)
    (upTo : ∀ time ∈ events.filterMap Event.reading ++ [later], now ≤ time)
    (reached : run (next settings) server events = some target) :
    Remembers (history ++ bans settings server events) later target.addressBanUntil := by
  induction events generalizing server history now with
  | nil =>
      cases reached
      rw [bans, List.append_nil]
      exact remembers.mono (upTo later List.mem_cons_self)
  | cons event rest ih =>
      obtain ⟨middle, first, following⟩ := Option.bind_eq_some_iff.mp reached
      have atEvent : ∀ time, event.reading = some time → now ≤ time := by
        intro time reads
        apply upTo
        simp [reads]
      have step := remembers_next remembers atEvent first
      have onwards : ∀ time ∈ rest.filterMap Event.reading ++ [later],
          event.reading.getD now ≤ time := by
        cases reads : event.reading with
        | none =>
            intro time member
            apply upTo
            rw [List.filterMap_cons_none reads]
            exact member
        | some time =>
            intro other member
            have order := @Chronological.le_of_mem _ Event.reading [] rest event time later inOrder
              reads other
            rw [List.filterMap_cons_some reads] at order
            exact order (List.mem_cons_of_mem _ member)
      have ordered : Chronological Event.reading rest later :=
        @Chronological.of_append_right _ Event.reading [event] rest later inOrder
      have result := ih step ordered onwards following
      rw [bans, first, Option.elim_some, ← List.append_assoc]
      exact result

end Steps

/-! ## Refusals -/

/-- The last ban of an address is not over. -/
def Banned (bans : List (Text × Nat)) (address : Text) (now : Nat) : Prop :=
  ∃ deadline, latest bans (normalizeRemoteAddress address) = some deadline ∧ now < deadline

theorem isAddressBanned_iff (server : Server) (address : Text) (now : Nat) :
    (server.isAddressBanned address now).2 = true ↔
      normalizeRemoteAddress address ≠ [] ∧
        ∃ deadline, server.addressBanUntil.get? (normalizeRemoteAddress address) = some deadline ∧
          now < deadline := by
  unfold isAddressBanned
  dsimp only
  split
  · next empty => simp [List.isEmpty_iff.mp empty]
  · next named =>
      have nonempty : normalizeRemoteAddress address ≠ [] := fun empty =>
        named (List.isEmpty_iff.mpr empty)
      split
      · next deadline found =>
          split
          · next ended => simp [found, ended]
          · next alive => simp [found, nonempty, Nat.lt_of_not_le alive]
      · next absent => simp [absent]

/-- No ban is issued for an empty address. -/
theorem ne_nil_of_mem_bans {settings : Settings} {server : Server} {events : List Event}
    {address : Text} {deadline : Nat} (member : (address, deadline) ∈ bans settings server events) :
    address ≠ [] := by
  induction events generalizing server with
  | nil => contradiction
  | cons event rest ih =>
      rw [bans, List.mem_append, Option.mem_toList] at member
      rcases member with now | later
      · cases event with
        | ban clientId seconds time =>
            obtain ⟨handlers, -, made⟩ := Option.bind_eq_some_iff.mp now
            dsimp only at made
            split at made
            · contradiction
            · next named =>
                cases made
                exact fun empty => named (List.isEmpty_iff.mpr empty)
        | connection address time => contradiction
        | unheard => contradiction
        | ended clientId => contradiction
        | close clientId hadError => contradiction
        | error clientId message => contradiction
        | timeout clientId => contradiction
        | destroy clientId => contradiction
        | sweep time => contradiction
      · cases step : next settings server event with
        | none =>
            rw [step] at later
            contradiction
        | some target =>
            rw [step] at later
            exact ih later

/-- What holds of bans after a run. -/
structure BansKept (settings : Settings) (events : List Event) (server : Server) (now : Nat) :
    Prop where
  banned : ∀ address, (server.isAddressBanned address now).2 = true ↔
    Banned (bans settings initial events) address now
  refused : ∀ address, Banned (bans settings initial events)
      (normalizeRemoteAddress (address.getD [])) now →
    (server.connection settings address now).clients = server.clients ∧
      (server.connection settings address now).announcements = server.announcements
  swept : ∀ address deadline,
    (server.cleanupAddressBans now).addressBanUntil.get? address = some deadline →
      latest (bans settings initial events) address = some deadline ∧ now < deadline

/-- Whatever the order of connections, bans, sweeps and the ends of connections:
an address is banned if and only if the last ban it was given is not over, as
long as it is banned nobody is admitted from it, and a sweep leaves the bans
that are not over. -/
theorem bansKept_of_run {settings : Settings} {events : List Event} {target : Server} {now : Nat}
    (inOrder : Chronological Event.reading events now)
    (reached : run (next settings) initial events = some target) :
    BansKept settings events target now := by
  have remembers : Remembers (bans settings initial events) now target.addressBanUntil :=
    remembers_run (remembers_empty 0) inOrder (fun time _ => Nat.zero_le time) reached
  have banned : ∀ address, (target.isAddressBanned address now).2 = true ↔
      Banned (bans settings initial events) address now := by
    intro address
    rw [isAddressBanned_iff, remembers.alive_iff, Banned]
    constructor
    · exact fun asked => asked.2
    · rintro ⟨deadline, given, alive⟩
      exact ⟨ne_nil_of_mem_bans (mem_of_latest given), deadline, given, alive⟩
  refine ⟨banned, fun address isBanned => ?_, fun address deadline kept => ?_⟩
  · have asked := (banned (normalizeRemoteAddress (address.getD []))).mpr isBanned
    have quiet := target.quiet_isAddressBanned (normalizeRemoteAddress (address.getD [])) now
    unfold connection
    dsimp only
    split
    · exact ⟨rfl, rfl⟩
    · exact ⟨quiet.clients, quiet.announcements⟩
  · obtain ⟨found, alive⟩ := OrderedMap.get?_filter_eq_some_iff.mp kept
    exact ⟨remembers.held address deadline found, by simpa using alive⟩

/-- A client that is banned for a minute and leaves.  Its address is refused while
the ban lasts, although bans are swept, and admitted afterwards. -/
def banExample : List Event :=
  [.connection (some "10.0.0.5".toList) 0, .ban 1 60 1000, .close 1 false, .sweep 2000,
    .connection (some "::ffff:10.0.0.5".toList) 60999, .connection (some "10.0.0.5".toList) 61000]

theorem bansKept_banExample : ∃ target,
    run (next settingsExample) initial banExample = some target ∧
      BansKept settingsExample banExample target 62000 :=
  ⟨_, rfl, bansKept_of_run (by decide) rfl⟩

example : (run (next settingsExample) initial banExample).map Server.announcements =
    some [.clientConnected 1, .clientDisconnected 1, .clientConnected 2] := by
  decide +kernel

end Server

end ZcashSoloPool.Stratum.Admission
