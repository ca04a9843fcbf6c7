import ZcashSoloPool.Transition.Run
import Mathlib.Data.Rat.Floor
import Mathlib.Tactic.Linarith

/-!
# Silent connections

Three timers destroy sockets: one for clients that are not authorized in time, the
one of the socket, which every job that is written to it winds up again, and a
sweep that looks at the time of the last data.  Timers fire late, but not by more
than some slack.  Then a connection that is silent is destroyed within a bounded
time however many jobs are written to it, and none is destroyed for silence that
was not silent.
-/

namespace ZcashSoloPool.Stratum.Liveness

open ZcashSoloPool.Transition

/-! ## Connections -/

/-- The number that is given as the time limit, if it is a finite one. -/
structure Settings where
  inactiveMs : Option ℚ

namespace Settings

/-- `this.inactiveTimeoutMs`. -/
def inactiveTimeoutMs (settings : Settings) : ℚ :=
  (settings.inactiveMs.filter fun ms => 30000 ≤ ms).getD (10 * 60 * 1000)

/-- The limit of the socket's own clock: `setTimeout` of a socket cuts a number that
a timer cannot hold. -/
def socketTimeoutMs (settings : Settings) : ℚ :=
  min settings.inactiveTimeoutMs (2 ^ 31 - 1)

/-- `inactiveSweepMs`. -/
def inactiveSweepMs (settings : Settings) : ℚ :=
  max 30000 ⌊settings.inactiveTimeoutMs / 3⌋

/-- The period of the sweep: `setInterval` takes a number that a timer cannot hold
for a single millisecond. -/
def sweepPeriodMs (settings : Settings) : ℚ :=
  if settings.inactiveSweepMs ≤ 2 ^ 31 - 1 then settings.inactiveSweepMs else 1

end Settings

/-- `this.preAuthTimeoutMs`. -/
def preAuthTimeoutMs : ℚ :=
  30000

/-- What destroyed a socket. -/
inductive Cause where
  | preAuth
  | socketTimeout
  | inactive
  | other
  deriving DecidableEq

/-- A client and its socket.  The clock of the socket was last wound up at
`lastActivityAt`; the source does not keep why and when a socket was destroyed. -/
structure Conn where
  listed : Bool
  authorized : Bool
  connectedAt : ℚ
  lastReceivedAt : ℚ
  lastActivityAt : ℚ
  preAuthTimer : Bool
  destroyed : Option (Cause × ℚ)

/-- What happens to one connection: data arrives, it is authorized, something is
written to it, one of its two timers fires, the server destroys it for another
reason, or its cleanup runs. -/
inductive ConnEvent where
  | receives (now : ℚ)
  | authorizes
  | writes (now : ℚ)
  | preAuthFires (now : ℚ)
  | timesOut (now : ℚ)
  | misbehaves (now : ℚ)
  | closes

namespace Conn

/-- A new connection. -/
def connected (now : ℚ) : Conn :=
  ⟨true, false, now, now, now, true, none⟩

/-- The socket can still be used. -/
def alive (conn : Conn) : Bool :=
  conn.listed && conn.destroyed.isNone

/-- `socket.destroy()`, which does nothing the second time. -/
def destroy (conn : Conn) (cause : Cause) (now : ℚ) : Conn :=
  { conn with destroyed := conn.destroyed.or (some (cause, now)) }

/-- One event of a connection. -/
def next (settings : Settings) : Next Conn ConnEvent
  | conn, .receives now =>
      if conn.alive then some { conn with lastReceivedAt := now, lastActivityAt := now } else none
  | conn, .authorizes => if conn.alive then some { conn with authorized := true } else none
  | conn, .writes now => if conn.alive then some { conn with lastActivityAt := now } else none
  | conn, .preAuthFires now =>
      if conn.preAuthTimer ∧ conn.connectedAt + preAuthTimeoutMs ≤ now then
        let fired := { conn with preAuthTimer := false }
        some (if conn.authorized then fired else fired.destroy .preAuth now)
      else none
  | conn, .timesOut now =>
      if conn.alive ∧ conn.lastActivityAt + settings.socketTimeoutMs ≤ now then
        some (conn.destroy .socketTimeout now)
      else none
  | conn, .misbehaves now => if conn.alive then some (conn.destroy .other now) else none
  | conn, .closes => some { conn with listed := false, preAuthTimer := false }

/-- How long nothing was received: a time of zero counts as none. -/
def idle (conn : Conn) (now : ℚ) : ℚ :=
  now - (if conn.lastReceivedAt ≠ 0 then conn.lastReceivedAt
    else if conn.connectedAt ≠ 0 then conn.connectedAt else now)

/-- `kickInactiveClients` for one client. -/
def kickInactive (settings : Settings) (now : ℚ) (conn : Conn) : Conn :=
  if !conn.listed || decide (conn.idle now < settings.inactiveTimeoutMs) then conn
  else conn.destroy .inactive now

end Conn

/-! ## The server -/

/-- The server: all connections, the last reading of the clock, and when the sweep
was last started or run. -/
structure Server where
  conns : List Conn
  clock : ℚ
  lastSweepAt : ℚ

/-- What happens to the server. -/
inductive LiveEvent where
  | connects (now : ℚ)
  | happens (place : Nat) (event : ConnEvent)
  | sweeps (now : ℚ)

/-- The reading of the clock that an event makes. -/
def ConnEvent.reading : ConnEvent → Option ℚ
  | receives now => some now
  | authorizes => none
  | writes now => some now
  | preAuthFires now => some now
  | timesOut now => some now
  | misbehaves now => some now
  | closes => none

/-- The reading of the clock that an event makes. -/
def LiveEvent.reading : LiveEvent → Option ℚ
  | connects now => some now
  | happens _ event => event.reading
  | sweeps now => some now

namespace Server

/-- The server starts. -/
def start (now : ℚ) : Server :=
  ⟨[], now, now⟩

/-- One event. -/
def next (settings : Settings) : Next Server LiveEvent
  | server, .connects now =>
      some { server with conns := server.conns ++ [.connected now], clock := now }
  | server, .happens place event =>
      match server.conns[place]? with
      | some conn => (conn.next settings event).map fun conn => { server with
          conns := server.conns.set place conn
          clock := event.reading.getD server.clock }
      | none => none
  | server, .sweeps now =>
      some ⟨server.conns.map (Conn.kickInactive settings now), now, now⟩

/-- The clock does not go back, and at this time no timer is later than the
slack. -/
structure OnTime (settings : Settings) (slack : ℚ) (server : Server) (now : ℚ) : Prop where
  positive : 0 < now
  inOrder : server.clock ≤ now
  sweep : now ≤ server.lastSweepAt + settings.sweepPeriodMs + slack
  preAuth : ∀ conn ∈ server.conns, conn.preAuthTimer = true →
    now ≤ conn.connectedAt + preAuthTimeoutMs + slack

/-- Events are on time. -/
def Punctual (settings : Settings) (slack : ℚ) (server : Server) (event : LiveEvent) : Prop :=
  ∀ now, event.reading = some now → OnTime settings slack server now

instance (settings : Settings) (slack : ℚ) (server : Server) (now : ℚ) :
    Decidable (OnTime settings slack server now) :=
  decidable_of_iff (0 < now ∧ server.clock ≤ now ∧
      now ≤ server.lastSweepAt + settings.sweepPeriodMs + slack ∧
      ∀ conn ∈ server.conns, conn.preAuthTimer = true →
        now ≤ conn.connectedAt + preAuthTimeoutMs + slack)
    ⟨fun ⟨positive, inOrder, sweep, preAuth⟩ => ⟨positive, inOrder, sweep, preAuth⟩,
      fun ⟨positive, inOrder, sweep, preAuth⟩ => ⟨positive, inOrder, sweep, preAuth⟩⟩

instance (settings : Settings) (slack : ℚ) (server : Server) (event : LiveEvent) :
    Decidable (Punctual settings slack server event) :=
  decidable_of_iff (∀ now ∈ event.reading, OnTime settings slack server now) Iff.rfl

end Server

/-! ## What holds of a connection -/

/-- A socket was destroyed by its own silence or by a late authorization, or for
another reason. -/
def Conn.Justified (settings : Settings) (conn : Conn) : Cause → ℚ → Prop
  | .preAuth, now => conn.authorized = false ∧ conn.connectedAt + preAuthTimeoutMs ≤ now
  | .socketTimeout, now => conn.lastReceivedAt + settings.socketTimeoutMs ≤ now
  | .inactive, now => conn.lastReceivedAt + settings.inactiveTimeoutMs ≤ now
  | .other, _ => True

/-- What holds of a connection, whether it is alive or not. -/
structure Conn.Grounded (settings : Settings) (conn : Conn) : Prop where
  positive : 0 < conn.lastReceivedAt
  activity : conn.lastReceivedAt ≤ conn.lastActivityAt
  justified : ∀ cause now, conn.destroyed = some (cause, now) → conn.Justified settings cause now

/-- What holds of a connection between any two events. -/
structure Conn.Sound (settings : Settings) (lastSweepAt : ℚ) (conn : Conn) : Prop extends
    conn.Grounded settings where
  swept : conn.alive = true → lastSweepAt < conn.lastReceivedAt + settings.inactiveTimeoutMs
  waits : conn.alive = true → conn.authorized = false → conn.preAuthTimer = true

/-- What holds of the server between any two events. -/
structure Server.Invariant (settings : Settings) (server : Server) : Prop where
  sweepOrder : server.lastSweepAt ≤ server.clock
  received : ∀ conn ∈ server.conns, conn.lastReceivedAt ≤ server.clock
  sound : ∀ conn ∈ server.conns, conn.Sound settings server.lastSweepAt

/-! ## Steps -/

theorem Settings.inactiveTimeoutMs_pos (settings : Settings) : 0 < settings.inactiveTimeoutMs := by
  unfold Settings.inactiveTimeoutMs
  cases given : settings.inactiveMs.filter fun ms => decide (30000 ≤ ms) with
  | none => norm_num
  | some ms =>
      have long := of_decide_eq_true (Option.filter_eq_some_iff.mp given).2
      exact lt_of_lt_of_le (by norm_num) long

namespace Conn

variable {settings : Settings} {lastSweepAt : ℚ} {conn : Conn}

theorem not_alive_destroy (conn : Conn) (cause : Cause) (now : ℚ) :
    (conn.destroy cause now).alive = false := by
  unfold alive destroy
  cases conn.destroyed <;> simp

/-- A socket that is destroyed for a reason. -/
theorem Grounded.destroy (grounded : conn.Grounded settings) {cause : Cause} {now : ℚ}
    (justified : conn.Justified settings cause now) :
    (conn.destroy cause now).Sound settings lastSweepAt where
  positive := grounded.positive
  activity := grounded.activity
  justified former time isDestroyed := by
    rcases Option.or_eq_some_iff.mp isDestroyed with earlier | ⟨-, new⟩
    · exact grounded.justified former time earlier
    · cases new
      exact justified
  swept lives := by
    rw [not_alive_destroy] at lives
    contradiction
  waits lives := by
    rw [not_alive_destroy] at lives
    contradiction

/-- A socket that is alive has not been destroyed. -/
theorem ne_destroyed_of_alive (lives : conn.alive = true) (cause : Cause) (now : ℚ) :
    conn.destroyed ≠ some (cause, now) := by
  intro isDestroyed
  rw [alive, isDestroyed] at lives
  simp at lives

/-- What one event does to a connection. -/
theorem Sound.next (sound : conn.Sound settings lastSweepAt) {event : ConnEvent} {target : Conn}
    (upTo : ∀ now, event.reading = some now → 0 < now ∧ conn.lastReceivedAt ≤ now ∧
      lastSweepAt ≤ now)
    (step : Conn.next settings conn event = some target) :
    target.Sound settings lastSweepAt ∧ (target.lastReceivedAt = conn.lastReceivedAt ∨
      event.reading = some target.lastReceivedAt) := by
  have timeout := settings.inactiveTimeoutMs_pos
  cases event with
  | receives now =>
      obtain ⟨lives, made⟩ := Option.ite_none_right_eq_some.mp step
      cases made
      obtain ⟨positive, -, swept⟩ := upTo now rfl
      refine ⟨⟨⟨positive, le_refl now, fun cause time isDestroyed => ?_⟩, fun _ => ?_,
        fun _ => sound.waits lives⟩, Or.inr rfl⟩
      · exact absurd isDestroyed (ne_destroyed_of_alive lives cause time)
      · exact lt_of_le_of_lt swept (lt_add_of_pos_right now timeout)
  | authorizes =>
      obtain ⟨lives, made⟩ := Option.ite_none_right_eq_some.mp step
      cases made
      refine ⟨⟨⟨sound.positive, sound.activity, fun cause time isDestroyed => ?_⟩, sound.swept,
        fun _ late => ?_⟩, Or.inl rfl⟩
      · exact absurd isDestroyed (ne_destroyed_of_alive lives cause time)
      · contradiction
  | writes now =>
      obtain ⟨lives, made⟩ := Option.ite_none_right_eq_some.mp step
      cases made
      exact ⟨⟨⟨sound.positive, (upTo now rfl).2.1, sound.justified⟩, sound.swept, sound.waits⟩,
        Or.inl rfl⟩
  | preAuthFires now =>
      obtain ⟨⟨-, due⟩, made⟩ := Option.ite_none_right_eq_some.mp step
      cases made
      have fired : Grounded settings { conn with preAuthTimer := false } :=
        ⟨sound.positive, sound.activity, sound.justified⟩
      split
      · next authorized =>
          refine ⟨⟨fired, sound.swept, fun _ late => ?_⟩, Or.inl rfl⟩
          rw [show conn.authorized = false from late] at authorized
          contradiction
      · next unauthorized =>
          have late : Conn.Justified settings { conn with preAuthTimer := false } .preAuth now :=
            ⟨Bool.eq_false_iff.mpr unauthorized, due⟩
          exact ⟨fired.destroy late, Or.inl rfl⟩
  | timesOut now =>
      obtain ⟨⟨-, due⟩, made⟩ := Option.ite_none_right_eq_some.mp step
      cases made
      have silent : conn.lastReceivedAt + settings.socketTimeoutMs ≤ now :=
        (add_le_add_left sound.activity _).trans due
      exact ⟨sound.toGrounded.destroy silent, Or.inl rfl⟩
  | misbehaves now =>
      obtain ⟨-, made⟩ := Option.ite_none_right_eq_some.mp step
      cases made
      exact ⟨sound.toGrounded.destroy trivial, Or.inl rfl⟩
  | closes =>
      cases step
      exact ⟨⟨⟨sound.positive, sound.activity, sound.justified⟩, fun lives => by contradiction,
        fun lives => by contradiction⟩, Or.inl rfl⟩

/-- What the sweep does to a connection. -/
theorem Sound.kickInactive (sound : conn.Sound settings lastSweepAt) (now : ℚ) :
    (conn.kickInactive settings now).Sound settings now := by
  have idle : conn.idle now = now - conn.lastReceivedAt := by
    rw [Conn.idle, if_pos sound.positive.ne']
  unfold Conn.kickInactive
  rw [idle]
  split
  · next spared =>
      refine ⟨sound.toGrounded, fun lives => ?_, sound.waits⟩
      have listed : conn.listed = true := (Bool.and_eq_true _ _ ▸ lives).1
      rw [listed, Bool.not_true, Bool.false_or, decide_eq_true_eq] at spared
      linarith
  · next kicked =>
      apply sound.toGrounded.destroy
      simp only [Bool.or_eq_true, Bool.not_eq_true', decide_eq_true_eq, not_or, not_lt] at kicked
      change conn.lastReceivedAt + settings.inactiveTimeoutMs ≤ now
      linarith [kicked.2]

theorem lastReceivedAt_kickInactive (settings : Settings) (now : ℚ) (conn : Conn) :
    (conn.kickInactive settings now).lastReceivedAt = conn.lastReceivedAt := by
  unfold Conn.kickInactive
  split <;> rfl

end Conn

namespace Server

variable {settings : Settings} {slack : ℚ} {server target : Server}

theorem invariant_start (settings : Settings) (now : ℚ) : (start now).Invariant settings where
  sweepOrder := le_refl now
  received _ member := by contradiction
  sound _ member := by contradiction

theorem Invariant.next (invariant : server.Invariant settings) {event : LiveEvent}
    (punctual : Punctual settings slack server event)
    (step : Server.next settings server event = some target) : target.Invariant settings := by
  cases event with
  | connects now =>
      cases step
      have onTime := punctual now rfl
      refine ⟨invariant.sweepOrder.trans onTime.inOrder, fun conn member => ?_,
        fun conn member => ?_⟩
      · rcases List.mem_append.mp member with old | new
        · exact (invariant.received conn old).trans onTime.inOrder
        · rw [List.mem_singleton.mp new]
          exact le_refl now
      · rcases List.mem_append.mp member with old | new
        · exact invariant.sound conn old
        · rw [List.mem_singleton.mp new]
          have swept := invariant.sweepOrder.trans onTime.inOrder
          exact ⟨⟨onTime.positive, le_refl now, fun _ _ isDestroyed => by contradiction⟩,
            fun _ => lt_of_le_of_lt swept (lt_add_of_pos_right now settings.inactiveTimeoutMs_pos),
            fun _ _ => rfl⟩
  | happens place event =>
      simp only [Server.next] at step
      split at step
      · next conn found =>
          obtain ⟨changed, changes, rfl⟩ := Option.map_eq_some_iff.mp step
          have member := List.mem_of_getElem? found
          have upTo : ∀ now, event.reading = some now → 0 < now ∧ conn.lastReceivedAt ≤ now ∧
              server.lastSweepAt ≤ now := by
            intro now reads
            have onTime := punctual now reads
            exact ⟨onTime.positive, (invariant.received conn member).trans onTime.inOrder,
              invariant.sweepOrder.trans onTime.inOrder⟩
          obtain ⟨sound, received⟩ := (invariant.sound conn member).next upTo changes
          have clock : server.clock ≤ event.reading.getD server.clock := by
            cases reads : event.reading with
            | none => exact le_refl _
            | some now => exact (punctual now reads).inOrder
          refine ⟨invariant.sweepOrder.trans clock, fun other isOther => ?_, fun other isOther => ?_⟩
          · rcases List.mem_or_eq_of_mem_set isOther with old | rfl
            · exact (invariant.received other old).trans clock
            · rcases received with same | read
              · rw [same]
                exact (invariant.received conn member).trans clock
              · rw [read]
                exact le_refl _
          · rcases List.mem_or_eq_of_mem_set isOther with old | rfl
            · exact invariant.sound other old
            · exact sound
      · contradiction
  | sweeps now =>
      cases step
      have onTime := punctual now rfl
      refine ⟨le_refl now, fun conn member => ?_, fun conn member => ?_⟩
      · obtain ⟨before, isBefore, rfl⟩ := List.mem_map.mp member
        rw [Conn.lastReceivedAt_kickInactive]
        exact (invariant.received before isBefore).trans onTime.inOrder
      · obtain ⟨before, isBefore, rfl⟩ := List.mem_map.mp member
        exact (invariant.sound before isBefore).kickInactive now

/-- What holds of the connections at some time. -/
structure Lively (settings : Settings) (slack : ℚ) (server : Server) (now : ℚ) : Prop where
  silent : ∀ conn ∈ server.conns, conn.alive = true →
    now < conn.lastReceivedAt + settings.inactiveTimeoutMs + settings.sweepPeriodMs + slack
  unauthorized : ∀ conn ∈ server.conns, conn.alive = true → conn.authorized = false →
    now ≤ conn.connectedAt + preAuthTimeoutMs + slack
  justified : ∀ conn ∈ server.conns, ∀ cause at_, conn.destroyed = some (cause, at_) →
    conn.Justified settings cause at_

/-- Whatever arrives and whatever is written: a connection that is still alive has
sent something within the time limit and one period of the sweep, or has only
just had time to be authorized, and no connection was destroyed as silent that
had not been silent for the time limit, or for what a timer can hold of it. -/
theorem lively_of_run {started now : ℚ} {events : List LiveEvent}
    (punctual : Throughout (Server.next settings) (Punctual settings slack) (start started) events)
    (reached : run (Server.next settings) (start started) events = some target)
    (onTime : OnTime settings slack target now) : Lively settings slack target now := by
  have invariant : target.Invariant settings :=
    punctual.invariant (Invariant settings)
      (fun invariant punctual step => invariant.next punctual step)
      (invariant_start settings started) reached
  refine ⟨fun conn member lives => ?_, fun conn member lives late => ?_, fun conn member => ?_⟩
  · have swept := (invariant.sound conn member).swept lives
    have sweep := onTime.sweep
    linarith
  · exact onTime.preAuth conn member ((invariant.sound conn member).waits lives late)
  · exact (invariant.sound conn member).justified

/-- The default limit of ten minutes. -/
def limitExample : Settings :=
  ⟨none⟩

/-- Two clients: one that is authorized and then silent, while jobs are written to
it, and one that is never authorized. -/
def silentExample : List LiveEvent :=
  [.connects 1000, .happens 0 .authorizes, .connects 2000, .happens 0 (.preAuthFires 31500),
    .happens 1 (.preAuthFires 32500), .happens 1 .closes, .sweeps 200000, .sweeps 400000,
    .happens 0 (.writes 590000), .sweeps 600000, .sweeps 800000]

theorem lively_silentExample : ∃ target,
    run (Server.next limitExample) (start 0) silentExample = some target ∧
      Lively limitExample 1000 target 800000 := by
  have punctual : Throughout (Server.next limitExample) (Punctual limitExample 1000) (start 0)
      silentExample := by decide +kernel
  have ends : (run (Server.next limitExample) (start 0) silentExample).isSome = true := by
    decide +kernel
  have onTime : ∀ target ∈ run (Server.next limitExample) (start 0) silentExample,
      OnTime limitExample 1000 target 800000 := by decide +kernel
  obtain ⟨target, reached⟩ := Option.isSome_iff_exists.mp ends
  exact ⟨target, reached, lively_of_run punctual reached (onTime target reached)⟩

example : (run (Server.next limitExample) (start 0) silentExample).map (fun server =>
    server.conns.map Conn.destroyed) =
      some [some (.inactive, 800000), some (.preAuth, 32500)] := by
  decide +kernel

end Server

end ZcashSoloPool.Stratum.Liveness
