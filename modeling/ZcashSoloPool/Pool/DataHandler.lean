import ZcashSoloPool.Bytes.Utf8
import ZcashSoloPool.Framing.Receiver
import ZcashSoloPool.Pool.RequestHandler

/-!
# The data of a connection

The `data` handler decodes every chunk by itself, adds it to the buffer, closes
the connection of a client whose buffer is too long, and handles the lines that
are complete.  A destroyed socket emits no further data.
-/

namespace ZcashSoloPool.Pool

open ZcashSoloPool.Bytes
open ZcashSoloPool.Framing
open ZcashSoloPool.JavaScript
open ZcashSoloPool.Stratum
open ZcashSoloPool.Transition
open ZcashSoloPool.WorkManager (Externals)

/-- The session of a client and its `buffer`. -/
abbrev Inbound :=
  Feed Session Char

/-- A new connection. -/
def Inbound.connected : Inbound :=
  ⟨.connected, []⟩

/-- The lines of a client are received up to its socket's end. -/
def StratumServer.lines (server : StratumServer) : Receiver Session Char where
  separator := '\n'
  react := handleLine server
  closed := fun session => session.peer.destroyed
  closed_of_left := fun session line left => by
    cases blank : isBlank line with
    | true =>
        rw [handleLine_of_isBlank server session blank] at left
        contradiction
    | false => exact (handles_handleLine server session blank).destroyed (Or.inr left)
  closed_react := fun session line destroyed => by
    cases blank : isBlank line with
    | true =>
        rw [handleLine_of_isBlank server session blank]
        exact destroyed
    | false => exact (handles_handleLine server session blank).destroyed (Or.inl destroyed)

/-- The `data` handler of the socket. -/
def onData (server : StratumServer) (client : Inbound) (data : List UInt8) : Inbound :=
  let buffer := client.rest ++ decodeUtf8 data
  if unitLength buffer > maxBufferBytes then
    ⟨client.state.close .bufferOverflow server.banOnBadJson, buffer⟩
  else ⟨server.lines.take client.state (frames '\n' buffer), remainder '\n' buffer⟩

/-- A chunk arrives. -/
def receiveData (server : StratumServer) (client : Inbound) (data : List UInt8) : Inbound :=
  if client.state.peer.destroyed then client else onData server client data

/-- A connection after its chunks. -/
def received (server : StratumServer) (chunks : List (List UInt8)) : Inbound :=
  chunks.foldl (receiveData server) Inbound.connected

/-- Whatever a connection sends, the events of the desk can do the same to its
miner. -/
theorem reaches_received {deps : Externals} {config : DeskConfig} {server : StratumServer}
    {desk : Desk} {client : Nat} (number : server.clientId = client + 1) {now : Nat}
    (present : desk.miners[client]? = some (.connected config.shares (client + 1) now))
    (chunks : List (List UInt8)) :
    Reaches deps config server desk client (received server chunks).state := by
  have fresh : SameClient (.connected config.shares (client + 1) now) Session.connected :=
    ⟨rfl, rfl, rfl⟩
  refine foldl_invariant (receiveData server)
    (fun inbound => Reaches deps config server desk client inbound.state)
    (fun inbound data reaches => ?_) (fresh.reaches present) chunks
  unfold receiveData onData
  dsimp only
  split
  · exact reaches
  · split
    · exact reaches.mono fun _ same => same.close _ _
    · exact server.lines.take_invariant (Reaches deps config server desk client)
        (fun _ line reaches => reaches.handleLine number line) reaches _

/-! ## Chunks within the cap -/

/-- The chunk does not hit the buffer cap. -/
def Capped (client : Inbound) (data : List UInt8) : Prop :=
  client.state.peer.destroyed = false →
    unitLength (client.rest ++ decodeUtf8 data) ≤ maxBufferBytes

instance (client : Inbound) (data : List UInt8) : Decidable (Capped client data) :=
  inferInstanceAs (Decidable (_ → _))

/-- Every chunk of a connection is within the cap. -/
def NeverFull (server : StratumServer) (client : Inbound) (chunks : List (List UInt8)) : Prop :=
  Throughout (total (receiveData server)) Capped client chunks

instance (server : StratumServer) (client : Inbound) (chunks : List (List UInt8)) :
    Decidable (NeverFull server client chunks) :=
  inferInstanceAs (Decidable (Throughout _ _ _ _))

theorem receiveData_of_capped {server : StratumServer} {client : Inbound} {data : List UInt8}
    (capped : Capped client data) :
    receiveData server client data = server.lines.receive client (decodeUtf8 data) := by
  unfold receiveData Receiver.receive
  split
  · next destroyed => exact (if_pos destroyed).symm
  · next isOpen =>
      have within := capped (Bool.eq_false_iff.mpr isOpen)
      refine (if_neg (Nat.not_lt_of_le within)).trans (if_neg isOpen).symm

/-- Within the cap the data handler receives the decoded pieces. -/
theorem foldl_receiveData {server : StratumServer} {client : Inbound} {chunks : List (List UInt8)}
    (neverFull : NeverFull server client chunks) :
    chunks.foldl (receiveData server) client =
      server.lines.receiveAll client (chunks.map decodeUtf8) := by
  induction chunks generalizing client with
  | nil => rfl
  | cons data rest ih =>
      rw [List.foldl_cons, ih (neverFull.2 _ rfl), receiveData_of_capped neverFull.1]
      rfl

/-! ## Cutting a stream -/

/-- Every line that is not blank is counted. -/
theorem progress_lines (server : StratumServer) : server.lines.Progress isBlank effort where
  skips := fun session _ blank => handleLine_of_isBlank server session blank
  works := fun session _ counts => (handles_handleLine server session counts).progress

/-- The text of a connection up to the chunk that closes it. -/
def heard (server : StratumServer) (chunks : List (List UInt8)) : Text :=
  server.lines.delivered Inbound.connected (chunks.map decodeUtf8)

/-- Two texts end in the same rest of a line, and the data handler returned from
its loop in both or both have the same lines but for blank ones. -/
def HeardAlike (server : StratumServer) (first second : Text) : Prop :=
  server.lines.Alike isBlank Inbound.connected first second

instance (server : StratumServer) (first second : Text) :
    Decidable (HeardAlike server first second) :=
  inferInstanceAs (Decidable (Receiver.Alike _ _ _ _ _))

/-- A chunk that arrives on an open connection is UTF-8 by itself. -/
def Whole (client : Inbound) (data : List UInt8) : Prop :=
  client.state.peer.destroyed = false → IsUtf8 data

/-- No cut that an open connection sees stands in a character. -/
def Uncut (server : StratumServer) (client : Inbound) (chunks : List (List UInt8)) : Prop :=
  Throughout (total (receiveData server)) Whole client chunks

/-- What an uncut connection hears is the text of the front of its stream. -/
theorem Uncut.delivered_front {server : StratumServer} {client : Inbound}
    {chunks : List (List UInt8)} (uncut : Uncut server client chunks)
    (neverFull : NeverFull server client chunks) :
    encodeUtf8 (server.lines.delivered client (chunks.map decodeUtf8)) <+: chunks.flatten := by
  induction chunks generalizing client with
  | nil => exact List.nil_prefix
  | cons data rest ih =>
      rw [List.map_cons, Receiver.delivered, List.flatten_cons]
      split
      · exact List.nil_prefix
      · next isOpen =>
          obtain ⟨text, whole⟩ := uncut.1 (Bool.eq_false_iff.mpr isOpen)
          have heard : receiveData server client data =
              server.lines.hear client (decodeUtf8 data) := by
            rw [receiveData_of_capped neverFull.1, Receiver.receive, if_neg isOpen]
          have later := ih (uncut.2 _ rfl) (neverFull.2 _ rfl)
          rw [heard, whole, decodeUtf8_encodeUtf8] at later
          rw [whole, decodeUtf8_encodeUtf8, encodeUtf8_append]
          exact (List.prefix_append_right_inj _).mpr later

/-- Two ways of cutting a stream between its characters end in the same state
exactly when what is received of them is alike. -/
theorem received_eq_iff {server : StratumServer} {first second : List (List UInt8)}
    (sameBytes : first.flatten = second.flatten)
    (firstUncut : Uncut server Inbound.connected first)
    (secondUncut : Uncut server Inbound.connected second)
    (firstCapped : NeverFull server Inbound.connected first)
    (secondCapped : NeverFull server Inbound.connected second) :
    received server first = received server second ↔
      HeardAlike server (heard server first) (heard server second) := by
  rw [received, received, foldl_receiveData firstCapped, foldl_receiveData secondCapped]
  have firstFront := firstUncut.delivered_front firstCapped
  have secondFront := secondUncut.delivered_front secondCapped
  rw [← sameBytes] at secondFront
  have kept : server.lines.separator ∉ Inbound.connected.rest := List.not_mem_nil
  exact (progress_lines server).receiveAll_eq_iff rfl kept
    (prefix_or_prefix_of_encodeUtf8 firstFront secondFront)

theorem sameText {first second : List (List UInt8)} (sameBytes : first.flatten = second.flatten)
    (firstWhole : ∀ data ∈ first, IsUtf8 data) (secondWhole : ∀ data ∈ second, IsUtf8 data) :
    (first.map decodeUtf8).flatten = (second.map decodeUtf8).flatten := by
  rw [← List.flatMap_def, ← List.flatMap_def, flatMap_decodeUtf8 firstWhole,
    flatMap_decodeUtf8 secondWhole, sameBytes]

/-- A connection that stays open does not depend on the cuts. -/
theorem received_eq_of_open {server : StratumServer} {first second : List (List UInt8)}
    (sameBytes : first.flatten = second.flatten) (firstWhole : ∀ data ∈ first, IsUtf8 data)
    (secondWhole : ∀ data ∈ second, IsUtf8 data)
    (firstCapped : NeverFull server Inbound.connected first)
    (secondCapped : NeverFull server Inbound.connected second)
    (isOpen : (received server first).state.peer.destroyed = false) :
    received server first = received server second := by
  rw [received, foldl_receiveData firstCapped] at isOpen ⊢
  rw [received, foldl_receiveData secondCapped]
  have kept : server.lines.separator ∉ Inbound.connected.rest := List.not_mem_nil
  exact server.lines.receiveAll_eq_of_open rfl kept
    (sameText sameBytes firstWhole secondWhole) isOpen

/-! ## An authorization in two pieces -/

/-- The line that authorizes a name, up to the name. -/
def lineFront : Text :=
  "\x7b\"id\":1,\"method\":\"mining.authorize\",\"params\":[\"".toList

/-- The line after the name. -/
def lineBack : Text :=
  "\"]\x7d".toList

/-- The request that the line makes. -/
def authorizeRequest (name : Text) : Request where
  id := .number ⟨1, by decide⟩
  method := .string "mining.authorize".toList
  first := .string name
  suggested := none
  params := .array [.string name]

/-- A name of one character. -/
def nameExample : Text :=
  ['\u00e9']

/-- What becomes of the name when it is cut. -/
def damagedExample : Text :=
  [replacement, replacement]

/-- A server that nothing distracts, with what `JSON.parse` makes of the lines
with the two names. -/
def serverExample : StratumServer where
  clientId := 1
  zip301 := true
  delivery := ⟨true, 1200⟩
  banOnBadJson := true
  maxBadJsonBeforeClose := 3
  submitAudit := true
  parse := fun text => ([nameExample, damagedExample].find? fun name =>
    text = lineFront ++ name ++ lineBack).map authorizeRequest
  hostile := fun _ => false
  lastJob := fun _ => none
  writableLength := fun _ _ => 0

/-- The line in one piece. -/
def wholeExample : List (List UInt8) :=
  [encodeUtf8 (lineFront ++ nameExample ++ lineBack ++ ['\n'])]

/-- The line in two pieces, with a cut in the character. -/
def damagingExample : List (List UInt8) :=
  [encodeUtf8 lineFront ++ [0xc3], [0xa9] ++ encodeUtf8 (lineBack ++ ['\n'])]

/-- The line in two pieces, with a cut in front of the character. -/
def harmlessExample : List (List UInt8) :=
  [encodeUtf8 lineFront, encodeUtf8 (nameExample ++ lineBack ++ ['\n'])]

/-- The name of a client depends on where its line is cut. -/
theorem not_received_eq_damagingExample :
    ¬∀ (server : StratumServer) (first second : List (List UInt8)),
      first.flatten = second.flatten → IsUtf8 first.flatten →
      NeverFull server Inbound.connected first → NeverFull server Inbound.connected second →
        received server first = received server second := by
  intro independent
  have sameBytes : wholeExample.flatten = damagingExample.flatten := by decide +kernel
  have valid : IsUtf8 wholeExample.flatten :=
    ⟨lineFront ++ nameExample ++ lineBack ++ ['\n'], List.append_nil _⟩
  have same := independent serverExample wholeExample damagingExample sameBytes valid
    (by decide +kernel) (by decide +kernel)
  have names := congrArg (fun client : Inbound => client.state.peer.workerName) same
  have differ : (received serverExample wholeExample).state.peer.workerName ≠
      (received serverExample damagingExample).state.peer.workerName := by decide +kernel
  exact differ names

theorem received_eq_harmlessExample :
    received serverExample wholeExample = received serverExample harmlessExample := by
  have sameBytes : wholeExample.flatten = harmlessExample.flatten := by decide +kernel
  have whole : ∀ data ∈ wholeExample, ∀ client, Whole client data :=
    fun data member client _ => ⟨_, List.mem_singleton.mp member⟩
  have harmless : ∀ data ∈ harmlessExample, ∀ client, Whole client data := by
    intro data member client _
    rcases List.mem_cons.mp member with front | back
    · exact ⟨_, front⟩
    · exact ⟨_, List.mem_singleton.mp back⟩
  exact (received_eq_iff sameBytes (throughout_of_mem whole _) (throughout_of_mem harmless _)
    (by decide +kernel) (by decide +kernel)).mpr (by decide +kernel)

/-! ## The buffer cap -/

/-- The client was closed or banned for what its buffer holds. -/
def Punished (session : Session) : Prop :=
  .bufferOverflow ∈ session.closings ∨ .bufferOverflow ∈ session.bans

instance (session : Session) : Decidable (Punished session) :=
  inferInstanceAs (Decidable (_ ∨ _))

theorem punished_take (server : StratumServer) (session : Session) (items : List Text) :
    Punished (server.lines.take session items) ↔ Punished session := by
  refine server.lines.take_invariant (fun after => Punished after ↔ Punished session)
    (fun after line same => ?_) Iff.rfl items
  refine Iff.trans ?_ same
  change Punished (handleLine server after line).1 ↔ Punished after
  cases blank : isBlank line with
  | true => rw [handleLine_of_isBlank server after blank]
  | false =>
      have overflow := (handles_handleLine server after blank).overflow
      exact or_congr overflow.1 overflow.2

/-- A chunk within the cap is not punished. -/
theorem punished_receiveData_of_capped {server : StratumServer} {client : Inbound}
    {data : List UInt8} (capped : Capped client data) :
    Punished (receiveData server client data).state ↔ Punished client.state := by
  rw [receiveData_of_capped capped, Receiver.receive]
  split
  · exact Iff.rfl
  · exact punished_take server client.state _

/-- Any other chunk closes the connection. -/
theorem receiveData_of_not_capped {server : StratumServer} {client : Inbound} {data : List UInt8}
    (full : ¬Capped client data) :
    Punished (receiveData server client data).state ∧
      (receiveData server client data).state.peer.destroyed = true := by
  rw [Capped, Classical.not_imp] at full
  have closes : receiveData server client data = ⟨client.state.close .bufferOverflow
      server.banOnBadJson, client.rest ++ decodeUtf8 data⟩ := by
    rw [receiveData, full.1, if_neg Bool.false_ne_true]
    exact if_pos (Nat.lt_of_not_le full.2)
  rw [closes]
  exact ⟨Or.inl (List.mem_append_right _ (List.mem_singleton_self _)), rfl⟩

theorem punished_receiveData {server : StratumServer} {client : Inbound} {data : List UInt8}
    (punished : Punished client.state) : Punished (receiveData server client data).state := by
  by_cases capped : Capped client data
  · exact (punished_receiveData_of_capped capped).mpr punished
  · exact (receiveData_of_not_capped capped).1

/-- A client is not punished exactly when none of its chunks hits the cap. -/
theorem not_punished_iff_neverFull (server : StratumServer) (chunks : List (List UInt8)) :
    ¬Punished (received server chunks).state ↔ NeverFull server Inbound.connected chunks := by
  refine iff_of_permanent (fun _ => True) (fun client => ¬Punished client.state)
    (fun _ _ => trivial) ?_ ?_ ?_ trivial (by decide)
    (run_total (receiveData server) Inbound.connected chunks)
  · intro client target data _ clean capped step
    cases step
    exact (punished_receiveData_of_capped capped).not.mpr clean
  · intro client target data _ full step
    cases step
    exact not_not.mpr (receiveData_of_not_capped full).1
  · intro client target data punished step
    cases step
    exact not_not.mpr (punished_receiveData (not_not.mp punished))

/-- The chunks of an open connection were within the cap. -/
theorem neverFull_of_open {server : StratumServer} {chunks : List (List UInt8)}
    (isOpen : (received server chunks).state.peer.destroyed = false) :
    NeverFull server Inbound.connected chunks := by
  refine throughout_of_good (fun _ => True) (fun client => client.state.peer.destroyed = false)
    (fun _ _ => trivial) ?_ ?_ trivial (run_total (receiveData server) Inbound.connected chunks)
    isOpen
  · intro client target data _ full step
    cases step
    rw [(receiveData_of_not_capped full).2]
    decide
  · intro client target data destroyed step
    cases step
    rw [receiveData, if_pos ((Bool.not_eq_false _).mp destroyed)]
    exact destroyed

/-- The buffer of an open connection is the rest of its last line. -/
theorem rest_of_open {server : StratumServer} {chunks : List (List UInt8)}
    (isOpen : (received server chunks).state.peer.destroyed = false) :
    (received server chunks).rest = remainder '\n' (chunks.flatMap decodeUtf8) := by
  have lines := foldl_receiveData (neverFull_of_open isOpen)
  have kept : server.lines.separator ∉ Inbound.connected.rest := List.not_mem_nil
  rw [received, lines] at isOpen ⊢
  rw [server.lines.receiveAll_eq_hear rfl kept, server.lines.delivered_of_open isOpen,
    List.flatMap_def]
  rfl

/-- An open connection heard the text of its stream exactly where no cut is in
a character. -/
theorem heard_eq_iff {server : StratumServer} {chunks : List (List UInt8)}
    (valid : IsUtf8 chunks.flatten)
    (isOpen : (received server chunks).state.peer.destroyed = false) :
    heard server chunks = decodeUtf8 chunks.flatten ↔ ∀ data ∈ chunks, IsUtf8 data := by
  have lines := foldl_receiveData (neverFull_of_open isOpen)
  rw [received, lines] at isOpen
  rw [heard, server.lines.delivered_of_open isOpen, ← List.flatMap_def]
  exact flatMap_decodeUtf8_eq_iff valid

/-- The text since the last newline before each chunk and the whole chunk
together are within the cap, as long as the connection is open. -/
def Spaced (server : StratumServer) (chunks : List (List UInt8)) : Prop :=
  ∀ before data after, chunks = before ++ data :: after →
    (received server before).state.peer.destroyed = false →
      unitLength (remainder '\n' (before.flatMap decodeUtf8) ++ decodeUtf8 data) ≤ maxBufferBytes

/-- A client is closed or banned for its buffer exactly when a chunk is too long
together with the unfinished line before it. -/
theorem not_punished_iff_spaced (server : StratumServer) (chunks : List (List UInt8)) :
    ¬Punished (received server chunks).state ↔ Spaced server chunks := by
  rw [not_punished_iff_neverFull, NeverFull, throughout_iff_forall]
  constructor
  · intro capped before data after split isOpen
    have within := capped before data after _ split (run_total _ _ before) isOpen
    change unitLength ((received server before).rest ++ decodeUtf8 data) ≤ maxBufferBytes at within
    rw [rest_of_open isOpen] at within
    exact within
  · intro spaced before data after client split reached isOpen
    rw [run_total] at reached
    cases reached
    change unitLength ((received server before).rest ++ decodeUtf8 data) ≤ maxBufferBytes
    rw [rest_of_open isOpen]
    exact spaced before data after split isOpen

/-- An open connection has no line that is too long: who goes on without a
newline is closed. -/
theorem fits_of_open {server : StratumServer} {chunks : List (List UInt8)}
    (isOpen : (received server chunks).state.peer.destroyed = false) :
    (∀ line ∈ frames '\n' (chunks.flatMap decodeUtf8), unitLength line ≤ maxBufferBytes) ∧
      unitLength (remainder '\n' (chunks.flatMap decodeUtf8)) ≤ maxBufferBytes := by
  induction chunks using List.reverseRecOn with
  | nil => exact ⟨fun line member => absurd member List.not_mem_nil, Nat.zero_le _⟩
  | append_singleton before data ih =>
      have wasOpen : (received server before).state.peer.destroyed = false := by
        by_contra destroyed
        rw [received, List.foldl_append, List.foldl_cons, List.foldl_nil, receiveData] at isOpen
        rw [received] at destroyed
        rw [if_pos ((Bool.not_eq_false _).mp destroyed)] at isOpen
        exact destroyed isOpen
      have spaced := (not_punished_iff_spaced server (before ++ [data])).mp
        ((not_punished_iff_neverFull server _).mpr (neverFull_of_open isOpen))
      have within := spaced before data [] rfl wasOpen
      have cut := frames_append '\n' (before.flatMap decodeUtf8) (decodeUtf8 data)
      rw [List.flatMap_append, List.flatMap_singleton, cut.1, cut.2]
      refine ⟨fun line member => ?_, ?_⟩
      · rcases List.mem_append.mp member with earlier | new
        · exact (ih wasOpen).1 line earlier
        · exact (unitLength_le_of_part (part_of_mem_frames new)).trans within
      · exact (unitLength_le_of_part (part_remainder _ _)).trans within

/-! ## Two lines in one chunk -/

/-- Every line of the stream and its unfinished tail fit into the buffer. -/
def WellFramed (stream : List UInt8) : Prop :=
  (∀ line ∈ frames 0x0a stream, line.length ≤ maxBufferBytes) ∧
    (remainder 0x0a stream).length ≤ maxBufferBytes

theorem encodeUtf8_replicate (n : Nat) :
    encodeUtf8 (List.replicate n 'a') = List.replicate n 0x61 := by
  induction n with
  | zero => rfl
  | succ n ih =>
      rw [List.replicate_succ, List.replicate_succ, ← ih]
      rfl

theorem unitLength_replicate (n : Nat) : unitLength (List.replicate n 'a') = n := by
  induction n with
  | zero => rfl
  | succ n ih =>
      rw [List.replicate_succ', unitLength_append, ih]
      rfl

/-- A line of 10000 characters with its newline. -/
def longLine : Text :=
  List.replicate 9999 'a' ++ ['\n']

/-- Two such lines. -/
def longLines : List UInt8 :=
  encodeUtf8 (longLine ++ longLine)

theorem longLines_eq : longLines =
    List.replicate 9999 0x61 ++ 0x0a :: (List.replicate 9999 0x61 ++ 0x0a :: []) := by
  have line : encodeUtf8 longLine = List.replicate 9999 0x61 ++ [0x0a] := by
    rw [longLine, encodeUtf8_append, encodeUtf8_replicate]
    rfl
  rw [longLines, encodeUtf8_append, line, List.append_assoc]
  rfl

theorem wellFramed_longLines : WellFramed longLines := by
  have absent : (0x0a : UInt8) ∉ List.replicate 9999 0x61 :=
    fun member => absurd (List.eq_of_mem_replicate member) (by decide)
  have first := frames_append_cons absent (List.replicate 9999 0x61 ++ 0x0a :: [])
  have second := frames_append_cons absent []
  rw [WellFramed, longLines_eq, first.1, first.2, second.1, second.2]
  refine ⟨fun line member => ?_, Nat.zero_le _⟩
  have short : (List.replicate 9999 (0x61 : UInt8)).length ≤ maxBufferBytes := by
    rw [List.length_replicate]
    decide
  simp only [frames_of_not_mem, List.not_mem_nil, not_false_eq_true, List.mem_cons, or_false,
    or_self] at member
  rw [member]
  exact short

/-- Two lines that fit are punished when they arrive together. -/
theorem not_unpunished_longLines :
    ¬∀ (server : StratumServer) (chunks : List (List UInt8)), IsUtf8 chunks.flatten →
      WellFramed chunks.flatten → ¬Punished (received server chunks).state := by
  intro never
  have flat : [longLines].flatten = longLines := by
    rw [List.flatten_cons, List.flatten_nil, List.append_nil]
  have valid : IsUtf8 longLines := ⟨longLine ++ longLine, by rw [longLines]⟩
  have clean := never serverExample [longLines]
  rw [flat] at clean
  have spaced := (not_punished_iff_spaced serverExample [longLines]).mp
    (clean valid wellFramed_longLines)
  have within := spaced [] longLines [] rfl rfl
  have long : unitLength longLine = 10000 := by
    rw [longLine, unitLength_append, unitLength_replicate]
    rfl
  have nothing := (frames_of_not_mem (List.not_mem_nil (a := '\n'))).2
  rw [List.flatMap_nil, nothing, List.nil_append, longLines, decodeUtf8_encodeUtf8,
    unitLength_append, long] at within
  exact absurd within (by decide)

end ZcashSoloPool.Pool
