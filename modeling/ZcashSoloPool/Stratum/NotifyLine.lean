import ZcashSoloPool.Stratum.Delivery
import ZcashSoloPool.WorkManager.PlainReply

/-!
# The line of `mining.notify`

The server has two copies of the choice of the parameters: `sendJob` writes to
one client, `_buildNotifyPayload` writes the text that `broadcastJob` sends to
all.  Here a job is any object, whose members hold any JSON or are missing, and
a line is the text that reaches a socket.
-/

namespace ZcashSoloPool.Stratum.Raw

open ZcashSoloPool.Bytes
open ZcashSoloPool.JavaScript
open ZcashSoloPool.WorkManager.Raw (truthy orElse plain plain_orElse plain_cases JobShows)

/-! ## Jobs and settings -/

/-- The members of a job that the server reads, those that the source marks
with an underscore after those for miners. -/
structure JobObject where
  jobId : Option Json
  version : Option Json
  prevhash : Option Json
  merkleRoot : Option Json
  reserved : Option Json
  ntime : Option Json
  nbits : Option Json
  cleanJobs : Option Json
  nbitsLE : Option Json
  versionLE : Option Json
  prevhashLE : Option Json
  merkleRootLE : Option Json
  ntimeLE : Option Json
  versionBE : Option Json
  prevhashBE : Option Json
  merkleRootBE : Option Json
  reservedBE : Option Json
  reservedLE : Option Json
  merkleRootLEForNotify : Option Json
  prevhashLEForNotify : Option Json
  versionLEForNotify : Option Json

/-- The five strings of the configuration. -/
structure NotifyConfig where
  protocolMode : Text
  notifyFormat : Text
  notifyPreset : Text
  notifyVersionEndian : Text
  notifyReservedMode : Text

/-- The fields of the server that the constructor makes of them. -/
structure NotifySettings where
  protocolMode : Text
  notifyFormat : Text
  notifyPreset : Text
  notifyVersionEndian : Text
  notifyReservedMode : Text

/-- The operator `||` between strings. -/
def orText (left right : Text) : Text :=
  if left.isEmpty then right else left

/-- The part of the constructor that reads these strings. -/
def NotifySettings.ofConfig (config : NotifyConfig) : NotifySettings where
  protocolMode := toLowerCase config.protocolMode
  notifyFormat := toLowerCase (orText config.notifyFormat "inno".toList)
  notifyPreset := toLowerCase (orText config.notifyPreset "headerle".toList)
  notifyVersionEndian := toLowerCase (orText config.notifyVersionEndian "be".toList)
  notifyReservedMode := toLowerCase (orText config.notifyReservedMode "empty".toList)

/-- A string as a member. -/
def textMember (text : Text) : Option Json :=
  some (.string text)

/-- `reverseHexBytes`. -/
def reverseHexBytes (hex : Option Json) : Option Json :=
  match hex with
  | some (.string text) =>
      if unitLength text % 2 ≠ 0 then hex else textMember (WorkManager.reverseHex text)
  | _ => hex

/-- `JSON.stringify` of the message with the parameters; `undefined` in an array
is written as `null`. -/
def notifyJson (numbers : NumberFormat) (params : List (Option Json)) : Text :=
  (Json.object [
    ("method".toList, .string "mining.notify".toList),
    ("params".toList, .array (params.map fun param => param.getD .null)),
    ("id".toList, .null)]).stringify numbers

/-! ## Sockets -/

/-- A socket: whether it is destroyed, how much it has not sent yet, and the
lines written to it. -/
structure Socket where
  destroyed : Bool
  writableLength : Nat
  written : List Text

/-- A client of the server. -/
structure Endpoint where
  authorized : Bool
  socket : Option Socket

/-- `socket.destroy()`. -/
def Socket.destroy (socket : Socket) : Socket :=
  { socket with destroyed := true }

/-- `socket.write(payload)`; how far the text is sent on at once is up to the
network. -/
def Socket.write (socket : Socket) (payload : Text) : Socket :=
  { socket with written := socket.written ++ [payload] }

/-- `send`, of a message that is written as the text. -/
def send (client : Endpoint) (dataText : Text) : Endpoint :=
  match client.socket with
  | none => client
  | some socket =>
      if socket.destroyed then client
      else
        let payload := dataText ++ ['\n']
        if socket.writableLength > maxBufferBytes then { client with socket := socket.destroy }
        else { client with socket := socket.write payload }

/-! ## The two copies -/

/-- The parameters that `sendJob` puts together. -/
def sendJobParams (server : NotifySettings) (job : JobObject) : List (Option Json) :=
  if server.protocolMode = "zip301".toList ∨ server.protocolMode = "zip301_notify".toList then
    let versionLE := orElse job.versionLE (orElse job.version (textMember "04000000".toList))
    let prevhashLE := orElse job.prevhashLE job.prevhash
    let merkleRootLE := orElse job.merkleRootLE job.merkleRoot
    let reservedLE := orElse job.reservedLE (textMember (List.replicate 64 '0'))
    let timeLE := orElse job.ntimeLE job.ntime
    let bitsLE := orElse job.nbitsLE (reverseHexBytes job.nbits)
    [job.jobId, versionLE, prevhashLE, merkleRootLE, reservedLE, timeLE, bitsLE, job.cleanJobs]
  else
    let preset := server.notifyPreset
    let version := Id.run do
      let mut version := if preset = "display".toList then orElse job.versionBE job.version
        else orElse job.versionLEForNotify job.version
      if server.notifyVersionEndian = "be".toList then
        version := orElse job.versionBE version
      else if server.notifyVersionEndian = "le".toList then
        version := orElse job.versionLEForNotify version
      return version
    let prevhash := if preset = "display".toList then orElse job.prevhashBE job.prevhash
      else orElse job.prevhashLEForNotify job.prevhash
    let merkleRoot := if preset = "display".toList then orElse job.merkleRootBE job.merkleRoot
      else orElse job.merkleRootLEForNotify job.merkleRoot
    let mode := server.notifyReservedMode
    let reserved := Id.run do
      let mut reserved := none
      if mode = "empty".toList then
        reserved := textMember []
      else if mode = "zero32".toList then
        reserved := textMember (List.replicate 64 '0')
      else
        reserved := if preset = "display".toList then orElse job.reservedBE job.reserved
          else orElse job.reservedLE job.reserved
      return reserved
    let ntime := job.ntime
    let nbits := job.nbits
    if server.notifyFormat = "zcash".toList then
      [job.jobId, version, prevhash, merkleRoot, reserved, ntime, nbits, job.cleanJobs]
    else [job.jobId, prevhash, merkleRoot, reserved, version, nbits, ntime, job.cleanJobs]

/-- `sendJob`. -/
def sendJob (numbers : NumberFormat) (server : NotifySettings) (job : JobObject)
    (client : Endpoint) : Endpoint :=
  match client.socket with
  | none => client
  | some socket =>
      if socket.destroyed then client
      else send client (notifyJson numbers (sendJobParams server job))

/-- The parameters that `_buildNotifyPayload` puts together. -/
def payloadParams (server : NotifySettings) (job : JobObject) : List (Option Json) :=
  if server.protocolMode = "zip301".toList ∨ server.protocolMode = "zip301_notify".toList then
    let versionLE := orElse job.versionLE (orElse job.version (textMember "04000000".toList))
    let prevhashLE := orElse job.prevhashLE job.prevhash
    let merkleRootLE := orElse job.merkleRootLE job.merkleRoot
    let reservedLE := orElse job.reservedLE (textMember (List.replicate 64 '0'))
    let timeLE := orElse job.ntimeLE job.ntime
    let bitsLE := orElse job.nbitsLE (reverseHexBytes job.nbits)
    [job.jobId, versionLE, prevhashLE, merkleRootLE, reservedLE, timeLE, bitsLE, job.cleanJobs]
  else
    let display : Bool := server.notifyPreset = "display".toList
    let chosen := if display then orElse job.versionBE job.version
      else orElse job.versionLEForNotify job.version
    let version :=
      if server.notifyVersionEndian = "be".toList then orElse job.versionBE chosen
      else if server.notifyVersionEndian = "le".toList then orElse job.versionLEForNotify chosen
      else chosen
    let prevhash := if display then orElse job.prevhashBE job.prevhash
      else orElse job.prevhashLEForNotify job.prevhash
    let merkleRoot := if display then orElse job.merkleRootBE job.merkleRoot
      else orElse job.merkleRootLEForNotify job.merkleRoot
    let mode := server.notifyReservedMode
    let reserved :=
      if mode = "empty".toList then textMember []
      else if mode = "zero32".toList then textMember (List.replicate 64 '0')
      else if display then orElse job.reservedBE job.reserved
      else orElse job.reservedLE job.reserved
    if server.notifyFormat = "zcash".toList then
      [job.jobId, version, prevhash, merkleRoot, reserved, job.ntime, job.nbits, job.cleanJobs]
    else [job.jobId, prevhash, merkleRoot, reserved, version, job.nbits, job.ntime, job.cleanJobs]

/-- `_buildNotifyPayload`. -/
def buildNotifyPayload (numbers : NumberFormat) (server : NotifySettings) (job : JobObject) :
    Text :=
  notifyJson numbers (payloadParams server job) ++ ['\n']

/-- What `broadcastJob` does for one client. -/
def receiveBroadcast (payload : Text) (client : Endpoint) : Endpoint :=
  match client.socket with
  | none => client
  | some socket =>
      if !client.authorized || socket.destroyed then client
      else if socket.writableLength > maxBufferBytes then { client with socket := socket.destroy }
      else { client with socket := socket.write payload }

/-- `broadcastJob`, on the clients of the server. -/
def broadcastJob (numbers : NumberFormat) (server : NotifySettings) (job : JobObject)
    (clients : List Endpoint) : List Endpoint :=
  clients.map (receiveBroadcast (buildNotifyPayload numbers server job))

/-! ## One message -/

/-- The two copies choose the same parameters. -/
theorem payloadParams_eq (server : NotifySettings) (job : JobObject) :
    payloadParams server job = sendJobParams server job := by
  unfold payloadParams sendJobParams
  by_cases zip301 : server.protocolMode = "zip301".toList ∨
      server.protocolMode = "zip301_notify".toList
  · simp only [if_pos zip301]
  · simp only [if_neg zip301, decide_eq_true_eq, Id.run, pure]

/-- An authorised client receives from a broadcast what `sendJob` sends it. -/
theorem receiveBroadcast_eq (numbers : NumberFormat) (server : NotifySettings) (job : JobObject)
    (client : Endpoint) :
    receiveBroadcast (buildNotifyPayload numbers server job) client =
      if client.authorized then sendJob numbers server job client else client := by
  rw [buildNotifyPayload, payloadParams_eq]
  unfold receiveBroadcast sendJob send
  cases client.authorized with
  | false =>
      cases client.socket with
      | none => rfl
      | some socket => simp
  | true =>
      cases client.socket with
      | none => rfl
      | some socket =>
          by_cases destroyed : socket.destroyed = true <;> simp [destroyed]

/-- For every configuration and every job, a broadcast has the text that
`sendJob` writes, and leaves every authorised client as `sendJob` does. -/
theorem broadcastJob_eq_sendJob (numbers : NumberFormat) (config : NotifyConfig)
    (job : JobObject) :
    buildNotifyPayload numbers (.ofConfig config) job =
        notifyJson numbers (sendJobParams (.ofConfig config) job) ++ ['\n'] ∧
      ∀ clients, broadcastJob numbers (.ofConfig config) job clients =
        clients.map fun client =>
          if client.authorized then sendJob numbers (.ofConfig config) job client else client := by
  constructor
  · rw [buildNotifyPayload, payloadParams_eq]
  · intro clients
    exact List.map_congr_left fun client _ => receiveBroadcast_eq numbers _ job client

/-! ## The jobs of the work manager -/

/-- The object that `generateJob` builds. -/
def JobObject.ofJob (job : WorkManager.Raw.Job) : JobObject where
  jobId := textMember job.jobId
  version := textMember job.version
  prevhash := job.prevhash
  merkleRoot := textMember job.merkleRoot
  reserved := job.reserved
  ntime := textMember job.ntime
  nbits := job.nbits
  cleanJobs := some (.bool job.cleanJobs)
  nbitsLE := none
  versionLE := textMember job.versionLE
  prevhashLE := textMember job.prevhashLE
  merkleRootLE := textMember job.merkleRootLE
  ntimeLE := textMember job.ntimeLE
  versionBE := textMember job.versionBE
  prevhashBE := job.prevhashBE
  merkleRootBE := textMember job.merkleRootBE
  reservedBE := job.reservedBE
  reservedLE := textMember job.reservedLE
  merkleRootLEForNotify := textMember job.merkleRootLEForNotify
  prevhashLEForNotify := textMember job.prevhashLEForNotify
  versionLEForNotify := textMember job.versionLEForNotify

@[simp]
theorem plain_textMember (text : Text) : plain (textMember text) = some (.string text) :=
  rfl

/-- Characters of one unit each have the bytes of the text reversed. -/
theorem plain_reverseHexBytes {member : Option Json} {value : Value}
    (plainMember : plain member = some value)
    (narrow : ∀ text, value = .string text → unitLength text = text.length) :
    plain (reverseHexBytes member) = some (Stratum.reverseHexBytes value) := by
  rcases plain_cases plainMember with ⟨rfl, rfl⟩ | ⟨rfl, rfl⟩ | ⟨flag, rfl, rfl⟩ |
    ⟨n, rfl, rfl⟩ | ⟨text, rfl, rfl⟩
  · rfl
  · rfl
  · rfl
  · exact plainMember
  · have length := narrow text rfl
    by_cases even : text.length % 2 = 0 <;>
      simp [reverseHexBytes, Stratum.reverseHexBytes, length, even, plain, textMember]

/-- For a job of the work manager the parameters in the ZIP 301 modes are those
of its notification. -/
theorem sendJobParams_ofJob {server : NotifySettings} {env : WorkManager.Raw.Environment}
    {raw : WorkManager.Raw.Job} {job : WorkManager.Job}
    (zip301 : server.protocolMode = "zip301".toList ∨
      server.protocolMode = "zip301_notify".toList)
    (shows : JobShows env raw job)
    (narrow : ∀ text, job.nbits = .string text → unitLength text = text.length) :
    (sendJobParams server (.ofJob raw)).map plain =
      let notify := Stratum.sendJob job
      [some notify.jobId, some notify.version, some notify.prevhash, some notify.merkleRoot,
        some notify.reserved, some notify.time, some notify.bits,
        some (.bool notify.cleanJobs)] := by
  have version := plain_orElse (plain_textMember job.versionLE)
    (plain_orElse (plain_textMember job.version) (plain_textMember "04000000".toList))
  have prevhash := plain_orElse (plain_textMember job.prevhashLE) shows.prevhash
  have merkleRoot := plain_orElse (plain_textMember job.merkleRootLE)
    (plain_textMember job.merkleRoot)
  have reserved := plain_orElse (plain_textMember job.reservedLE)
    (plain_textMember (List.replicate 64 '0'))
  have time := plain_orElse (plain_textMember job.ntimeLE) (plain_textMember job.ntime)
  have bits : plain (orElse none (reverseHexBytes raw.nbits)) =
      some (Value.undefined.or (Stratum.reverseHexBytes job.nbits)) :=
    plain_reverseHexBytes shows.nbits narrow
  simp only [sendJobParams, if_pos zip301, JobObject.ofJob, shows.jobId, shows.version,
    shows.merkleRoot, shows.ntime, shows.cleanJobs, shows.versionLE, shows.prevhashLE,
    shows.merkleRootLE, shows.ntimeLE, shows.reservedLE, List.map_cons, List.map_nil, version,
    prevhash, merkleRoot, reserved, time, bits, plain_textMember]
  rfl

end ZcashSoloPool.Stratum.Raw
