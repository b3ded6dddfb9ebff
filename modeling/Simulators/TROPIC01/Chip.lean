/-
# TROPIC01: the chip on the SPI bus

`chip.rs` and `handlers/get_info.rs`: bytes are clocked in and out, a request
frame is executed as soon as its last byte has arrived, and its response
frames are queued for the host to poll. L3 packets are put together from
Encrypted_Cmd requests.

Executing a request leaves a record (`Execution`): the frame, the response
frames, and the L3 command that was passed to `dispatch`, with the encryption
of its result. A panic takes the chip down for good (the server's lock is
poisoned), but what was executed until then stays on record.
-/
import Simulators.Lib.Blocks
import Simulators.TROPIC01.L3
import Simulators.TROPIC01.Session

namespace Simulators
namespace TROPIC01

/-! ### GET_INFO (`handlers/get_info.rs`) -/

def certStoreBlocks : ℕ := 30
def certStoreBlockSize : ℕ := 128

def objectX509Certificate : UInt8 := 0x00
def objectChipId : UInt8 := 0x01
def objectRiscvFwVersion : UInt8 := 0x02
def objectSpectFwVersion : UInt8 := 0x04
def objectFwBank : UInt8 := 0xb0

def bankFw1 : UInt8 := 0x01
def bankFw2 : UInt8 := 0x02
def bankSpect1 : UInt8 := 0x11
def bankSpect2 : UInt8 := 0x12

/-- The header of an occupied firmware bank, in the layout of either bootloader. -/
def bankHeader (K : Crates) (device : Device) (fwType : UInt8) (version : Bytes) (size : ℕ) : Bytes :=
  let digest := (K.sha256 (device.chipId ++ [fwType])).bytes
  if device.personality.fwBankHeaderLen = 20 then
    [fwType, 0, 0, 0] ++ version ++ toLe 4 size ++ digest.take 8
  else
    toLe 2 fwType.toNat ++ [0, 2] ++ version ++ toLe 4 size ++ digest.take 4 ++ digest ++ [0, 0, 0, 0]

/-- One block of the certificate store, filled up with zeros. -/
def certBlock (device : Device) (block : ℕ) : Bytes :=
  let data := (device.certStore.drop (block * certStoreBlockSize)).take certStoreBlockSize
  data ++ List.replicate (certStoreBlockSize - data.length) 0

/-- The header of a firmware bank. -/
def fwBank (K : Crates) (device : Device) (block : UInt8) : Bytes :=
  let p := device.personality
  if (block = bankFw2 ∨ block = bankSpect2) ∧ p.fwBank2Written = false then List.replicate p.fwBankHeaderLen 0xff
  else if block = bankFw1 ∨ block = bankFw2 then bankHeader K device 1 p.riscvFwVersion p.fwImageSizes.1
  else if block = bankSpect1 ∨ block = bankSpect2 then bankHeader K device 2 p.spectFwVersion p.fwImageSizes.2
  else []

/-- `get_info::handle`. -/
def getInfo (K : Crates) (device : Device) (maintenance : Bool) (objectId block : UInt8) : Except Panic Bytes :=
  let p := device.personality
  if objectId = objectX509Certificate then
    if block.toNat < certStoreBlocks then buildResponse statusRequestOk (certBlock device block.toNat)
    else buildResponse statusGenErr []
  else if objectId = objectChipId then buildResponse statusRequestOk device.chipId
  else if objectId = objectRiscvFwVersion then
    buildResponse statusRequestOk (if maintenance then p.bootloaderVersion else p.riscvFwVersion)
  else if objectId = objectSpectFwVersion then
    buildResponse statusRequestOk (if maintenance then p.bootloaderSpectVersion else p.spectFwVersion)
  else if objectId = objectFwBank ∧ maintenance = true then buildResponse statusRequestOk (fwBank K device block)
  else buildResponse statusGenErr []

/-! ### The chip (`chip.rs`) -/

def statusReady : UInt8 := 0x01
def statusAlarm : UInt8 := 0x02
def statusStartup : UInt8 := 0x04

def reqGetInfo : UInt8 := 0x01
def reqHandshake : UInt8 := 0x02
def reqEncryptedCmd : UInt8 := 0x04
def reqEncryptedSessionAbt : UInt8 := 0x08
def reqResend : UInt8 := 0x10
def reqSleep : UInt8 := 0x20
def reqGetLog : UInt8 := 0xa2
def reqStartup : UInt8 := 0xb3

def sleepKindSleep : UInt8 := 0x05
def startupReboot : UInt8 := 0x01
def startupMaintenanceReboot : UInt8 := 0x03

def l3SizeLen : ℕ := 2
def l3TagLen : ℕ := 16

inductive Mode
  | application
  | maintenance
  | alarm
deriving DecidableEq, Repr

inductive Phase
  | idle
  | first
  | request
  | response
  | noResponse
deriving DecidableEq, Repr

structure Chip where
  personality : Personality
  mode : Mode := .application
  /-- Alarm mode was just entered. -/
  alarmFresh : Bool := false
  session : Session := {}
  phase : Phase := .idle
  request : Bytes := []
  queue : List Bytes := []
  cursor : ℕ := 0
  lastResponse : Option Bytes := none
  busyPolls : ℕ := 1
  busyLeft : ℕ := 0
  /-- The packet so far, and its size. -/
  l3Packet : Bytes := []
  l3Expected : ℕ := 0
  /-- The configuration in force, from the first time it is needed after a start. -/
  activeConfig : Option (List UInt32) := none
  storeDirty : Bool := false
  l3State : L3State := {}
deriving DecidableEq

/-- A plaintext passed to `dispatch`, and the encryption of its result. -/
structure L3Call where
  plaintext : Bytes
  encryption : Option GcmMessage
deriving DecidableEq

/-- Response frames, chip and device, unless it panics. -/
abbrev Reply := Except Panic (List Bytes × Chip × Device)

namespace Chip

/-- `Chip::new`. -/
def new (personality : Personality) : Chip := { personality }

/-- Volatile state is lost. -/
def powerCycle (c : Chip) : Chip := { Chip.new c.personality with busyPolls := c.busyPolls }

def chipStatus (c : Chip) : UInt8 × Chip :=
  match c.mode with
  | .application => (statusReady, c)
  | .maintenance => (statusReady ||| statusStartup, c)
  | .alarm => if c.alarmFresh then (statusReady ||| statusAlarm, { c with alarmFresh := false }) else (statusAlarm, c)

/-- The configuration in force. -/
def configInForce (c : Chip) (dev : Device) : List UInt32 := c.activeConfig.getD dev.effectiveConfig

def dropSession (c : Chip) : Chip := { c with session := {}, l3Packet := [], l3Expected := 0 }

def reboot (c : Chip) (mode : Mode) : Chip := { c.dropSession with mode, activeConfig := none, l3State := {} }

/-- Answer with one frame. -/
def answer (c : Chip) (dev : Device) (status : UInt8) (data : Bytes) : Reply :=
  (buildResponse status data).map fun f => ([f], c, dev)

/-- Answer with REQUEST_OK and an error. -/
def answerAfterAck (c : Chip) (dev : Device) (status : UInt8) : Reply := do
  let ack ← buildResponse statusRequestOk []
  let f ← buildResponse status []
  return ([ack, f], c, dev)

def handshake (K : Crates) (g : OsRng) (c : Chip) (dev : Device) (data : Bytes) : Reply :=
  if data.length ≠ handshakeReqLen then c.answer dev statusGenErr []
  else if (3 : UInt8) < (data[32]?).getD 0 ∧ c.personality.badPairingIndexAlarms = true then
    .ok ([], { c.dropSession with mode := .alarm, alarmFresh := true }, dev)
  else
    let c := { c with l3Packet := [], l3Expected := 0 }
    match Session.handshake K g dev data with
    | .ok (body, session) => { c with session }.answer dev statusRequestOk body
    | .error (.refuse _) => { c with session := {} }.answer dev statusHskErr []
    | .error (.panic p) => .error p

/-- The chunks of a packet: RESULT_CONT, on the last one RESULT_OK. -/
def resultFrames : List Bytes → Except Panic (List Bytes)
  | [] => .ok []
  | chunk :: chunks => do
    let f ← buildResponse (if chunks = [] then statusResultOk else statusResultCont) chunk
    let fs ← resultFrames chunks
    return f :: fs

/-- The result of a command, encrypted. -/
def answerResult (K : Crates) (c : Chip) (dev : Device) (plaintext result : Bytes) : Option L3Call × Reply :=
  let (encryption, wrapped) := c.session.wrapL3Response K result
  (some ⟨plaintext, encryption⟩,
    match wrapped with
    | .error _ => c.dropSession.answerAfterAck dev statusGenErr
    | .ok (wire, session) => do
      let ack ← buildResponse statusRequestOk []
      let frames ← resultFrames (chunks maxL2DataSize wire)
      return (ack :: frames, { c with session }, dev))

/-- A whole packet: unwrap, execute, wrap. -/
def packetCommand (K : Crates) (g : OsRng) (c : Chip) (dev : Device) (packet : Bytes) : Option L3Call × Reply :=
  match c.session.unwrapL3Request K packet with
  | .error _ => (none, c.dropSession.answerAfterAck dev statusTagErr)
  | .ok (plaintext, session) =>
    let pkeyIndex := (session.keys.map (·.pkeyIndex)).getD 0
    let cfg := c.configInForce dev
    match dispatch K g dev cfg c.personality pkeyIndex c.l3State plaintext with
    | .error p => (some ⟨plaintext, none⟩, .error p)
    | .ok (outcome, dev', l3State) =>
      let mutates := (plaintext.head?.bind CmdId.ofWireId).any mutatesStore
      let c := { c with session, activeConfig := some cfg, l3State, storeDirty := c.storeDirty || mutates }
      match outcome with
      | .genErr => (some ⟨plaintext, none⟩, c.dropSession.answerAfterAck dev' statusGenErr)
      | .result result => c.answerResult K dev' plaintext result

/-- A piece of a packet; the first piece has the size in front. -/
def encryptedCmd (K : Crates) (g : OsRng) (c : Chip) (dev : Device) (chunk : Bytes) : Option L3Call × Reply :=
  if c.session.isOpen = false then (none, { c with l3Packet := [], l3Expected := 0 }.answer dev statusNoSession [])
  else if c.l3Packet = [] ∧ chunk.length < l3SizeLen then (none, c.answer dev statusGenErr [])
  else
    let size := (u16Le (chunk.headD 0) ((chunk[1]?).getD 0)).toNat
    let expected := if c.l3Packet = [] then l3SizeLen + size + l3TagLen else c.l3Expected
    let packet := c.l3Packet ++ chunk
    if packet.length < expected then
      (none, { c with l3Packet := packet, l3Expected := expected }.answer dev statusRequestCont [])
    else
      let c := { c with l3Packet := [], l3Expected := 0 }
      if packet.length ≠ expected then (none, c.dropSession.answerAfterAck dev statusGenErr)
      else c.packetCommand K g dev packet

/-- STARTUP. Bit 3 of the first register permits the maintenance restart. -/
def startup (c : Chip) (dev : Device) (data : Bytes) : Reply :=
  match data with
  | [kind] =>
    if kind = startupReboot then (c.reboot .application).answer dev statusRequestOk []
    else if kind = startupMaintenanceReboot then
      match (c.configInForce dev)[0]? with
      | none => .error .index
      | some reg =>
        let mode := if reg &&& ((1 : UInt32) <<< 3) ≠ 0 then .maintenance else .application
        (c.reboot mode).answer dev statusRequestOk []
    else c.answer dev statusGenErr []
  | _ => c.answer dev statusGenErr []

/-- SLEEP. Bit 0 of register `0x018` permits it. -/
def sleep (c : Chip) (dev : Device) (data : Bytes) : Reply :=
  if data ≠ [sleepKindSleep] then c.answer dev statusGenErr []
  else
    let cfg := c.configInForce dev
    let c := { c with activeConfig := some cfg }
    match cfg[0x018 / 4]? with
    | none => .error .index
    | some reg =>
      if reg &&& 1 = 0 then c.answer dev statusRespDisabled [] else c.dropSession.answer dev statusRequestOk []

/-- One request, and the frames to queue. -/
def process (K : Crates) (g : OsRng) (c : Chip) (dev : Device) (raw : Bytes) : Option L3Call × Reply :=
  match parseRequest raw with
  | .error .badCrc => (none, c.answer dev statusCrcErr [])
  | .error _ => (none, c.answer dev statusGenErr [])
  | .ok ⟨reqId, data⟩ =>
    if reqId = reqResend then (none, c.answer dev statusGenErr [])
    else if reqId = reqGetInfo then
      (none, match data with
        | [objectId, block] => (getInfo K dev (c.mode == .maintenance) objectId block).map fun f => ([f], c, dev)
        | _ => c.answer dev statusGenErr [])
    else if reqId = reqGetLog then
      (none, if data = [] then c.answer dev statusRequestOk c.personality.fwLog else c.answer dev statusGenErr [])
    else if reqId = reqStartup then (none, c.startup dev data)
    else if c.mode ≠ .application then (none, c.answer dev statusUnknownErr [])
    else if reqId = reqHandshake then (none, c.handshake K g dev data)
    else if reqId = reqEncryptedCmd then c.encryptedCmd K g dev data
    else if reqId = reqEncryptedSessionAbt then
      (none, if data = [] then c.dropSession.answer dev statusRequestOk [] else c.answer dev statusGenErr [])
    else if reqId = reqSleep then (none, c.sleep dev data)
    else (none, c.answer dev statusUnknownErr [])

end Chip

/-- A request that was executed: its frame, the frames it was answered with,
and the command it made the chip execute. -/
structure Execution where
  raw : Bytes
  reply : List Bytes
  call : Option L3Call
deriving DecidableEq

namespace Chip

/-- RESEND puts the last frame in front of the queue; any other request discards the queue. -/
def execute (K : Crates) (g : OsRng) (c : Chip) (dev : Device) (raw : Bytes) :
    Execution × Except Panic (Chip × Device) :=
  let resend : Bool := match parseRequest raw with
    | .ok ⟨reqId, data⟩ => reqId = reqResend ∧ data = []
    | .error _ => false
  if c.mode = .alarm then (⟨raw, [], none⟩, .ok (c, dev))
  else match resend, c.lastResponse with
    | true, some f => (⟨raw, [f], none⟩, .ok ({ c with queue := f :: c.queue, busyLeft := c.busyPolls }, dev))
    | _, _ =>
      let (call, reply) := c.process K g dev raw
      match reply with
      | .error p => (⟨raw, [], call⟩, .error p)
      | .ok (frames, c, dev) =>
        (⟨raw, frames, call⟩,
          .ok ({ c with queue := frames, busyLeft := if frames = [] then 0 else c.busyPolls }, dev))

/-- Bytes past the largest frame are dropped. -/
def pushRequestByte (K : Crates) (g : OsRng) (c : Chip) (dev : Device) (b : UInt8) :
    Option Execution × Except Panic (Chip × Device) :=
  let request := if c.request.length < maxL2FrameSize then c.request ++ [b] else c.request
  match request[1]? with
  | some reqLen =>
    if request.length = reqLen.toNat + 4 then
      let (x, r) := { c with request := [] }.execute K g dev request
      (some x, r.map fun (c, dev) => ({ c with phase := .noResponse }, dev))
    else (none, .ok ({ c with request }, dev))
  | none => (none, .ok ({ c with request }, dev))

/-- A poll: the phase that follows, and the status byte. -/
def poll (c : Chip) : UInt8 × Chip :=
  let (cs, c) := c.chipStatus
  if c.mode = .alarm ∨ c.queue = [] then (cs, { c with phase := .noResponse })
  else if 0 < c.busyLeft then
    (if c.mode = .application ∧ c.personality.busyPollReady = true then cs else cs &&& ~~~statusReady,
      { c with busyLeft := c.busyLeft - 1, phase := .noResponse })
  else (cs, { c with phase := .response, cursor := 0 })

/-- What one clocked byte executes, and MISO, chip and device after it. -/
def transferByte (K : Crates) (g : OsRng) (c : Chip) (dev : Device) (b : UInt8) :
    Option Execution × Except Panic (UInt8 × Chip × Device) :=
  match c.phase with
  | .idle => (none, .ok (0xff, c, dev))
  | .first =>
    if b = getResponseReqId then
      let (cs, c) := c.poll
      (none, .ok (cs, c, dev))
    else
      let (cs, c) := c.chipStatus
      let (x, r) := { c with phase := .request }.pushRequestByte K g dev b
      (x, r.map fun (c, dev) => (cs, c, dev))
  | .request =>
    let (x, r) := c.pushRequestByte K g dev b
    (x, r.map fun (c, dev) => (0xff, c, dev))
  | .response =>
    let out := (c.queue.head?.bind fun f => f[c.cursor]?).getD 0xff
    (none, .ok (out, { c with cursor := c.cursor + 1 }, dev))
  | .noResponse => (none, .ok (statusNoResp, c, dev))

def transfer (K : Crates) (g : OsRng) (c : Chip) (dev : Device) : Bytes →
    List Execution × Except Panic (Bytes × Chip × Device)
  | [] => ([], .ok ([], c, dev))
  | b :: mosi =>
    match c.transferByte K g dev b with
    | (x, .error p) => (x.toList, .error p)
    | (x, .ok (out, c, dev)) =>
      let (xs, r) := c.transfer K g dev mosi
      (x.toList ++ xs, r.map fun (miso, c, dev) => (out :: miso, c, dev))

def csnLow (c : Chip) : Chip := { c with phase := .first, request := [], cursor := 0 }

/-- A frame that was clocked out completely leaves the queue. -/
def csnHigh (c : Chip) : Chip :=
  let c := match c.phase, c.queue with
    | .response, front :: queue =>
      if front.length ≤ c.cursor then { c with lastResponse := some front, queue } else c
    | _, _ => c
  { c with cursor := 0, phase := .idle }

end Chip

/-! ### The bus -/

inductive SpiEvent
  | csnLow
  | csnHigh
  | transfer (mosi : Bytes)
  | powerCycle
deriving DecidableEq, Repr

structure SpiOutput where
  miso : Bytes := []
  executed : List Execution := []
deriving DecidableEq

/-- The chip and its device, or the panic that took it down. -/
abbrev Sim := Except Panic (Chip × Device)

/-- One event, with what the chip will draw from the random generator. -/
def Sim.step (K : Crates) (s : Sim) (i : OsRng × SpiEvent) : SpiOutput × Sim :=
  match s with
  | .error p => ({}, .error p)
  | .ok (c, dev) =>
    match i.2 with
    | .csnLow => ({}, .ok (c.csnLow, dev))
    | .csnHigh => ({}, .ok (c.csnHigh, dev))
    | .powerCycle => ({}, .ok (c.powerCycle, dev))
    | .transfer mosi =>
      match c.transfer K i.1 dev mosi with
      | (executed, .error p) => ({ executed }, .error p)
      | (executed, .ok (miso, c, dev)) => ({ miso, executed }, .ok (c, dev))

end TROPIC01
end Simulators
