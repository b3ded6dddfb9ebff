/-
# SE050: the T=1 responder

`t1.rs`: frames with their CRC, the reassembly of command APDUs, the routing
of an APDU to the secure channel or to the dispatcher, and the splitting of
the response into frames.

A frame goes out as two chunks, its header and its payload with the CRC, as
the driver reads it. What the responder reads from the process (`Env`) is
given with each frame.
-/
import Simulators.SE050.Scp03

namespace Simulators
namespace SE050

open Handler

/-! ### Frames -/

/-- One bit of the CRC register, reflected. -/
def crcBit (c : UInt16) : UInt16 := if c &&& 1 ≠ 0 then (c >>> 1) ^^^ 0x8408 else c >>> 1

/-- One byte. -/
def crcByte (c : UInt16) (b : UInt8) : UInt16 := Nat.repeat crcBit 8 (c ^^^ b.toUInt16)

/-- CRC-16/X-25 of the `crc16` crate. -/
def crc16X25 (data : Bytes) : UInt16 := data.foldl crcByte 0xFFFF ^^^ 0xFFFF

example : crc16X25 [0, 48, 95, 111, 242] = 0x78a1 := by decide +kernel

def t1SRequest : UInt8 := 0xC0
def t1SResponse : UInt8 := 0xE0
def t1SInterfaceSoftReset : UInt8 := 0x0F
def t1RCodeMask : UInt8 := 0xEC
def t1RCode : UInt8 := 0x80

def atrData : Bytes :=
  [0x00, 0xA0, 0x00, 0x00, 0x03, 0x96, 0x04, 0x03, 0xE8, 0x00, 0xFE, 0x02, 0x0B, 0x03, 0xE8, 0x08, 0x01, 0x00,
    0x00, 0x00, 0x00, 0x64, 0x00, 0x00, 0x0A, 0x4A, 0x43, 0x4F, 0x50, 0x34, 0x20, 0x41, 0x54, 0x50, 0x4F]

inductive FrameType
  | iFrame (seq : UInt8) (multi : Bool)
  | rFrame (seq err : UInt8)
  | sFrame (code : UInt8) (isResponse : Bool)
deriving DecidableEq, Repr

def parsePcb (pcb : UInt8) : Option FrameType :=
  if pcb &&& t1RCodeMask = t1RCode then some (.rFrame ((pcb &&& 0x10) >>> 4) (pcb &&& 0x03))
  else if pcb &&& t1SRequest = t1SRequest then some (.sFrame (pcb &&& ~~~t1SResponse) (pcb &&& 0x20 ≠ 0))
  else if pcb &&& 0x9F = 0 then some (.iFrame ((pcb &&& 0x40) >>> 6) (pcb &&& 0x20 ≠ 0))
  else none

def encodePcb : FrameType → UInt8
  | .iFrame seq multi => (seq <<< 6) ||| if multi then 0x20 else 0
  | .rFrame seq err => t1RCode ||| (seq <<< 4) ||| err
  | .sFrame code isResponse => (if isResponse then t1SResponse else t1SRequest) ||| code

structure T1Frame where
  nad : UInt8
  frameType : FrameType
  payload : Bytes
deriving DecidableEq, Repr

/-- None for a short frame, a wrong CRC or an unknown PCB. -/
def parseFrame : Bytes → Option T1Frame
  | nad :: pcb :: len :: rest =>
    match rest.drop len.toNat with
    | lo :: hi :: _ =>
      let payload := rest.take len.toNat
      if crc16X25 (nad :: pcb :: len :: payload) ≠ word hi lo then none
      else (parsePcb pcb).map fun ft => ⟨nad, ft, payload⟩
    | _ => none
  | _ => none

/-- The header, and the payload with the CRC, low byte first. -/
def buildFrame (nad : UInt8) (ft : FrameType) (payload : Bytes) : Bytes × Bytes :=
  let header := [nad, encodePcb ft, UInt8.ofNat payload.length]
  let crc := crc16X25 (header ++ payload)
  (header, payload ++ [loByte crc, hiByte crc])

/-- The two chunks of a frame. -/
def frameChunks (nad : UInt8) (ft : FrameType) (payload : Bytes) : List Bytes :=
  let (header, payloadCrc) := buildFrame nad ft payload
  [header, payloadCrc]

/-! ### The responder -/

/-- A sequence bit. -/
structure SeqBit where
  val : UInt8
  bit : val = 0 ∨ val = 1
deriving DecidableEq

def SeqBit.zero : SeqBit := ⟨0, .inl rfl⟩

/-- `seq ^= 1`. -/
def SeqBit.toggle (b : SeqBit) : SeqBit := ⟨b.val ^^^ 1, by obtain ⟨_, rfl | rfl⟩ := b <;> decide⟩

structure T1Responder where
  nadSe2hd : UInt8
  /-- The expected number of the host's next I-frame. -/
  iseqRcv : SeqBit
  iseqSnd : SeqBit
  apduReassembly : Bytes
  scp03 : Scp03State
  /-- PUT KEY is valid only after selecting the Security Domain. -/
  selectedSsd : Bool
deriving DecidableEq

/-- The result of a step that also changes the responder and the store. -/
abbrev T1Result (α : Type) := Except Panic (α × (T1Responder × ObjectStore))

namespace T1Responder

def new (nadHd2se : UInt8) : T1Responder where
  nadSe2hd := ((nadHd2se &&& 0xF0) >>> 4) ||| ((nadHd2se &&& 0x0F) <<< 4)
  iseqRcv := .zero
  iseqSnd := .zero
  apduReassembly := []
  scp03 := .idle
  selectedSsd := false

/-- What a soft reset and a resync do to the responder. -/
def reset (t : T1Responder) : T1Responder :=
  { t with iseqRcv := .zero, iseqSnd := .zero, apduReassembly := [], scp03 := .idle, selectedSsd := false }

def handleSRequest (t : T1Responder) (code : UInt8) : List Bytes × T1Responder :=
  if code = t1SInterfaceSoftReset then (frameChunks t.nadSe2hd (.sFrame code true) atrData, t.reset)
  else if code = 0x00 then (frameChunks t.nadSe2hd (.sFrame code true) [], t.reset)
  else if code = 0x07 then (frameChunks t.nadSe2hd (.sFrame code true) atrData, t)
  else (frameChunks t.nadSe2hd (.sFrame code true) [], t)

/-- SELECT ends the secure channel and notes whether it names the Security Domain. -/
def noteSelect (t : T1Responder) (cla ins : UInt8) (apdu : Bytes) : T1Responder :=
  if cla = 0x00 ∧ ins = 0xA4 then
    { t with
      scp03 := .idle
      selectedSsd := match ParsedApdu.parse apdu with
        | .ok a => selectsSsd a
        | .error _ => false }
  else t

section Process

variable (K : Crates) (env : Env) (s : ObjectStore)

def initializeUpdate (t : T1Responder) (apdu : Bytes) : ApduResponse × T1Responder :=
  match ParsedApdu.parse apdu with
  | .ok a =>
    let (resp, st) := initializeUpdateWithConfig K env a.p1 a.data (s.platformScpConfig env)
    (resp, { t with scp03 := st })
  | .error _ => (.error 0x6700, t)

/-- PUT KEY inside of the channel. -/
def putKeyCommand (inner : ParsedApdu) : Cmd (ApduResponse × ObjectStore) := do
  let (updated, checkValues) ← putKeys K (s.platformScpConfig env) inner.p1 inner.p2 inner.data
  return (.successWithData checkValues, s.setPlatformScpConfig updated)

/-- An unwrapped command. -/
def innerCommand (selectedSsd : Bool) (inner : ParsedApdu) : Except Panic (ApduResponse × ObjectStore) :=
  if inner.cla = 0x80 ∧ inner.ins = 0xD8 then
    if selectedSsd then settle ApduResponse.error s (putKeyCommand K env s inner) else .ok (.error 0x6A80, s)
  else dispatch K env inner s true

/-- Unwrap, execute, wrap. An APDU that cannot be unwrapped ends the channel. -/
def wrappedCommand (t : T1Responder) (apdu : Bytes) : T1Result ApduResponse :=
  match t.scp03 with
  | .active sess =>
    match sess.unwrapCommand K apdu with
    | .error (.panic p) => .error p
    | .error (.refuse sw) => .ok (.error sw, { t with scp03 := .idle }, s)
    | .ok (inner, sess) =>
      match innerCommand K env s t.selectedSsd inner with
      | .error p => .error p
      | .ok (resp, s') =>
        match sess.wrapResponse K resp with
        | .error (.panic p) => .error p
        | .ok (out, sess) => .ok (out, { t with scp03 := .active sess }, s')
  | _ => .ok (.error swSecurityStatus, t, s)

def plainCommand (t : T1Responder) (apdu : Bytes) : T1Result ApduResponse :=
  match ParsedApdu.parse apdu with
  | .ok a =>
    match dispatch K env a s false with
    | .error p => .error p
    | .ok (resp, s') => .ok (resp, t, s')
  | .error _ => .ok (.error 0x6700, t, s)

/-- The SCP03 commands are recognized on the raw bytes, before the instruction is masked. -/
def processApdu (t : T1Responder) (apdu : Bytes) : T1Result ApduResponse :=
  match apdu with
  | cla :: ins :: _ :: _ :: _ =>
    let t := t.noteSelect cla ins apdu
    if cla = 0x80 ∧ ins = 0x50 then
      let (resp, t) := t.initializeUpdate K env s apdu
      .ok (resp, t, s)
    else if cla = 0x84 ∧ ins = 0x82 ∧ t.scp03.isActive = false then
      let (resp, st) := t.scp03.externalAuthenticate K apdu
      .ok (resp, { t with scp03 := st }, s)
    else if cla &&& 0x04 ≠ 0 then t.wrappedCommand K env s apdu
    else if cla = 0x80 ∧ t.scp03.isActive = true then
      .ok (.error swConditionsNotSatisfied, { t with scp03 := .idle }, s)
    else if cla = 0x80 ∧ s.scpRequired = true then .ok (.error swConditionsNotSatisfied, t, s)
    else t.plainCommand K env s apdu
  | _ => t.plainCommand K env s apdu

/-- `MAX_IFSC`. -/
def maxPayload : ℕ := 254

/-- One I-frame for each piece, the more-bit on all but the last. -/
def framesOf (nad : UInt8) : SeqBit → List Bytes → List Bytes × SeqBit
  | seq, [] => ([], seq)
  | seq, c :: cs =>
    let (rest, seq') := framesOf nad seq.toggle cs
    (frameChunks nad (.iFrame seq.val (!cs.isEmpty)) c ++ rest, seq')

def buildResponseFrames (t : T1Responder) (response : Bytes) : List Bytes × T1Responder :=
  let (out, seq) := framesOf t.nadSe2hd t.iseqSnd
    (if response.length ≤ maxPayload then [response] else chunks maxPayload response)
  (out, { t with iseqSnd := seq })

/-- An I-frame: its number is not enforced. -/
def handleIFrame (t : T1Responder) (multi : Bool) (payload : Bytes) : T1Result (List Bytes) :=
  let t := { t with iseqRcv := t.iseqRcv.toggle, apduReassembly := t.apduReassembly ++ payload }
  if multi then .ok (frameChunks t.nadSe2hd (.rFrame t.iseqRcv.val 0) [], t, s)
  else
    match processApdu K env s { t with apduReassembly := [] } t.apduReassembly with
    | .error p => .error p
    | .ok (resp, t, s') =>
      let (out, t) := t.buildResponseFrames resp.toBytes
      .ok (out, t, s')

/-- The chunks to queue for the host. -/
def processFrame (t : T1Responder) (data : Bytes) : T1Result (List Bytes) :=
  match parseFrame data with
  | none => .ok ([], t, s)
  | some f =>
    match f.frameType with
    | .sFrame code false =>
      let (out, t) := t.handleSRequest code
      .ok (out, t, s)
    | .iFrame _ multi => handleIFrame K env s t multi f.payload
    | .rFrame _ _ => .ok ([], t, s)
    | .sFrame _ true => .ok ([], t, s)

end Process

end T1Responder

/-! ### The simulated device -/

/-- The responder and the store behind it. -/
abbrev Device := T1Responder × ObjectStore

/-- A frame from the host, with what the device reads from the process meanwhile. -/
abbrev Device.step (K : Crates) (d : Device) (i : Env × Bytes) : T1Result (List Bytes) :=
  d.1.processFrame K i.1 d.2 i.2

end SE050
end Simulators
