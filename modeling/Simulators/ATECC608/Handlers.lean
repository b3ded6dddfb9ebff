/-
# ATECC608: the commands

The handlers of `handlers/` and `dispatch.rs`. A command that is answered with
an error status has changed nothing, so error statuses are refusals
(`Lib/Handler`); a status of success is a body of one byte.

Zone addresses count words of four bytes in blocks of 32 bytes. A write to a
slot makes the slot as long as it needs, filled with zeros.
-/
import Simulators.ATECC608.Device

namespace Simulators
namespace ATECC608

open Handler

/-- The body of the response, and the state after the command. -/
abbrev Cmd := Handler UInt8 (Bytes × Device × Session)

/-- A status of success. -/
def success : Bytes := [statusSuccess]

/-! ### Byte ranges -/

/-- `b[off..off + data.len()].copy_from_slice(data)`. -/
def overwrite (b : Bytes) (off : ℕ) (data : Bytes) : Bytes := b.take off ++ data ++ b.drop (off + data.length)

/-- `resize(n, 0)` where the vector is shorter. -/
def padTo (n : ℕ) (b : Bytes) : Bytes := b ++ List.replicate (n - b.length) 0

theorem padTo_length {n : ℕ} {b : Bytes} : (padTo n b).length = max n b.length := by
  rw [padTo, List.length_append, List.length_replicate]
  omega

theorem overwrite_length {b data : Bytes} {off : ℕ} (h : off + data.length ≤ b.length) :
    (overwrite b off data).length = b.length := by
  simp only [overwrite, List.length_append, List.length_take, List.length_drop]
  omega

/-- Part of a zone replaced. -/
def writeZone {n : ℕ} (zone : ByteArr n) (off : ℕ) (data : Bytes) (h : off + data.length ≤ n) : ByteArr n :=
  ⟨overwrite zone.bytes off data, by rw [overwrite_length (by rw [zone.size]; exact h), zone.size]⟩

/-- Block and word of a configuration or OTP address, as an offset. -/
def addrToByteOffset (addr : UInt16) (len : ℕ) : ℕ :=
  let offset := (addr &&& 0x7).toNat
  let block := ((addr >>> 3) &&& 0x3).toNat
  block * 32 + if len = 32 then 0 else offset * 4

/-- Block and word of a data address, as an offset. -/
def dataByteOffset (addr : UInt16) (len : ℕ) : ℕ :=
  let offset := (addr &&& 0x7).toNat
  let block := ((addr >>> 3) &&& 0x1F).toNat
  block * 32 + if len = 32 then 0 else offset * 4

/-- The slot of a data address. -/
def dataSlot (addr : UInt16) : ℕ := ((addr >>> 8) &&& 0x0F).toNat

/-- `cmd.p1 & 0x80`: 32 bytes instead of four. -/
def accessLen (p1 : UInt8) : ℕ := if p1 &&& 0x80 ≠ 0 then 32 else 4

/-! ### Read (`read_zone.rs`) -/

def readLinear (zone : Bytes) (size : ℕ) (addr : UInt16) (len : ℕ) : Handler UInt8 Bytes := do
  let byteOffset := addrToByteOffset addr len
  ensure (byteOffset + len ≤ size) statusParseError
  slice zone byteOffset (byteOffset + len)

/-- Bytes that were not written read as zero. -/
def readData (device : Device) (addr : UInt16) (len : ℕ) : Handler UInt8 Bytes := do
  let byteOffset := dataByteOffset addr len
  ensure (dataSlot addr < numSlots) statusParseError
  ensure (byteOffset + len ≤ slotSize) statusParseError
  let slotData ← index device.slots (dataSlot addr)
  return padTo len ((slotData.drop byteOffset).take len)

def readFrom (device : Device) (zoneId : UInt8) (addr : UInt16) (len : ℕ) : Handler UInt8 Bytes :=
  if zoneId = zoneConfig then readLinear device.config.bytes configSize addr len
  else if zoneId = zoneOtp then readLinear device.otp.bytes otpSize addr len
  else if zoneId = zoneData then readData device addr len
  else refuse statusParseError

def read (device : Device) (session : Session) (cmd : Command) : Cmd := do
  let body ← readFrom device (cmd.p1 &&& 0x03) cmd.p2 (accessLen cmd.p1)
  return (body, device, session)

/-! ### Write (`write_zone.rs`) -/

def writeConfig (device : Device) (addr : UInt16) (data : Bytes) : Handler UInt8 Device := do
  ensure (device.configLocked = false) statusExecutionError
  let off := addrToByteOffset addr data.length
  if h : off + data.length ≤ configSize then return { device with config := writeZone device.config off data h }
  else refuse statusParseError

/-- OTP locks together with the data zone. -/
def writeOtp (device : Device) (addr : UInt16) (data : Bytes) : Handler UInt8 Device := do
  ensure (device.dataLocked = false) statusExecutionError
  let off := addrToByteOffset addr data.length
  if h : off + data.length ≤ otpSize then return { device with otp := writeZone device.otp off data h }
  else refuse statusParseError

/-- Refused only if both the data zone and the slot are locked. -/
def writeData (device : Device) (addr : UInt16) (data : Bytes) : Handler UInt8 Device := do
  let slot := dataSlot addr
  ensure (slot < numSlots) statusParseError
  ensure (¬ (device.dataLocked = true ∧ device.slotLocked slot = true)) statusExecutionError
  let off := dataByteOffset addr data.length
  ensure (off + data.length ≤ slotSize) statusParseError
  let slotData ← index device.slots slot
  return { device with slots := device.slots.set slot (overwrite (padTo (off + data.length) slotData) off data) }

def writeTo (device : Device) (zoneId : UInt8) (addr : UInt16) (data : Bytes) : Handler UInt8 Device :=
  if zoneId = zoneConfig then writeConfig device addr data
  else if zoneId = zoneOtp then writeOtp device addr data
  else if zoneId = zoneData then writeData device addr data
  else refuse statusParseError

/-- Encrypted writes are refused. -/
def write (device : Device) (session : Session) (cmd : Command) : Cmd := do
  ensure (cmd.p1 &&& 0x40 = 0) statusExecutionError
  ensure (cmd.data.length = accessLen cmd.p1) statusParseError
  let device ← writeTo device (cmd.p1 &&& 0x03) cmd.p2 cmd.data
  return (success, device, session)

/-! ### Lock (`lock.rs`) -/

/-- The slot of a slot lock, in bits 2 to 5 of P1. -/
def lockSlot (p1 : UInt8) : ℕ := ((p1 >>> 2) &&& 0x0F).toNat

def lock (device : Device) (session : Session) (cmd : Command) : Cmd := do
  let modeBits := cmd.p1 &&& 0x03
  if modeBits = 0 then
    ensure (device.configLocked = false) statusExecutionError
    return (success, device.setConfigLocked, session)
  else if modeBits = 1 then
    ensure (device.dataLocked = false) statusExecutionError
    return (success, device.setDataLocked, session)
  else if modeBits = 2 then
    let slot := lockSlot cmd.p1
    ensure (slot < numSlots) statusParseError
    ensure (device.slotLocked slot = false) statusExecutionError
    return (success, device.setSlotLocked slot, session)
  else refuse statusParseError

/-! ### SHA, Nonce, Info and Random -/

/-- Start, update, end and single call. -/
def sha (K : Crates) (device : Device) (session : Session) (cmd : Command) : Cmd :=
  match cmd.p1 with
  | 0x00 => return (success, device, { session with sha := some [] })
  | 0x01 => do
    let absorbed ← orRefuse statusExecutionError session.sha
    return (success, device, { session with sha := some (absorbed ++ cmd.data) })
  | 0x02 => do
    let absorbed ← orRefuse statusExecutionError session.sha
    return ((K.sha256 (absorbed ++ cmd.data)).bytes, device, { session with sha := none })
  | 0x03 => return ((K.sha256 cmd.data).bytes, device, session)
  | _ => refuse statusParseError

/-- Pass-through, whichever register is meant. -/
def nonce (device : Device) (session : Session) (cmd : Command) : Cmd := do
  ensure (cmd.p1 &&& 0x07 = 0x03) statusParseError
  if h : cmd.data.length = 32 then return (success, device, { session with tempkey := ⟨⟨cmd.data, h⟩, true⟩ })
  else refuse statusParseError

/-- The revision. -/
def info (device : Device) (session : Session) (cmd : Command) : Cmd := do
  ensure (cmd.p1 = 0x00) statusParseError
  let rev ← slice device.config.bytes 4 8
  return (rev, device, session)

def random (g : Rng) (device : Device) (session : Session) (_ : Command) : Cmd :=
  return ((List.range 32).map g, device, session)

/-! ### Keys (`genkey.rs`, `sign.rs`, `verify.rs`, `ecdh.rs`) -/

/-- The first 32 bytes of a slot. -/
def slotScalar (device : Device) (slot : ℕ) : Handler UInt8 (ByteArr 32) := do
  let data ← index device.slots slot
  orRefuse statusExecutionError (toArr 32 (data.take 32))

def genkey (K : Crates) (g : Rng) (device : Device) (session : Session) (cmd : Command) : Cmd := do
  let slot := cmd.p2.toNat
  ensure (slot < numSlots) statusParseError
  match cmd.p1 with
  | 0x04 =>
    ensure (device.slotLocked slot = false) statusExecutionError
    let sk := K.signingKeyRandom g
    let slotData ← index device.slots slot
    return ((K.pubkeyRaw sk).bytes,
      { device with slots := device.slots.set slot (overwrite (padTo 32 slotData) 0 (K.toBytes sk).bytes) }, session)
  | 0x00 =>
    let scalar ← slotScalar device slot
    let sk ← orRefuse statusExecutionError (K.signingKeyFromBytes scalar)
    return ((K.pubkeyRaw sk).bytes, device, session)
  | _ => refuse statusParseError

/-- The digest is the one that Nonce loaded. -/
def sign (K : Crates) (device : Device) (session : Session) (cmd : Command) : Cmd := do
  ensure (cmd.p1 &&& 0x80 ≠ 0) statusExecutionError
  let slot := cmd.p2.toNat
  ensure (slot < numSlots) statusParseError
  ensure (session.tempkey.valid = true) statusExecutionError
  let scalar ← slotScalar device slot
  let sk ← orRefuse statusExecutionError (K.signingKeyFromBytes scalar)
  let sig ← orRefuse statusExecutionError (K.signPrehash sk session.tempkey.value)
  return (sig.bytes, device, session)

/-- Signature and public key are in the command. -/
def verify (K : Crates) (device : Device) (session : Session) (cmd : Command) : Cmd := do
  ensure (cmd.p1 &&& 0x07 = 0x02) statusExecutionError
  ensure (cmd.data.length = 128) statusParseError
  ensure (session.tempkey.valid = true) statusExecutionError
  let sig ← orRefuse statusParseError (K.signatureTryFrom (cmd.data.take 64))
  let vk ← orRefuse statusParseError (K.verifyingKeyFromPoint (cmd.data.drop 64))
  ensure (K.verifyPrehash vk session.tempkey.value sig = true) statusMiscompare
  return (success, device, session)

def ecdh (K : Crates) (device : Device) (session : Session) (cmd : Command) : Cmd := do
  ensure (cmd.p1 = 0x00) statusExecutionError
  let slot := cmd.p2.toNat
  ensure (slot < numSlots) statusParseError
  ensure (cmd.data.length = 64) statusParseError
  let scalar ← slotScalar device slot
  let sk ← orRefuse statusExecutionError (K.secretKeyFromBytes scalar)
  let peer ← orRefuse statusParseError (K.publicKeyFromPoint cmd.data)
  return ((K.diffieHellman sk peer).bytes, device, session)

/-! ### Dispatch (`dispatch.rs`) -/

def opRead : UInt8 := 0x02
def opWrite : UInt8 := 0x12
def opLock : UInt8 := 0x17
def opNonce : UInt8 := 0x16
def opRandom : UInt8 := 0x1B
def opInfo : UInt8 := 0x30
def opGenkey : UInt8 := 0x40
def opSign : UInt8 := 0x41
def opEcdh : UInt8 := 0x43
def opVerify : UInt8 := 0x45
def opSha : UInt8 := 0x47

/-- The handler of a command. -/
def handle (K : Crates) (g : Rng) (device : Device) (session : Session) (cmd : Command) : Cmd :=
  if cmd.opcode = opInfo then info device session cmd
  else if cmd.opcode = opRandom then random g device session cmd
  else if cmd.opcode = opRead then read device session cmd
  else if cmd.opcode = opWrite then write device session cmd
  else if cmd.opcode = opLock then lock device session cmd
  else if cmd.opcode = opSha then sha K device session cmd
  else if cmd.opcode = opNonce then nonce device session cmd
  else if cmd.opcode = opGenkey then genkey K g device session cmd
  else if cmd.opcode = opSign then sign K device session cmd
  else if cmd.opcode = opVerify then verify K device session cmd
  else if cmd.opcode = opEcdh then ecdh K device session cmd
  else refuse statusParseError

/-- The response packet. -/
def respond (r : Bytes × Device × Session) : Except Panic (Bytes × Device × Session) :=
  (buildResponse r.1).map fun response => (response, r.2)

/-- The response packet to a packet, and the state after it. -/
def dispatch (K : Crates) (g : Rng) (device : Device) (session : Session) (rawPacket : Bytes) :
    Except Panic (Bytes × Device × Session) :=
  match Command.parse rawPacket with
  | .error sw => respond ([sw], device, session)
  | .ok cmd => settle (fun sw => [sw]) (device, session) (handle K g device session cmd) >>= respond

end ATECC608
end Simulators
