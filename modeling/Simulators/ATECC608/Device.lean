/-
# ATECC608: packets, zones and volatile state

`crc.rs`, `atca.rs`, `object_store/types.rs` and `session.rs`: the framing of
commands and responses, the configuration, OTP and data zones with the lock
bytes that live inside of the configuration zone, TempKey and the SHA context,
and the cryptographic crates as a structure of functions.

A response is a body of at most 252 bytes between its count and its CRC.
-/
import Simulators.Lib.Handler

namespace Simulators
namespace ATECC608

/-! ### The CRC (`crc.rs`) -/

/-- Shift bit `bit` of the byte in. -/
def crcBit (byte : UInt8) (crc : UInt16) (bit : ℕ) : UInt16 :=
  let dataBit := ((byte >>> UInt8.ofNat bit) &&& 1).toUInt16
  let crcBit := crc >>> 15
  if dataBit ≠ crcBit then (crc <<< 1) ^^^ 0x8005 else crc <<< 1

/-- Polynomial `8005`, the bits of a byte from the lowest on. -/
def crc16 (data : Bytes) : UInt16 := data.foldl (fun crc byte => (List.range 8).foldl (crcBit byte) crc) 0

/-- The CRC in the order of the wire. -/
def crc16Le (data : Bytes) : Bytes := [loByte (crc16 data), hiByte (crc16 data)]

/-! ### Packets (`atca.rs`) -/

def minCmdLen : ℕ := 7

def statusSuccess : UInt8 := 0x00
def statusMiscompare : UInt8 := 0x01
def statusParseError : UInt8 := 0x03
def statusExecutionError : UInt8 := 0x0F
def statusCrcError : UInt8 := 0xFF

structure Command where
  opcode : UInt8
  p1 : UInt8
  p2 : UInt16
  data : Bytes
deriving DecidableEq, Repr

/-- `u16::from_le_bytes`. -/
def u16Le (lo hi : UInt8) : UInt16 := UInt16.ofNat (be16 hi lo)

/-- `Command::parse`. -/
def Command.parse (packet : Bytes) : Except UInt8 Command :=
  let count := (packet.headD 0).toNat
  if packet.length < minCmdLen then .error statusParseError
  else if count ≠ packet.length ∨ count < minCmdLen then .error statusParseError
  else match packet, packet.drop (count - 2) with
    | _ :: opcode :: p1 :: lo :: hi :: rest, [crcLo, crcHi] =>
      if crc16 (packet.take (count - 2)) ≠ u16Le crcLo crcHi then .error statusCrcError
      else .ok ⟨opcode, p1, u16Le lo hi, rest.take (count - 7)⟩
    | _, _ => .error statusParseError

/-- `[count][body][crc]`. -/
def buildResponse (body : Bytes) : Except Panic Bytes :=
  let count := 1 + body.length + 2
  if count ≤ 0xFF then
    let out := UInt8.ofNat count :: body
    .ok (out ++ crc16Le out)
  else .error .assert

/-! ### The device (`object_store/types.rs`) -/

def configSize : ℕ := 128
def otpSize : ℕ := 64
def numSlots : ℕ := 16
def slotSize : ℕ := 72

def zoneConfig : UInt8 := 0x00
def zoneOtp : UInt8 := 0x01
def zoneData : UInt8 := 0x02

/-- The persistent state; a slot is its raw data. -/
structure Device where
  config : ByteArr configSize
  otp : ByteArr otpSize
  slots : List Bytes
deriving DecidableEq

namespace Device

/-- A byte of the configuration zone. -/
def configByte (d : Device) (i : ℕ) : UInt8 := (d.config.bytes[i]?).getD 0

def configLocked (d : Device) : Bool := d.configByte 87 ≠ 0x55

def dataLocked (d : Device) : Bool := d.configByte 86 ≠ 0x55

/-- The SlotLocked word: a clear bit is a locked slot. -/
def slotWord (d : Device) : UInt16 := u16Le (d.configByte 88) (d.configByte 89)

def slotLocked (d : Device) (slot : ℕ) : Bool := (d.slotWord >>> UInt16.ofNat slot) &&& 1 = 0

def setConfigByte (d : Device) (i : ℕ) (v : UInt8) : Device :=
  { d with config := ⟨d.config.bytes.set i v, by rw [List.length_set, d.config.size]⟩ }

/-- `set_config_locked(true)`. -/
def setConfigLocked (d : Device) : Device := d.setConfigByte 87 0x00

/-- `set_data_locked(true)`. -/
def setDataLocked (d : Device) : Device := d.setConfigByte 86 0x00

/-- `set_slot_locked(slot, true)`. -/
def setSlotLocked (d : Device) (slot : ℕ) : Device :=
  let word := d.slotWord &&& ~~~((1 : UInt16) <<< UInt16.ofNat slot)
  (d.setConfigByte 88 (loByte word)).setConfigByte 89 (hiByte word)

end Device

/-! ### Volatile state (`session.rs`) -/

/-- TempKey; its only source is a pass-through Nonce. -/
structure TempKey where
  value : ByteArr 32 := zeroArr 32
  valid : Bool := false
deriving DecidableEq

/-- The SHA context is what it has absorbed. -/
structure Session where
  tempkey : TempKey := {}
  sha : Option Bytes := none
deriving DecidableEq

def Session.volatileReset (_ : Session) : Session := {}

/-! ### Outside of the repository -/

/-- The bytes that the random generator will draw. -/
abbrev Rng := ℕ → UInt8

structure Crates where
  sha256 : Bytes → ByteArr 32
  SigningKey : Type
  signingKeyRandom : Rng → SigningKey
  toBytes : SigningKey → ByteArr 32
  signingKeyFromBytes : ByteArr 32 → Option SigningKey
  /-- X and Y of the verifying key. -/
  pubkeyRaw : SigningKey → ByteArr 64
  signPrehash : SigningKey → ByteArr 32 → Option (ByteArr 64)
  Signature : Type
  signatureTryFrom : Bytes → Option Signature
  VerifyingKey : Type
  verifyingKeyFromPoint : Bytes → Option VerifyingKey
  verifyPrehash : VerifyingKey → ByteArr 32 → Signature → Bool
  SecretKey : Type
  secretKeyFromBytes : ByteArr 32 → Option SecretKey
  PublicKey : Type
  publicKeyFromPoint : Bytes → Option PublicKey
  /-- The X coordinate. -/
  diffieHellman : SecretKey → PublicKey → ByteArr 32

end ATECC608
end Simulators
