/-
# STSAFE-A120: frames and persistent state

`crc.rs`, `frame.rs`, `object_store/types.rs` and `session.rs`: the framing of
commands and responses, the key slots and data zones, and the cryptographic
crates as a structure of functions.
-/
import Mathlib.Data.Finmap
import Simulators.Lib.Handler

namespace Simulators
namespace STSAFEA120

open Handler

/-! ### The CRC (`crc.rs`) -/

def crcBit (crc : UInt16) (_ : ℕ) : UInt16 := if crc &&& 1 ≠ 0 then (crc >>> 1) ^^^ 0x8408 else crc >>> 1

/-- CRC-16/X-25. -/
def crc16X25 (buf : Bytes) : UInt16 :=
  ~~~(buf.foldl (fun crc b => (List.range 8).foldl crcBit (crc ^^^ b.toUInt16)) 0xFFFF)

/-- `to_be_bytes`. -/
def u16Be (w : UInt16) : Bytes := [hiByte w, loByte w]

/-- `u16::from_be_bytes` of two bytes of a buffer. -/
def u16At {ε : Type} (buf : Bytes) (p : ℕ) : Handler ε ℕ := do
  let hi ← index buf p
  let lo ← index buf (p + 1)
  return be16 hi lo

/-! ### Frames (`frame.rs`) -/

def statusMask : UInt8 := 0x1F
def extendedPrefix : UInt8 := 0x1F
def maxFrameLengthA120 : ℕ := 752

def statusOk : UInt8 := 0x00
def statusLengthError : UInt8 := 0x02
def statusUnexpectedError : UInt8 := 0x03
def statusInvalidParameter : UInt8 := 0x09
def statusCommandCodeNotSupported : UInt8 := 0x0E
def statusCrcError : UInt8 := 0x16

inductive FrameError
  | tooShort
  | badCrc
  | overflow
deriving DecidableEq, Repr

structure Command where
  header : UInt8
  /-- The second byte, if the first is the prefix of extended commands. -/
  extended : Option UInt8
  body : Bytes
deriving DecidableEq, Repr

def Command.isExtended (cmd : Command) : Bool := cmd.extended.isSome

/-- `buf.len() - 2` is formed after the check of the length. -/
def parseCommand (buf : Bytes) : Handler FrameError Command := do
  ensure (¬ buf.length < 3) .tooShort
  ensure (¬ buf.length > maxFrameLengthA120 + 2) .overflow
  let payloadEnd := buf.length - 2
  let receivedCrc ← u16At buf payloadEnd
  let payload ← slice buf 0 payloadEnd
  ensure ((crc16X25 payload).toNat = receivedCrc) .badCrc
  let header ← index buf 0
  if header = extendedPrefix then
    ensure (¬ buf.length < 4) .tooShort
    let extended ← index buf 1
    let body ← slice buf 2 payloadEnd
    return ⟨header, some extended, body⟩
  else
    let body ← slice buf 1 payloadEnd
    return ⟨header, none, body⟩

/-- `[header][length][body][crc]`; the CRC leaves the length out. -/
def buildResponse (status : UInt8) (body : Bytes) : Bytes :=
  let header := status &&& statusMask
  let length := UInt16.ofNat (body.length + 2)
  header :: (u16Be length ++ body ++ u16Be (crc16X25 (header :: body)))

def buildError (status : UInt8) : Bytes := buildResponse status []

/-! ### The device (`object_store/types.rs`) -/

inductive CurveKind
  | nistP256
deriving DecidableEq, Repr

structure EccSlot where
  curve : CurveKind
  privateKey : Bytes
deriving DecidableEq, Repr

structure DataZone where
  data : Bytes
deriving DecidableEq, Repr

structure Device where
  serialNumber : ByteArr 8
  eccSlots : Finmap fun _ : UInt8 => EccSlot
  dataZones : Finmap fun _ : UInt8 => DataZone

structure Store where
  device : Device

/-! ### Outside of the repository -/

/-- The bytes that the random generator will draw. -/
abbrev Rng := ℕ → UInt8

structure Crates where
  SecretKey : Type
  secretKeyRandom : Rng → SecretKey
  secretKeyFromSlice : Bytes → Option SecretKey
  toBytes : SecretKey → ByteArr 32
  SigningKey : Type
  signingKeyFrom : SecretKey → SigningKey
  signingKeyFromSlice : Bytes → Option SigningKey
  /-- The verifying key, uncompressed. -/
  encodedPoint : SigningKey → Bytes
  signPrehash : SigningKey → Bytes → Option (ByteArr 64)
  PublicKey : Type
  /-- From the affine coordinates. -/
  publicKeyFromPoint : Bytes → Bytes → Option PublicKey
  Signature : Type
  signatureFromSlice : Bytes → Option Signature
  verifyPrehash : PublicKey → ByteArr 32 → Signature → Bool
  diffieHellman : SecretKey → PublicKey → Bytes

/-! ### Volatile state (`session.rs`) -/

structure Session (K : Crates) where
  ecdhePrivate : Option K.SecretKey

def Session.reset {K : Crates} (_ : Session K) : Session K := ⟨none⟩

end STSAFEA120
end Simulators
