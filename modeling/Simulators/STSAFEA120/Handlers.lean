/-
# STSAFE-A120: the commands

The handlers of `handlers/` and `dispatch.rs`. An error response has no body
and is given before anything is changed, so error statuses are refusals
(`Lib/Handler`); a handler that answers OK returns the body of the response.
-/
import Simulators.STSAFEA120.Device

namespace Simulators
namespace STSAFEA120

open Handler

/-- The length and the OID of NIST P-256. -/
def nistP256CurveId : Bytes := [0x00, 0x08, 0x2A, 0x86, 0x48, 0xCE, 0x3D, 0x03, 0x01, 0x07]

def isNistP256 (curveId : Bytes) : Bool := curveId = nistP256CurveId

def pointRepresentationUncompressed : UInt8 := 0x04

def p256DigestSize : ℕ := 32

/-- A coordinate after its length. -/
def coordinate (c : Bytes) : Bytes := u16Be 32 ++ c

def echo (body : Bytes) : Handler UInt8 Bytes := return body

/-- The subject is not looked at. -/
def random (g : Rng) (body : Bytes) : Handler UInt8 Bytes := do
  ensure (body.length = 2) statusLengthError
  let _subject ← index body 0
  let size ← index body 1
  ensure (size ≠ 0) statusInvalidParameter
  return (List.range size.toNat).map g

/-- A body of nine bytes has a zone index of four bytes, the lowest first. -/
def read (device : Device) (body : Bytes) : Handler UInt8 Bytes := do
  ensure (¬ body.length < 1 + 1 + 2 + 2) statusLengthError
  let _option ← index body 0
  let zoneIndex ← index body 1
  let p := if body.length = 1 + 4 + 2 + 2 then 1 + 4 else 2
  let offset ← u16At body p
  let length ← u16At body (p + 2)
  let zone ← orRefuse statusInvalidParameter (device.dataZones.lookup zoneIndex)
  ensure (¬ offset + length > zone.data.length) statusInvalidParameter
  slice zone.data offset (offset + length)

/-- The usage limit and the filler are not looked at. -/
def generateKey (K : Crates) (g : Rng) (device : Device) (body : Bytes) : Handler UInt8 (Bytes × Device) := do
  ensure (¬ body.length < 6 + nistP256CurveId.length) statusLengthError
  let _attributeTag ← index body 0
  let slot ← index body 1
  let curveId ← slice body 6 body.length
  ensure (isNistP256 curveId = true) statusInvalidParameter
  let secret := K.secretKeyRandom g
  let pubBytes := K.encodedPoint (K.signingKeyFrom secret)
  ensure (pubBytes.length = 65) statusUnexpectedError
  let x ← slice pubBytes 1 33
  let y ← slice pubBytes 33 65
  return (pointRepresentationUncompressed :: (coordinate x ++ coordinate y),
    { device with eccSlots := device.eccSlots.insert slot ⟨.nistP256, (K.toBytes secret).bytes⟩ })

def query (device : Device) (body : Bytes) : Handler UInt8 Bytes := do
  ensure (body.length ≠ 0) statusLengthError
  let subject ← index body 0
  if subject = 0x11 then return u16Be 8 ++ device.serialNumber.bytes else refuse statusInvalidParameter

/-- The key of a slot. -/
def p256Slot (device : Device) (slot : UInt8) : Handler UInt8 EccSlot := do
  let entry ← orRefuse statusInvalidParameter (device.eccSlots.lookup slot)
  ensure (entry.curve = .nistP256) statusInvalidParameter
  ensure (entry.privateKey.length = 32) statusInvalidParameter
  return entry

def generateSignature (K : Crates) (device : Device) (body : Bytes) : Handler UInt8 Bytes := do
  ensure (¬ body.length < 1 + 2) statusLengthError
  let slot ← index body 0
  let msgLen ← u16At body 1
  ensure (body.length = 3 + msgLen) statusLengthError
  let msg ← slice body 3 (3 + msgLen)
  let entry ← p256Slot device slot
  let signing ← orRefuse statusInvalidParameter (K.signingKeyFromSlice entry.privateKey)
  ensure (msg.length = p256DigestSize) statusInvalidParameter
  let signature ← orRefuse statusUnexpectedError (K.signPrehash signing msg)
  return coordinate (signature.bytes.take 32) ++ coordinate (signature.bytes.drop 32)

/-- Two coordinates and the number of bytes they took. -/
def readXy (buf : Bytes) : Handler UInt8 (Option (Bytes × Bytes × ℕ)) := do
  if buf.length < 2 + 32 + 2 + 32 then return none
  else
    let xlen ← u16At buf 0
    if xlen ≠ 32 then return none
    else
      let x ← slice buf 2 34
      let ylen ← u16At buf 34
      if ylen ≠ 32 then return none
      else
        let y ← slice buf 36 68
        return some (x, y, 68)

/-- The subject is not looked at. An invalid key or signature is answered like a signature that does not verify. -/
def verifySignature (K : Crates) (body : Bytes) : Handler UInt8 Bytes := do
  ensure (1 ≤ body.length) statusLengthError
  let _subject ← index body 0
  ensure (1 + nistP256CurveId.length ≤ body.length) statusLengthError
  let curveId ← slice body 1 (1 + nistP256CurveId.length)
  ensure (isNistP256 curveId = true) statusInvalidParameter
  ensure (11 + 1 ≤ body.length) statusLengthError
  let repr ← index body 11
  ensure (repr = pointRepresentationUncompressed) statusInvalidParameter
  let xyBuf ← slice body 12 body.length
  let pubkey ← orRefuse statusLengthError (← readXy xyBuf)
  let rsBuf ← slice body (12 + pubkey.2.2) body.length
  let sigRs ← orRefuse statusLengthError (← readXy rsBuf)
  let p := 12 + pubkey.2.2 + sigRs.2.2
  ensure (p + 2 ≤ body.length) statusLengthError
  let msgLen ← u16At body p
  ensure (p + 2 + msgLen ≤ body.length) statusLengthError
  ensure (msgLen = p256DigestSize) statusInvalidParameter
  let digest ← array 32 (← slice body (p + 2) (p + 2 + msgLen))
  match K.publicKeyFromPoint pubkey.1 pubkey.2.1, K.signatureFromSlice (sigRs.1 ++ sigRs.2.1) with
  | some pk, some signature => return [if K.verifyPrehash pk digest signature then 1 else 0]
  | _, _ => return [0]

def establishKey (K : Crates) (device : Device) (body : Bytes) : Handler UInt8 Bytes := do
  ensure (¬ body.length < 1 + 1 + 2 + 32 + 2 + 32) statusLengthError
  let slot ← index body 0
  let repr ← index body 1
  ensure (repr = pointRepresentationUncompressed) statusInvalidParameter
  let xlen ← u16At body 2
  ensure (xlen = 32) statusInvalidParameter
  let x ← slice body 4 36
  let ylen ← u16At body 36
  ensure (ylen = 32) statusInvalidParameter
  let y ← slice body 38 70
  let entry ← p256Slot device slot
  let secret ← orRefuse statusInvalidParameter (K.secretKeyFromSlice entry.privateKey)
  let pubkey ← orRefuse statusInvalidParameter (K.publicKeyFromPoint x y)
  let raw := K.diffieHellman secret pubkey
  ensure (raw.length = 32) statusUnexpectedError
  return u16Be 32 ++ raw

/-! ### Dispatch (`dispatch.rs`) -/

def cmdEcho : UInt8 := 0x00
def cmdReset : UInt8 := 0x01
def cmdGenerateRandom : UInt8 := 0x02
def cmdRead : UInt8 := 0x05
def cmdHibernate : UInt8 := 0x0D
def cmdGenerateKey : UInt8 := 0x11
def cmdQuery : UInt8 := 0x14
def cmdGenerateSignature : UInt8 := 0x16
def cmdVerifySignature : UInt8 := 0x17
def cmdEstablishKey : UInt8 := 0x18
def cmdStandby : UInt8 := 0x19

section Dispatch

variable (K : Crates) (g : Rng)

/-- The body of the response, and the state after the command. -/
abbrev Cmd := Handler UInt8 (Bytes × Store × Session K)

/-- The handler of a command that is not extended. -/
def handle (store : Store) (session : Session K) (cmd : Command) : Cmd K :=
  let reply (h : Handler UInt8 Bytes) : Cmd K := h.map fun body => (body, store, session)
  if cmd.header = cmdEcho then reply (echo cmd.body)
  else if cmd.header = cmdGenerateRandom then reply (random g cmd.body)
  else if cmd.header = cmdRead then reply (read store.device cmd.body)
  else if cmd.header = cmdGenerateKey then
    (generateKey K g store.device cmd.body).map fun r => (r.1, ⟨r.2⟩, session)
  else if cmd.header = cmdGenerateSignature then reply (generateSignature K store.device cmd.body)
  else if cmd.header = cmdVerifySignature then reply (verifySignature K cmd.body)
  else if cmd.header = cmdEstablishKey then reply (establishKey K store.device cmd.body)
  else if cmd.header = cmdQuery then reply (query store.device cmd.body)
  else if cmd.header = cmdHibernate ∨ cmd.header = cmdStandby ∨ cmd.header = cmdReset then
    return ([], store, session.reset)
  else refuse statusCommandCodeNotSupported

def FrameError.status : FrameError → UInt8
  | .badCrc => statusCrcError
  | .tooShort => statusLengthError
  | .overflow => statusLengthError

/-- The response frame to a frame, and the state after it. -/
def dispatch (store : Store) (session : Session K) (raw : Bytes) : Except Panic (Bytes × Store × Session K) :=
  match parseCommand raw with
  | .error (.panic p) => .error p
  | .error (.refuse e) => .ok (buildError e.status, store, session)
  | .ok cmd =>
    let run : Cmd K := if cmd.isExtended then refuse statusCommandCodeNotSupported else handle K g store session cmd
    settle buildError (store, session) (run.map fun r => (buildResponse statusOk r.1, r.2))

end Dispatch

end STSAFEA120
end Simulators
