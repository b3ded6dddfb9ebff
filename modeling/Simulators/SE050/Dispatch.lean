/-
# SE050: curves, management and the command dispatcher

`handlers/curve.rs`, `management.rs`, `session.rs` and `dispatch.rs`.
`dispatch` routes an APDU that no secure channel wraps any more, by CLA, INS
without its transport bits, P1 and P2. A command ends in a response and the
store after it, or in a panic.
-/
import Simulators.SE050.Handlers.Ec
import Simulators.SE050.Handlers.Symmetric

namespace Simulators
namespace SE050

open Handler

/-! ### Curve objects (`curve.rs`) -/

def weierstrassCurveCount : UInt8 := 0x11

/-- A value of one byte. -/
def oneByte : Bytes → Option UInt8
  | [b] => some b
  | _ => none

def curveIdFromTag1 (apdu : ParsedApdu) : Option UInt8 :=
  match apdu.parseTlvs with
  | .ok tlvs => (valueOf tlvs tag1).bind oneByte
  | .error _ => none

/-- Creating a curve again resets it on applet 3.1.1 and is refused on 7.2. -/
def handleCurveCreate (env : Env) (apdu : ParsedApdu) (s : ObjectStore) :
    Cmd (ApduResponse × ObjectStore) := do
  let curveId ← orRefuse swWrongData (curveIdFromTag1 apdu)
  ensure (curveId ≠ 0 ∧ curveId ≤ weierstrassCurveCount) swWrongData
  if s.curveExists curveId then
    match env.version with
    | .v3_1_1 => return (.success, s.curveReset curveId)
    | _ => refuse swConditionsNotSatisfied
  else return (.success, s.curveCreate curveId)

def handleSetParam (apdu : ParsedApdu) (s : ObjectStore) : Cmd (ApduResponse × ObjectStore) := do
  let tlvs ← apdu.tlvs
  let curveId ← orRefuse swWrongData ((valueOf tlvs tag1).bind oneByte)
  let param ← orRefuse swWrongData ((valueOf tlvs tag2).bind oneByte)
  ensure (param ∈ [0x01, 0x02, 0x04, 0x08, 0x10]) swWrongData
  ensure (s.curveExists curveId = true) swConditionsNotSatisfied
  return (.success, s.curveAddParam curveId param)

def handleCurveDelete (apdu : ParsedApdu) (s : ObjectStore) : Cmd (ApduResponse × ObjectStore) := do
  let curveId ← orRefuse swWrongData (curveIdFromTag1 apdu)
  match s.curveDelete curveId with
  | (true, s') => return (.success, s')
  | (false, _) => refuse swConditionsNotSatisfied

/-- One byte for each of the 17 identifiers: existing or not. -/
def handleCurveList (s : ObjectStore) : ApduResponse :=
  .successWithTlvs [⟨tag1, (List.range weierstrassCurveCount.toNat).map fun i =>
    if s.curveExists (UInt8.ofNat (i + 1)) then 0x02 else 0x01⟩]

/-! ### Management (`management.rs`) -/

def handleGetVersion (version : AppletVersion) : ApduResponse :=
  .successWithTlvs [⟨tag1, version.versionBytes⟩]

def handleGetFreeMemory (apdu : ParsedApdu) (version : AppletVersion) : Cmd ApduResponse := do
  let tlvs ← apdu.tlvs
  let bytes ← orRefuse swWrongData (version.freeMemoryBytes ((byteOf tlvs tag1).getD 0x01))
  return .successWithTlvs [⟨tag1, bytes⟩]

/-- The requested length: the first two bytes of Tag1. -/
def randomLen (tlvs : List Tlv) : Option ℕ :=
  match valueOf tlvs tag1 with
  | some (hi :: lo :: _) => some (be16 hi lo)
  | _ => none

def handleGetRandom (env : Env) (apdu : ParsedApdu) : Cmd ApduResponse := do
  let tlvs ← apdu.tlvs
  let len ← orRefuse swWrongData (randomLen tlvs)
  ensure (len ≠ 0 ∧ len ≤ env.version.getRandomMax) swConditionsNotSatisfied
  return .successWithTlvs [⟨tag1, env.rng.fill len⟩]

def handleDeleteAll (s : ObjectStore) : ApduResponse × ObjectStore := (.success, s.clear)

def handleManagement (env : Env) (apdu : ParsedApdu) (s : ObjectStore) : Cmd (ApduResponse × ObjectStore) :=
  if apdu.p2 = p2Version then .ok (handleGetVersion env.version, s)
  else if apdu.p2 = p2Memory then readOnly s (handleGetFreeMemory apdu env.version)
  else if apdu.p2 = p2Random then readOnly s (handleGetRandom env apdu)
  else if apdu.p2 = p2DeleteAll then .ok (handleDeleteAll s)
  else refuse swWrongP1P2

/-- Only an authenticated channel may set whether plain commands are accepted. -/
def handleSetPlatformScp (apdu : ParsedApdu) (s : ObjectStore) (scpActive : Bool) :
    Cmd (ApduResponse × ObjectStore) := do
  ensure (scpActive = true) swConditionsNotSatisfied
  let tlvs ← apdu.tlvs
  match byteOf tlvs tag1 with
  | some 0x01 => return (.success, s.setScpRequired true)
  | some 0x02 => return (.success, s.setScpRequired false)
  | _ => refuse swWrongData

/-! ### SELECT (`session.rs`) -/

def se050Aid : Bytes :=
  [0xA0, 0x00, 0x00, 0x03, 0x96, 0x54, 0x53, 0x00, 0x00, 0x00, 0x01, 0x03, 0x00, 0x00, 0x00, 0x00]

def ssdAid : Bytes := [0xD2, 0x76, 0x00, 0x00, 0x85, 0x30, 0x4A, 0x43, 0x4F, 0x90, 0x03]

def selectsSsd (apdu : ParsedApdu) : Bool := apdu.data == ssdAid

def handleSelect (apdu : ParsedApdu) (version : AppletVersion) : ApduResponse :=
  if apdu.data = se050Aid then .successWithData version.versionBytes
  else if selectsSsd apdu then .success
  else .error 0x6A82

/-! ### Dispatch (`dispatch.rs`) -/

/-- ReadRSA: the modulus or the public exponent, by the component in Tag4. -/
def handleReadRsa (K : Crates) (apdu : ParsedApdu) (s : ObjectStore) : Cmd ApduResponse := do
  let tlvs := apdu.tlvsOrDefault
  let objId := objectIdOf tlvs tag1
  let component := (byteOf tlvs tag4).getD 0
  ensure (objId.all (s.policyAllows · policyObjAllowRead) = true) swCommandNotAllowed
  match objId.bind s.get with
  | some (.rsaKeyPair _ der _) =>
    let key ← orRefuse swConditionsNotSatisfied (K.rsaFromPkcs1Der der)
    if component = 0x00 then return .successWithTlvs [⟨tag1, toBytesBe key.n⟩]
    else if component = 0x01 then return .successWithTlvs [⟨tag1, toBytesBe key.e⟩]
    else refuse swWrongData
  | _ => refuse swConditionsNotSatisfied

/-- EC_CurveGetId. -/
def handleCurveGetId (apdu : ParsedApdu) (s : ObjectStore) : Cmd ApduResponse := do
  let obj ← orRefuse swConditionsNotSatisfied ((objectIdOf apdu.tlvsOrDefault tag1).bind s.get)
  let cid ← orRefuse swConditionsNotSatisfied obj.curveId
  return .successWithTlvs [⟨tag1, [cid]⟩]

section Route

variable (K : Crates) (env : Env) (apdu : ParsedApdu) (s : ObjectStore)

def dispatchWrite : Cmd (ApduResponse × ObjectStore) :=
  if apdu.credType = p1Ec then handleWriteEcKey K env apdu s
  else if apdu.credType = p1Rsa then handleWriteRsaKey K env apdu s
  else if apdu.credType = p1Aes then handleWriteAesKey env apdu s
  else if apdu.credType = p1Hmac then handleWriteHmacKey apdu s
  else if apdu.credType = p1CryptoObj then handleCryptoObjCreate apdu s
  else if apdu.credType = p1Curve then
    if apdu.p2 = p2Create then handleCurveCreate env apdu s
    else if apdu.p2 = p2Param then handleSetParam apdu s
    else refuse swWrongP1P2
  else if apdu.credType = p1Binary ∨ apdu.credType = p1UserId ∨ apdu.credType = p1Counter then
    handleWrite apdu s
  else refuse swWrongP1P2

/-- Tag4 is present: the read of an RSA component. -/
def hasTag4 : Bool :=
  match apdu.parseTlvs with
  | .ok tlvs => (findTlv tlvs tag4).isSome
  | .error _ => false

def dispatchRead : Cmd ApduResponse :=
  if apdu.credType = p1Default ∧ apdu.p2 = p2Default ∧ hasTag4 apdu = true then handleReadRsa K apdu s
  else if apdu.credType = p1CryptoObj then .ok (handleCryptoObjList env s)
  else if apdu.credType = p1Curve then
    if apdu.p2 = p2Id then handleCurveGetId apdu s
    else if apdu.p2 = p2List then .ok (handleCurveList s)
    else refuse swWrongP1P2
  else handleRead K apdu s env.version.isV7

def dispatchSignature : Cmd (ApduResponse × ObjectStore) :=
  if apdu.p2 = p2Sign then readOnly s (handleSign K env apdu s)
  else if apdu.p2 = p2Verify then readOnly s (handleVerify K apdu s)
  else refuse swWrongP1P2

def dispatchCipher : Cmd (ApduResponse × ObjectStore) :=
  if apdu.p2 = p2EncryptOneshot then readOnly s (handleEncryptOneshot K apdu s)
  else if apdu.p2 = p2DecryptOneshot then readOnly s (handleDecryptOneshot K apdu s)
  else if apdu.p2 = p2EncryptInit ∨ apdu.p2 = p2DecryptInit then handleCipherInit apdu s
  else if apdu.p2 = p2Update then handleCipherUpdate K apdu s
  else if apdu.p2 = p2Final then handleCipherFinal K apdu s
  else refuse swWrongP1P2

def dispatchDigest : Cmd (ApduResponse × ObjectStore) :=
  if apdu.p2 = p2Oneshot then readOnly s (handleDigestOneshot K apdu)
  else if apdu.p2 = p2Init then handleDigestInit apdu s
  else if apdu.p2 = p2Update then handleDigestUpdate apdu s
  else if apdu.p2 = p2Final then handleDigestFinal K apdu s
  else refuse swWrongP1P2

def dispatchMac : Cmd (ApduResponse × ObjectStore) :=
  if apdu.p2 = p2GenerateOneshot then readOnly s (handleMacOneshot K apdu s false)
  else if apdu.p2 = p2ValidateOneshot then readOnly s (handleMacOneshot K apdu s true)
  else if apdu.p2 = p2Generate then handleMacInit apdu s false
  else if apdu.p2 = p2MacValidate then handleMacInit apdu s true
  else if apdu.p2 = p2Update then handleMacUpdate apdu s
  else if apdu.p2 = p2Final then handleMacFinal K apdu s
  else refuse swWrongP1P2

def dispatchRsa : Cmd (ApduResponse × ObjectStore) :=
  if apdu.p2 = p2EncryptOneshot then readOnly s (handleRsaEncrypt K env apdu s)
  else if apdu.p2 = p2DecryptOneshot then readOnly s (handleRsaDecrypt K apdu s)
  else refuse swWrongP1P2

def dispatchCrypto : Cmd (ApduResponse × ObjectStore) :=
  if apdu.credType = p1Signature then dispatchSignature K env apdu s
  else if apdu.credType = p1Ec then
    if apdu.p2 = p2Dh ∨ apdu.p2 = p2DhReverse then handleEcdh K apdu s env.strictEcdh
    else refuse swWrongP1P2
  else if apdu.credType = p1Cipher then dispatchCipher K apdu s
  else if apdu.credType = p1Rsa then dispatchRsa K env apdu s
  else if apdu.credType = p1Default then dispatchDigest K apdu s
  else if apdu.credType = p1Mac then dispatchMac K apdu s
  else refuse swWrongP1P2

def dispatchMgmt (scpActive : Bool) : Cmd (ApduResponse × ObjectStore) :=
  if apdu.credType = p1CryptoObj ∧ apdu.p2 = p2DeleteObject then handleCryptoObjDelete apdu s
  else if apdu.credType = p1Curve ∧ apdu.p2 = p2DeleteObject then handleCurveDelete apdu s
  else if apdu.p2 = p2Version ∨ apdu.p2 = p2Memory ∨ apdu.p2 = p2Random ∨ apdu.p2 = p2DeleteAll then
    handleManagement env apdu s
  else if apdu.p2 = p2Scp then handleSetPlatformScp apdu s scpActive
  else if apdu.p2 = p2Exist ∨ apdu.p2 = p2DeleteObject then handleMgmt apdu s
  else refuse swWrongP1P2

def dispatchCmd (scpActive : Bool) : Cmd (ApduResponse × ObjectStore) :=
  if apdu.cla = 0x00 ∧ apdu.ins = 0xA4 then .ok (handleSelect apdu env.version, s)
  else if apdu.cla ≠ 0x80 ∧ apdu.cla ≠ 0x84 then refuse swInsNotSupported
  else if apdu.baseIns = insWrite then dispatchWrite K env apdu s
  else if apdu.baseIns = insRead then readOnly s (dispatchRead K env apdu s)
  else if apdu.baseIns = insCrypto then dispatchCrypto K env apdu s
  else if apdu.baseIns = insMgmt then dispatchMgmt env apdu s scpActive
  else refuse swInsNotSupported

/-- The response of a plain command and the store after it. -/
def dispatch (scpActive : Bool) : Except Panic (ApduResponse × ObjectStore) :=
  settle ApduResponse.error s (dispatchCmd K env apdu s scpActive)

end Route

end SE050
end Simulators
