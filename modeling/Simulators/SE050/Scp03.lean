/-
# SE050: the SCP03 secure channel of the card

`scp03/crypto.rs`, `scp03/mod.rs` and `put_keys` of `scp03/keys.rs`: session
key derivation, the INITIALIZE UPDATE and EXTERNAL AUTHENTICATE handshake, and
the wrapping of commands and responses.

`unwrap_command` returns an error after it has advanced the MAC chain in some
of its branches; its only caller then drops the session, so the session it
leaves is returned on success only. `wrap_response` always returns; it is a
handler that cannot refuse.
-/
import Simulators.SE050.Dispatch

namespace Simulators
namespace SE050

open Handler

/-! ### Cryptography (`crypto.rs`) -/

def ddcCardCryptogram : UInt8 := 0x00
def ddcHostCryptogram : UInt8 := 0x01
def ddcSEnc : UInt8 := 0x04
def ddcSMac : UInt8 := 0x06
def ddcSRmac : UInt8 := 0x07

/-- The input of one round of the KDF. -/
def kdfBlock (dc : UInt8) (context : Bytes) (outBits : UInt16) (i : UInt8) : Bytes :=
  List.replicate 11 0x00 ++ [dc, 0x00] ++ toBe 2 outBits.toNat ++ [i] ++ context

/-- `i.checked_add(1)`. -/
def checkedSucc (i : UInt8) : Option UInt8 := if i = 255 then none else some (i + 1)

/-- The loop of `kdf`, until `need` bytes are there; each round adds sixteen. -/
def kdfFrom (K : Crates) (key : Bytes) (dc : UInt8) (context : Bytes) (outBits : UInt16) (need : ℕ) :
    ℕ → UInt8 → Bytes → Option Bytes
  | 0, _, out => if out.length < need then none else some out
  | fuel + 1, i, out =>
    if out.length < need then do
      let mac ← cmacAes K key (kdfBlock dc context outBits i)
      let next ← checkedSucc i
      kdfFrom K key dc context outBits need fuel next (out ++ mac)
    else some out

/-- The counter-mode KDF with AES-CMAC as the pseudorandom function. -/
def kdf (K : Crates) (key : Bytes) (dc : UInt8) (context : Bytes) (outBits : UInt16) : Option Bytes :=
  let need := (outBits.toNat + 7) / 8
  (kdfFrom K key dc context outBits need need 1 []).map (·.take need)

/-- S-ENC, S-MAC and S-RMAC, each as wide as its static key. -/
def deriveSessionKeys (K : Crates) (enc mac : Bytes) (hostCh cardCh : ByteArr 8) :
    Option (Bytes × Bytes × Bytes) := do
  let ctx := hostCh.bytes ++ cardCh.bytes
  let sEnc ← kdf K enc ddcSEnc ctx (UInt16.ofNat (enc.length * 8))
  let sMac ← kdf K mac ddcSMac ctx (UInt16.ofNat (mac.length * 8))
  let sRmac ← kdf K mac ddcSRmac ctx (UInt16.ofNat (mac.length * 8))
  return (sEnc, sMac, sRmac)

/-- The card's or the host's cryptogram: 64 bits of the KDF under S-MAC. -/
def cryptogram (K : Crates) (sMac : Bytes) (hostCh cardCh : ByteArr 8) (dc : UInt8) : Option Bytes := do
  let full ← kdf K sMac dc (hostCh.bytes ++ cardCh.bytes) 64
  return full.take 8

/-- The whole CMAC over the chaining value and the data. -/
def cmacChain (K : Crates) (key : Bytes) (mcv : Block) (data : Bytes) : Option Block :=
  (AnyAes.new key).map fun k => K.cmac k (mcv.bytes ++ data)

/-- The command counter in the last four bytes, the first bit set for responses. -/
def counterBlock (counter : UInt32) (response : Bool) : Block :=
  ⟨(if response then 0x80 else 0x00) :: List.replicate 11 0x00 ++ toBe 4 counter.toNat, by simp⟩

/-- The initial vector of a command or of its response. -/
def counterIcv (K : Crates) (sEnc : Bytes) (counter : UInt32) (response : Bool) : Option Block :=
  (AnyAes.new sEnc).map fun k => K.aesEncrypt k (counterBlock counter response)

def cbcCrypt {ε : Type} (K : Crates) (key : Bytes) (icv : Block) (data : Bytes) (encrypting : Bool) :
    Handler ε (Option Bytes) :=
  match AnyAes.new key with
  | none => .ok none
  | some cipher => do
    let (out, _) ← cbcProcess K cipher icv data encrypting
    return some out

/-! ### The state of a connection (`mod.rs`) -/

def levelCdec : UInt8 := 0x02
def levelRmac : UInt8 := 0x10
def levelRenc : UInt8 := 0x20
def supportedLevels : List UInt8 := [0x01, 0x03, 0x11, 0x33]

/-- Between INITIALIZE UPDATE and EXTERNAL AUTHENTICATE. -/
structure Pending where
  hostChallenge : ByteArr 8
  cardChallenge : ByteArr 8
  sEnc : Bytes
  sMac : Bytes
  sRmac : Bytes
  legacy : Bool
deriving DecidableEq

structure Session where
  sEnc : Bytes
  sMac : Bytes
  sRmac : Bytes
  securityLevel : UInt8
  /-- MAC chaining value, advanced by each C-MAC. -/
  mcv : Block
  cmdCounter : UInt32
  /-- Plaintext length of the command just unwrapped. -/
  lastCmdLen : ℕ
  /-- The rules of applets before 4.3. -/
  legacy : Bool
deriving DecidableEq

inductive Scp03State
  | idle
  | pending (p : Pending)
  | active (s : Session)
deriving DecidableEq

def Scp03State.isActive : Scp03State → Bool
  | active _ => true
  | _ => false

/-! ### The handshake -/

def keyDiversificationData : Bytes := [0x90, 0x03, 0x20, 0x19, 0x07, 0x38, 0x24, 0x20, 0x25, 0x02]

def iParam : UInt8 := 0x00

/-- The handshake after the length check: the pending state and the response body. -/
def startHandshake (K : Crates) (env : Env) (p1 : UInt8) (hostCh : ByteArr 8) (cfg : Scp03Config) :
    Except UInt16 (Pending × Bytes) :=
  let legacy := env.version == .v3_1_1
  let cardCh : ByteArr 8 := ⟨env.rng.fill 8, env.rng.fill_length 8⟩
  match deriveSessionKeys K cfg.enc cfg.mac hostCh cardCh with
  | none => .error swConditionsNotSatisfied
  | some (sEnc, sMac, sRmac) =>
    match cryptogram K sMac hostCh cardCh ddcCardCryptogram with
    | none => .error swConditionsNotSatisfied
    | some cardCrypto =>
      let respKvn := if p1 = 0x00 then cfg.kvn else p1
      if legacy ∧ p1 ≠ 0x00 ∧ p1 ≠ cfg.kvn then .error swRefDataNotFound
      else .ok (⟨hostCh, cardCh, sEnc, sMac, sRmac, legacy⟩,
        keyDiversificationData ++ [respKvn, 0x03, iParam] ++ cardCh.bytes ++ cardCrypto)

/-- INITIALIZE UPDATE, from any state. -/
def initializeUpdateWithConfig (K : Crates) (env : Env) (p1 : UInt8) (hostChallenge : Bytes) (cfg : Scp03Config) :
    ApduResponse × Scp03State :=
  match toArr 8 hostChallenge with
  | none => (.error swWrongLength, .idle)
  | some hostCh =>
    match startHandshake K env p1 hostCh cfg with
    | .error sw => (.error sw, .idle)
    | .ok (p, data) => (.successWithData data, .pending p)

/-- The checks of EXTERNAL AUTHENTICATE on the raw APDU. -/
def authenticate (K : Crates) (p : Pending) (raw : Bytes) : Except UInt16 Session :=
  match raw with
  | cla :: ins :: level :: p2 :: lc :: body =>
    if body.length < 16 ∨ lc ≠ 0x10 then .error swWrongLength
    else if level ∉ supportedLevels then .error swWrongP1P2
    else
      let hostCryptoRecv := body.take 8
      let cmacRecv := (body.drop 8).take 8
      match cryptogram K p.sMac p.hostChallenge p.cardChallenge ddcHostCryptogram with
      | none => .error swSecurityStatus
      | some expectHost =>
        match cmacChain K p.sMac (zeroArr 16) ([cla, ins, level, p2, lc] ++ hostCryptoRecv) with
        | none => .error swSecurityStatus
        | some full =>
          if expectHost ≠ hostCryptoRecv ∨ full.bytes.take 8 ≠ cmacRecv then .error swSecurityStatus
          else .ok
            { sEnc := p.sEnc, sMac := p.sMac, sRmac := p.sRmac, securityLevel := level, mcv := full
              cmdCounter := 1, lastCmdLen := 0, legacy := p.legacy }
  | _ => .error swWrongLength

/-- EXTERNAL AUTHENTICATE: without a handshake nothing changes, and a failure ends the handshake. -/
def Scp03State.externalAuthenticate (K : Crates) (raw : Bytes) : Scp03State → ApduResponse × Scp03State
  | .pending p =>
    match authenticate K p raw with
    | .ok s => (.success, .active s)
    | .error sw => (.error sw, .idle)
  | other => (.error swConditionsNotSatisfied, other)

/-! ### Wrapped commands -/

namespace Session

/-- The plaintext of the payload: decrypted at a level with C-DECRYPTION. -/
def decryptPayload (K : Crates) (s : Session) (payload : Bytes) : Cmd Bytes := do
  if payload ≠ [] ∧ s.securityLevel &&& levelCdec ≠ 0 then
    ensure (payload.length % 16 = 0) swSecurityStatus
    let icv ← orRefuse swSecurityStatus (counterIcv K s.sEnc s.cmdCounter false)
    let dec? ← cbcCrypt K s.sEnc icv payload false
    let dec ← orRefuse swSecurityStatus dec?
    orRefuse swSecurityStatus (unpadM2 dec)
  else return payload

/-- Unwrap behind the header: `rest` is the data field of `lc` bytes and Le. -/
def unwrapBody (K : Crates) (s : Session) (cla ins p1 p2 : UInt8) (headerAndLc : Bytes) (lc : ℕ) (rest : Bytes) :
    Cmd (ParsedApdu × Session) := do
  ensure (8 ≤ lc ∧ lc ≤ rest.length) swWrongLength
  let body := rest.take lc
  let payload := body.take (lc - 8)
  let full ← orRefuse swSecurityStatus (cmacChain K s.sMac s.mcv (headerAndLc ++ payload))
  ensure (full.bytes.take 8 = body.drop (lc - 8)) swSecurityStatus
  let plaintext ← s.decryptPayload K payload
  return (⟨cla &&& ~~~0x04, ins, p1, p2, plaintext, extendedLe (rest.drop lc)⟩,
    { s with mcv := full, lastCmdLen := plaintext.length })

/-- Verify the C-MAC, decrypt, and return the plain APDU. Lc has one byte, or two after a zero. -/
def unwrapCommand (K : Crates) (s : Session) : Bytes → Cmd (ParsedApdu × Session)
  | cla :: ins :: p1 :: p2 :: lc :: rest =>
    if lc ≠ 0x00 then s.unwrapBody K cla ins p1 p2 [cla, ins, p1, p2, lc] lc.toNat rest
    else match rest with
      | hi :: lo :: rest => s.unwrapBody K cla ins p1 p2 [cla, ins, p1, p2, lc, hi, lo] (be16 hi lo) rest
      | _ => refuse swWrongLength
  | _ => refuse swWrongLength

/-- Applets from 4.3 on advance the counter after every command, older ones by
the length of the command and the status of the response. -/
def advanceCounter (s : Session) (sw : UInt16) : Session :=
  let advance : Bool :=
    if s.legacy then
      if sw = swNoError then 0 < s.lastCmdLen else s.lastCmdLen ≠ 8
    else true
  if advance then { s with cmdCounter := s.cmdCounter + 1 } else s

/-- The counter of the response's initial vector. -/
def respCounter (s : Session) : UInt32 :=
  if s.legacy = true ∧ s.lastCmdLen = 0 then s.cmdCounter - 1 else s.cmdCounter

/-- The data field of a protected response: encrypted, if the level asks for it and there is data. -/
def responseField (K : Crates) (s : Session) (data : Bytes) : Handler Empty (Option Bytes) :=
  if s.securityLevel &&& levelRenc ≠ 0 ∧ data ≠ [] then
    match counterIcv K s.sEnc s.respCounter true with
    | none => .ok none
    | some icv => cbcCrypt K s.sEnc icv (padM2 16 data) true
  else .ok (some data)

/-- A success response with its R-MAC. -/
def protect (K : Crates) (s : Session) (resp : ApduResponse) : Handler Empty ApduResponse := do
  let field? ← s.responseField K resp.data
  match field? with
  | none => return .error swSecurityStatus
  | some field =>
    match cmacChain K s.sRmac s.mcv (field ++ [hiByte resp.sw, loByte resp.sw]) with
    | none => return .error swSecurityStatus
    | some full => return ⟨field ++ full.bytes.take 8, resp.sw⟩

/-- Only a success response is protected; the counter advances in any case. -/
def wrapResponse (K : Crates) (s : Session) (resp : ApduResponse) : Handler Empty (ApduResponse × Session) := do
  if s.securityLevel &&& levelRmac ≠ 0 ∧ resp.sw = swNoError then
    let out ← s.protect K resp
    return (out, s.advanceCounter resp.sw)
  else return (resp, s.advanceCounter resp.sw)

end Session

/-! ### PUT KEY (`keys.rs`) -/

/-- One wrapped key: its header, the key under the DEK and its check value. -/
def putKeyBlock (K : Crates) (cipher : AnyAes) (block : Bytes) : Cmd (Block × Bytes) := do
  ensure (block[0]? = some 0x88 ∧ block[1]? = some 0x11 ∧ block[2]? = some 0x10 ∧ block[19]? = some 0x03) swWrongData
  let wrapped ← array 16 ((block.drop 3).take 16)
  let key := K.aesDecrypt cipher wrapped
  let keyCipher ← orRefuse swWrongData (AnyAes.new key.bytes)
  let check := (K.aesEncrypt keyCipher ⟨List.replicate 16 0x01, rfl⟩).bytes.take 3
  ensure (check = (block.drop 20).take 3) swWrongData
  return (key, check)

/-- The three new keys, each of 23 bytes behind the new version number, and the check values. -/
def putKeys (K : Crates) (current : Scp03Config) (p1 p2 : UInt8) (data : Bytes) : Cmd (Scp03Config × Bytes) := do
  ensure (p1 = current.kvn ∧ p2 = 0x81) swWrongP1P2
  ensure (data.length = 70) swWrongLength
  let cipher ← orRefuse swConditionsNotSatisfied (AnyAes.new current.dek)
  let kvn := data.headD 0
  let (enc, check1) ← putKeyBlock K cipher ((data.drop 1).take 23)
  let (mac, check2) ← putKeyBlock K cipher ((data.drop 24).take 23)
  let (dek, check3) ← putKeyBlock K cipher ((data.drop 47).take 23)
  return (⟨kvn, enc.bytes, mac.bytes, dek.bytes⟩, kvn :: check1 ++ check2 ++ check3)

end SE050
end Simulators
