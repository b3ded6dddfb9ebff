/-
# SE050: AES, digests, MACs and crypto objects

`handlers/aes.rs`, `digest.rs`, `mac.rs` and `crypto_obj.rs`. The three
multi-step operations keep their state in `cryptoObjects`. A Final takes its
context out of the map first and looks at it afterwards, so its later errors
are answered with the context gone: they are not refusals (`finish`).
-/
import Simulators.Lib.Blocks
import Simulators.SE050.Handlers.Objects

namespace Simulators
namespace SE050

open Handler

/-- The rest of a handler that has changed the store: its errors are answers
over the changed store. -/
def finish (s : ObjectStore) : Cmd ApduResponse → Cmd (ApduResponse × ObjectStore)
  | .ok r => .ok (r, s)
  | .error (.refuse sw) => .ok (.error sw, s)
  | .error (.panic p) => .error (.panic p)

/-- The two-byte crypto object identifier under a tag. -/
def cryptoIdOf (tlvs : List Tlv) (tag : UInt8) : Option UInt16 := (valueOf tlvs tag).bind u16?

/-! ### Cipher modes (`aes.rs`) -/

def cipherModeCbcNopad : UInt8 := 0x0D
def cipherModeEcbNopad : UInt8 := 0x0E
def cipherModeCtr : UInt8 := 0xF0

section Modes

variable (K : Crates) (cipher : AnyAes)

def ecbProcess (data : Bytes) (encrypting : Bool) : Cmd Bytes := do
  let blocks ← blocksOf 16 data
  return flat (blocks.map (if encrypting then K.aesEncrypt cipher else K.aesDecrypt cipher))

/-- The chain vector after CBC: the last ciphertext block. -/
def cbcChain (chain : Block) (blocks out : List Block) (encrypting : Bool) : Block :=
  ((if encrypting then out else blocks).getLast?).getD chain

def cbcBlocks (chain : Block) (blocks : List Block) (encrypting : Bool) : List Block :=
  if encrypting then cbcEncrypt (K.aesEncrypt cipher) chain blocks
  else cbcDecrypt (K.aesDecrypt cipher) chain blocks

/-- The output and the advanced chain vector. -/
def cbcProcess {ε : Type} (chain : Block) (data : Bytes) (encrypting : Bool) : Handler ε (Bytes × Block) := do
  let blocks ← blocksOf 16 data
  let out := cbcBlocks K cipher chain blocks encrypting
  return (flat out, cbcChain chain blocks out encrypting)

/-- Add one to a little-endian number, without a carry out. -/
def incrementLe : Bytes → Bytes
  | [] => []
  | b :: bs => if b + 1 = 0 then 0 :: incrementLe bs else (b + 1) :: bs

theorem incrementLe_length : ∀ b : Bytes, (incrementLe b).length = b.length
  | [] => rfl
  | b :: bs => by
    unfold incrementLe
    split <;> simp [incrementLe_length]

/-- Big-endian increment over the full counter block. -/
def nextCounter (counter : Block) : Block :=
  ⟨(incrementLe counter.bytes.reverse).reverse, by simp [incrementLe_length, counter.size]⟩

/-- The loop of `ctr_process` over its chunks. -/
def ctrChunks : Block → List Bytes → Bytes × Block
  | counter, [] => ([], counter)
  | counter, c :: cs =>
    let (rest, last) := ctrChunks (nextCounter counter) cs
    (List.zipWith (· ^^^ ·) c (K.aesEncrypt cipher counter).bytes ++ rest, last)

def ctrProcess (counter : Block) (data : Bytes) : Bytes × Block := ctrChunks K cipher counter (chunks 16 data)

end Modes

/-- One pass of a cipher mode: the output and the advanced chain vector. -/
def applyMode (K : Crates) (mode : UInt8) (key : Bytes) (chain : Block) (data : Bytes)
    (encrypting isFinal : Bool) : Cmd (Bytes × Block) := do
  let cipher ← orRefuse swConditionsNotSatisfied (AnyAes.new key)
  if mode = cipherModeEcbNopad then
    ensure (data.length % 16 = 0) swConditionsNotSatisfied
    let out ← ecbProcess K cipher data encrypting
    return (out, chain)
  else if mode = cipherModeCbcNopad then
    ensure (data.length % 16 = 0) swConditionsNotSatisfied
    cbcProcess K cipher chain data encrypting
  else if mode = cipherModeCtr then
    ensure (isFinal = true ∨ data.length % 16 = 0) swConditionsNotSatisfied
    return ctrProcess K cipher chain data
  else refuse swWrongData

/-! ### Symmetric keys -/

/-- The size in bytes for a size in bits or bytes. -/
def aesKeyLen : ℕ → Option ℕ
  | 128 => some 16
  | 192 => some 24
  | 256 => some 32
  | 16 => some 16
  | 24 => some 24
  | 32 => some 32
  | _ => none

/-- A fresh key of the size in Tag3 (AES-128 if it is missing or odd), or the key in Tag3. -/
def aesKeyMaterial (env : Env) (generated : Bool) (keyData : Option Bytes) : Cmd Bytes :=
  if generated then do
    let len ← orRefuse swWrongData (aesKeyLen ((keyData.bind word?).getD 16))
    return env.rng.fill len
  else do
    let key ← orRefuse swWrongData keyData
    ensure (key.length = 16 ∨ key.length = 24 ∨ key.length = 32) swWrongData
    return key

def handleWriteAesKey (env : Env) (apdu : ParsedApdu) (s : ObjectStore) :
    Cmd (ApduResponse × ObjectStore) := do
  let tlvs ← apdu.tlvs
  let objId ← orRefuse swWrongData (objectIdOf tlvs tag1)
  let policy ← policyOf tlvs
  ensure (s.mayWrite objId) swConditionsNotSatisfied
  let keyData := valueOf tlvs tag3
  let generated := apdu.p2 == p2Generate || keyData.any (·.length ≤ 2)
  let key ← aesKeyMaterial env generated keyData
  let s' := s.insert objId (.aesKey key)
  if s.existsId objId then return (.success, s')
  else return (.success, s'.setCreationMetadata objId policy (if generated then 0x02 else 0x01))

def handleWriteHmacKey (apdu : ParsedApdu) (s : ObjectStore) : Cmd (ApduResponse × ObjectStore) := do
  let tlvs ← apdu.tlvs
  let objId ← orRefuse swWrongData (objectIdOf tlvs tag1)
  -- an empty policy is no valid policy for an HMAC key
  ensure (valueOf tlvs tagPolicy ≠ some []) swWrongData
  let policy ← policyOf tlvs
  let header := policy.bind arHeaderUnion
  ensure (s.mayWrite objId) swConditionsNotSatisfied
  let key ← orRefuse swWrongData (valueOf tlvs tag3)
  ensure (key ≠ []) swWrongData
  let s' := s.insert objId (.hmacKey key header)
  if s.existsId objId then return (.success, s')
  else return (.success, s'.setCreationMetadata objId policy 0x01)

/-! ### Ciphering -/

/-- Tag4 as the initial vector: 16 bytes, or absent or empty for zeros. -/
def initialVector (tlvs : List Tlv) : Cmd Block :=
  match valueOf tlvs tag4 with
  | none => .ok (zeroArr 16)
  | some iv => match toArr 16 iv with
    | some b => .ok b
    | none => if iv.isEmpty then .ok (zeroArr 16) else refuse swWrongData

/-- The key of the AES object under an identifier. -/
def aesKeyOf (s : ObjectStore) (id : ObjectId) : Cmd Bytes :=
  match s.get id with
  | some (.aesKey key) => .ok key
  | _ => refuse swConditionsNotSatisfied

def handleCipherOneshot (K : Crates) (apdu : ParsedApdu) (s : ObjectStore) (encrypting : Bool) :
    Cmd ApduResponse := do
  let tlvs ← apdu.tlvs
  let keyId ← orRefuse swWrongData (objectIdOf tlvs tag1)
  let mode ← orRefuse swWrongData (byteOf tlvs tag2)
  let input ← orRefuse swWrongData (valueOf tlvs tag3)
  let chain ← initialVector tlvs
  let key ← aesKeyOf s keyId
  let (out, _) ← applyMode K mode key chain input encrypting true
  return .successWithTlvs [⟨tag1, out⟩]

def handleEncryptOneshot (K : Crates) (apdu : ParsedApdu) (s : ObjectStore) : Cmd ApduResponse :=
  handleCipherOneshot K apdu s true

def handleDecryptOneshot (K : Crates) (apdu : ParsedApdu) (s : ObjectStore) : Cmd ApduResponse :=
  handleCipherOneshot K apdu s false

/-- The subtype of a crypto object that was created for the given context. -/
def subtypeFor (s : ObjectStore) (cryptoId : UInt16) (context : UInt8) : Cmd UInt8 := do
  let (c, subtype) ← orRefuse swConditionsNotSatisfied (s.cryptoObjectTypes.lookup cryptoId)
  ensure (c = context) swConditionsNotSatisfied
  return subtype

/-- Start or advance a multi-step operation. -/
def ObjectStore.setContext (s : ObjectStore) (cryptoId : UInt16) (c : CryptoObjectState) : ObjectStore :=
  { s with cryptoObjects := s.cryptoObjects.insert cryptoId c }

/-- Take a context out of the map. -/
def ObjectStore.dropContext (s : ObjectStore) (cryptoId : UInt16) : ObjectStore :=
  { s with cryptoObjects := s.cryptoObjects.erase cryptoId }

def handleCipherInit (apdu : ParsedApdu) (s : ObjectStore) : Cmd (ApduResponse × ObjectStore) := do
  let tlvs ← apdu.tlvs
  let keyId ← orRefuse swWrongData (objectIdOf tlvs tag1)
  let cryptoId ← orRefuse swWrongData (cryptoIdOf tlvs tag2)
  let subtype ← subtypeFor s cryptoId 0x02
  ensure (s.existsId keyId = true) swConditionsNotSatisfied
  let chain ← initialVector tlvs
  return (.success, s.setContext cryptoId (.cipher (apdu.p2 == p2EncryptInit) subtype keyId chain.bytes []))

def handleCipherUpdate (K : Crates) (apdu : ParsedApdu) (s : ObjectStore) :
    Cmd (ApduResponse × ObjectStore) := do
  let tlvs ← apdu.tlvs
  let cryptoId ← orRefuse swWrongData (cryptoIdOf tlvs tag2)
  let input ← orRefuse swWrongData (valueOf tlvs tag3)
  match s.cryptoObjects.lookup cryptoId with
  | some (.cipher encrypting mode keyId chain pending) =>
    let key ← aesKeyOf s keyId
    let buffered := pending ++ input
    let alignedLen := buffered.length - buffered.length % 16
    let chain ← array 16 chain
    let (output, chain') ← applyMode K mode key chain (buffered.take alignedLen) encrypting false
    return (.successWithTlvs [⟨tag1, output⟩],
      s.setContext cryptoId (.cipher encrypting mode keyId chain'.bytes (buffered.drop alignedLen)))
  | _ => refuse swConditionsNotSatisfied

def handleCipherFinal (K : Crates) (apdu : ParsedApdu) (s : ObjectStore) :
    Cmd (ApduResponse × ObjectStore) := do
  let tlvs ← apdu.tlvs
  let cryptoId ← orRefuse swWrongData (cryptoIdOf tlvs tag2)
  let remaining := (valueOf tlvs tag3).getD []
  let state ← orRefuse swConditionsNotSatisfied (s.cryptoObjects.lookup cryptoId)
  let s' := s.dropContext cryptoId
  finish s' <| match state with
    | .cipher encrypting mode keyId chain pending => do
      let key ← aesKeyOf s' keyId
      let chain ← array 16 chain
      let (out, _) ← applyMode K mode key chain (pending ++ remaining) encrypting true
      return .successWithTlvs [⟨tag1, out⟩]
    | _ => refuse swConditionsNotSatisfied

/-! ### Digests (`digest.rs`) -/

def computeHash (K : Crates) (mode : UInt8) (data : Bytes) : Option Bytes :=
  match mode with
  | 0x01 => some (K.digest .sha1 data)
  | 0x07 => some (K.digest .sha224 data)
  | 0x04 => some (K.digest .sha256 data)
  | 0x05 => some (K.digest .sha384 data)
  | 0x06 => some (K.digest .sha512 data)
  | _ => none

def handleDigestOneshot (K : Crates) (apdu : ParsedApdu) : Cmd ApduResponse := do
  let tlvs ← apdu.tlvs
  let mode ← orRefuse swWrongData (byteOf tlvs tag1)
  let hash ← orRefuse swWrongData (computeHash K mode ((valueOf tlvs tag2).getD []))
  return .successWithTlvs [⟨tag1, hash⟩]

def handleDigestInit (apdu : ParsedApdu) (s : ObjectStore) : Cmd (ApduResponse × ObjectStore) := do
  let tlvs ← apdu.tlvs
  let cryptoId ← orRefuse swWrongData (cryptoIdOf tlvs tag2)
  let subtype ← subtypeFor s cryptoId 0x01
  return (.success, s.setContext cryptoId (.digest subtype []))

def handleDigestUpdate (apdu : ParsedApdu) (s : ObjectStore) : Cmd (ApduResponse × ObjectStore) := do
  let tlvs ← apdu.tlvs
  let cryptoId ← orRefuse swWrongData (cryptoIdOf tlvs tag2)
  let input ← orRefuse swWrongData (valueOf tlvs tag3)
  match s.cryptoObjects.lookup cryptoId with
  | some (.digest algo data) => return (.success, s.setContext cryptoId (.digest algo (data ++ input)))
  | _ => refuse swConditionsNotSatisfied

def handleDigestFinal (K : Crates) (apdu : ParsedApdu) (s : ObjectStore) :
    Cmd (ApduResponse × ObjectStore) := do
  let tlvs ← apdu.tlvs
  let cryptoId ← orRefuse swWrongData (cryptoIdOf tlvs tag2)
  let remaining := (valueOf tlvs tag3).getD []
  let state ← orRefuse swConditionsNotSatisfied (s.cryptoObjects.lookup cryptoId)
  finish (s.dropContext cryptoId) <| match state with
    | .digest algo data => do
      let hash ← orRefuse swWrongData (computeHash K algo (data ++ remaining))
      return .successWithTlvs [⟨tag1, hash⟩]
    | _ => refuse swConditionsNotSatisfied

/-! ### MACs (`mac.rs`) -/

def cmacAes (K : Crates) (key data : Bytes) : Option Bytes :=
  (AnyAes.new key).map fun k => (K.cmac k data).bytes

/-- HMAC algorithms take an HMAC key, CMAC an AES key. -/
def computeMac (K : Crates) (algo : UInt8) (keyObj : SecureObject) (data : Bytes) : Cmd Bytes :=
  match algo, keyObj with
  | 0x18, .hmacKey key _ => .ok (K.hmac .sha1 key data)
  | 0x19, .hmacKey key _ => .ok (K.hmac .sha256 key data)
  | 0x1A, .hmacKey key _ => .ok (K.hmac .sha384 key data)
  | 0x1B, .hmacKey key _ => .ok (K.hmac .sha512 key data)
  | 0x31, .aesKey key => orRefuse swConditionsNotSatisfied (cmacAes K key data)
  | 0x18, _ | 0x19, _ | 0x1A, _ | 0x1B, _ | 0x31, _ => refuse swConditionsNotSatisfied
  | _, _ => refuse swWrongData

/-- The MAC, or the result of comparing it with the expected one. -/
def macResponse (mac : Bytes) : Option Bytes → ApduResponse
  | none => .successWithTlvs [⟨tag1, mac⟩]
  | some expected => .successWithTlvs [⟨tag1, [if expected = mac then 0x01 else 0x02]⟩]

/-- The MAC to validate under Tag5, which generating does without. -/
def expectedMac (tlvs : List Tlv) (validate : Bool) : Cmd (Option Bytes) :=
  if validate then do
    let v ← orRefuse swWrongData (valueOf tlvs tag5)
    return some v
  else .ok none

def handleMacOneshot (K : Crates) (apdu : ParsedApdu) (s : ObjectStore) (validate : Bool) :
    Cmd ApduResponse := do
  let tlvs ← apdu.tlvs
  let keyId ← orRefuse swWrongData (objectIdOf tlvs tag1)
  let algo ← orRefuse swWrongData (byteOf tlvs tag2)
  let data := (valueOf tlvs tag3).getD []
  let expected ← expectedMac tlvs validate
  let keyObj ← orRefuse swConditionsNotSatisfied (s.get keyId)
  let mac ← computeMac K algo keyObj data
  return macResponse mac expected

def handleMacInit (apdu : ParsedApdu) (s : ObjectStore) (validate : Bool) :
    Cmd (ApduResponse × ObjectStore) := do
  let tlvs ← apdu.tlvs
  let keyId ← orRefuse swWrongData (objectIdOf tlvs tag1)
  let cryptoId ← orRefuse swWrongData (cryptoIdOf tlvs tag2)
  let subtype ← subtypeFor s cryptoId 0x03
  ensure (s.existsId keyId = true) swConditionsNotSatisfied
  return (.success, s.setContext cryptoId (.mac subtype validate keyId []))

def handleMacUpdate (apdu : ParsedApdu) (s : ObjectStore) : Cmd (ApduResponse × ObjectStore) := do
  let tlvs ← apdu.tlvs
  let cryptoId ← orRefuse swWrongData (cryptoIdOf tlvs tag2)
  let input := (valueOf tlvs tag1).getD []
  match s.cryptoObjects.lookup cryptoId with
  | some (.mac algo validate keyId data) =>
    return (.success, s.setContext cryptoId (.mac algo validate keyId (data ++ input)))
  | _ => refuse swConditionsNotSatisfied

def handleMacFinal (K : Crates) (apdu : ParsedApdu) (s : ObjectStore) :
    Cmd (ApduResponse × ObjectStore) := do
  let tlvs ← apdu.tlvs
  let cryptoId ← orRefuse swWrongData (cryptoIdOf tlvs tag2)
  let input := (valueOf tlvs tag1).getD []
  let state ← orRefuse swConditionsNotSatisfied (s.cryptoObjects.lookup cryptoId)
  let s' := s.dropContext cryptoId
  finish s' <| match state with
    | .mac algo validate keyId data => do
      let expected ← expectedMac tlvs validate
      let keyObj ← orRefuse swConditionsNotSatisfied (s'.get keyId)
      let mac ← computeMac K algo keyObj (data ++ input)
      return macResponse mac expected
    | _ => refuse swConditionsNotSatisfied

/-! ### Crypto objects (`crypto_obj.rs`) -/

def handleCryptoObjCreate (apdu : ParsedApdu) (s : ObjectStore) : Cmd (ApduResponse × ObjectStore) := do
  let tlvs ← apdu.tlvs
  let cryptoId ← orRefuse swWrongData (cryptoIdOf tlvs tag1)
  let context ← orRefuse swWrongData (byteOf tlvs tag2)
  let subtype := (byteOf tlvs tag3).getD 0x00
  ensure (cryptoId ∉ s.cryptoObjectTypes) swCommandNotAllowed
  return (.success, { s with cryptoObjectTypes := s.cryptoObjectTypes.insert cryptoId (context, subtype) })

/-- The list in the order the map yields it. -/
def handleCryptoObjList (env : Env) (s : ObjectStore) : ApduResponse :=
  .successWithTlvs [⟨tag1, (env.iter s.cryptoObjectTypes).flatMap fun (id, context, subtype) =>
    [hiByte id, loByte id, context, subtype]⟩]

def handleCryptoObjDelete (apdu : ParsedApdu) (s : ObjectStore) : Cmd (ApduResponse × ObjectStore) := do
  let tlvs ← apdu.tlvs
  let cryptoId ← orRefuse swWrongData (cryptoIdOf tlvs tag1)
  return (.success, { s with cryptoObjectTypes := s.cryptoObjectTypes.erase cryptoId
                             cryptoObjects := s.cryptoObjects.erase cryptoId })

end SE050
end Simulators
