/-
# SE050: RSA keys

`handlers/rsa.rs`: key generation, imports that stage their components over
several APDUs, and the signature and cipher operations. `sign` of the `rsa`
crate is `try_sign(..).expect(..)`, so it is an `expect` here.
-/
import Mathlib.Data.Nat.Size
import Simulators.SE050.Handlers.Objects

namespace Simulators
namespace SE050

open Handler

def tagRsaP : UInt8 := 0x43
def tagRsaQ : UInt8 := 0x44
def tagRsaDp : UInt8 := 0x45
def tagRsaDq : UInt8 := 0x46
def tagRsaQinv : UInt8 := 0x47
def tagRsaPubExp : UInt8 := 0x48
def tagRsaPriv : UInt8 := 0x49
def tagRsaPubMod : UInt8 := 0x4A

/-! ### Big integers -/

/-- The size of a number in bytes, `(n.bits() + 7) / 8`. -/
def byteLen (n : ℕ) : ℕ := (n.size + 7) / 8

/-- `BigUint::to_bytes_be`: no leading zeros, one zero byte for zero. -/
def toBytesBe (n : ℕ) : Bytes := if n = 0 then [0] else toBe (byteLen n) n

theorem toBytesBe_length_le {m n : ℕ} (h : m < n) : (toBytesBe m).length ≤ byteLen n := by
  have hn : 0 < n.size := Nat.size_pos.mpr (by omega)
  unfold toBytesBe byteLen
  split
  · simp only [List.length_cons, List.length_nil]
    omega
  · have : m.size ≤ n.size := Nat.size_le_size (Nat.le_of_lt h)
    rw [toBe_length]
    omega

/-! ### Writing keys -/

/-- The components a command carries. -/
def RsaComponents.ofTlvs (tlvs : List Tlv) : RsaComponents where
  n := valueOf tlvs tagRsaPubMod
  e := valueOf tlvs tagRsaPubExp
  d := valueOf tlvs tagRsaPriv
  p := valueOf tlvs tagRsaP
  q := valueOf tlvs tagRsaQ
  dp := valueOf tlvs tagRsaDp
  dq := valueOf tlvs tagRsaDq
  qinv := valueOf tlvs tagRsaQinv

def RsaComponents.hasAny (c : RsaComponents) : Bool :=
  c.p.isSome || c.q.isSome || c.dp.isSome || c.dq.isSome || c.qinv.isSome || c.e.isSome || c.d.isSome
    || c.n.isSome

/-- The staged components, each replaced by the command's if it has one. -/
def RsaComponents.merge (staged c : RsaComponents) : RsaComponents where
  n := c.n <|> staged.n
  e := c.e <|> staged.e
  d := c.d <|> staged.d
  p := c.p <|> staged.p
  q := c.q <|> staged.q
  dp := c.dp <|> staged.dp
  dq := c.dq <|> staged.dq
  qinv := c.qinv <|> staged.qinv

/-- The PKCS#1 document, once N, E and D are there and the crate takes them. -/
def tryMaterialize (K : Crates) (staged : RsaComponents) : Option Bytes := do
  let n ← staged.n
  let e ← staged.e
  let d ← staged.d
  let primes := match staged.p, staged.q with
    | some p, some q => [ofBe p, ofBe q]
    | _, _ => []
  let key ← K.rsaFromComponents (ofBe n) (ofBe e) (ofBe d) primes
  K.rsaToPkcs1Der key

/-- The personality's refusal of the command, from its tags alone. -/
def rsaRefusal (version : AppletVersion) (apdu : ParsedApdu) (tlvs : List Tlv) : Cmd Unit := do
  if !version.supportsRsa then
    let hasComponent := tlvs.any fun t => tagRsaP ≤ t.tag && t.tag ≤ tagRsaPubMod
    refuse (if hasComponent then swWrongData else swConditionsNotSatisfied)
  else if !version.supportsRsaPublicImport then
    let hasPrivate := [tagRsaP, tagRsaQ, tagRsaDp, tagRsaDq, tagRsaQinv, tagRsaPriv].any
      fun tag => (findTlv tlvs tag).isSome
    let wholePublic := (findTlv tlvs tagRsaPubMod).isSome && (findTlv tlvs tagRsaPubExp).isSome && !hasPrivate
    ensure (¬ (apdu.keyType = p1PublicKey ∨ wholePublic = true)) swWrongData
  else return ()

/-- Tag2 as the key size in bits; another length than two is refused. -/
def rsaSizeBits (tlvs : List Tlv) : Cmd (Option UInt16) :=
  match valueOf tlvs tag2 with
  | none => .ok none
  | some v => match u16? v with
    | some bits => .ok (some bits)
    | none => refuse swWrongData

/-- An import whose components are not all there yet: a command that brings
one is part of the creation and needs no write permission. -/
def creationInProgress (apdu : ParsedApdu) (s : ObjectStore) (objId : ObjectId) (c : RsaComponents) : Bool :=
  c.hasAny && match s.get objId with
    | some (.rsaKeyPair _ der staged) =>
      if !der.isEmpty then false
      else if apdu.keyType == p1PublicKey then staged.n.isNone || staged.e.isNone
      else staged.n.isNone || staged.e.isNone || staged.d.isNone
    | _ => false

/-- The object a key generation stores. -/
def rsaGenerate (K : Crates) (env : Env) (sizeBits : Option UInt16) : Cmd SecureObject := do
  let bits ← orRefuse swWrongData sizeBits
  ensure (bits.toNat ∈ [1024, 2048, 3072, 4096]) swWrongData
  ensure (env.version.rsaMinKeyBits ≤ bits.toNat) swConditionsNotSatisfied
  let key ← orRefuse swConditionsNotSatisfied (K.rsaNew env.rng bits.toNat)
  let der ← orRefuse swConditionsNotSatisfied (K.rsaToPkcs1Der key)
  return .rsaKeyPair bits der {}

/-- The size and components staged so far; another kind of object is refused. -/
def rsaStaged (s : ObjectStore) (objId : ObjectId) : Cmd (UInt16 × RsaComponents) :=
  match s.get objId with
  | some (.rsaKeyPair bits _ staged) => .ok (bits, staged)
  | some _ => refuse swConditionsNotSatisfied
  | none => .ok (0, {})

/-- The object an import stores: the components merged into the staged ones. -/
def rsaImport (K : Crates) (s : ObjectStore) (objId : ObjectId) (sizeBits : Option UInt16)
    (c : RsaComponents) : Cmd SecureObject := do
  let (bits, staged) ← rsaStaged s objId
  let bits := sizeBits.getD bits
  let staged := staged.merge c
  match tryMaterialize K staged with
  | some der => return .rsaKeyPair bits der {}
  | none => return .rsaKeyPair bits [] staged

/-- Without components the command generates a key. -/
def rsaObject (K : Crates) (env : Env) (s : ObjectStore) (objId : ObjectId) (sizeBits : Option UInt16)
    (c : RsaComponents) : Cmd SecureObject :=
  if c.hasAny then rsaImport K s objId sizeBits c else rsaGenerate K env sizeBits

def handleWriteRsaKey (K : Crates) (env : Env) (apdu : ParsedApdu) (s : ObjectStore) :
    Cmd (ApduResponse × ObjectStore) := do
  let tlvs ← apdu.tlvs
  rsaRefusal env.version apdu tlvs
  let objId ← orRefuse swWrongData (objectIdOf tlvs tag1)
  let policy ← policyOf tlvs
  let sizeBits ← rsaSizeBits tlvs
  let c := RsaComponents.ofTlvs tlvs
  ensure (creationInProgress apdu s objId c = true ∨ s.mayWrite objId) swConditionsNotSatisfied
  let obj ← rsaObject K env s objId sizeBits c
  let s' := s.insert objId obj
  if s.existsId objId then return (.success, s')
  else return (.success, s'.setCreationMetadata objId policy (if c.hasAny then 0x01 else 0x02))

/-! ### Signatures -/

/-- A signing scheme and its hash. -/
inductive RsaScheme
  | pkcs1v15 (h : Hash)
  | pss (h : Hash)

/-- The scheme an algorithm byte selects. -/
def rsaScheme : UInt8 → Option RsaScheme
  | 0x28 => some (.pkcs1v15 .sha256)
  | 0x29 => some (.pkcs1v15 .sha384)
  | 0x2A => some (.pkcs1v15 .sha512)
  | 0x2C => some (.pss .sha256)
  | 0x2D => some (.pss .sha384)
  | 0x2E => some (.pss .sha512)
  | _ => none

/-- `try_sign` of the scheme's signing key. -/
def rsaTrySign (K : Crates) (env : Env) (key : RsaPrivateKey) (data : Bytes) : RsaScheme → Option Bytes
  | .pkcs1v15 h => K.pkcs1v15TrySign h key data
  | .pss h => K.pssTrySign h key env.rng data

def handleRsaSign (K : Crates) (env : Env) (keyObj : SecureObject) (algo : UInt8) (data : Bytes) :
    Cmd ApduResponse := do
  match keyObj with
  | .rsaKeyPair _ der _ =>
    let key ← orRefuse swConditionsNotSatisfied (K.rsaFromPkcs1Der der)
    let scheme ← orRefuse swWrongData (rsaScheme algo)
    let sig ← expect (rsaTrySign K env key data scheme)
    return .successWithTlvs [⟨tag1, sig⟩]
  | _ => refuse swConditionsNotSatisfied

/-- The public key of a materialized pair, or of a public-only import. -/
def publicKeyFromObj (K : Crates) : SecureObject → Option RsaPublicKey
  | .rsaKeyPair _ der staged =>
    if !der.isEmpty then (K.rsaFromPkcs1Der der).map (·.toPublic)
    else do
      let n ← staged.n
      let e ← staged.e
      K.rsaPublicNew (ofBe n) (ofBe e)
  | _ => none

def rsaVerify (K : Crates) (key : RsaPublicKey) (data sig : Bytes) : RsaScheme → Bool
  | .pkcs1v15 h => K.pkcs1v15Verify h key data sig
  | .pss h => K.pssVerify h key data sig

def handleRsaVerify (K : Crates) (keyObj : SecureObject) (algo : UInt8) (data sig : Bytes) :
    Cmd ApduResponse := do
  let key ← orRefuse swConditionsNotSatisfied (publicKeyFromObj K keyObj)
  let scheme ← orRefuse swWrongData (rsaScheme algo)
  return .successWithTlvs [⟨tag1, [if rsaVerify K key data sig scheme then 0x01 else 0x02]⟩]

/-! ### Encryption -/

/-- The key identifier, algorithm, input and key object of an RSA cipher command. -/
def rsaCipherRequest (apdu : ParsedApdu) (s : ObjectStore) : Cmd (UInt8 × Bytes × SecureObject) := do
  let tlvs ← apdu.tlvs
  let keyId ← orRefuse swWrongData (objectIdOf tlvs tag1)
  let algo ← orRefuse swWrongData (byteOf tlvs tag2)
  let input ← orRefuse swWrongData (valueOf tlvs tag3)
  let keyObj ← orRefuse swConditionsNotSatisfied (s.get keyId)
  return (algo, input, keyObj)

/-- NO_PAD: the public operation, left-padded to the size of the modulus. -/
def rsaEncryptRaw (key : RsaPublicKey) (plaintext : Bytes) : Cmd Bytes := do
  let m := ofBe plaintext
  ensure (m < key.n) swWrongData
  let c := toBytesBe (m ^ key.e % key.n)
  let modSize := byteLen key.n
  copyAt (List.replicate modSize 0) (modSize - c.length) c

/-- Encrypt under the padding an algorithm byte selects. -/
def rsaEncryptWith (K : Crates) (env : Env) (key : RsaPublicKey) (plaintext : Bytes) : UInt8 → Cmd Bytes
  | 0x0A => orRefuse swConditionsNotSatisfied (K.rsaEncrypt .pkcs1v15 key env.rng plaintext)
  | 0x0F => orRefuse swConditionsNotSatisfied (K.rsaEncrypt .oaepSha1 key env.rng plaintext)
  | 0x0C => rsaEncryptRaw key plaintext
  | _ => refuse swWrongData

def handleRsaEncrypt (K : Crates) (env : Env) (apdu : ParsedApdu) (s : ObjectStore) : Cmd ApduResponse := do
  let (algo, plaintext, keyObj) ← rsaCipherRequest apdu s
  let key ← orRefuse swConditionsNotSatisfied (publicKeyFromObj K keyObj)
  let ct ← rsaEncryptWith K env key plaintext algo
  return .successWithTlvs [⟨tag1, ct⟩]

/-- NO_PAD: the private operation, left-padded to the whole bytes of the modulus. -/
def rsaDecryptPadded (K : Crates) (key : RsaPrivateKey) (ciphertext : Bytes) : Cmd Bytes := do
  let m ← orRefuse swConditionsNotSatisfied (K.rsaDecryptRaw key (ofBe ciphertext))
  let modSize := key.n.size / 8
  let mBytes := toBytesBe m
  if mBytes.length < modSize then copyAt (List.replicate modSize 0) (modSize - mBytes.length) mBytes
  else return mBytes

/-- Decrypt under the padding an algorithm byte selects. -/
def rsaDecryptWith (K : Crates) (key : RsaPrivateKey) (ciphertext : Bytes) : UInt8 → Cmd Bytes
  | 0x0A => orRefuse swConditionsNotSatisfied (K.rsaDecrypt .pkcs1v15 key ciphertext)
  | 0x0F => orRefuse swConditionsNotSatisfied (K.rsaDecrypt .oaepSha1 key ciphertext)
  | 0x0C => rsaDecryptPadded K key ciphertext
  | _ => refuse swWrongData

def handleRsaDecrypt (K : Crates) (apdu : ParsedApdu) (s : ObjectStore) : Cmd ApduResponse := do
  let (algo, ciphertext, keyObj) ← rsaCipherRequest apdu s
  match keyObj with
  | .rsaKeyPair _ der _ =>
    let key ← orRefuse swConditionsNotSatisfied (K.rsaFromPkcs1Der der)
    let data ← rsaDecryptWith K key ciphertext algo
    return .successWithTlvs [⟨tag1, data⟩]
  | _ => refuse swConditionsNotSatisfied

end SE050
end Simulators
