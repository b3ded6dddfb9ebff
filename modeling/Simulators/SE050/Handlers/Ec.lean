/-
# SE050: elliptic curve keys

`handlers/ec.rs`: key generation and import, ECDSA and EdDSA signatures, and
ECDH with its two forms (the secret in the response, or in the object Tag7
names). The five Weierstrass curves run the same code over their own crates;
each function of such a family is one definition with the curve as argument,
and keeps its own name. `private_key.into()` is `array`, which panics when
the stored key does not have the curve's length.
-/
import Simulators.SE050.Handlers.Rsa

namespace Simulators
namespace SE050

open Handler

/-- Cut to the scalar size, or left-padded with zeros up to it. -/
def padHash (data : Bytes) (scalarLen : ℕ) : Bytes :=
  if scalarLen ≤ data.length then data.take scalarLen
  else List.replicate (scalarLen - data.length) 0 ++ data

/-! ### Writing keys -/

section Generate

variable (K : Crates) (env : Env) (objId : ObjectId) (s : ObjectStore)

/-- A fresh pair on a Weierstrass curve. -/
def generateKeypair (c : ECCurve) : ObjectStore :=
  let sk := K.randomSecret c env.rng
  s.insert objId (.ecKeyPair c (K.secretToBytes c sk).bytes (K.publicToSec1 c (K.publicOf c sk)))

def generateP192Keypair : ObjectStore := generateKeypair K env objId s .nistP192
def generateP224Keypair : ObjectStore := generateKeypair K env objId s .nistP224
def generateP256Keypair : ObjectStore := generateKeypair K env objId s .nistP256
def generateP384Keypair : ObjectStore := generateKeypair K env objId s .nistP384
def generateP521Keypair : ObjectStore := generateKeypair K env objId s .nistP521

/-- Ed25519 keys are stored little-endian, as the SDK writes them. -/
def generateEd25519Keypair : ObjectStore :=
  let sk := K.ed25519Generate env.rng
  s.insert objId (.ecKeyPair .ed25519 sk.bytes (K.ed25519Public sk).bytes)

/-- Curve25519 keys are stored reversed. -/
def generateX25519Keypair : ObjectStore :=
  let secret := K.x25519Random env.rng
  s.insert objId (.ecKeyPair .curve25519 secret.bytes.reverse (K.x25519Public secret).bytes.reverse)

def generateOn : ECCurve → ObjectStore
  | .nistP192 => generateP192Keypair K env objId s
  | .nistP224 => generateP224Keypair K env objId s
  | .nistP256 => generateP256Keypair K env objId s
  | .nistP384 => generateP384Keypair K env objId s
  | .nistP521 => generateP521Keypair K env objId s
  | .ed25519 => generateEd25519Keypair K env objId s
  | .curve25519 => generateX25519Keypair K env objId s

end Generate

/-- The array with its bytes in reverse order. -/
def reverseArr {n : ℕ} (a : ByteArr n) : ByteArr n := ⟨a.bytes.reverse, by simp [a.size]⟩

/-- The SEC1 point of a private key of a Weierstrass curve, empty if it is no valid scalar. -/
def sec1OfPrivate (K : Crates) (c : ECCurve) (priv : ByteArr c.scalarLen) : Bytes :=
  match K.secretFromBytes c priv with
  | some sk => K.publicToSec1 c (K.publicOf c sk)
  | none => []

/-- The public key `import_ec_key` derives: empty for a key of the wrong length. -/
def importedPublic (K : Crates) (c : ECCurve) (priv : Bytes) : Bytes :=
  match toArr c.scalarLen priv with
  | none => []
  | some a => match c, a with
    | .ed25519, a => (K.ed25519Public a).bytes
    | .curve25519, a => (K.x25519Public (reverseArr a)).bytes.reverse
    | .nistP192, a => sec1OfPrivate K .nistP192 a
    | .nistP224, a => sec1OfPrivate K .nistP224 a
    | .nistP256, a => sec1OfPrivate K .nistP256 a
    | .nistP384, a => sec1OfPrivate K .nistP384 a
    | .nistP521, a => sec1OfPrivate K .nistP521 a

def importEcKey (K : Crates) (objId : ObjectId) (c : ECCurve) (priv : Bytes) (s : ObjectStore) : ObjectStore :=
  s.insert objId (.ecKeyPair c priv (importedPublic K c priv))

/-- Tag4, or a Tag2 too long for a curve byte. -/
def publicKeyData (tlvs : List Tlv) : Option Bytes :=
  valueOf tlvs tag4 <|> (valueOf tlvs tag2).filter (4 < ·.length)

/-- What a WriteECKey command asks for. -/
inductive EcKeySource
  | generate
  | importPrivate (priv : Bytes)
  | importPublic (pub : Bytes)
deriving DecidableEq

/-- A WriteECKey command that passed its checks. -/
structure EcKeyRequest where
  objId : ObjectId
  policy : Option Bytes
  curve : ECCurve
  source : EcKeySource
deriving DecidableEq

/-- The checks of `handle_write_ec_key`, in its order. -/
def ecKeyRequest (env : Env) (apdu : ParsedApdu) (s : ObjectStore) : Cmd EcKeyRequest := do
  let tlvs ← apdu.tlvs
  let objId ← orRefuse swWrongData (objectIdOf tlvs tag1)
  let policy ← policyOf tlvs
  ensure (s.mayWrite objId) swConditionsNotSatisfied
  let curveByte ← orRefuse swWrongData (byteOf tlvs tag2)
  let curve ← orRefuse swWrongData (ECCurve.fromSe050Byte curveByte)
  ensure (¬ ((curve = .ed25519 ∨ curve = .curve25519) ∧ env.version.supports25519 = false))
    swConditionsNotSatisfied
  ensure (curve.needsCurveObject = true → s.curveReady curveByte = true) swConditionsNotSatisfied
  match valueOf tlvs tag3 with
  | some priv => return ⟨objId, policy, curve, .importPrivate priv⟩
  | none =>
    if apdu.keyType = p1KeyPair then return ⟨objId, policy, curve, .generate⟩
    else if apdu.keyType = p1PublicKey then
      return ⟨objId, policy, curve, .importPublic ((publicKeyData tlvs).getD [])⟩
    else refuse swWrongData

/-- The store with the requested key. -/
def EcKeyRequest.perform (K : Crates) (env : Env) (r : EcKeyRequest) (s : ObjectStore) : ObjectStore :=
  match r.source with
  | .generate => generateOn K env r.objId s r.curve
  | .importPrivate priv => importEcKey K r.objId r.curve priv s
  | .importPublic pub => s.insert r.objId (.ecPublicKey r.curve pub)

def handleWriteEcKey (K : Crates) (env : Env) (apdu : ParsedApdu) (s : ObjectStore) :
    Cmd (ApduResponse × ObjectStore) := do
  let r ← ecKeyRequest env apdu s
  let s' := r.perform K env s
  if s.existsId r.objId then return (.success, s')
  else return (.success,
    s'.setCreationMetadata r.objId r.policy (if r.source = .generate then 0x02 else 0x01))

/-! ### Signatures -/

def ecdsaAlgoDigestLen : UInt8 → Option ℕ
  | 0x11 => some 20
  | 0x25 => some 28
  | 0x21 => some 32
  | 0x22 => some 48
  | 0x26 => some 64
  | _ => none

/-- The input has the length of the algorithm's digest; PLAIN takes the scalar size. -/
def checkEcdsaAlgo (algo : UInt8) (inputLen scalarLen : ℕ) : Cmd Unit :=
  match ecdsaAlgoDigestLen algo with
  | some dlen => ensure (inputLen = dlen) swConditionsNotSatisfied
  | none =>
    if algo = 0x09 then ensure (inputLen = scalarLen) swConditionsNotSatisfied else refuse swWrongData

section Sign

variable (K : Crates)

/-- `from_bytes(private_key.into())`. -/
def secretOf (c : ECCurve) (priv : Bytes) : Cmd (Option (K.SecretKey c)) := do
  let a ← array c.scalarLen priv
  return K.secretFromBytes c a

/-- Sign a prehash on a Weierstrass curve. -/
def ecdsaSign (c : ECCurve) (priv data : Bytes) : Cmd ApduResponse := do
  let sk? ← secretOf K c priv
  let sk ← orRefuse swConditionsNotSatisfied sk?
  let sig ← orRefuse swConditionsNotSatisfied (K.signPrehash c sk (padHash data c.scalarLen))
  return .successWithTlvs [⟨tag1, K.signatureToDer c sig⟩]

def p224Sign : Bytes → Bytes → Cmd ApduResponse := ecdsaSign K .nistP224
def p256Sign : Bytes → Bytes → Cmd ApduResponse := ecdsaSign K .nistP256
def p384Sign : Bytes → Bytes → Cmd ApduResponse := ecdsaSign K .nistP384
def p521Sign : Bytes → Bytes → Cmd ApduResponse := ecdsaSign K .nistP521

/-- The first of 64 rounds with a usable random `k`. -/
def p192Sign (env : Env) (priv data : Bytes) : Cmd ApduResponse := do
  let sk? ← secretOf K .nistP192 priv
  let sk ← orRefuse swConditionsNotSatisfied sk?
  let hash := padHash data 24
  let sig ← orRefuse swConditionsNotSatisfied
    ((List.range 64).findSome? (K.p192SignRound sk hash env.rng))
  return .successWithTlvs [⟨tag1, K.signatureToDer .nistP192 sig⟩]

/-- The two halves of an Ed25519 signature, each reversed for the SDK. -/
def reverseHalves (sig : Bytes) : Bytes := (sig.take 32).reverse ++ (sig.drop 32).reverse

def ed25519SignStored (priv data : Bytes) : Cmd ApduResponse :=
  match toArr 32 priv with
  | none => refuse swConditionsNotSatisfied
  | some key => .ok (.successWithTlvs [⟨tag1, reverseHalves (K.ed25519Sign key data).bytes⟩])

/-- The digest-length rule of a Weierstrass key. -/
def checkCurveAlgo (c : ECCurve) (algo : UInt8) (inputLen : ℕ) : Cmd Unit :=
  if c.needsCurveObject then checkEcdsaAlgo algo inputLen c.scalarLen else .ok ()

def checkSignAlgo (keyObj : SecureObject) (algo : UInt8) (inputLen : ℕ) : Cmd Unit :=
  match keyObj with
  | .ecKeyPair c _ _ => checkCurveAlgo c algo inputLen
  | _ => .ok ()

def checkVerifyAlgo (keyObj : SecureObject) (algo : UInt8) (inputLen : ℕ) : Cmd Unit :=
  match keyObj with
  | .ecKeyPair c _ _ => checkCurveAlgo c algo inputLen
  | .ecPublicKey c _ => checkCurveAlgo c algo inputLen
  | _ => .ok ()

/-- Sign with the key object. -/
def signWith (env : Env) (algo : UInt8) (data : Bytes) : SecureObject → Cmd ApduResponse
  | .ecKeyPair .nistP192 priv _ => p192Sign K env priv data
  | .ecKeyPair .nistP224 priv _ => p224Sign K priv data
  | .ecKeyPair .nistP256 priv _ => p256Sign K priv data
  | .ecKeyPair .nistP384 priv _ => p384Sign K priv data
  | .ecKeyPair .nistP521 priv _ => p521Sign K priv data
  | .ecKeyPair .ed25519 priv _ => ed25519SignStored K priv data
  | .rsaKeyPair bits der staged => handleRsaSign K env (.rsaKeyPair bits der staged) algo data
  | _ => refuse swConditionsNotSatisfied

def handleSign (env : Env) (apdu : ParsedApdu) (s : ObjectStore) : Cmd ApduResponse := do
  let tlvs ← apdu.tlvs
  let keyId ← orRefuse swWrongData (objectIdOf tlvs tag1)
  let algo ← orRefuse swWrongData (byteOf tlvs tag2)
  let data := (valueOf tlvs tag3).getD []
  let keyObj ← orRefuse swConditionsNotSatisfied (s.get keyId)
  checkSignAlgo keyObj algo data.length
  signWith K env algo data keyObj

/-- Verify a prehash under a SEC1 public key. -/
def ecdsaVerifyPubkey (c : ECCurve) (pub data sig : Bytes) : Bool :=
  match K.publicFromSec1 c pub, K.signatureFromDer c sig with
  | some vk, some sig => K.verifyPrehash c vk (padHash data c.scalarLen) sig
  | _, _ => false

def p192VerifyPubkey : Bytes → Bytes → Bytes → Bool := ecdsaVerifyPubkey K .nistP192
def p224VerifyPubkey : Bytes → Bytes → Bytes → Bool := ecdsaVerifyPubkey K .nistP224
def p256VerifyPubkey : Bytes → Bytes → Bytes → Bool := ecdsaVerifyPubkey K .nistP256
def p384VerifyPubkey : Bytes → Bytes → Bytes → Bool := ecdsaVerifyPubkey K .nistP384
def p521VerifyPubkey : Bytes → Bytes → Bytes → Bool := ecdsaVerifyPubkey K .nistP521

/-- Verify a prehash under the public key of a stored private key. -/
def ecdsaVerify (c : ECCurve) (priv data sig : Bytes) : Cmd Bool := do
  let sk? ← secretOf K c priv
  return match sk?, K.signatureFromDer c sig with
    | some sk, some sig => K.verifyPrehash c (K.publicOf c sk) (padHash data c.scalarLen) sig
    | _, _ => false

def p224Verify : Bytes → Bytes → Bytes → Cmd Bool := ecdsaVerify K .nistP224
def p256Verify : Bytes → Bytes → Bytes → Cmd Bool := ecdsaVerify K .nistP256
def p384Verify : Bytes → Bytes → Bytes → Cmd Bool := ecdsaVerify K .nistP384
def p521Verify : Bytes → Bytes → Bytes → Cmd Bool := ecdsaVerify K .nistP521

/-- P-192 goes through the encoded public key. -/
def p192Verify (priv data sig : Bytes) : Cmd Bool := do
  let sk? ← secretOf K .nistP192 priv
  return match sk? with
    | some sk => p192VerifyPubkey K (K.publicToSec1 .nistP192 (K.publicOf .nistP192 sk)) data sig
    | none => false

def ed25519VerifyStored (pub data sig : Bytes) : Bool :=
  match toArr 32 pub, toArr 64 (reverseHalves sig) with
  | some vk, some sig => K.ed25519Verify vk data sig
  | _, _ => false

/-- The result byte of a verification. -/
def verifyResponse (ok : Bool) : ApduResponse := .successWithTlvs [⟨tag1, [if ok then 0x01 else 0x02]⟩]

/-- Verify with the key object. -/
def verifyWith (algo : UInt8) (data sig : Bytes) : SecureObject → Cmd ApduResponse
  | .ecKeyPair .nistP192 priv _ => do return verifyResponse (← p192Verify K priv data sig)
  | .ecKeyPair .nistP224 priv _ => do return verifyResponse (← p224Verify K priv data sig)
  | .ecKeyPair .nistP256 priv _ => do return verifyResponse (← p256Verify K priv data sig)
  | .ecKeyPair .nistP384 priv _ => do return verifyResponse (← p384Verify K priv data sig)
  | .ecKeyPair .nistP521 priv _ => do return verifyResponse (← p521Verify K priv data sig)
  | .ecPublicKey .nistP192 pub => .ok (verifyResponse (p192VerifyPubkey K pub data sig))
  | .ecPublicKey .nistP224 pub => .ok (verifyResponse (p224VerifyPubkey K pub data sig))
  | .ecPublicKey .nistP256 pub => .ok (verifyResponse (p256VerifyPubkey K pub data sig))
  | .ecPublicKey .nistP384 pub => .ok (verifyResponse (p384VerifyPubkey K pub data sig))
  | .ecPublicKey .nistP521 pub => .ok (verifyResponse (p521VerifyPubkey K pub data sig))
  | .ecKeyPair .ed25519 _ pub => .ok (verifyResponse (ed25519VerifyStored K pub data sig))
  | .rsaKeyPair bits der staged => handleRsaVerify K (.rsaKeyPair bits der staged) algo data sig
  | _ => refuse swConditionsNotSatisfied

/-- Tag5, or the second Tag3 of a driver that sends the signature there. -/
def signatureData (tlvs : List Tlv) : Option Bytes :=
  valueOf tlvs tag5 <|> ((findTlvs tlvs tag3)[1]?).map (·.value)

def handleVerify (apdu : ParsedApdu) (s : ObjectStore) : Cmd ApduResponse := do
  let tlvs ← apdu.tlvs
  let keyId ← orRefuse swWrongData (objectIdOf tlvs tag1)
  let algo ← orRefuse swWrongData (byteOf tlvs tag2)
  let data := ((findTlvs tlvs tag3).head?.map (·.value)).getD []
  let sig ← orRefuse swWrongData (signatureData tlvs)
  let keyObj ← orRefuse swConditionsNotSatisfied (s.get keyId)
  checkVerifyAlgo keyObj algo data.length
  verifyWith K algo data sig keyObj

/-! ### Shared secrets -/

def ecdhOn (c : ECCurve) (priv peer : Bytes) : Cmd (Option Bytes) := do
  let sk? ← secretOf K c priv
  return do
    let sk ← sk?
    let pk ← K.publicFromSec1 c peer
    return K.diffieHellman c sk pk

def p192Ecdh : Bytes → Bytes → Cmd (Option Bytes) := ecdhOn K .nistP192
def p224Ecdh : Bytes → Bytes → Cmd (Option Bytes) := ecdhOn K .nistP224
def p256Ecdh : Bytes → Bytes → Cmd (Option Bytes) := ecdhOn K .nistP256
def p384Ecdh : Bytes → Bytes → Cmd (Option Bytes) := ecdhOn K .nistP384
def p521Ecdh : Bytes → Bytes → Cmd (Option Bytes) := ecdhOn K .nistP521

/-- Both keys are stored reversed. -/
def x25519Ecdh (priv peer : Bytes) : Option Bytes := do
  let sk ← toArr 32 priv
  let pk ← toArr 32 peer
  return (K.x25519Shared (reverseArr sk) (reverseArr pk)).bytes

/-- The shared secret of the key object and the peer's public key. -/
def sharedSecret (peer : Bytes) : SecureObject → Cmd Bytes
  | .ecKeyPair .nistP192 priv _ => do orRefuse swConditionsNotSatisfied (← p192Ecdh K priv peer)
  | .ecKeyPair .nistP224 priv _ => do orRefuse swConditionsNotSatisfied (← p224Ecdh K priv peer)
  | .ecKeyPair .nistP256 priv _ => do orRefuse swConditionsNotSatisfied (← p256Ecdh K priv peer)
  | .ecKeyPair .nistP384 priv _ => do orRefuse swConditionsNotSatisfied (← p384Ecdh K priv peer)
  | .ecKeyPair .nistP521 priv _ => do orRefuse swConditionsNotSatisfied (← p521Ecdh K priv peer)
  | .ecKeyPair .curve25519 priv _ => orRefuse swConditionsNotSatisfied (x25519Ecdh K priv peer)
  | _ => refuse swConditionsNotSatisfied

end Sign

/-- Tag7: absent for the direct form, four bytes for a target object. -/
def ecdhOutputId (tlvs : List Tlv) : Cmd (Option ObjectId) :=
  match valueOf tlvs tag7 with
  | none => .ok none
  | some v => match ObjectId.ofBytes v with
    | some id => .ok (some id)
    | none => refuse swWrongData

/-- The length and policy of the HMAC key that Tag7 names, if it is one. -/
def ecdhTarget (s : ObjectStore) (strict : Bool) : Option ObjectId → Cmd (Option (ℕ × Option UInt32))
  | none => .ok none
  | some oid => match s.get oid with
    | some (.hmacKey key policy) => .ok (some (key.length, policy))
    | _ => if strict then refuse swConditionsNotSatisfied else .ok none

/-- A secret of a Curve25519 key is returned big-endian. -/
def directSecret (keyObj : SecureObject) (secret : Bytes) : Bytes :=
  match keyObj with
  | .ecKeyPair .curve25519 _ _ => secret.reverse
  | _ => secret

/-- An ECDH command: where its secret goes, the HMAC key found there, the key
object and the secret itself. -/
structure EcdhRequest where
  output : Option ObjectId
  target : Option (ℕ × Option UInt32)
  keyObj : SecureObject
  secret : Bytes

def ecdhRequest (K : Crates) (apdu : ParsedApdu) (s : ObjectStore) (strict : Bool) : Cmd EcdhRequest := do
  let tlvs ← apdu.tlvs
  let keyId ← orRefuse swWrongData (objectIdOf tlvs tag1)
  let peer ← orRefuse swWrongData (valueOf tlvs tag2)
  ensure (peer ≠ []) swWrongData
  let output ← ecdhOutputId tlvs
  let keyObj ← orRefuse swConditionsNotSatisfied (s.get keyId)
  let target ← ecdhTarget s strict output
  let secret ← sharedSecret K peer keyObj
  return ⟨output, target, keyObj, secret⟩

/-- The target of the InObject form is written without a look at its policy. -/
def handleEcdh (K : Crates) (apdu : ParsedApdu) (s : ObjectStore) (strict : Bool) :
    Cmd (ApduResponse × ObjectStore) := do
  let r ← ecdhRequest K apdu s strict
  match r.output, r.target with
  | none, _ => return (.successWithTlvs [⟨tag1, directSecret r.keyObj r.secret⟩], s)
  | some oid, some (len, policy) =>
    ensure (r.secret.length = len) swConditionsNotSatisfied
    return (.success, s.insert oid (.hmacKey r.secret policy))
  | some oid, none => return (.success, s.insert oid (.binary r.secret))

end SE050
end Simulators
