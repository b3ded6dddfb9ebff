/-
# SE050: well-formed keys, and commands that cannot panic

The handlers that use a stored key convert it to a fixed-size array without
a look at its length, so they rely on what the writers stored. `StoreOk` is
what they rely on: the private key of a pair has its curve's length and the
public key belongs to it, AES keys have one of the three sizes, counters one
to eight bytes, and a cipher context carries one block.

Every command keeps `StoreOk` but the import of an EC private key, which
takes any bytes (`MalformedImport`); and over a `StoreOk` store no command
panics but an RSA signature that the crate cannot make (`SignFails`).
-/
import Simulators.SE050.Transition

namespace Simulators
namespace SE050

open Handler

variable {K : Crates} {env : Env} {apdu : ParsedApdu} {a : Bool} {s s' : ObjectStore} {r : ApduResponse}

/-- What the elliptic curve crates promise: a private key reads back, and an
encoded point is not empty. -/
structure Crates.EcLaws (K : Crates) : Prop where
  secret_roundtrip : ∀ c k, K.secretFromBytes c (K.secretToBytes c k) = some k
  sec1_ne_nil : ∀ c p, K.publicToSec1 c p ≠ []

/-! ### Well-formed stores -/

/-- `pub` is the stored form of the public key of the stored private key. -/
def BelongsTo (K : Crates) : (c : ECCurve) → ByteArr c.scalarLen → Bytes → Prop
  | .ed25519, priv, pub => pub = (K.ed25519Public priv).bytes
  | .curve25519, priv, pub => pub = (K.x25519Public (reverseArr priv)).bytes.reverse
  | c, priv, pub => ∃ sk, K.secretFromBytes c priv = some sk ∧ pub = K.publicToSec1 c (K.publicOf c sk)

/-- The private key has its curve's length, and the public key is there and belongs to it. -/
def PairOk (K : Crates) (c : ECCurve) (priv pub : Bytes) : Prop :=
  ∃ k : ByteArr c.scalarLen, priv = k.bytes ∧ BelongsTo K c k pub ∧ pub ≠ []

def ObjectOk (K : Crates) : SecureObject → Prop
  | .ecKeyPair c priv pub => PairOk K c priv pub
  | .aesKey key => key.length = 16 ∨ key.length = 24 ∨ key.length = 32
  | .counter _ size => 1 ≤ size ∧ size ≤ 8
  | _ => True

structure StoreOk (K : Crates) (s : ObjectStore) : Prop where
  objects : ∀ id obj, s.get id = some obj → ObjectOk K obj
  contexts : ∀ cid c, s.cryptoObjects.lookup cid = some c → c.ChainOk

theorem StoreOk.new (K : Crates) : StoreOk K .new where
  objects id obj h := by simp [ObjectStore.new, ObjectStore.get] at h
  contexts cid c h := by simp [ObjectStore.new] at h

/-! ### The commands that go wrong -/

/-- A private key of the curve's length, and a scalar the curve's crate takes. -/
def ValidPrivate (K : Crates) (c : ECCurve) (priv : Bytes) : Prop :=
  ∃ k : ByteArr c.scalarLen, priv = k.bytes ∧
    (c.needsCurveObject = true → ∃ sk, K.secretFromBytes c k = some sk)

/-- A WriteECKey command that passes the checks and carries no valid private key. -/
def MalformedImport (K : Crates) (env : Env) (apdu : ParsedApdu) (s : ObjectStore) : Prop :=
  apdu.IsCommand insWrite ∧ apdu.credType = p1Ec ∧ ∃ q priv, ecKeyRequest env apdu s = .ok q ∧
    q.source = .importPrivate priv ∧ ¬ ValidPrivate K q.curve priv

/-- A Sign command for an RSA key with which the crate cannot sign. -/
def SignFails (K : Crates) (env : Env) (apdu : ParsedApdu) (s : ObjectStore) : Prop :=
  apdu.IsCommand insCrypto ∧ apdu.credType = p1Signature ∧ apdu.p2 = p2Sign ∧
    ∃ tlvs id algo bits der staged key scheme, apdu.tlvs = .ok tlvs ∧ objectIdOf tlvs tag1 = some id ∧
      byteOf tlvs tag2 = some algo ∧ s.get id = some (.rsaKeyPair bits der staged) ∧
      K.rsaFromPkcs1Der der = some key ∧ rsaScheme algo = some scheme ∧
      rsaTrySign K env key ((valueOf tlvs tag3).getD []) scheme = none

/-! ### What a command stores -/

theorem generatedPair_ok (hK : K.EcLaws) (c : ECCurve) : ObjectOk K (generatedPair K env c) := by
  have hw : ∀ c : ECCurve, c.needsCurveObject = true → PairOk K c
      (K.secretToBytes c (K.randomSecret c env.rng)).bytes
      (K.publicToSec1 c (K.publicOf c (K.randomSecret c env.rng))) := by
    intro c hc
    refine ⟨_, rfl, ?_, hK.sec1_ne_nil _ _⟩
    cases c <;> first | exact absurd hc (by decide) | exact ⟨_, hK.secret_roundtrip _ _, rfl⟩
  have h32 : ∀ p : ByteArr 32, p.bytes ≠ [] := fun p h => by
    have := p.size
    rw [h] at this
    cases this
  cases c with
  | ed25519 => exact ⟨_, rfl, rfl, h32 _⟩
  | curve25519 =>
    refine ⟨reverseArr (K.x25519Random env.rng), rfl, ?_, ?_⟩
    · simp [BelongsTo, reverseArr]
    · simpa using h32 _
  | _ => exact hw _ rfl

theorem imported_ok (hK : K.EcLaws) {c : ECCurve} {priv : Bytes} (h : ValidPrivate K c priv) :
    ObjectOk K (.ecKeyPair c priv (importedPublic K c priv)) := by
  obtain ⟨k, rfl, hk⟩ := h
  have h32 : ∀ p : ByteArr 32, p.bytes ≠ [] := fun p h => by
    have := p.size
    rw [h] at this
    cases this
  refine ⟨k, rfl, ?_⟩
  simp only [importedPublic, toArr_bytes]
  cases c with
  | ed25519 => exact ⟨rfl, h32 _⟩
  | curve25519 => exact ⟨rfl, by simpa using h32 _⟩
  | _ =>
    obtain ⟨sk, hsk⟩ := hk rfl
    simp only [sec1OfPrivate, hsk]
    exact ⟨⟨sk, hsk, rfl⟩, hK.sec1_ne_nil _ _⟩

theorem Written.ok (hK : K.EcLaws) (hs : StoreOk K s) {id : ObjectId} {obj : SecureObject}
    (hc : apdu.IsCommand insWrite) (hno : ¬ MalformedImport K env apdu s) (h : Written K env apdu s id obj) :
    ObjectOk K obj := by
  cases h with
  | counterNew v h =>
    refine ⟨?_, h.2⟩
    rw [UInt16.le_iff_toNat_le]
    have : (0 : UInt16).toNat ≠ _ := fun he => h.1 (UInt16.toNat_inj.mp he.symm)
    exact Nat.pos_of_ne_zero (Ne.symm this)
  | counterSet v h =>
    have := hs.objects _ _ h
    exact this
  | aesKey h => exact h
  | ec hq hid hp =>
    rename_i q
    unfold EcKeyRequest.object
    split
    · exact generatedPair_ok hK _
    · rename_i priv hsrc
      refine imported_ok hK ?_
      by_contra hbad
      exact hno ⟨hc, hp, q, priv, hq, hsrc, hbad⟩
    · trivial
  | _ => trivial

/-! ### Every command keeps the store well-formed -/

theorem StoreOk.insert (hs : StoreOk K s) {id : ObjectId} {obj : SecureObject} (ho : ObjectOk K obj) :
    StoreOk K (s.insert id obj) where
  objects id' obj' h := by
    rw [ObjectStore.get_insert] at h
    split at h
    · obtain rfl := Option.some.inj h
      exact ho
    · exact hs.objects id' obj' h
  contexts cid c h := hs.contexts cid c (by simpa [ObjectStore.insert] using h)

/-- A store with the same objects and contexts. -/
theorem StoreOk.of_eq (hs : StoreOk K s) (ho : s'.objects = s.objects) (hc : s'.cryptoObjects = s.cryptoObjects) :
    StoreOk K s' where
  objects id obj h := hs.objects id obj (by rwa [ObjectStore.get, ho] at h)
  contexts cid c h := hs.contexts cid c (by rwa [hc] at h)

theorem StoreOk.puts (hs : StoreOk K s) {id : ObjectId} {obj : SecureObject} (ho : ObjectOk K obj)
    (h : s.Puts id obj s') : StoreOk K s' := by
  rcases h with rfl | ⟨-, _, _, rfl⟩
  · exact hs.insert ho
  · have hi : StoreOk K (s.insert id obj) := hs.insert ho
    exact hi.of_eq (by simp [ObjectStore.setCreationMetadata]) (by simp [ObjectStore.setCreationMetadata])

theorem Transition.storeOk (hK : K.EcLaws) (h : Transition K env apdu a s r s') (hs : StoreOk K s)
    (hno : ¬ MalformedImport K env apdu s) : StoreOk K s' := by
  cases h with
  | write hc _ hobj hp => exact hs.puts (hobj.ok hK hs hc hno) hp
  | rsaComponent => exact hs.insert trivial
  | derive _ _ hd =>
    rcases hd.2 with ⟨_, _, -, -, rfl⟩ | ⟨-, rfl⟩
    · exact hs.insert trivial
    · exact hs.insert trivial
  | @delete id =>
    refine ⟨fun id' obj h => ?_, fun cid c h => hs.contexts cid c ?_⟩
    · rw [ObjectStore.get_remove] at h
      split at h
      · cases h
      · exact hs.objects id' obj h
    · unfold ObjectStore.remove at h
      split at h
      · simpa using h
      · exact h
  | deleteAll =>
    refine ⟨fun id obj h => ?_, fun cid c h => ?_⟩
    · simp at h
    · simp [ObjectStore.clear] at h
  | context _ cid hc =>
    refine ⟨hs.objects, fun cid' c' h => ?_⟩
    by_cases heq : cid' = cid
    · subst heq
      simp only [ObjectStore.setContext, Finmap.lookup_insert, Option.some.injEq] at h
      exact h ▸ hc
    · simp only [ObjectStore.setContext, Finmap.lookup_insert_of_ne _ heq] at h
      exact hs.contexts cid' c' h
  | @final _ cid =>
    refine ⟨hs.objects, fun cid' c' h => ?_⟩
    by_cases heq : cid' = cid
    · subst heq
      simp [ObjectStore.dropContext] at h
    · simp only [ObjectStore.dropContext, Finmap.lookup_erase_ne heq] at h
      exact hs.contexts cid' c' h
  | deleteCryptoObj cid m =>
    refine ⟨hs.objects, fun cid' c' h => ?_⟩
    by_cases heq : cid' = cid
    · subst heq
      simp at h
    · simp only [Finmap.lookup_erase_ne heq] at h
      exact hs.contexts cid' c' h
  | curves m => exact hs.of_eq (by simp) (by simp)
  | scp b => exact hs.of_eq (by simp [ObjectStore.setScpRequired]) (by simp [ObjectStore.setScpRequired])
  | _ => exact hs.of_eq rfl rfl

/-! ### No handler panics over a well-formed store -/

@[simp] theorem ParsedApdu.noPanic_tlvs : NoPanic apdu.tlvs := by
  unfold ParsedApdu.tlvs
  split <;> simp

@[simp] theorem noPanic_policyOf {tlvs : List Tlv} : NoPanic (policyOf tlvs) := by
  unfold policyOf
  split <;> simp

theorem noPanic_readOnly {h : Cmd ApduResponse} (hh : NoPanic h) : NoPanic (readOnly s h) := by
  simp [readOnly, hh]

theorem noPanic_finish {h : Cmd ApduResponse} (hh : NoPanic h) : NoPanic (finish s h) := by
  rcases h with (p | e) | x
  · exact absurd rfl (hh p)
  · simp [finish]
  · simp [finish]

theorem noPanic_handleWriteBinary : NoPanic (handleWriteBinary apdu s) := by
  simp only [handleWriteBinary, noPanic_bind, ParsedApdu.noPanic_tlvs, noPanic_orRefuse, noPanic_policyOf,
    noPanic_ensure, true_and]
  intro tlvs _ id _ policy _ _ _
  split
  · simp only [noPanic_bind, noPanic_ensure, ensure_eq_ok, noPanic_copyAt, noPanic_pure, implies_true, and_true,
      true_and]
    exact fun _ h => h
  · simp
  · simp only [noPanic_bind, noPanic_ensure, ensure_eq_ok, noPanic_copyAt, noPanic_pure, implies_true, and_true,
      true_and, List.length_replicate]
    exact fun _ h => h

theorem noPanic_handleWriteCounter : NoPanic (handleWriteCounter apdu s) := by
  have hc : ∀ id, NoPanic (counterAt s id) := by
    intro id
    unfold counterAt
    split <;> simp
  simp only [handleWriteCounter, noPanic_bind, ParsedApdu.noPanic_tlvs, noPanic_orRefuse, noPanic_policyOf,
    noPanic_ensure, hc, true_and]
  intro tlvs _ id _ policy _ existing _ _ _
  split <;> simp

theorem noPanic_handleWriteAesKey : NoPanic (handleWriteAesKey env apdu s) := by
  have hm : ∀ g k, NoPanic (aesKeyMaterial env g k) := by
    intro g k
    unfold aesKeyMaterial
    split <;> simp
  simp only [handleWriteAesKey, noPanic_bind, ParsedApdu.noPanic_tlvs, noPanic_orRefuse, noPanic_policyOf,
    noPanic_ensure, hm, true_and]
  intro tlvs _ id _ policy _ _ _ key _
  split <;> simp

theorem noPanic_handleWriteHmacKey : NoPanic (handleWriteHmacKey apdu s) := by
  simp only [handleWriteHmacKey, noPanic_bind, ParsedApdu.noPanic_tlvs, noPanic_orRefuse, noPanic_policyOf,
    noPanic_ensure, true_and]
  intro tlvs _ id _ _ _ policy _ _ _ key _ _ _
  split <;> simp

theorem noPanic_handleWriteEcKey : NoPanic (handleWriteEcKey K env apdu s) := by
  have hq : NoPanic (ecKeyRequest env apdu s) := by
    simp only [ecKeyRequest, noPanic_bind, ParsedApdu.noPanic_tlvs, noPanic_orRefuse, noPanic_policyOf,
      noPanic_ensure, true_and]
    intro tlvs _ id _ policy _ _ _ cb _ c _ _ _ _ _
    split
    · simp
    · split
      · simp
      · split <;> simp
  simp only [handleWriteEcKey, noPanic_bind, hq, true_and]
  intro q _
  split <;> simp

theorem noPanic_rsaObject {id : ObjectId} {bits : Option UInt16} {c : RsaComponents} :
    NoPanic (rsaObject K env s id bits c) := by
  unfold rsaObject
  split
  · have hst : NoPanic (rsaStaged s id) := by
      unfold rsaStaged
      split <;> simp
    simp only [rsaImport, noPanic_bind, hst, true_and]
    intro x _
    split <;> simp
  · simp [rsaGenerate]

theorem noPanic_handleWriteRsaKey : NoPanic (handleWriteRsaKey K env apdu s) := by
  have hr : ∀ v tlvs, NoPanic (rsaRefusal v apdu tlvs) := by
    intro v tlvs
    unfold rsaRefusal
    split
    · simp
    · split
      · exact noPanic_ensure _ _
      · simp
  have hb : ∀ tlvs, NoPanic (rsaSizeBits tlvs) := by
    intro tlvs
    unfold rsaSizeBits
    split
    · simp
    · split <;> simp
  simp only [handleWriteRsaKey, noPanic_bind, ParsedApdu.noPanic_tlvs, hr, noPanic_orRefuse, noPanic_policyOf, hb,
    noPanic_ensure, noPanic_rsaObject, true_and]
  intro tlvs _ _ _ id _ policy _ bits _ _ _ obj _
  split <;> simp

/-! ### Reads -/

theorem noPanic_readValue {obj : SecureObject} {offset : ℕ} {length : Option ℕ} (ho : ObjectOk K obj) :
    NoPanic (readValue K obj offset length) := by
  unfold readValue
  split
  · rename_i data
    cases length with
    | none =>
      simp only [noPanic_bind, noPanic_ensure, ensure_eq_ok, noPanic_slice, true_and]
      intro _ h
      omega
    | some l =>
      simp only [noPanic_bind, noPanic_ensure, ensure_eq_ok, noPanic_slice, true_and]
      intro _ h
      omega
  · simp
  · simp
  · split <;> simp
  · simp
  · simp
  · rename_i value size
    have h8 : size.toNat ≤ 8 := ho.2
    rw [if_pos h8, noPanic_slice, counterBytes, toBe_length]
    omega
  · simp

theorem noPanic_handleRead (hs : StoreOk K s) {v7 : Bool} : NoPanic (handleRead K apdu s v7) := by
  have hobj : NoPanic (handleReadObject K apdu s) := by
    simp only [handleReadObject, noPanic_bind, ParsedApdu.noPanic_tlvs, noPanic_orRefuse, noPanic_ensure,
      orRefuse_eq_ok, noPanic_pure, implies_true, and_true, true_and]
    intro tlvs _ id _ _ _ obj hget
    exact noPanic_readValue (hs.objects id obj hget)
  have hof : ∀ f, NoPanic (handleReadOf apdu s f) := by
    intro f
    simp [handleReadOf]
  unfold handleRead
  simp only [noPanic_ite, handleReadSize, handleReadType, handleReadIdList, handleReadAttributes, hobj, hof]
  simp

theorem noPanic_dispatchRead (hs : StoreOk K s) : NoPanic (dispatchRead K env apdu s) := by
  have hrsa : NoPanic (handleReadRsa K apdu s) := by
    simp only [handleReadRsa, noPanic_bind, noPanic_ensure, true_and]
    intro _ _
    split
    · simp only [noPanic_bind, noPanic_orRefuse, noPanic_ite, true_and]
      simp
    · simp
  have hid : NoPanic (handleCurveGetId apdu s) := by simp [handleCurveGetId]
  simp only [dispatchRead, noPanic_ite, hrsa, hid, noPanic_handleRead hs]
  simp

/-! ### Signatures and shared secrets -/

theorem noPanic_secretOf {c : ECCurve} {priv pub : Bytes} (h : PairOk K c priv pub) :
    NoPanic (secretOf K c priv) := by
  obtain ⟨k, rfl, -⟩ := h
  simp [secretOf]

theorem noPanic_ecdsaSign {c : ECCurve} {priv pub data : Bytes} (h : PairOk K c priv pub) :
    NoPanic (ecdsaSign K c priv data) := by
  simp [ecdsaSign, noPanic_secretOf h]

theorem noPanic_ecdsaVerify {c : ECCurve} {priv pub data sig : Bytes} (h : PairOk K c priv pub) :
    NoPanic (ecdsaVerify K c priv data sig) := by
  simp [ecdsaVerify, noPanic_secretOf h]

theorem noPanic_ecdhOn {c : ECCurve} {priv pub peer : Bytes} (h : PairOk K c priv pub) :
    NoPanic (ecdhOn K c priv peer) := by
  simp [ecdhOn, noPanic_secretOf h]

theorem noPanic_checkCurveAlgo {c : ECCurve} {algo : UInt8} {n : ℕ} : NoPanic (checkCurveAlgo c algo n) := by
  unfold checkCurveAlgo checkEcdsaAlgo
  split
  · split
    · simp
    · split <;> simp
  · simp

theorem noPanic_handleSign (hs : StoreOk K s) (hc : apdu.IsCommand insCrypto) (hp : apdu.credType = p1Signature)
    (hp2 : apdu.p2 = p2Sign) (hno : ¬ SignFails K env apdu s) : NoPanic (handleSign K env apdu s) := by
  simp only [handleSign, noPanic_bind, ParsedApdu.noPanic_tlvs, noPanic_orRefuse, orRefuse_eq_ok, true_and]
  intro tlvs ht id hid algo halgo obj hget
  have hobj := hs.objects id obj hget
  refine ⟨?_, fun _ _ => ?_⟩
  · unfold checkSignAlgo
    split
    · exact noPanic_checkCurveAlgo
    · simp
  · unfold signWith
    split
    · simp [p192Sign, noPanic_secretOf hobj]
    · exact noPanic_ecdsaSign hobj
    · exact noPanic_ecdsaSign hobj
    · exact noPanic_ecdsaSign hobj
    · exact noPanic_ecdsaSign hobj
    · unfold ed25519SignStored
      split <;> simp
    · rename_i bits der staged _
      simp only [handleRsaSign, noPanic_bind, noPanic_orRefuse, orRefuse_eq_ok, noPanic_expect, noPanic_pure,
        implies_true, and_true, true_and]
      intro key hkey scheme hscheme
      by_contra hnone
      rw [Option.isSome_iff_ne_none, not_not] at hnone
      exact hno ⟨hc, hp, hp2, tlvs, id, algo, bits, der, staged, key, scheme, ht, hid, halgo, hget, hkey, hscheme,
        hnone⟩
    · simp

theorem noPanic_handleVerify (hs : StoreOk K s) : NoPanic (handleVerify K apdu s) := by
  simp only [handleVerify, noPanic_bind, ParsedApdu.noPanic_tlvs, noPanic_orRefuse, orRefuse_eq_ok, true_and]
  intro tlvs _ id _ algo _ sig _ obj hget
  have hobj := hs.objects id obj hget
  refine ⟨?_, fun _ _ => ?_⟩
  · unfold checkVerifyAlgo
    split
    · exact noPanic_checkCurveAlgo
    · exact noPanic_checkCurveAlgo
    · simp
  · unfold verifyWith
    split
    · simp [p192Verify, noPanic_secretOf hobj]
    · simp [p224Verify, noPanic_ecdsaVerify hobj]
    · simp [p256Verify, noPanic_ecdsaVerify hobj]
    · simp [p384Verify, noPanic_ecdsaVerify hobj]
    · simp [p521Verify, noPanic_ecdsaVerify hobj]
    · simp
    · simp
    · simp
    · simp
    · simp
    · simp
    · simp [handleRsaVerify]
    · simp

theorem noPanic_handleEcdh (hs : StoreOk K s) {strict : Bool} : NoPanic (handleEcdh K apdu s strict) := by
  have ho : ∀ tlvs, NoPanic (ecdhOutputId tlvs) := by
    intro tlvs
    unfold ecdhOutputId
    split
    · simp
    · split <;> simp
  have ht : ∀ o, NoPanic (ecdhTarget s strict o) := by
    intro o
    unfold ecdhTarget
    split
    · simp
    · split
      · simp
      · split <;> simp
  have hsec : ∀ peer id obj, s.get id = some obj → NoPanic (sharedSecret K peer obj) := by
    intro peer id obj hget
    have hobj := hs.objects id obj hget
    unfold sharedSecret
    split
    · simp [p192Ecdh, noPanic_ecdhOn hobj]
    · simp [p224Ecdh, noPanic_ecdhOn hobj]
    · simp [p256Ecdh, noPanic_ecdhOn hobj]
    · simp [p384Ecdh, noPanic_ecdhOn hobj]
    · simp [p521Ecdh, noPanic_ecdhOn hobj]
    · simp
    · simp
  have hq : NoPanic (ecdhRequest K apdu s strict) := by
    simp only [ecdhRequest, noPanic_bind, ParsedApdu.noPanic_tlvs, noPanic_orRefuse, orRefuse_eq_ok,
      noPanic_ensure, ho, ht, noPanic_pure, implies_true, and_true, true_and]
    intro tlvs _ id _ peer _ _ _ output _ obj hget target _
    exact hsec peer id obj hget
  simp only [handleEcdh, noPanic_bind, hq, true_and]
  intro q _
  split <;> simp

/-! ### Ciphers, digests and MACs -/

theorem noPanic_blocksOf {data : Bytes} (h : data.length % 16 = 0) :
    NoPanic (blocksOf 16 data : Cmd (List Block)) := by
  obtain ⟨bs, hbs, -⟩ := blocksOf_of_dvd (ε := UInt16) (by decide : 0 < 16) (Nat.dvd_of_mod_eq_zero h)
  rw [hbs]
  exact noPanic_ok bs

theorem noPanic_applyMode {mode : UInt8} {key data : Bytes} {chain : Block} {e f : Bool} :
    NoPanic (applyMode K mode key chain data e f) := by
  simp only [applyMode, noPanic_bind, noPanic_orRefuse, true_and]
  intro cipher _
  split
  · simp only [noPanic_bind, noPanic_ensure, ensure_eq_ok, ecbProcess, noPanic_pure, implies_true, and_true, true_and]
    exact fun _ h => noPanic_blocksOf h
  split
  · simp only [noPanic_bind, noPanic_ensure, ensure_eq_ok, cbcProcess, noPanic_pure, implies_true, and_true, true_and]
    exact fun _ h => noPanic_blocksOf h
  split
  · simp only [noPanic_bind, noPanic_ensure, noPanic_pure, implies_true, and_true]
  · simp

theorem noPanic_aesKeyOf {id : ObjectId} : NoPanic (aesKeyOf s id) := by
  unfold aesKeyOf
  split <;> simp

theorem noPanic_initialVector {tlvs : List Tlv} : NoPanic (initialVector tlvs) := by
  unfold initialVector
  split
  · simp
  · split
    · simp
    · split <;> simp

theorem noPanic_subtypeFor {cid : UInt16} {ctx : UInt8} : NoPanic (subtypeFor s cid ctx) := by
  simp [subtypeFor]

theorem noPanic_handleCipherOneshot {e : Bool} : NoPanic (handleCipherOneshot K apdu s e) := by
  simp [handleCipherOneshot, noPanic_initialVector, noPanic_aesKeyOf, noPanic_applyMode]

theorem noPanic_handleCipherInit : NoPanic (handleCipherInit apdu s) := by
  simp [handleCipherInit, noPanic_initialVector, noPanic_subtypeFor]

theorem noPanic_handleCipherUpdate (hs : StoreOk K s) : NoPanic (handleCipherUpdate K apdu s) := by
  simp only [handleCipherUpdate, noPanic_bind, ParsedApdu.noPanic_tlvs, noPanic_orRefuse, true_and]
  intro tlvs _ cid _ input _
  split
  · rename_i hl
    have hchain := hs.contexts _ _ hl
    simp only [noPanic_bind, noPanic_aesKeyOf, noPanic_applyMode, noPanic_pure, implies_true, and_true, true_and]
    exact fun _ _ => noPanic_array.mpr hchain
  · simp

theorem noPanic_handleCipherFinal (hs : StoreOk K s) : NoPanic (handleCipherFinal K apdu s) := by
  simp only [handleCipherFinal, noPanic_bind, ParsedApdu.noPanic_tlvs, noPanic_orRefuse, orRefuse_eq_ok, true_and]
  intro tlvs _ cid _ c hl
  have hchain := hs.contexts _ _ hl
  refine noPanic_finish ?_
  split
  · simp only [noPanic_bind, noPanic_aesKeyOf, noPanic_applyMode, noPanic_pure, implies_true, and_true, true_and]
    exact fun _ _ => noPanic_array.mpr hchain
  · simp

theorem noPanic_handleDigestFinal : NoPanic (handleDigestFinal K apdu s) := by
  simp only [handleDigestFinal, noPanic_bind, ParsedApdu.noPanic_tlvs, noPanic_orRefuse, true_and]
  intro tlvs _ cid _ c _
  refine noPanic_finish ?_
  split <;> simp

theorem noPanic_computeMac {algo : UInt8} {obj : SecureObject} {data : Bytes} :
    NoPanic (computeMac K algo obj data) := by
  unfold computeMac
  split <;> simp

theorem noPanic_expectedMac {tlvs : List Tlv} {v : Bool} : NoPanic (expectedMac tlvs v) := by
  unfold expectedMac
  split <;> simp

theorem noPanic_handleMacOneshot {v : Bool} : NoPanic (handleMacOneshot K apdu s v) := by
  simp [handleMacOneshot, noPanic_computeMac, noPanic_expectedMac]

theorem noPanic_handleMacFinal : NoPanic (handleMacFinal K apdu s) := by
  simp only [handleMacFinal, noPanic_bind, ParsedApdu.noPanic_tlvs, noPanic_orRefuse, true_and]
  intro tlvs _ cid _ c _
  refine noPanic_finish ?_
  split <;> simp [noPanic_computeMac, noPanic_expectedMac]

theorem noPanic_rsaEncryptRaw {key : RsaPublicKey} {m : Bytes} : NoPanic (rsaEncryptRaw key m) := by
  simp only [rsaEncryptRaw, noPanic_bind, noPanic_ensure, ensure_eq_ok, noPanic_copyAt, List.length_replicate,
    true_and]
  intro _ hm
  have := toBytesBe_length_le (Nat.mod_lt (ofBe m ^ key.e) (Nat.zero_lt_of_lt hm))
  omega

theorem noPanic_dispatchRsa : NoPanic (dispatchRsa K env apdu s) := by
  have hreq : NoPanic (rsaCipherRequest apdu s) := by simp [rsaCipherRequest]
  have henc : ∀ key m algo, NoPanic (rsaEncryptWith K env key m algo) := by
    intro key m algo
    unfold rsaEncryptWith
    split
    · simp
    · simp
    · exact noPanic_rsaEncryptRaw
    · simp
  have hdec : ∀ key c algo, NoPanic (rsaDecryptWith K key c algo) := by
    intro key c algo
    unfold rsaDecryptWith
    split
    · simp
    · simp
    · simp only [rsaDecryptPadded, noPanic_bind, noPanic_orRefuse, noPanic_ite, noPanic_copyAt, noPanic_pure,
        List.length_replicate, implies_true, and_true, true_and]
      intro m _ hlt
      omega
    · simp
  unfold dispatchRsa
  split
  · exact noPanic_readOnly (by simp [handleRsaEncrypt, hreq, henc])
  split
  · refine noPanic_readOnly ?_
    simp only [handleRsaDecrypt, noPanic_bind, hreq, true_and]
    intro x _
    split
    · simp [hdec]
    · simp
  · simp

/-! ### The dispatcher -/

theorem noPanic_dispatchWrite : NoPanic (dispatchWrite K env apdu s) := by
  have hcreate : NoPanic (handleCurveCreate env apdu s) := by
    simp only [handleCurveCreate, noPanic_bind, noPanic_orRefuse, noPanic_ensure, true_and]
    intro _ _ _ _
    split
    · split <;> simp
    · simp
  have hparam : NoPanic (handleSetParam apdu s) := by simp [handleSetParam]
  have hobj : NoPanic (handleCryptoObjCreate apdu s) := by simp [handleCryptoObjCreate]
  have hwrite : NoPanic (handleWrite apdu s) := by
    simp [handleWrite, noPanic_ite, noPanic_handleWriteBinary, noPanic_handleWriteCounter]
  simp only [dispatchWrite, noPanic_ite, noPanic_handleWriteEcKey, noPanic_handleWriteRsaKey,
    noPanic_handleWriteAesKey, noPanic_handleWriteHmacKey, hobj, hcreate, hparam, hwrite, noPanic_refuse]
  simp

theorem noPanic_dispatchCrypto (hs : StoreOk K s) (hc : apdu.IsCommand insCrypto)
    (hno : ¬ SignFails K env apdu s) : NoPanic (dispatchCrypto K env apdu s) := by
  have hcipher : NoPanic (dispatchCipher K apdu s) := by
    simp only [dispatchCipher, noPanic_ite, handleEncryptOneshot, handleDecryptOneshot,
      noPanic_readOnly noPanic_handleCipherOneshot, noPanic_handleCipherInit, noPanic_handleCipherUpdate hs,
      noPanic_handleCipherFinal hs, noPanic_refuse]
    simp
  have hdigest : NoPanic (dispatchDigest K apdu s) := by
    have h1 : NoPanic (handleDigestOneshot K apdu) := by simp [handleDigestOneshot]
    have h2 : NoPanic (handleDigestInit apdu s) := by simp [handleDigestInit, noPanic_subtypeFor]
    have h3 : NoPanic (handleDigestUpdate apdu s) := by
      simp only [handleDigestUpdate, noPanic_bind, ParsedApdu.noPanic_tlvs, noPanic_orRefuse, true_and]
      intro _ _ _ _ _ _
      split <;> simp
    simp only [dispatchDigest, noPanic_ite, noPanic_readOnly h1, h2, h3, noPanic_handleDigestFinal, noPanic_refuse]
    simp
  have hmac : NoPanic (dispatchMac K apdu s) := by
    have h1 : ∀ v, NoPanic (handleMacInit apdu s v) := by
      intro v
      simp [handleMacInit, noPanic_subtypeFor]
    have h2 : NoPanic (handleMacUpdate apdu s) := by
      simp only [handleMacUpdate, noPanic_bind, ParsedApdu.noPanic_tlvs, noPanic_orRefuse, true_and]
      intro _ _ _ _
      split <;> simp
    simp only [dispatchMac, noPanic_ite, noPanic_readOnly noPanic_handleMacOneshot, h1, h2, noPanic_handleMacFinal,
      noPanic_refuse]
    simp
  unfold dispatchCrypto
  split
  · rename_i hp
    unfold dispatchSignature
    split
    · rename_i hp2
      exact noPanic_readOnly (noPanic_handleSign hs hc hp hp2 hno)
    split
    · exact noPanic_readOnly (noPanic_handleVerify hs)
    · simp
  split
  · split
    · exact noPanic_handleEcdh hs
    · simp
  split
  · exact hcipher
  split
  · exact noPanic_dispatchRsa
  split
  · exact hdigest
  split
  · exact hmac
  · simp

theorem noPanic_dispatchMgmt : NoPanic (dispatchMgmt env apdu s a) := by
  have hobj : NoPanic (handleCryptoObjDelete apdu s) := by simp [handleCryptoObjDelete]
  have hcurve : NoPanic (handleCurveDelete apdu s) := by
    simp only [handleCurveDelete, noPanic_bind, noPanic_orRefuse, true_and]
    intro _ _
    split <;> simp
  have hman : NoPanic (handleManagement env apdu s) := by
    have h1 : NoPanic (handleGetFreeMemory apdu env.version) := by simp [handleGetFreeMemory]
    have h2 : NoPanic (handleGetRandom env apdu) := by simp [handleGetRandom]
    simp only [handleManagement, noPanic_ite, noPanic_readOnly h1, noPanic_readOnly h2, noPanic_ok, noPanic_refuse]
    simp
  have hscp : NoPanic (handleSetPlatformScp apdu s a) := by
    simp only [handleSetPlatformScp, noPanic_bind, noPanic_ensure, ParsedApdu.noPanic_tlvs, true_and]
    intro _ _ _ _
    split <;> simp
  have hmgmt : NoPanic (handleMgmt apdu s) := by
    have h1 : NoPanic (handleCheckExists apdu s) := by simp [handleCheckExists]
    have h2 : NoPanic (handleDelete apdu s) := by
      simp only [handleDelete, noPanic_bind, ParsedApdu.noPanic_tlvs, noPanic_orRefuse, noPanic_ensure, true_and]
      intro _ _ _ _ _ _
      split <;> simp
    simp [handleMgmt, noPanic_ite, noPanic_readOnly h1, h2]
  simp only [dispatchMgmt, noPanic_ite, hobj, hcurve, hman, hscp, hmgmt, noPanic_refuse]
  simp

/-- Over a well-formed store a command panics only as an RSA signature that fails. -/
theorem dispatch_ne_panic (hs : StoreOk K s) (hno : ¬ SignFails K env apdu s) (p : Panic) :
    dispatch K env apdu s a ≠ .error p := by
  refine settle_ne_error ?_ p
  unfold dispatchCmd
  split
  · exact noPanic_ok _
  split
  · exact noPanic_refuse _
  rename_i hcla
  split
  · exact noPanic_dispatchWrite
  split
  · exact noPanic_readOnly (noPanic_dispatchRead hs)
  split
  · rename_i hi
    exact noPanic_dispatchCrypto hs ⟨by tauto, hi⟩ hno
  split
  · exact noPanic_dispatchMgmt
  · exact noPanic_refuse _

/-- In every run from the empty store without a malformed import, every store
reached is well-formed and no command panics over it, RSA signatures that
the crate cannot make apart. -/
theorem storeOk_and_noPanic_of_run (hK : K.EcLaws) {log : List (Event ObjectStore Command ApduResponse)}
    (hrun : Run (execute K) .new log s)
    (hlog : ∀ e ∈ log, ¬ MalformedImport K e.input.env e.input.apdu e.pre) :
    StoreOk K s ∧ ∀ c p, ¬ SignFails K c.env c.apdu s → execute K s c ≠ .error p := by
  have hs : StoreOk K s := hrun.invariant
    (fun t c o t' hI hP hstep => (dispatch_transition hstep).storeOk hK hI hP) hlog (.new K)
  exact ⟨hs, fun c p hno => dispatch_ne_panic hs hno p⟩

/-! ### A valid and a malformed import -/

/-- The scalar one. -/
def scalarOne : Bytes := List.replicate 31 0x00 ++ [0x01]

/-- The coordinates of the base point of P-256, the public key of the scalar one. -/
def p256Base : Bytes :=
  [0x6B, 0x17, 0xD1, 0xF2, 0xE1, 0x2C, 0x42, 0x47, 0xF8, 0xBC, 0xE6, 0xE5, 0x63, 0xA4, 0x40, 0xF2,
   0x77, 0x03, 0x7D, 0x81, 0x2D, 0xEB, 0x33, 0xA0, 0xF4, 0xA1, 0x39, 0x45, 0xD8, 0x98, 0xC2, 0x96,
   0x4F, 0xE3, 0x42, 0xE2, 0xFE, 0x1A, 0x7F, 0x9B, 0x8E, 0xE7, 0xEB, 0x4A, 0x7C, 0x0F, 0x9E, 0x16,
   0x2B, 0xCE, 0x33, 0x57, 0x6B, 0x31, 0x5E, 0xCE, 0xCB, 0xB6, 0x40, 0x68, 0x37, 0xBF, 0x51, 0xF5]

/-- Crates with the public key of the scalar one on P-256. -/
def p256Crates : Crates :=
  { Crates.blank with
    SecretKey := fun c => ByteArr c.scalarLen
    PublicKey := fun _ => Bytes
    randomSecret := Crates.blank.randomSecret
    secretFromBytes := fun _ k => some k
    secretToBytes := fun _ k => k
    publicOf := fun c k => if c = .nistP256 ∧ k.bytes = scalarOne then p256Base else k.bytes
    publicToSec1 := fun _ p => 0x04 :: p
    publicFromSec1 := fun _ _ => none
    signPrehash := fun _ _ _ => none
    verifyPrehash := fun _ _ _ _ => false
    p192SignRound := fun _ _ _ _ => none
    diffieHellman := fun _ _ _ => [] }

theorem p256Crates_ecLaws : p256Crates.EcLaws where
  secret_roundtrip _ _ := rfl
  sec1_ne_nil _ _ := List.cons_ne_nil _ _

def p256Id : ObjectId := ⟨0x20, 0x00, 0x00, 0x01⟩

/-- WriteECKey for P-256 with the given private key. -/
def importP256 (priv : Bytes) : Command :=
  ⟨.unset, ⟨0x80, 0x01, 0x61, 0x00, encodeTlvs [⟨tag1, p256Id.toBytes⟩, ⟨tag2, [0x03]⟩, ⟨tag3, priv⟩], none⟩, false⟩

/-- The store after the import. -/
def p256Store (priv pub : Bytes) : ObjectStore :=
  (ObjectStore.new.insert p256Id (.ecKeyPair .nistP256 priv pub)).setCreationMetadata p256Id none 0x01

theorem storeOk_of_valid_import : StoreOk p256Crates (p256Store scalarOne (0x04 :: p256Base)) ∧
    ∀ c p, ¬ SignFails p256Crates c.env c.apdu (p256Store scalarOne (0x04 :: p256Base)) →
      execute p256Crates (p256Store scalarOne (0x04 :: p256Base)) c ≠ .error p := by
  have hstep : execute p256Crates .new (importP256 scalarOne) =
      .ok (.success, p256Store scalarOne (0x04 :: p256Base)) := by decide +kernel
  refine storeOk_and_noPanic_of_run p256Crates_ecLaws (.cons hstep (.nil _)) ?_
  simp only [List.mem_singleton, forall_eq]
  rintro ⟨-, -, q, priv, hq, hsrc, hbad⟩
  have hq' : ecKeyRequest .unset (importP256 scalarOne).apdu .new =
      .ok ⟨p256Id, none, .nistP256, .importPrivate scalarOne⟩ := by decide +kernel
  obtain rfl := Except.ok.inj (hq'.symm.trans hq)
  obtain rfl := EcKeySource.importPrivate.inj hsrc
  exact hbad ⟨⟨scalarOne, rfl⟩, rfl, fun _ => ⟨⟨scalarOne, rfl⟩, rfl⟩⟩

/-- ECDSA with SHA-256 over a digest of 32 bytes. -/
def signP256 : Command :=
  ⟨.unset, ⟨0x80, 0x03, 0x0C, 0x09, encodeTlvs [⟨tag1, p256Id.toBytes⟩, ⟨tag2, [0x21]⟩,
    ⟨tag3, List.replicate 32 0x00⟩], none⟩, false⟩

/-- A private key of one byte is imported, with an empty public key, and the
next signature with it panics. -/
theorem short_import_panics :
    execute .blank .new (importP256 [0x01]) = .ok (.success, p256Store [0x01] []) ∧
      (p256Store [0x01] []).get p256Id = some (.ecKeyPair .nistP256 [0x01] []) ∧
      ¬ StoreOk .blank (p256Store [0x01] []) ∧
      execute .blank (p256Store [0x01] []) signP256 = .error .array := by
  have hget : (p256Store [0x01] []).get p256Id = some (.ecKeyPair .nistP256 [0x01] []) := by decide +kernel
  refine ⟨by decide +kernel, hget, fun hs => ?_, by decide +kernel⟩
  obtain ⟨k, -, -, hne⟩ := hs.objects _ _ hget
  exact hne rfl

end SE050
end Simulators
