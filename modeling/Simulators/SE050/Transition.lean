/-
# SE050: what one command can do to the store

`Transition` lists the ways a command can end: with the store as it was, with
an object written under its policy, with a derived secret in an object, and
so on, each with the guards the handler checked and the command it takes.
`dispatch_transition` says that `dispatch` has no others. The results about
stores are read off `Transition`, none of them looks at a handler again.
-/
import Simulators.SE050.Operations

namespace Simulators
namespace SE050

open Handler

/-! ### Objects -/

/-- `obj` is stored under `id`, and metadata is recorded if it was not there. -/
def ObjectStore.Puts (s : ObjectStore) (id : ObjectId) (obj : SecureObject) (s' : ObjectStore) : Prop :=
  s' = s.insert id obj ∨
    (s.get id = none ∧ ∃ policy origin, s' = (s.insert id obj).setCreationMetadata id policy origin)

/-- The end of every write command. -/
def ObjectStore.write (s : ObjectStore) (id : ObjectId) (obj : SecureObject) (policy : Option Bytes)
    (origin : UInt8) : ObjectStore :=
  if s.existsId id then s.insert id obj else (s.insert id obj).setCreationMetadata id policy origin

section Write

variable (s : ObjectStore) (id id' : ObjectId) (obj : SecureObject) (policy : Option Bytes) (origin : UInt8)

theorem get_write : (s.write id obj policy origin).get id' = if id' = id then some obj else s.get id' := by
  unfold ObjectStore.write
  split
  · exact s.get_insert id id' obj
  · rw [ObjectStore.get_setCreationMetadata, ObjectStore.get_insert]

theorem write_of_some {old : SecureObject} (h : s.get id = some old) :
    s.write id obj policy origin = s.insert id obj := by
  rw [ObjectStore.write, s.existsId_eq, h]
  exact if_pos rfl

theorem write_of_none (h : s.get id = none) :
    s.write id obj policy origin = (s.insert id obj).setCreationMetadata id policy origin := by
  rw [ObjectStore.write, s.existsId_eq, h]
  exact if_neg Bool.false_ne_true

@[simp] theorem write_cryptoObjects : (s.write id obj policy origin).cryptoObjects = s.cryptoObjects := by
  unfold ObjectStore.write
  split
  · simp [ObjectStore.insert]
  · simp [ObjectStore.insert, ObjectStore.setCreationMetadata]

@[simp] theorem write_cryptoObjectTypes :
    (s.write id obj policy origin).cryptoObjectTypes = s.cryptoObjectTypes := by
  unfold ObjectStore.write
  split
  · simp [ObjectStore.insert]
  · simp [ObjectStore.insert, ObjectStore.setCreationMetadata]

theorem puts_write : s.Puts id obj (s.write id obj policy origin) := by
  cases hget : s.get id with
  | some old => exact .inl (write_of_some s id obj policy origin hget)
  | none => exact .inr ⟨hget, policy, origin, write_of_none s id obj policy origin hget⟩

end Write

/-- The pair a key generation stores. -/
def generatedPair (K : Crates) (env : Env) : ECCurve → SecureObject
  | .ed25519 => .ecKeyPair .ed25519 (K.ed25519Generate env.rng).bytes (K.ed25519Public (K.ed25519Generate env.rng)).bytes
  | .curve25519 => .ecKeyPair .curve25519 (K.x25519Random env.rng).bytes.reverse
      (K.x25519Public (K.x25519Random env.rng)).bytes.reverse
  | c => .ecKeyPair c (K.secretToBytes c (K.randomSecret c env.rng)).bytes
      (K.publicToSec1 c (K.publicOf c (K.randomSecret c env.rng)))

theorem generateOn_eq (K : Crates) (env : Env) (id : ObjectId) (s : ObjectStore) (c : ECCurve) :
    generateOn K env id s c = s.insert id (generatedPair K env c) := by
  cases c <;> rfl

/-- The object a WriteECKey command stores. -/
def EcKeyRequest.object (K : Crates) (env : Env) (r : EcKeyRequest) : SecureObject :=
  match r.source with
  | .generate => generatedPair K env r.curve
  | .importPrivate priv => .ecKeyPair r.curve priv (importedPublic K r.curve priv)
  | .importPublic pub => .ecPublicKey r.curve pub

theorem EcKeyRequest.perform_eq (K : Crates) (env : Env) (r : EcKeyRequest) (s : ObjectStore) :
    r.perform K env s = s.insert r.objId (r.object K env) := by
  obtain ⟨id, policy, c, source⟩ := r
  cases source with
  | generate => exact generateOn_eq K env id s c
  | importPrivate priv => rfl
  | importPublic pub => rfl

/-- The objects the write commands store. -/
inductive Written (K : Crates) (env : Env) (apdu : ParsedApdu) (s : ObjectStore) (id : ObjectId) :
    SecureObject → Prop
  | binary (data : Bytes) : Written K env apdu s id (.binary data)
  | counterNew (v : UInt64) {size : UInt16} (h : size ≠ 0 ∧ size ≤ 8) :
      Written K env apdu s id (.counter v size)
  | counterSet {v : UInt64} (v' : UInt64) {size : UInt16} (h : s.get id = some (.counter v size)) :
      Written K env apdu s id (.counter v' size)
  | aesKey {key : Bytes} (h : key.length = 16 ∨ key.length = 24 ∨ key.length = 32) :
      Written K env apdu s id (.aesKey key)
  | hmacKey (key : Bytes) (policy : Option UInt32) : Written K env apdu s id (.hmacKey key policy)
  | rsa (bits : UInt16) (der : Bytes) (staged : RsaComponents) :
      Written K env apdu s id (.rsaKeyPair bits der staged)
  | ec {r : EcKeyRequest} (h : ecKeyRequest env apdu s = .ok r) (hid : r.objId = id)
      (hc : apdu.credType = p1Ec) : Written K env apdu s id (r.object K env)

/-- The object an ECDH command leaves in its target: the secret in place of an
HMAC key of its length, or as a file in place of anything else. -/
def EcdhRequest.Derives (r : EcdhRequest) (s : ObjectStore) (oid : ObjectId) (obj : SecureObject) : Prop :=
  r.output = some oid ∧
    ((∃ key policy, s.get oid = some (.hmacKey key policy) ∧ r.secret.length = key.length ∧
        obj = .hmacKey r.secret policy) ∨
      ((∀ key policy, s.get oid ≠ some (.hmacKey key policy)) ∧ obj = .binary r.secret))

/-- The chain vector of a cipher context is one block. -/
def CryptoObjectState.ChainOk : CryptoObjectState → Prop
  | .cipher _ _ _ chain _ => chain.length = 16
  | _ => True

/-! ### Transitions -/

/-- How a command can end: its response and the store after it. -/
inductive Transition (K : Crates) (env : Env) (apdu : ParsedApdu) (scpActive : Bool) (s : ObjectStore) :
    ApduResponse → ObjectStore → Prop
  | idle (r : ApduResponse) : Transition K env apdu scpActive s r s
  | write {id : ObjectId} {obj : SecureObject} {s' : ObjectStore} (hc : apdu.IsCommand insWrite)
      (hmay : s.mayWrite id) (hobj : Written K env apdu s id obj) (hs : s.Puts id obj s') :
      Transition K env apdu scpActive s .success s'
  | rsaComponent {id : ObjectId} {bits : UInt16} {der : Bytes} {staged : RsaComponents} {tlvs : List Tlv}
      (hc : apdu.IsWriteRsa) (ht : apdu.tlvs = .ok tlvs) (hid : objectIdOf tlvs tag1 = some id)
      (hp : creationInProgress apdu s id (.ofTlvs tlvs) = true) :
      Transition K env apdu scpActive s .success (s.insert id (.rsaKeyPair bits der staged))
  | derive {r : EcdhRequest} {oid : ObjectId} {obj : SecureObject} (hc : apdu.IsEcdh)
      (hr : ecdhRequest K apdu s env.strictEcdh = .ok r) (hd : r.Derives s oid obj) :
      Transition K env apdu scpActive s .success (s.insert oid obj)
  | delete {id : ObjectId} (hc : apdu.IsDeleteObject) (hp : s.policyAllows id policyObjAllowDelete = true) :
      Transition K env apdu scpActive s .success (s.remove id).2
  | deleteAll (hc : apdu.IsDeleteAll) : Transition K env apdu scpActive s .success s.clear
  | curves (m : HashMap UInt8 UInt8) :
      Transition K env apdu scpActive s .success (ObjectStore.persist { s with ecCurves := m })
  | context {r : ApduResponse} (hr : r.sw = swNoError) (cid : UInt16) {c : CryptoObjectState} (hc : c.ChainOk) :
      Transition K env apdu scpActive s r (s.setContext cid c)
  | final {k : ContextKind} {cid : UInt16} {c : CryptoObjectState} (r : ApduResponse) (hc : apdu.IsFinal k)
      (ht : apdu.finalTarget = some cid) (hl : s.cryptoObjects.lookup cid = some c) :
      Transition K env apdu scpActive s r (s.dropContext cid)
  | createCryptoObj (m : HashMap UInt16 (UInt8 × UInt8)) :
      Transition K env apdu scpActive s .success { s with cryptoObjectTypes := m }
  | deleteCryptoObj (cid : UInt16) (m : HashMap UInt16 (UInt8 × UInt8)) :
      Transition K env apdu scpActive s .success
        { s with cryptoObjectTypes := m, cryptoObjects := s.cryptoObjects.erase cid }
  | scp (b : Bool) (h : scpActive = true) : Transition K env apdu scpActive s .success (s.setScpRequired b)

section Handlers

variable {K : Crates} {env : Env} {apdu : ParsedApdu} {a : Bool} {s s' : ObjectStore} {r : ApduResponse}
  {id : ObjectId}

theorem handleWriteBinary_transition (hc : apdu.IsCommand insWrite)
    (h : handleWriteBinary apdu s = .ok (r, s')) : Transition K env apdu a s r s' := by
  simp only [handleWriteBinary, bind_eq_ok, ensure_eq_ok, orRefuse_eq_ok, pure_eq_ok] at h
  obtain ⟨tlvs, -, id, -, policy, -, -, hmay, h⟩ := h
  split at h
  · simp only [bind_eq_ok, ensure_eq_ok, Except.ok.injEq, Prod.mk.injEq] at h
    obtain ⟨-, -, updated, -, rfl, rfl⟩ := h
    exact .write hc hmay (.binary updated) (.inl rfl)
  · simp at h
  · rename_i hget
    simp only [bind_eq_ok, ensure_eq_ok, Except.ok.injEq, Prod.mk.injEq] at h
    obtain ⟨-, -, full, -, rfl, rfl⟩ := h
    exact .write hc hmay (.binary full) (.inr ⟨hget, policy, 0x01, rfl⟩)

/-- What the lookup of a counter found. -/
theorem counterAt_eq_ok {existing : Option (UInt64 × UInt16)} (h : counterAt s id = .ok existing) :
    s.get id = existing.map fun c => .counter c.1 c.2 := by
  unfold counterAt at h
  split at h
  · rename_i heq
    cases h
    exact heq
  · simp at h
  · rename_i heq
    cases h
    exact heq

theorem handleWriteCounter_transition (hc : apdu.IsCommand insWrite)
    (h : handleWriteCounter apdu s = .ok (r, s')) : Transition K env apdu a s r s' := by
  simp only [handleWriteCounter, bind_eq_ok, ensure_eq_ok, orRefuse_eq_ok, pure_eq_ok] at h
  obtain ⟨tlvs, -, id, -, policy, -, existing, hex, -, hmay, h⟩ := h
  have hget := counterAt_eq_ok hex
  have hw : s.mayWrite id := by
    cases existing with
    | none => exact mayWrite_of_none s id hget
    | some c => exact fun _ => hmay rfl
  split at h
  · simp only [bind_eq_ok, ensure_eq_ok, Except.ok.injEq, Prod.mk.injEq] at h
    obtain ⟨-, hsize, rfl, rfl⟩ := h
    exact .write hc hw (.counterNew _ hsize) (.inr ⟨hget, policy, 0x01, rfl⟩)
  · simp only [Except.ok.injEq, Prod.mk.injEq] at h
    obtain ⟨rfl, rfl⟩ := h
    exact .write hc hw (.counterSet _ hget) (.inl rfl)
  · simp only [Except.ok.injEq, Prod.mk.injEq] at h
    obtain ⟨rfl, rfl⟩ := h
    exact .write hc hw (.counterSet _ hget) (.inl rfl)
  · simp at h
  · simp at h

/-- The end that the key writers share. -/
theorem write_of_end {obj : SecureObject} {policy : Option Bytes} {origin : UInt8}
    (h : (if s.existsId id = true then (pure (.success, s.insert id obj) : Cmd (ApduResponse × ObjectStore))
      else pure (.success, (s.insert id obj).setCreationMetadata id policy origin)) = .ok (r, s')) :
    r = .success ∧ s' = s.write id obj policy origin := by
  unfold ObjectStore.write
  by_cases hex : s.existsId id = true
  · rw [if_pos hex] at h ⊢
    cases h
    exact ⟨rfl, rfl⟩
  · rw [if_neg hex] at h ⊢
    cases h
    exact ⟨rfl, rfl⟩

theorem aesKeyLen_cases {n len : ℕ} (h : aesKeyLen n = some len) : len = 16 ∨ len = 24 ∨ len = 32 := by
  unfold aesKeyLen at h
  split at h <;> simp_all

theorem handleWriteAesKey_transition (hc : apdu.IsCommand insWrite)
    (h : handleWriteAesKey env apdu s = .ok (r, s')) : Transition K env apdu a s r s' := by
  simp only [handleWriteAesKey, bind_eq_ok, ensure_eq_ok, orRefuse_eq_ok] at h
  obtain ⟨tlvs, -, id, -, policy, -, -, hmay, key, hkey, h⟩ := h
  have hlen : key.length = 16 ∨ key.length = 24 ∨ key.length = 32 := by
    unfold aesKeyMaterial at hkey
    split at hkey
    · simp only [bind_eq_ok, orRefuse_eq_ok, pure_eq_ok, Except.ok.injEq] at hkey
      obtain ⟨len, hl, rfl⟩ := hkey
      rw [Rng.fill_length]
      exact aesKeyLen_cases hl
    · simp only [bind_eq_ok, orRefuse_eq_ok, ensure_eq_ok, pure_eq_ok, Except.ok.injEq] at hkey
      obtain ⟨k, -, -, hl, rfl⟩ := hkey
      exact hl
  obtain ⟨rfl, rfl⟩ := write_of_end h
  exact .write hc hmay (.aesKey hlen) (puts_write ..)

theorem handleWriteHmacKey_transition (hc : apdu.IsCommand insWrite)
    (h : handleWriteHmacKey apdu s = .ok (r, s')) : Transition K env apdu a s r s' := by
  simp only [handleWriteHmacKey, bind_eq_ok, ensure_eq_ok, orRefuse_eq_ok] at h
  obtain ⟨tlvs, -, id, -, -, -, policy, -, -, hmay, key, -, -, -, h⟩ := h
  obtain ⟨rfl, rfl⟩ := write_of_end h
  exact .write hc hmay (.hmacKey key _) (puts_write ..)

theorem ecKeyRequest_mayWrite {q : EcKeyRequest} (h : ecKeyRequest env apdu s = .ok q) :
    s.mayWrite q.objId := by
  simp only [ecKeyRequest, bind_eq_ok, ensure_eq_ok, orRefuse_eq_ok] at h
  obtain ⟨tlvs, -, id, -, policy, -, -, hmay, cb, -, c, -, -, -, -, -, h⟩ := h
  suffices q.objId = id from this ▸ hmay
  split at h
  · simp only [pure_eq_ok, Except.ok.injEq] at h
    rw [← h]
  · split at h
    · simp only [pure_eq_ok, Except.ok.injEq] at h
      rw [← h]
    split at h
    · simp only [pure_eq_ok, Except.ok.injEq] at h
      rw [← h]
    · simp at h

theorem handleWriteEcKey_transition (hc : apdu.IsCommand insWrite) (hp : apdu.credType = p1Ec)
    (h : handleWriteEcKey K env apdu s = .ok (r, s')) : Transition K env apdu a s r s' := by
  simp only [handleWriteEcKey, bind_eq_ok, EcKeyRequest.perform_eq] at h
  obtain ⟨q, hq, h⟩ := h
  obtain ⟨rfl, rfl⟩ := write_of_end h
  exact .write hc (ecKeyRequest_mayWrite hq) (.ec hq rfl hp) (puts_write ..)

/-- An RSA write stores an RSA key pair. -/
theorem rsaObject_cases {id : ObjectId} {bits : Option UInt16} {c : RsaComponents} {obj : SecureObject}
    (h : rsaObject K env s id bits c = .ok obj) : ∃ b der staged, obj = .rsaKeyPair b der staged := by
  unfold rsaObject at h
  split at h
  · simp only [rsaImport, bind_eq_ok] at h
    obtain ⟨x, -, h⟩ := h
    split at h <;> simp only [pure_eq_ok, Except.ok.injEq] at h <;> exact ⟨_, _, _, h.symm⟩
  · simp only [rsaGenerate, bind_eq_ok, pure_eq_ok, Except.ok.injEq] at h
    obtain ⟨_, -, _, -, _, -, _, -, _, -, rfl⟩ := h
    exact ⟨_, _, _, rfl⟩

theorem exists_of_creationInProgress {id : ObjectId} {c : RsaComponents}
    (h : creationInProgress apdu s id c = true) : c.hasAny = true ∧
      ∃ b st, s.get id = some (.rsaKeyPair b [] st) ∧ (st.n = none ∨ st.e = none ∨ st.d = none) := by
  simp only [creationInProgress, Bool.and_eq_true] at h
  obtain ⟨hany, h⟩ := h
  refine ⟨hany, ?_⟩
  split at h
  · rename_i b der st hget
    split at h
    · simp at h
    · rename_i hder
      simp only [Bool.not_eq_eq_eq_not, Bool.not_true, List.isEmpty_eq_false_iff, ne_eq, not_not] at hder
      subst hder
      refine ⟨b, st, hget, ?_⟩
      split at h <;> simp only [Bool.or_eq_true, Option.isNone_iff_eq_none] at h <;> tauto
  · simp at h

theorem handleWriteRsaKey_transition (hc : apdu.IsCommand insWrite) (hp : apdu.credType = p1Rsa)
    (h : handleWriteRsaKey K env apdu s = .ok (r, s')) : Transition K env apdu a s r s' := by
  simp only [handleWriteRsaKey, bind_eq_ok, ensure_eq_ok, orRefuse_eq_ok] at h
  obtain ⟨tlvs, ht, -, -, id, hid, policy, -, bits, -, -, hguard, obj, hobj, h⟩ := h
  obtain ⟨rfl, rfl⟩ := write_of_end h
  obtain ⟨b, der, staged, rfl⟩ := rsaObject_cases hobj
  rcases hguard with hprog | hmay
  · obtain ⟨-, b', st, hget, -⟩ := exists_of_creationInProgress hprog
    rw [write_of_some s id _ _ _ hget]
    exact .rsaComponent ⟨hc, hp⟩ ht hid hprog
  · exact .write hc hmay (.rsa b der staged) (puts_write ..)

/-- What `ecdhRequest` found in the target of the InObject form. -/
theorem ecdhTarget_cases {strict : Bool} {oid : ObjectId} {t : Option (ℕ × Option UInt32)}
    (h : ecdhTarget s strict (some oid) = .ok t) :
    (∃ key policy, s.get oid = some (.hmacKey key policy) ∧ t = some (key.length, policy)) ∨
      ((∀ key policy, s.get oid ≠ some (.hmacKey key policy)) ∧ t = none) := by
  simp only [ecdhTarget] at h
  split at h
  · rename_i key policy hget
    simp only [Except.ok.injEq] at h
    exact .inl ⟨key, policy, hget, h.symm⟩
  · rename_i hget
    split at h
    · simp at h
    · simp only [Except.ok.injEq] at h
      exact .inr ⟨fun key policy hk => hget key policy hk, h.symm⟩

theorem ecdhRequest_target {strict : Bool} {q : EcdhRequest} (h : ecdhRequest K apdu s strict = .ok q) :
    ecdhTarget s strict q.output = .ok q.target := by
  simp only [ecdhRequest, bind_eq_ok, pure_eq_ok, Except.ok.injEq] at h
  obtain ⟨_, -, _, -, _, -, _, -, output, -, _, -, target, ht, _, -, rfl⟩ := h
  exact ht

/-- ECDH answers with the secret, or stores it. -/
theorem handleEcdh_eq_ok {strict : Bool} (h : handleEcdh K apdu s strict = .ok (r, s')) : s' = s ∨
    r = .success ∧ ∃ (q : EcdhRequest) (oid : ObjectId) (obj : SecureObject), ecdhRequest K apdu s strict = .ok q ∧
      q.Derives s oid obj ∧ s' = s.insert oid obj := by
  simp only [handleEcdh, bind_eq_ok] at h
  obtain ⟨q, hq, h⟩ := h
  have ht := ecdhRequest_target hq
  split at h
  · cases h
    exact .inl rfl
  · rename_i oid len policy ho htarget
    simp only [bind_eq_ok, ensure_eq_ok, pure_eq_ok, Except.ok.injEq, Prod.mk.injEq] at h
    obtain ⟨-, hlen, rfl, rfl⟩ := h
    rw [ho] at ht
    rcases ecdhTarget_cases ht with ⟨key, policy', hget, heq⟩ | ⟨-, heq⟩
    · rw [htarget, Option.some.injEq, Prod.mk.injEq] at heq
      obtain ⟨rfl, rfl⟩ := heq
      exact .inr ⟨rfl, q, oid, _, hq, ⟨ho, .inl ⟨key, policy, hget, hlen, rfl⟩⟩, rfl⟩
    · rw [htarget] at heq
      cases heq
  · rename_i oid ho htarget
    cases h
    rw [ho] at ht
    rcases ecdhTarget_cases ht with ⟨key, policy', -, heq⟩ | ⟨hno, -⟩
    · rw [htarget] at heq
      cases heq
    · exact .inr ⟨rfl, q, oid, _, hq, ⟨ho, .inr ⟨hno, rfl⟩⟩, rfl⟩

theorem handleEcdh_transition (hc : apdu.IsEcdh) (h : handleEcdh K apdu s env.strictEcdh = .ok (r, s')) :
    Transition K env apdu a s r s' := by
  rcases handleEcdh_eq_ok h with rfl | ⟨rfl, q, oid, obj, hq, hd, rfl⟩
  · exact .idle r
  · exact .derive hc hq hd

/-! ### Multi-step operations -/

theorem initHandler_transition {k : ContextKind} (h : initHandler apdu s k = .ok (r, s')) :
    Transition K env apdu a s r s' := by
  obtain ⟨rfl, tlvs, cid, subtype, c, -, -, -, hc, rfl⟩ := initHandler_eq_ok h
  cases hc with
  | digest => exact .context rfl cid trivial
  | @cipher _ chain _ _ _ => exact .context rfl cid chain.size
  | mac => exact .context rfl cid trivial

theorem updateHandler_transition {k : ContextKind} (h : updateHandler K apdu s k = .ok (r, s')) :
    Transition K env apdu a s r s' := by
  obtain ⟨tlvs, cid, c, c', -, -, -, -, hc, rfl⟩ := updateHandler_eq_ok h
  cases hc with
  | digest => exact .context rfl cid trivial
  | @cipher _ _ _ _ chain' _ _ _ _ _ _ _ => exact .context rfl cid chain'.size
  | mac => exact .context rfl cid trivial

theorem finalHandler_transition {k : ContextKind} (hk : apdu.IsFinal k)
    (h : finalHandler K apdu s k = .ok (r, s')) : Transition K env apdu a s r s' := by
  obtain ⟨tlvs, cid, c, ht, hid, hl, rfl⟩ := finalHandler_eq_ok h
  refine .final r hk ?_ hl
  rw [ParsedApdu.finalTarget, ParsedApdu.tlvs_eq_ok.mp ht]
  exact hid

/-! ### Crypto objects, curves and management -/

theorem handleCryptoObjCreate_transition (h : handleCryptoObjCreate apdu s = .ok (r, s')) :
    Transition K env apdu a s r s' := by
  obtain ⟨rfl, tlvs, cid, context, -, -, -, rfl⟩ := handleCryptoObjCreate_eq_ok h
  exact .createCryptoObj _

theorem handleCryptoObjDelete_transition (h : handleCryptoObjDelete apdu s = .ok (r, s')) :
    Transition K env apdu a s r s' := by
  obtain ⟨rfl, tlvs, cid, -, -, rfl⟩ := handleCryptoObjDelete_eq_ok h
  exact .deleteCryptoObj cid _

/-- A curve command changes the curves, or nothing. -/
theorem CurveHandler.eq_ok {h : Cmd (ApduResponse × ObjectStore)} (hw : CurveHandler env apdu s h)
    (hr : h = .ok (r, s')) : r = .success ∧
      (s' = s ∨ ∃ m : HashMap UInt8 UInt8, s' = ObjectStore.persist { s with ecCurves := m }) := by
  cases hw with
  | create =>
    simp only [handleCurveCreate, bind_eq_ok] at hr
    obtain ⟨_, -, _, -, hr⟩ := hr
    split at hr
    · split at hr
      · cases hr
        exact ⟨rfl, .inr ⟨_, rfl⟩⟩
      · simp at hr
    · cases hr
      exact ⟨rfl, .inr ⟨_, rfl⟩⟩
  | setParam =>
    simp only [handleSetParam, bind_eq_ok, pure_eq_ok, Except.ok.injEq, Prod.mk.injEq] at hr
    obtain ⟨_, -, _, -, _, -, _, -, _, -, rfl, rfl⟩ := hr
    refine ⟨rfl, ?_⟩
    unfold ObjectStore.curveAddParam
    split
    · exact .inr ⟨_, rfl⟩
    · exact .inl rfl
  | delete =>
    simp only [handleCurveDelete, bind_eq_ok, ObjectStore.curveDelete] at hr
    obtain ⟨_, -, hr⟩ := hr
    split at hr
    · rename_i hd
      cases hr
      refine ⟨rfl, .inr ?_⟩
      split at hd
      · exact ⟨_, (Prod.mk.inj hd).2.symm⟩
      · cases hd
    · simp at hr

theorem handleSetPlatformScp_eq_ok (h : handleSetPlatformScp apdu s a = .ok (r, s')) :
    a = true ∧ r = .success ∧ ∃ b, s' = s.setScpRequired b := by
  simp only [handleSetPlatformScp, bind_eq_ok, ensure_eq_ok] at h
  obtain ⟨-, ha, _, -, h⟩ := h
  split at h
  · cases h
    exact ⟨ha, rfl, true, rfl⟩
  · cases h
    exact ⟨ha, rfl, false, rfl⟩
  · simp at h

/-- A delete takes out an object that is there. -/
theorem handleDelete_eq_ok (h : handleDelete apdu s = .ok (r, s')) : r = .success ∧ ∃ tlvs id,
    apdu.tlvs = .ok tlvs ∧ objectIdOf tlvs tag1 = some id ∧ s.policyAllows id policyObjAllowDelete = true ∧
      s.get id ≠ none ∧ s' = (s.remove id).2 := by
  simp only [handleDelete, bind_eq_ok, ensure_eq_ok, orRefuse_eq_ok] at h
  obtain ⟨tlvs, ht, id, hid, -, hp, h⟩ := h
  split at h
  · rename_i obj s'' hrem
    cases h
    refine ⟨rfl, tlvs, id, ht, hid, hp, ?_, by rw [hrem]⟩
    intro hnone
    rw [ObjectStore.remove, show s.objects.lookup id = none from hnone] at hrem
    cases hrem
  · simp at h

/-! ### The dispatcher -/

theorem WriteHandler.transition {cred : UInt8} {h : Cmd (ApduResponse × ObjectStore)} (hc : apdu.IsWrite cred)
    (hw : WriteHandler K env apdu s cred h) (hr : h = .ok (r, s')) : Transition K env apdu a s r s' := by
  cases hw with
  | binary => exact handleWriteBinary_transition hc.1 hr
  | counter => exact handleWriteCounter_transition hc.1 hr
  | ec => exact handleWriteEcKey_transition hc.1 hc.2 hr
  | rsa => exact handleWriteRsaKey_transition hc.1 hc.2 hr
  | aes => exact handleWriteAesKey_transition hc.1 hr
  | hmac => exact handleWriteHmacKey_transition hc.1 hr

theorem Handled.transition (h : Handled K env apdu s a r s') : Transition K env apdu a s r s' := by
  cases h with
  | idle => exact .idle r
  | write hc hw hr => exact hw.transition hc hr
  | ecdh hc hr => exact handleEcdh_transition hc hr
  | delete hc hr =>
    obtain ⟨rfl, _, id, -, -, hp, -, rfl⟩ := handleDelete_eq_ok hr
    exact .delete hc hp
  | deleteAll hc => exact .deleteAll hc
  | curve hw hr =>
    obtain ⟨rfl, rfl | ⟨m, rfl⟩⟩ := hw.eq_ok hr
    · exact .idle _
    · exact .curves m
  | init k _ hr => exact initHandler_transition hr
  | update k _ hr => exact updateHandler_transition hr
  | final k hc hr => exact finalHandler_transition hc hr
  | createCryptoObj _ hr => exact handleCryptoObjCreate_transition hr
  | deleteCryptoObj _ hr => exact handleCryptoObjDelete_transition hr
  | setScp hr =>
    obtain ⟨ha, rfl, b, rfl⟩ := handleSetPlatformScp_eq_ok hr
    exact .scp b ha

/-- `dispatch` changes the store in no other way. -/
theorem dispatch_transition (h : dispatch K env apdu s a = .ok (r, s')) : Transition K env apdu a s r s' :=
  (dispatch_handled h).transition

end Handlers

end SE050
end Simulators
