/-
# SE050: which object a command changes

Each of the six write handlers ends in the same way: it stores one object
under the identifier of the command and, if nothing was stored there, records
the command's policy (`WriteHandler.stores`). ECDH stores its secret under
Tag7, and the two delete commands take objects out. So an object changes only
by a command that names it (`ObjectEffect.get_of_elsewhere`), which is what the results
about a single file or counter in a history of commands rest on.

Key definitions: `ParsedApdu.writeTarget`, `ParsedApdu.policy`, `ParsedApdu.Replaces`.
Key theorems: `WriteHandler.stores`, `Handled.objectEffect`, `ObjectEffect.get_of_elsewhere`.
-/
import Simulators.SE050.Transition

namespace Simulators
namespace SE050

open Handler

/-! ### What a command names -/

namespace ParsedApdu

/-- The object a write command names. WriteBinary takes the first Tag1 of four bytes, the others the first Tag1. -/
def writeTarget (a : ParsedApdu) : Option ObjectId :=
  match a.parseTlvs with
  | .ok tlvs => if a.credType = p1Binary then (tlvs.foldl BinaryRequest.add {}).objId else objectIdOf tlvs tag1
  | .error _ => none

/-- The object that Tag1 names. -/
def objectTarget (a : ParsedApdu) : Option ObjectId :=
  match a.parseTlvs with
  | .ok tlvs => objectIdOf tlvs tag1
  | .error _ => none

/-- The object that takes the secret of an ECDH command. -/
def deriveTarget (a : ParsedApdu) : Option ObjectId :=
  match a.parseTlvs with
  | .ok tlvs => objectIdOf tlvs tag7
  | .error _ => none

/-- The policy that a command attaches. -/
def policy (a : ParsedApdu) : Option Bytes :=
  match a.parseTlvs with
  | .ok tlvs => match creationPolicy tlvs with
    | .ok p => p
    | .error _ => none
  | .error _ => none

/-- A command that deletes the object, or stores another in its place: a write of a type other than `cred`, or the
secret of an ECDH command. -/
def Replaces (a : ParsedApdu) (cred : UInt8) (id : ObjectId) : Prop :=
  a.IsDeleteAll ∨ (a.IsDeleteObject ∧ a.objectTarget = some id) ∨
    (∃ c, c ≠ cred ∧ a.IsWrite c ∧ a.writeTarget = some id) ∨ (a.IsEcdh ∧ a.deriveTarget = some id)

/-- A write of an object of the type `cred`. -/
def Writes (a : ParsedApdu) (cred : UInt8) (id : ObjectId) : Prop := a.IsWrite cred ∧ a.writeTarget = some id

end ParsedApdu

section Targets

variable {apdu : ParsedApdu} {tlvs : List Tlv}

theorem objectTarget_eq (h : apdu.tlvs = .ok tlvs) : apdu.objectTarget = objectIdOf tlvs tag1 := by
  rw [ParsedApdu.objectTarget, ParsedApdu.tlvs_eq_ok.mp h]

theorem deriveTarget_eq (h : apdu.tlvs = .ok tlvs) : apdu.deriveTarget = objectIdOf tlvs tag7 := by
  rw [ParsedApdu.deriveTarget, ParsedApdu.tlvs_eq_ok.mp h]

theorem writeTarget_binary (hc : apdu.credType = p1Binary) (h : apdu.tlvs = .ok tlvs) :
    apdu.writeTarget = (tlvs.foldl BinaryRequest.add {}).objId := by
  rw [ParsedApdu.writeTarget, ParsedApdu.tlvs_eq_ok.mp h]
  exact if_pos hc

theorem writeTarget_eq {cred : UInt8} (hc : apdu.IsWrite cred) (hne : cred ≠ p1Binary) (h : apdu.tlvs = .ok tlvs) :
    apdu.writeTarget = objectIdOf tlvs tag1 := by
  rw [ParsedApdu.writeTarget, ParsedApdu.tlvs_eq_ok.mp h]
  exact if_neg (hc.2 ▸ hne)

theorem policy_eq {p : Option Bytes} (h : apdu.tlvs = .ok tlvs) (hp : policyOf tlvs = .ok p) : apdu.policy = p := by
  rw [ParsedApdu.policy, ParsedApdu.tlvs_eq_ok.mp h]
  unfold policyOf at hp
  cases hpol : creationPolicy tlvs with
  | ok q =>
    rw [hpol] at hp
    simpa [hpol] using hp
  | error e =>
    rw [hpol] at hp
    simp at hp

end Targets

/-! ### What a write stores -/

/-- The header that is kept with an HMAC key. -/
def SecureObject.hmacHeader : SecureObject → Option (Option UInt32)
  | .hmacKey _ header => some header
  | _ => none

/-- Only WriteHMACKey stores an object with a header, that of the policy it attaches. -/
def SecureObject.HeaderFrom (obj : SecureObject) (apdu : ParsedApdu) : Prop :=
  ∀ header, obj.hmacHeader = some header → apdu.IsWrite p1Hmac ∧ header = apdu.policy.bind arHeaderUnion

theorem SecureObject.headerFrom_of_none {obj : SecureObject} (h : obj.hmacHeader = none) (apdu : ParsedApdu) :
    obj.HeaderFrom apdu := by
  intro header hsome
  rw [h] at hsome
  cases hsome

/-- A write command stores one object under its identifier, with its policy if the object is new. -/
def Stores (apdu : ParsedApdu) (s : ObjectStore) (r : ApduResponse) (s' : ObjectStore) : Prop :=
  r = .success ∧ ∃ id obj origin, apdu.writeTarget = some id ∧ obj.HeaderFrom apdu ∧
    s' = s.write id obj apdu.policy origin

section Handlers

variable {K : Crates} {env : Env} {apdu : ParsedApdu} {a : Bool} {s s' : ObjectStore} {r : ApduResponse}
  {id : ObjectId}

theorem handleWriteBinary_stores (hc : apdu.IsWrite p1Binary) (h : handleWriteBinary apdu s = .ok (r, s')) :
    Stores apdu s r s' := by
  simp only [handleWriteBinary, bind_eq_ok, ensure_eq_ok, orRefuse_eq_ok, pure_eq_ok] at h
  obtain ⟨tlvs, ht, id, hid, policy, hp, -, -, h⟩ := h
  have htarget : apdu.writeTarget = some id := (writeTarget_binary hc.2 ht).trans hid
  have hpolicy := policy_eq ht hp
  split at h
  · rename_i old hget
    simp only [bind_eq_ok, ensure_eq_ok, Except.ok.injEq, Prod.mk.injEq] at h
    obtain ⟨-, -, updated, -, rfl, rfl⟩ := h
    refine ⟨rfl, id, .binary updated, 0x01, htarget, SecureObject.headerFrom_of_none rfl _, ?_⟩
    rw [write_of_some s id _ _ _ hget]
  · simp at h
  · rename_i hget
    simp only [bind_eq_ok, ensure_eq_ok, Except.ok.injEq, Prod.mk.injEq] at h
    obtain ⟨-, -, full, -, rfl, rfl⟩ := h
    refine ⟨rfl, id, .binary full, 0x01, htarget, SecureObject.headerFrom_of_none rfl _, ?_⟩
    rw [write_of_none s id _ _ _ hget, hpolicy]

theorem handleWriteCounter_stores (hc : apdu.IsWrite p1Counter) (h : handleWriteCounter apdu s = .ok (r, s')) :
    Stores apdu s r s' := by
  simp only [handleWriteCounter, bind_eq_ok, ensure_eq_ok, orRefuse_eq_ok, pure_eq_ok] at h
  obtain ⟨tlvs, ht, id, hid, policy, hp, existing, hex, -, -, h⟩ := h
  have htarget : apdu.writeTarget = some id := (writeTarget_eq hc (by decide) ht).trans hid
  have hpolicy := policy_eq ht hp
  have hget := counterAt_eq_ok hex
  split at h
  · simp only [bind_eq_ok, ensure_eq_ok, Except.ok.injEq, Prod.mk.injEq] at h
    obtain ⟨-, -, rfl, rfl⟩ := h
    exact ⟨rfl, id, _, 0x01, htarget, SecureObject.headerFrom_of_none rfl _,
      (write_of_none s id _ _ _ hget).symm.trans (by rw [hpolicy])⟩
  · cases h
    exact ⟨rfl, id, _, 0x01, htarget, SecureObject.headerFrom_of_none rfl _, (write_of_some s id _ _ _ hget).symm⟩
  · cases h
    exact ⟨rfl, id, _, 0x01, htarget, SecureObject.headerFrom_of_none rfl _, (write_of_some s id _ _ _ hget).symm⟩
  · simp at h
  · simp at h

theorem handleWriteAesKey_stores (hc : apdu.IsWrite p1Aes) (h : handleWriteAesKey env apdu s = .ok (r, s')) :
    Stores apdu s r s' := by
  simp only [handleWriteAesKey, bind_eq_ok, ensure_eq_ok, orRefuse_eq_ok] at h
  obtain ⟨tlvs, ht, id, hid, policy, hp, -, -, key, -, h⟩ := h
  obtain ⟨hr, hs⟩ := write_of_end h
  have hpolicy := policy_eq ht hp
  have htarget : apdu.writeTarget = some id := (writeTarget_eq hc (by decide) ht).trans hid
  exact ⟨hr, id, .aesKey key, _, htarget, SecureObject.headerFrom_of_none rfl _, hpolicy ▸ hs⟩

theorem handleWriteHmacKey_stores (hc : apdu.IsWrite p1Hmac) (h : handleWriteHmacKey apdu s = .ok (r, s')) :
    Stores apdu s r s' := by
  simp only [handleWriteHmacKey, bind_eq_ok, ensure_eq_ok, orRefuse_eq_ok] at h
  obtain ⟨tlvs, ht, id, hid, -, -, policy, hp, -, -, key, -, -, -, h⟩ := h
  obtain ⟨hr, hs⟩ := write_of_end h
  have hpolicy := policy_eq ht hp
  have htarget : apdu.writeTarget = some id := (writeTarget_eq hc (by decide) ht).trans hid
  subst hpolicy
  refine ⟨hr, id, .hmacKey key (apdu.policy.bind arHeaderUnion), _, htarget, ?_, hs⟩
  intro header hsome
  exact ⟨hc, (Option.some.inj hsome).symm⟩

theorem handleWriteRsaKey_stores (hc : apdu.IsWrite p1Rsa) (h : handleWriteRsaKey K env apdu s = .ok (r, s')) :
    Stores apdu s r s' := by
  simp only [handleWriteRsaKey, bind_eq_ok, ensure_eq_ok, orRefuse_eq_ok] at h
  obtain ⟨tlvs, ht, -, -, id, hid, policy, hp, bits, -, -, -, obj, hobj, h⟩ := h
  obtain ⟨hr, hs⟩ := write_of_end h
  obtain ⟨b, der, staged, rfl⟩ := rsaObject_cases hobj
  have hpolicy := policy_eq ht hp
  have htarget : apdu.writeTarget = some id := (writeTarget_eq hc (by decide) ht).trans hid
  exact ⟨hr, id, .rsaKeyPair b der staged, _, htarget, SecureObject.headerFrom_of_none rfl _, hpolicy ▸ hs⟩

/-- What a WriteECKey command asks for comes from its TLVs. -/
theorem ecKeyRequest_target {q : EcKeyRequest} (h : ecKeyRequest env apdu s = .ok q) :
    ∃ tlvs, apdu.tlvs = .ok tlvs ∧ objectIdOf tlvs tag1 = some q.objId ∧ policyOf tlvs = .ok q.policy := by
  simp only [ecKeyRequest, bind_eq_ok, ensure_eq_ok, orRefuse_eq_ok] at h
  obtain ⟨tlvs, ht, id, hid, policy, hp, -, -, cb, -, c, -, -, -, -, -, h⟩ := h
  refine ⟨tlvs, ht, ?_⟩
  split at h
  · cases h
    exact ⟨hid, hp⟩
  · split at h
    · cases h
      exact ⟨hid, hp⟩
    split at h
    · cases h
      exact ⟨hid, hp⟩
    · simp at h

/-- An EC key object keeps no header. -/
theorem EcKeyRequest.object_headerFrom (q : EcKeyRequest) (apdu : ParsedApdu) : (q.object K env).HeaderFrom apdu := by
  obtain ⟨id, p, c, source⟩ := q
  apply SecureObject.headerFrom_of_none
  cases source with
  | generate => cases c <;> rfl
  | importPrivate priv => rfl
  | importPublic pub => rfl

theorem handleWriteEcKey_stores (hc : apdu.IsWrite p1Ec) (h : handleWriteEcKey K env apdu s = .ok (r, s')) :
    Stores apdu s r s' := by
  simp only [handleWriteEcKey, bind_eq_ok, EcKeyRequest.perform_eq] at h
  obtain ⟨q, hq, h⟩ := h
  obtain ⟨hr, hs⟩ := write_of_end h
  obtain ⟨tlvs, ht, hid, hp⟩ := ecKeyRequest_target hq
  have hpolicy := policy_eq ht hp
  have htarget : apdu.writeTarget = some q.objId := (writeTarget_eq hc (by decide) ht).trans hid
  exact ⟨hr, q.objId, q.object K env, _, htarget, q.object_headerFrom _, hpolicy ▸ hs⟩

theorem WriteHandler.stores {cred : UInt8} {h : Cmd (ApduResponse × ObjectStore)} (hc : apdu.IsWrite cred)
    (hw : WriteHandler K env apdu s cred h) (hr : h = .ok (r, s')) : Stores apdu s r s' := by
  cases hw with
  | binary => exact handleWriteBinary_stores hc hr
  | counter => exact handleWriteCounter_stores hc hr
  | ec => exact handleWriteEcKey_stores hc hr
  | rsa => exact handleWriteRsaKey_stores hc hr
  | aes => exact handleWriteAesKey_stores hc hr
  | hmac => exact handleWriteHmacKey_stores hc hr

/-! ### Commands that change another object -/

theorem ecdhRequest_output {strict : Bool} {q : EcdhRequest} (h : ecdhRequest K apdu s strict = .ok q) :
    apdu.deriveTarget = q.output := by
  simp only [ecdhRequest, bind_eq_ok, pure_eq_ok, Except.ok.injEq] at h
  obtain ⟨tlvs, ht, _, -, _, -, _, -, output, ho, _, -, _, -, _, -, rfl⟩ := h
  rw [deriveTarget_eq ht, objectIdOf]
  unfold ecdhOutputId at ho
  cases hv : valueOf tlvs tag7 with
  | none =>
    rw [hv] at ho
    cases ho
    rfl
  | some v =>
    rw [hv] at ho
    cases hid : ObjectId.ofBytes v with
    | none => simp [hid] at ho
    | some id =>
      rw [Option.bind_some, hid]
      simpa [hid] using ho

/-- How a command changes the objects. -/
inductive ObjectEffect (K : Crates) (env : Env) (apdu : ParsedApdu) (s : ObjectStore) :
    ApduResponse → ObjectStore → Prop
  | keeps {r : ApduResponse} {s' : ObjectStore} (ho : s'.objects = s.objects) (hm : s'.metadata = s.metadata) :
      ObjectEffect K env apdu s r s'
  | writes {cred : UInt8} {h : Cmd (ApduResponse × ObjectStore)} {id : ObjectId} {obj : SecureObject}
      {origin : UInt8} (hc : apdu.IsWrite cred) (hw : WriteHandler K env apdu s cred h)
      (hr : h = .ok (.success, s.write id obj apdu.policy origin)) (ht : apdu.writeTarget = some id)
      (hheader : obj.HeaderFrom apdu) :
      ObjectEffect K env apdu s .success (s.write id obj apdu.policy origin)
  | derives {q : EcdhRequest} {id : ObjectId} {obj : SecureObject} (hc : apdu.IsEcdh)
      (ht : apdu.deriveTarget = some id) (hd : q.Derives s id obj) :
      ObjectEffect K env apdu s .success (s.insert id obj)
  | deletes {id : ObjectId} (hc : apdu.IsDeleteObject) (ht : apdu.objectTarget = some id) (hex : s.get id ≠ none) :
      ObjectEffect K env apdu s .success (s.remove id).2
  | clears (hc : apdu.IsDeleteAll) : ObjectEffect K env apdu s .success s.clear

theorem Handled.objectEffect (h : Handled K env apdu s a r s') : ObjectEffect K env apdu s r s' := by
  cases h with
  | idle => exact .keeps rfl rfl
  | write hc hw hr =>
    obtain ⟨rfl, id, obj, origin, ht, hheader, rfl⟩ := hw.stores hc hr
    exact .writes hc hw hr ht hheader
  | ecdh hc hr =>
    rcases handleEcdh_eq_ok hr with rfl | ⟨rfl, q, id, obj, hq, hd, rfl⟩
    · exact .keeps rfl rfl
    · exact .derives hc ((ecdhRequest_output hq).trans hd.1) hd
  | delete hc hr =>
    obtain ⟨rfl, tlvs, id, ht, hid, -, hex, rfl⟩ := handleDelete_eq_ok hr
    exact .deletes hc ((objectTarget_eq ht).trans hid) hex
  | deleteAll hc => exact .clears hc
  | curve hw hr =>
    obtain ⟨-, rfl | ⟨m, rfl⟩⟩ := hw.eq_ok hr
    · exact .keeps rfl rfl
    · exact .keeps (ObjectStore.persist_objects _) (ObjectStore.persist_metadata _)
  | init k _ hr =>
    obtain ⟨-, _, _, _, _, -, -, -, -, rfl⟩ := initHandler_eq_ok hr
    exact .keeps rfl rfl
  | update k _ hr =>
    obtain ⟨_, _, _, _, -, -, -, -, -, rfl⟩ := updateHandler_eq_ok hr
    exact .keeps rfl rfl
  | final k _ hr =>
    obtain ⟨_, _, _, -, -, -, rfl⟩ := finalHandler_eq_ok hr
    exact .keeps rfl rfl
  | createCryptoObj _ hr =>
    obtain ⟨-, _, _, _, -, -, -, rfl⟩ := handleCryptoObjCreate_eq_ok hr
    exact .keeps rfl rfl
  | deleteCryptoObj _ hr =>
    obtain ⟨-, _, _, -, -, rfl⟩ := handleCryptoObjDelete_eq_ok hr
    exact .keeps rfl rfl
  | setScp hr =>
    obtain ⟨-, -, b, rfl⟩ := handleSetPlatformScp_eq_ok hr
    exact .keeps (ObjectStore.persist_objects _) (ObjectStore.persist_metadata _)

/-- An object changes only by an accepted command that names it. -/
theorem ObjectEffect.get_of_elsewhere {cred : UInt8} (h : ObjectEffect K env apdu s r s')
    (hno : r.sw = swNoError → ¬ apdu.Replaces cred id ∧ ¬ apdu.Writes cred id) : s'.get id = s.get id := by
  cases h with
  | keeps ho _ => exact congrArg (Finmap.lookup id) ho
  | @writes c _ id' obj origin hc _ _ ht _ =>
    obtain ⟨hrep, hwr⟩ := hno rfl
    have hne : id ≠ id' := by
      rintro rfl
      by_cases hcred : c = cred
      · exact hwr ⟨hcred ▸ hc, ht⟩
      · exact hrep (.inr (.inr (.inl ⟨c, hcred, hc, ht⟩)))
    rw [get_write, if_neg hne]
  | @derives q id' obj hc ht hd =>
    have hne : id ≠ id' := by
      rintro rfl
      exact (hno rfl).1 (.inr (.inr (.inr ⟨hc, ht⟩)))
    rw [ObjectStore.get_insert, if_neg hne]
  | @deletes id' hc ht hex =>
    have hne : id ≠ id' := by
      rintro rfl
      exact (hno rfl).1 (.inr (.inl ⟨hc, ht⟩))
    rw [ObjectStore.get_remove, if_neg hne]
  | clears hc => exact absurd (.inl hc) (hno rfl).1

theorem ObjectEffect.get_of_not_write {cred : UInt8} (h : ObjectEffect K env apdu s r s')
    (hno : r.sw = swNoError → ¬ apdu.Replaces cred id) (hw : ¬ (r.sw = swNoError ∧ apdu.Writes cred id)) :
    s'.get id = s.get id := by
  apply h.get_of_elsewhere
  intro hr
  exact ⟨hno hr, fun hwr => hw ⟨hr, hwr⟩⟩

/-- A write of the type of the object does not replace it. -/
theorem ParsedApdu.Writes.not_replaces {cred : UInt8} (h : apdu.Writes cred id) : ¬ apdu.Replaces cred id := by
  have hins : ∀ {ins : UInt8}, apdu.IsCommand ins → insWrite = ins := fun hc => h.1.1.2.symm.trans hc.2
  rintro (hall | ⟨hdel, -⟩ | ⟨c, hc, hwrite, -⟩ | ⟨hecdh, -⟩)
  · exact absurd (hins hall.1) (by decide)
  · exact absurd (hins hdel.1) (by decide)
  · exact hc (hwrite.2.symm.trans h.1.2)
  · exact absurd (hins hecdh.1) (by decide)

end Handlers

end SE050
end Simulators
