/-
# SE050: the commands of the multi-step operations

Each Init starts the operation that its kind and the registered subtype call
for (`Starts`), each Update advances the running one (`Advances`), and a Final
takes it out of the map whatever it is. The digest, cipher and MAC handlers
differ in the tags they read and the states they keep; `initHandler_eq_ok`,
`updateHandler_eq_ok` and `finalHandler_eq_ok` say for all three which entry
of which map a command changes.
-/
import Simulators.SE050.Handled

namespace Simulators
namespace SE050

open Handler

/-- The P2 context byte a crypto object of the kind is created with. -/
def ContextKind.context : ContextKind → UInt8
  | .digest => 0x01
  | .cipher => 0x02
  | .mac => 0x03

/-- The algorithm or mode of a running operation. -/
def CryptoObjectState.subtype : CryptoObjectState → UInt8
  | .digest algo _ => algo
  | .cipher _ mode _ _ _ => mode
  | .mac algo _ _ _ => algo

/-- The operation that an Init starts. -/
inductive Starts (apdu : ParsedApdu) (tlvs : List Tlv) (s : ObjectStore) (subtype : UInt8) :
    ContextKind → CryptoObjectState → Prop
  | digest : Starts apdu tlvs s subtype .digest (.digest subtype [])
  | cipher {keyId : ObjectId} {chain : Block} (hk : objectIdOf tlvs tag1 = some keyId)
      (hex : s.existsId keyId = true) (hiv : initialVector tlvs = .ok chain) :
      Starts apdu tlvs s subtype .cipher (.cipher (apdu.p2 == p2EncryptInit) subtype keyId chain.bytes [])
  | mac {keyId : ObjectId} (hk : objectIdOf tlvs tag1 = some keyId) (hex : s.existsId keyId = true) :
      Starts apdu tlvs s subtype .mac (.mac subtype (apdu.p2 == p2MacValidate) keyId [])

/-- The answer to an Update, and the operation after it. -/
inductive Advances (K : Crates) (tlvs : List Tlv) (s : ObjectStore) :
    CryptoObjectState → ApduResponse → CryptoObjectState → Prop
  | digest {algo : UInt8} {data input : Bytes} (hin : valueOf tlvs tag3 = some input) :
      Advances K tlvs s (.digest algo data) .success (.digest algo (data ++ input))
  | cipher {encrypting : Bool} {mode : UInt8} {keyId : ObjectId} {chain chain' : Block}
      {pending input key output : Bytes} (hin : valueOf tlvs tag3 = some input) (hkey : aesKeyOf s keyId = .ok key)
      (hout : applyMode K mode key chain ((pending ++ input).take
        ((pending ++ input).length - (pending ++ input).length % 16)) encrypting false = .ok (output, chain')) :
      Advances K tlvs s (.cipher encrypting mode keyId chain.bytes pending) (.successWithTlvs [⟨tag1, output⟩])
        (.cipher encrypting mode keyId chain'.bytes ((pending ++ input).drop
          ((pending ++ input).length - (pending ++ input).length % 16)))
  | mac {algo : UInt8} {validate : Bool} {keyId : ObjectId} {data : Bytes} :
      Advances K tlvs s (.mac algo validate keyId data) .success
        (.mac algo validate keyId (data ++ (valueOf tlvs tag1).getD []))

theorem Advances.accepted {K : Crates} {tlvs : List Tlv} {s : ObjectStore} {c c' : CryptoObjectState}
    {r : ApduResponse} (h : Advances K tlvs s c r c') : r.sw = swNoError := by
  cases h <;> rfl

section Handlers

variable {K : Crates} {env : Env} {apdu : ParsedApdu} {a : Bool} {s s' : ObjectStore} {r : ApduResponse}
  {k : ContextKind}

theorem subtypeFor_eq_ok {cid : UInt16} {context subtype : UInt8} :
    subtypeFor s cid context = .ok subtype ↔ s.cryptoObjectTypes.lookup cid = some (context, subtype) := by
  simp only [subtypeFor, bind_eq_ok, orRefuse_eq_ok, ensure_eq_ok, pure_eq_ok, Except.ok.injEq]
  constructor
  · rintro ⟨⟨c, sub⟩, hl, _, rfl, rfl⟩
    exact hl
  · intro hl
    exact ⟨(context, subtype), hl, (), rfl, rfl⟩

/-- An accepted Init starts an operation on a crypto object of its kind. -/
theorem initHandler_eq_ok (h : initHandler apdu s k = .ok (r, s')) : r = .success ∧ ∃ tlvs cid subtype c,
    apdu.tlvs = .ok tlvs ∧ cryptoIdOf tlvs tag2 = some cid ∧
      s.cryptoObjectTypes.lookup cid = some (k.context, subtype) ∧ Starts apdu tlvs s subtype k c ∧
      s' = s.setContext cid c := by
  cases k with
  | digest =>
    simp only [initHandler, handleDigestInit, bind_eq_ok, orRefuse_eq_ok, subtypeFor_eq_ok] at h
    obtain ⟨tlvs, ht, cid, hcid, subtype, hsub, h⟩ := h
    cases h
    exact ⟨rfl, tlvs, cid, subtype, _, ht, hcid, hsub, .digest, rfl⟩
  | cipher =>
    simp only [initHandler, handleCipherInit, bind_eq_ok, orRefuse_eq_ok, ensure_eq_ok, subtypeFor_eq_ok] at h
    obtain ⟨tlvs, ht, keyId, hk, cid, hcid, subtype, hsub, -, hex, chain, hiv, h⟩ := h
    cases h
    exact ⟨rfl, tlvs, cid, subtype, _, ht, hcid, hsub, .cipher hk hex hiv, rfl⟩
  | mac =>
    simp only [initHandler, handleMacInit, bind_eq_ok, orRefuse_eq_ok, ensure_eq_ok, subtypeFor_eq_ok] at h
    obtain ⟨tlvs, ht, keyId, hk, cid, hcid, subtype, hsub, -, hex, h⟩ := h
    cases h
    exact ⟨rfl, tlvs, cid, subtype, _, ht, hcid, hsub, .mac hk hex, rfl⟩

/-- An accepted Update advances the operation of its crypto object, which is of its kind. -/
theorem updateHandler_eq_ok (h : updateHandler K apdu s k = .ok (r, s')) : ∃ tlvs cid c c',
    apdu.tlvs = .ok tlvs ∧ cryptoIdOf tlvs tag2 = some cid ∧ s.cryptoObjects.lookup cid = some c ∧ c.kind = k ∧
      Advances K tlvs s c r c' ∧ s' = s.setContext cid c' := by
  cases k with
  | digest =>
    simp only [updateHandler, handleDigestUpdate, bind_eq_ok, orRefuse_eq_ok] at h
    obtain ⟨tlvs, ht, cid, hcid, input, hin, h⟩ := h
    split at h
    · rename_i algo data hl
      cases h
      exact ⟨tlvs, cid, _, _, ht, hcid, hl, rfl, .digest hin, rfl⟩
    · simp at h
  | cipher =>
    simp only [updateHandler, handleCipherUpdate, bind_eq_ok, orRefuse_eq_ok] at h
    obtain ⟨tlvs, ht, cid, hcid, input, hin, h⟩ := h
    split at h
    · rename_i encrypting mode keyId chain pending hl
      simp only [bind_eq_ok, array_eq_ok] at h
      obtain ⟨key, hkey, chain, rfl, ⟨output, chain'⟩, hout, h⟩ := h
      cases h
      exact ⟨tlvs, cid, _, _, ht, hcid, hl, rfl, .cipher hin hkey hout, rfl⟩
    · simp at h
  | mac =>
    simp only [updateHandler, handleMacUpdate, bind_eq_ok, orRefuse_eq_ok] at h
    obtain ⟨tlvs, ht, cid, hcid, h⟩ := h
    split at h
    · rename_i algo validate keyId data hl
      cases h
      exact ⟨tlvs, cid, _, _, ht, hcid, hl, rfl, .mac, rfl⟩
    · simp at h

theorem finish_eq_ok {h : Cmd ApduResponse} {t : ObjectStore} (hf : finish t h = .ok (r, s')) : s' = t := by
  unfold finish at hf
  split at hf <;> simp_all

/-- A Final that gets as far as a running operation ends it. -/
theorem finalHandler_eq_ok (h : finalHandler K apdu s k = .ok (r, s')) : ∃ tlvs cid c,
    apdu.tlvs = .ok tlvs ∧ cryptoIdOf tlvs tag2 = some cid ∧ s.cryptoObjects.lookup cid = some c ∧
      s' = s.dropContext cid := by
  cases k with
  | digest =>
    simp only [finalHandler, handleDigestFinal, bind_eq_ok, orRefuse_eq_ok] at h
    obtain ⟨tlvs, ht, cid, hcid, c, hl, h⟩ := h
    exact ⟨tlvs, cid, c, ht, hcid, hl, finish_eq_ok h⟩
  | cipher =>
    simp only [finalHandler, handleCipherFinal, bind_eq_ok, orRefuse_eq_ok] at h
    obtain ⟨tlvs, ht, cid, hcid, c, hl, h⟩ := h
    exact ⟨tlvs, cid, c, ht, hcid, hl, finish_eq_ok h⟩
  | mac =>
    simp only [finalHandler, handleMacFinal, bind_eq_ok, orRefuse_eq_ok] at h
    obtain ⟨tlvs, ht, cid, hcid, c, hl, h⟩ := h
    exact ⟨tlvs, cid, c, ht, hcid, hl, finish_eq_ok h⟩

/-- A crypto object is created under an identifier that is not in use. -/
theorem handleCryptoObjCreate_eq_ok (h : handleCryptoObjCreate apdu s = .ok (r, s')) :
    r = .success ∧ ∃ tlvs cid context, apdu.tlvs = .ok tlvs ∧ cryptoIdOf tlvs tag1 = some cid ∧
      s.cryptoObjectTypes.lookup cid = none ∧ s' =
        { s with cryptoObjectTypes := s.cryptoObjectTypes.insert cid (context, (byteOf tlvs tag3).getD 0x00) } := by
  simp only [handleCryptoObjCreate, bind_eq_ok, orRefuse_eq_ok, ensure_eq_ok] at h
  obtain ⟨tlvs, ht, cid, hcid, context, -, -, hfree, h⟩ := h
  cases h
  exact ⟨rfl, tlvs, cid, context, ht, hcid, Finmap.lookup_eq_none.mpr hfree, rfl⟩

theorem handleCryptoObjDelete_eq_ok (h : handleCryptoObjDelete apdu s = .ok (r, s')) :
    r = .success ∧ ∃ tlvs cid, apdu.tlvs = .ok tlvs ∧ cryptoIdOf tlvs tag1 = some cid ∧
      s' = { s with cryptoObjectTypes := s.cryptoObjectTypes.erase cid
                    cryptoObjects := s.cryptoObjects.erase cid } := by
  simp only [handleCryptoObjDelete, bind_eq_ok, orRefuse_eq_ok] at h
  obtain ⟨tlvs, ht, cid, hcid, h⟩ := h
  cases h
  exact ⟨rfl, tlvs, cid, ht, hcid, rfl⟩

end Handlers

end SE050
end Simulators
