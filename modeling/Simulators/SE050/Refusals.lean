/-
# SE050: a refusal is answered with an error

No handler refuses a command with the status of success, so a command whose
answer is success was carried out: the store after it is the one that its
handler made (`accepted`).

Key theorems: `WriteHandler.refuses`, `initHandler_refuses`, `updateHandler_refuses`, `accepted`.
-/
import Simulators.SE050.Writes

namespace Simulators
namespace SE050

open Handler

/-- A status other than success. -/
def IsError (sw : UInt16) : Prop := sw ≠ swNoError

instance : DecidablePred IsError := fun sw => inferInstanceAs (Decidable (sw ≠ swNoError))

theorem errorStatuses : IsError swWrongData ∧ IsError swConditionsNotSatisfied ∧ IsError swCommandNotAllowed := by
  decide

section Handlers

variable {K : Crates} {env : Env} {apdu : ParsedApdu} {a : Bool} {s s' : ObjectStore} {r : ApduResponse}
  {tlvs : List Tlv} {id : ObjectId}

/-- An answer of success comes from the handler. -/
theorem accepted {h : Cmd (ApduResponse × ObjectStore)} (hd : settle ApduResponse.error s h = .ok (r, s'))
    (hh : h.Refuses IsError) (hr : r.sw = swNoError) : h = .ok (r, s') := by
  rcases settle_eq_ok.mp hd with hok | ⟨sw, hrefuse, rfl, -⟩
  · exact hok
  · exact absurd hr (hh sw hrefuse)

@[simp] theorem tlvs_refuses : apdu.tlvs.Refuses IsError := by
  unfold ParsedApdu.tlvs
  split
  · exact refuses_ok
  · exact refuses_refuse.mpr errorStatuses.1

@[simp] theorem policyOf_refuses : (policyOf tlvs).Refuses IsError := by
  unfold policyOf
  split
  · exact refuses_ok
  · exact refuses_refuse.mpr errorStatuses.1

theorem handleWriteBinary_refuses : (handleWriteBinary apdu s).Refuses IsError := by
  simp only [handleWriteBinary, refuses_bind, refuses_ensure, refuses_orRefuse, tlvs_refuses, policyOf_refuses,
    errorStatuses, implies_true, true_and]
  intro _ _ _ _ _ _ _ _
  split
  · simp only [refuses_bind, refuses_ensure, refuses_pure, refuses_copyAt, errorStatuses, implies_true, and_self]
  · exact refuses_refuse.mpr errorStatuses.2.1
  · simp only [refuses_bind, refuses_ensure, refuses_pure, refuses_copyAt, errorStatuses, implies_true, and_self]

@[simp] theorem counterAt_refuses : (counterAt s id).Refuses IsError := by
  unfold counterAt
  split
  · exact refuses_ok
  · exact refuses_refuse.mpr errorStatuses.2.1
  · exact refuses_ok

theorem handleWriteCounter_refuses : (handleWriteCounter apdu s).Refuses IsError := by
  simp only [handleWriteCounter, refuses_bind, refuses_ensure, refuses_orRefuse, tlvs_refuses, policyOf_refuses,
    counterAt_refuses, errorStatuses, implies_true, true_and]
  intro _ _ _ _ _ _ _ _ _ _
  split
  · simp only [refuses_bind, refuses_ensure, refuses_pure, errorStatuses, implies_true, and_self]
  · exact refuses_pure
  · exact refuses_pure
  · exact refuses_refuse.mpr errorStatuses.2.1
  · exact refuses_refuse.mpr errorStatuses.2.1

@[simp] theorem aesKeyMaterial_refuses {generated : Bool} {keyData : Option Bytes} :
    (aesKeyMaterial env generated keyData).Refuses IsError := by
  simp only [aesKeyMaterial, refuses_ite, refuses_bind, refuses_orRefuse, refuses_ensure, refuses_pure,
    errorStatuses, implies_true, and_self]

theorem handleWriteAesKey_refuses : (handleWriteAesKey env apdu s).Refuses IsError := by
  simp only [handleWriteAesKey, refuses_ite, refuses_bind, refuses_ensure, refuses_orRefuse, refuses_pure,
    tlvs_refuses, policyOf_refuses, aesKeyMaterial_refuses, errorStatuses, implies_true, and_self]

theorem handleWriteHmacKey_refuses : (handleWriteHmacKey apdu s).Refuses IsError := by
  simp only [handleWriteHmacKey, refuses_ite, refuses_bind, refuses_ensure, refuses_orRefuse, refuses_pure,
    tlvs_refuses, policyOf_refuses, errorStatuses, implies_true, and_self]

@[simp] theorem rsaRefusal_refuses : (rsaRefusal env.version apdu tlvs).Refuses IsError := by
  have hany : ∀ b : Bool, IsError (if b = true then swWrongData else swConditionsNotSatisfied) := by decide
  simp only [rsaRefusal, refuses_ite, refuses_refuse, refuses_ensure, refuses_pure, hany, errorStatuses, implies_true,
    and_self]

@[simp] theorem rsaSizeBits_refuses : (rsaSizeBits tlvs).Refuses IsError := by
  unfold rsaSizeBits
  split
  · exact refuses_ok
  · split
    · exact refuses_ok
    · exact refuses_refuse.mpr errorStatuses.1

@[simp] theorem rsaObject_refuses {bits : Option UInt16} {c : RsaComponents} :
    (rsaObject K env s id bits c).Refuses IsError := by
  have hstaged : (rsaStaged s id).Refuses IsError := by
    unfold rsaStaged
    split
    · exact refuses_ok
    · exact refuses_refuse.mpr errorStatuses.2.1
    · exact refuses_ok
  unfold rsaObject
  split
  · simp only [rsaImport, refuses_bind, hstaged, true_and]
    intro _ _
    split
    · exact refuses_ok
    · exact refuses_ok
  · simp only [rsaGenerate, refuses_bind, refuses_orRefuse, refuses_ensure, refuses_pure, errorStatuses, implies_true,
      and_self]

theorem handleWriteRsaKey_refuses : (handleWriteRsaKey K env apdu s).Refuses IsError := by
  simp only [handleWriteRsaKey, refuses_ite, refuses_bind, refuses_ensure, refuses_orRefuse, refuses_pure,
    tlvs_refuses, policyOf_refuses, rsaRefusal_refuses, rsaSizeBits_refuses, rsaObject_refuses, errorStatuses,
    implies_true, and_self]

@[simp] theorem ecKeyRequest_refuses : (ecKeyRequest env apdu s).Refuses IsError := by
  simp only [ecKeyRequest, refuses_bind, refuses_ensure, refuses_orRefuse, tlvs_refuses, policyOf_refuses,
    errorStatuses, implies_true, true_and]
  intro _ _ _ _ _ _ _ _ _ _ _ _ _ _ _ _
  split
  · exact refuses_pure
  · simp only [refuses_ite, refuses_pure, refuses_refuse, errorStatuses, implies_true, and_self]

theorem handleWriteEcKey_refuses : (handleWriteEcKey K env apdu s).Refuses IsError := by
  simp only [handleWriteEcKey, refuses_ite, refuses_bind, refuses_pure, ecKeyRequest_refuses, implies_true, and_self]

theorem WriteHandler.refuses {cred : UInt8} {h : Cmd (ApduResponse × ObjectStore)}
    (hw : WriteHandler K env apdu s cred h) : h.Refuses IsError := by
  cases hw with
  | binary => exact handleWriteBinary_refuses
  | counter => exact handleWriteCounter_refuses
  | ec => exact handleWriteEcKey_refuses
  | rsa => exact handleWriteRsaKey_refuses
  | aes => exact handleWriteAesKey_refuses
  | hmac => exact handleWriteHmacKey_refuses

/-! ### Multi-step operations -/

@[simp] theorem subtypeFor_refuses {cid : UInt16} {context : UInt8} : (subtypeFor s cid context).Refuses IsError := by
  simp only [subtypeFor, refuses_bind, refuses_ensure, refuses_orRefuse, refuses_pure, errorStatuses, implies_true,
    and_self]

@[simp] theorem initialVector_refuses : (initialVector tlvs).Refuses IsError := by
  unfold initialVector
  split
  · exact refuses_ok
  · split
    · exact refuses_ok
    · simp only [refuses_ite, refuses_ok, refuses_refuse, errorStatuses, implies_true, and_self]

theorem initHandler_refuses (k : ContextKind) : (initHandler apdu s k).Refuses IsError := by
  cases k with
  | digest =>
    simp only [initHandler, handleDigestInit, refuses_bind, refuses_orRefuse, refuses_pure, tlvs_refuses,
      subtypeFor_refuses, errorStatuses, implies_true, and_self]
  | cipher =>
    simp only [initHandler, handleCipherInit, refuses_bind, refuses_ensure, refuses_orRefuse, refuses_pure,
      tlvs_refuses, subtypeFor_refuses, initialVector_refuses, errorStatuses, implies_true, and_self]
  | mac =>
    simp only [initHandler, handleMacInit, refuses_bind, refuses_ensure, refuses_orRefuse, refuses_pure, tlvs_refuses,
      subtypeFor_refuses, errorStatuses, implies_true, and_self]

@[simp] theorem aesKeyOf_refuses : (aesKeyOf s id).Refuses IsError := by
  unfold aesKeyOf
  split
  · exact refuses_ok
  · exact refuses_refuse.mpr errorStatuses.2.1

@[simp] theorem applyMode_refuses {mode : UInt8} {key data : Bytes} {chain : Block} {e f : Bool} :
    (applyMode K mode key chain data e f).Refuses IsError := by
  simp only [applyMode, ecbProcess, cbcProcess, refuses_ite, refuses_bind, refuses_ensure, refuses_orRefuse,
    refuses_pure, refuses_refuse, refuses_blocksOf, errorStatuses, implies_true, and_self]

theorem updateHandler_refuses (k : ContextKind) : (updateHandler K apdu s k).Refuses IsError := by
  cases k with
  | digest =>
    simp only [updateHandler, handleDigestUpdate, refuses_bind, refuses_orRefuse, tlvs_refuses, errorStatuses,
      implies_true, true_and]
    intro _ _ _ _ _ _
    split
    · exact refuses_pure
    · exact refuses_refuse.mpr errorStatuses.2.1
  | cipher =>
    simp only [updateHandler, handleCipherUpdate, refuses_bind, refuses_orRefuse, tlvs_refuses, errorStatuses,
      implies_true, true_and]
    intro _ _ _ _ _ _
    split
    · simp only [refuses_bind, refuses_array, refuses_pure, aesKeyOf_refuses, applyMode_refuses, implies_true, and_self]
    · exact refuses_refuse.mpr errorStatuses.2.1
  | mac =>
    simp only [updateHandler, handleMacUpdate, refuses_bind, refuses_orRefuse, tlvs_refuses, errorStatuses,
      implies_true, true_and]
    intro _ _ _ _
    split
    · exact refuses_pure
    · exact refuses_refuse.mpr errorStatuses.2.1

theorem handleCryptoObjDelete_refuses : (handleCryptoObjDelete apdu s).Refuses IsError := by
  simp only [handleCryptoObjDelete, refuses_bind, refuses_orRefuse, refuses_pure, tlvs_refuses, errorStatuses,
    implies_true, and_self]

end Handlers

end SE050
end Simulators
