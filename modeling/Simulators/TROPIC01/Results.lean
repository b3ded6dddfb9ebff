/-
# TROPIC01: a result begins with its code

Every handler that succeeds answers with `resultOk` and its fields, and every
error code is neither that nor zero. So the first byte of a result tells whether
a command was executed, was refused or was answered by zeros.

Key theorems: `handle_success`, `handle_error`, `settle_handle`.
-/
import Simulators.TROPIC01.Persistence

namespace Simulators
namespace TROPIC01

open Handler

/-- A code that is not success, nor the zero of a command that was not executed. -/
def IsErrorCode (code : UInt8) : Prop := code ≠ 0 ∧ code ≠ resultOk

instance (code : UInt8) : Decidable (IsErrorCode code) := inferInstanceAs (Decidable (_ ∧ _))

section Handlers

variable {K : Crates} {g : OsRng} {x : Ctx} {c : Bytes}

@[simp] theorem u16At_refuses {off : ℕ} {Q : UInt8 → Prop} : (u16At c off).Refuses Q := by
  simp only [u16At, refuses_bind, refuses_index, refuses_pure, implies_true, and_self]

@[simp] theorem u32At_refuses {off : ℕ} {Q : UInt8 → Prop} : (u32At c off).Refuses Q := by
  simp only [u32At, refuses_bind, refuses_index, refuses_pure, implies_true, and_self]

theorem errorCodes : IsErrorCode resultFail ∧ IsErrorCode resultUnauthorized ∧ IsErrorCode resultSlotNotEmpty ∧
    IsErrorCode resultInvalidKey ∧ IsErrorCode resultUpdateErr ∧ IsErrorCode resultCounterInvalid ∧
    IsErrorCode resultSlotEmpty ∧ IsErrorCode resultSlotInvalid := by decide

@[simp] theorem authorize_error {addr pos : ℕ} : (x.authorize addr pos).Refuses IsErrorCode := by
  have hallowed : (x.allowed addr pos).Refuses IsErrorCode := by
    unfold Ctx.allowed
    exact refuses_ite.mpr ⟨fun _ => refuses_ok, fun _ => refuses_panic⟩
  simp only [Ctx.authorize, refuses_bind, refuses_ensure, hallowed, errorCodes, implies_true, and_self]

@[simp] theorem target_error {max per addr : ℕ} : (x.target max per c addr).Refuses IsErrorCode := by
  simp only [Ctx.target, refuses_bind, u16At_refuses, refuses_ensure, authorize_error, refuses_pure,
    errorCodes, implies_true, and_self]

@[simp] theorem configAddr_error {addr : UInt16} {uapAddr : ℕ} :
    (x.configAddr addr uapAddr).Refuses IsErrorCode := by
  simp only [Ctx.configAddr, refuses_bind, refuses_ensure, authorize_error, refuses_pure, errorCodes,
    implies_true, and_self]

theorem handle_error {id : CmdId} : (x.handle K g id c).Refuses IsErrorCode := by
  cases id
  all_goals
    simp only [Ctx.handle, Ctx.ping, Ctx.pairingKeyWrite, Ctx.pairingKeyRead, Ctx.pairingKeyInvalidate,
      Ctx.rConfigWrite, Ctx.configRead, Ctx.rConfigErase, Ctx.iConfigWrite, Ctx.rMemWrite, Ctx.rMemRead, Ctx.rMemErase,
      Ctx.random, Ctx.eccGenerate, Ctx.eccStore, Ctx.eccRead, Ctx.eccErase, Ctx.ecdsaSign, Ctx.eddsaSign,
      Ctx.mcounterInit, Ctx.mcounterUpdate, Ctx.mcounterGet, Ctx.macAndDestroy, Ctx.pairingSlot, Ctx.rMemSlot,
      Ctx.eccSlot, Ctx.mcounterIndex, Ctx.macanddSlot, refuses_bind, refuses_ite, refuses_ensure, refuses_orRefuse,
      refuses_slice, refuses_index, refuses_array, refuses_pure, u16At_refuses, u32At_refuses, authorize_error,
      target_error, configAddr_error, errorCodes, implies_true, and_self]

/-- A result is `resultOk` with its fields, or one error code, over the device as it was. -/
theorem settle_handle {id : CmdId} {r : Bytes} {dev' : Device}
    (h : settle (fun code => [code]) x.dev (x.handle K g id c) = .ok (r, dev')) :
    x.handle K g id c = .ok (r, dev') ∨ (∃ code, IsErrorCode code ∧ r = [code]) ∧ dev' = x.dev := by
  rcases settle_eq_ok.mp h with hok | ⟨code, hrefuse, hr, hdev⟩
  · exact .inl hok
  · exact .inr ⟨⟨code, handle_error code hrefuse, hr.symm⟩, hdev.symm⟩

/-- A handler that succeeds says so in the first byte. -/
theorem handle_success {id : CmdId} : (x.handle K g id c).Returns fun r => ∃ fields, r.1 = ok fields := by
  cases id
  all_goals
    simp only [Ctx.handle, Ctx.ping, Ctx.pairingKeyWrite, Ctx.pairingKeyRead, Ctx.pairingKeyInvalidate,
      Ctx.rConfigWrite, Ctx.configRead, Ctx.rConfigErase, Ctx.iConfigWrite, Ctx.rMemWrite, Ctx.rMemRead, Ctx.rMemErase,
      Ctx.random, Ctx.eccGenerate, Ctx.eccStore, Ctx.eccRead, Ctx.eccErase, Ctx.ecdsaSign, Ctx.eddsaSign,
      Ctx.mcounterInit, Ctx.mcounterUpdate, Ctx.mcounterGet, Ctx.macAndDestroy, returns_bind, returns_ite, returns_pure,
      exists_apply_eq_apply', implies_true, and_self]

end Handlers

end TROPIC01
end Simulators
