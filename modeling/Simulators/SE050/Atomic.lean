/-
# SE050: failed commands

A command that is answered with an error status leaves the whole store as it
was, except that a DigestFinal, CipherFinal or MACFinal may consume the
context it was sent to finish. The Final handlers take the context out of the
map before they look at its kind, so a Final of one kind sent to a context of
another consumes it as well (`MisaddressedFinal`); `failsAtomically_iff` says
that this is the only command that breaks the rule.
-/
import Simulators.SE050.Transition

namespace Simulators
namespace SE050

open Handler

variable {K : Crates} {env : Env} {apdu : ParsedApdu} {a : Bool} {s s' : ObjectStore} {r : ApduResponse}

/-- An error leaves the store as it was, or is a Final that consumed a context of its own kind. -/
def FailsAtomically (K : Crates) (env : Env) (apdu : ParsedApdu) (a : Bool) (s : ObjectStore) : Prop :=
  ∀ r s', dispatch K env apdu s a = .ok (r, s') → r.sw ≠ swNoError → s' = s ∨
    ∃ k cid c, apdu.IsFinal k ∧ apdu.finalTarget = some cid ∧ s.cryptoObjects.lookup cid = some c ∧
      c.kind = k ∧ s' = s.dropContext cid

/-- A Final command whose target is a context of another kind. -/
def MisaddressedFinal (apdu : ParsedApdu) (s : ObjectStore) : Prop :=
  ∃ k cid c, apdu.IsFinal k ∧ apdu.finalTarget = some cid ∧ s.cryptoObjects.lookup cid = some c ∧ c.kind ≠ k

theorem ContextKind.cred_injective : Function.Injective ContextKind.cred := by
  intro k k' h
  cases k <;> cases k' <;> first | rfl | exact absurd h (by decide)

/-- A command is a Final of one kind at most. -/
theorem ParsedApdu.IsFinal.unique {k k' : ContextKind} (h : apdu.IsFinal k) (h' : apdu.IsFinal k') : k = k' :=
  ContextKind.cred_injective (h.2.1.symm.trans h'.2.1)

theorem dropContext_ne {cid : UInt16} {c : CryptoObjectState} (h : s.cryptoObjects.lookup cid = some c) :
    s.dropContext cid ≠ s := by
  intro heq
  have := congrArg (fun t => t.cryptoObjects.lookup cid) heq
  simp only [ObjectStore.dropContext, Finmap.lookup_erase, h] at this
  cases this

theorem finalTarget_eq_some {cid : UInt16} :
    apdu.finalTarget = some cid ↔ ∃ tlvs, apdu.tlvs = .ok tlvs ∧ cryptoIdOf tlvs tag2 = some cid := by
  simp only [ParsedApdu.finalTarget, ParsedApdu.tlvs_eq_ok]
  cases apdu.parseTlvs <;> simp

/-- A misaddressed Final is answered `6985` and consumes the context. -/
theorem dispatch_misaddressed {k : ContextKind} {cid : UInt16} {c : CryptoObjectState} (hf : apdu.IsFinal k)
    (ht : apdu.finalTarget = some cid) (hl : s.cryptoObjects.lookup cid = some c) (hk : c.kind ≠ k) :
    dispatch K env apdu s a = .ok (.error swConditionsNotSatisfied, s.dropContext cid) := by
  obtain ⟨tlvs, htl, hid⟩ := finalTarget_eq_some.mp ht
  rw [dispatch, settle_eq_ok, dispatchCmd_final hf]
  left
  cases k
  · simp only [finalHandler, handleDigestFinal, htl, hid, hl, orRefuse, ok_bind]
    cases c <;> first | rfl | exact absurd rfl hk
  · simp only [finalHandler, handleCipherFinal, htl, hid, hl, orRefuse, ok_bind]
    cases c <;> first | rfl | exact absurd rfl hk
  · simp only [finalHandler, handleMacFinal, htl, hid, hl, orRefuse, ok_bind]
    cases c <;> first | rfl | exact absurd rfl hk

/-- Only a Final changes the store and is answered with an error. -/
theorem Transition.of_error (h : Transition K env apdu a s r s') (hr : r.sw ≠ swNoError) : s' = s ∨
    ∃ k cid c, apdu.IsFinal k ∧ apdu.finalTarget = some cid ∧ s.cryptoObjects.lookup cid = some c ∧
      s' = s.dropContext cid := by
  cases h with
  | idle => exact .inl rfl
  | final _ hc ht hl => exact .inr ⟨_, _, _, hc, ht, hl, rfl⟩
  | context hsw => exact absurd hsw hr
  | _ => exact absurd rfl hr

/-- A failed command is atomic exactly when it is no misaddressed Final. -/
theorem failsAtomically_iff (K : Crates) (env : Env) (apdu : ParsedApdu) (a : Bool) (s : ObjectStore) :
    FailsAtomically K env apdu a s ↔ ¬ MisaddressedFinal apdu s := by
  constructor
  · rintro h ⟨k, cid, c, hf, ht, hl, hk⟩
    rcases h _ _ (dispatch_misaddressed hf ht hl hk) (by decide) with heq | ⟨k', cid', c', hf', ht', hl', hk', -⟩
    · exact dropContext_ne hl heq
    · obtain rfl := hf.unique hf'
      rw [ht, Option.some.injEq] at ht'
      subst ht'
      rw [hl, Option.some.injEq] at hl'
      subst hl'
      exact hk hk'
  · intro hno r s' hd hr
    rcases (dispatch_transition hd).of_error hr with rfl | ⟨k, cid, c, hf, ht, hl, rfl⟩
    · exact .inl rfl
    · refine .inr ⟨k, cid, c, hf, ht, hl, ?_, rfl⟩
      by_contra hk
      exact hno ⟨k, cid, c, hf, ht, hl, hk⟩

/-- A store with an open digest context `0001`. -/
def openDigest : ObjectStore := ObjectStore.new.setContext 0x0001 (.digest 0x04 [0x61])

/-- MACFinal for the context `0001`. -/
def macFinal : ParsedApdu := ⟨0x80, 0x03, 0x0D, 0x0D, [0x42, 0x02, 0x00, 0x01], none⟩

/-- MACFinal on a digest context: `6985`, and the context is gone. -/
theorem macFinal_consumes_digest :
    dispatch .blank .unset macFinal openDigest false = .ok (.error swConditionsNotSatisfied, .new) ∧
      openDigest.cryptoObjects.lookup 0x0001 = some (.digest 0x04 [0x61]) ∧
      ¬ FailsAtomically .blank .unset macFinal false openDigest := by
  refine ⟨by decide +kernel, by decide +kernel, ?_⟩
  intro h
  have hmac : macFinal.IsFinal .mac := by decide
  have hdrop : dispatch .blank .unset macFinal openDigest false =
      .ok (.error swConditionsNotSatisfied, openDigest.dropContext 0x0001) :=
    dispatch_misaddressed (c := .digest 0x04 [0x61]) hmac (by decide +kernel) (by decide +kernel) (by decide)
  rcases h _ _ hdrop (by decide) with heq | ⟨k, cid, c, hf, ht, hl, hk, -⟩
  · exact absurd (congrArg (·.cryptoObjects.lookup 0x0001) heq) (by decide +kernel)
  · obtain rfl := hf.unique hmac
    obtain rfl : cid = 0x0001 := by
      have := ht.symm.trans (by decide +kernel : macFinal.finalTarget = some 0x0001)
      exact Option.some.inj this
    obtain rfl : c = .digest 0x04 [0x61] := Option.some.inj (hl.symm.trans (by decide +kernel))
    cases hk

end SE050
end Simulators
