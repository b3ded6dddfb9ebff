/-
# SE050: running operations and registered crypto objects

The running operations are kept in one map and the crypto objects they run on
in another. In every state that commands lead to from an empty store, each
running operation belongs to a crypto object that was created for its kind and
with its algorithm, and the chain vector and pending bytes of a cipher are
of the sizes that its copies rely on (`contexts_registered`).

Key definitions: `ContextEffect`, `CryptoObjectState.Sized`, `ObjectStore.Registered`.
-/
import Simulators.SE050.Writes

namespace Simulators
namespace SE050

open Handler

/-! ### One command -/

/-- How a command changes the crypto objects and what runs on them. -/
inductive ContextEffect (K : Crates) (apdu : ParsedApdu) (s : ObjectStore) : ApduResponse → ObjectStore → Prop
  | keeps {r : ApduResponse} {s' : ObjectStore} (ho : s'.cryptoObjects = s.cryptoObjects)
      (ht : s'.cryptoObjectTypes = s.cryptoObjectTypes) : ContextEffect K apdu s r s'
  | starts {k : ContextKind} {cid : UInt16} {subtype : UInt8} {c : CryptoObjectState} {tlvs : List Tlv}
      (hc : apdu.IsInit k) (ht : apdu.tlvs = .ok tlvs) (hcid : cryptoIdOf tlvs tag2 = some cid)
      (hsub : s.cryptoObjectTypes.lookup cid = some (k.context, subtype)) (hstart : Starts apdu tlvs s subtype k c) :
      ContextEffect K apdu s .success (s.setContext cid c)
  | advances {k : ContextKind} {cid : UInt16} {c c' : CryptoObjectState} {tlvs : List Tlv} {r : ApduResponse}
      (hc : apdu.IsStep k p2Update) (ht : apdu.tlvs = .ok tlvs) (hcid : cryptoIdOf tlvs tag2 = some cid)
      (hl : s.cryptoObjects.lookup cid = some c) (hadv : Advances K tlvs s c r c') :
      ContextEffect K apdu s r (s.setContext cid c')
  | ends {k : ContextKind} {cid : UInt16} {tlvs : List Tlv} {r : ApduResponse} (hc : apdu.IsFinal k)
      (ht : apdu.tlvs = .ok tlvs) (hcid : cryptoIdOf tlvs tag2 = some cid) :
      ContextEffect K apdu s r (s.dropContext cid)
  | creates {cid : UInt16} {entry : UInt8 × UInt8} (hfree : s.cryptoObjectTypes.lookup cid = none) :
      ContextEffect K apdu s .success { s with cryptoObjectTypes := s.cryptoObjectTypes.insert cid entry }
  | deletes {cid : UInt16} {tlvs : List Tlv} (hc : apdu.IsDeleteCryptoObj) (ht : apdu.tlvs = .ok tlvs)
      (hcid : cryptoIdOf tlvs tag1 = some cid) :
      ContextEffect K apdu s .success { s with cryptoObjectTypes := s.cryptoObjectTypes.erase cid
                                               cryptoObjects := s.cryptoObjects.erase cid }
  | clears (hc : apdu.IsDeleteAll) : ContextEffect K apdu s .success s.clear

theorem Handled.contextEffect {K : Crates} {env : Env} {apdu : ParsedApdu} {a : Bool} {s s' : ObjectStore}
    {r : ApduResponse} (h : Handled K env apdu s a r s') : ContextEffect K apdu s r s' := by
  cases h with
  | idle => exact .keeps rfl rfl
  | write hc hw hr =>
    obtain ⟨-, id, obj, origin, -, -, rfl⟩ := hw.stores hc hr
    exact .keeps (write_cryptoObjects ..) (write_cryptoObjectTypes ..)
  | ecdh _ hr =>
    rcases handleEcdh_eq_ok hr with rfl | ⟨-, _, _, _, -, -, rfl⟩
    · exact .keeps rfl rfl
    · exact .keeps (ObjectStore.persist_cryptoObjects _) (ObjectStore.persist_cryptoObjectTypes _)
  | delete _ hr =>
    obtain ⟨-, _, id, -, -, -, -, rfl⟩ := handleDelete_eq_ok hr
    exact .keeps (s.remove_cryptoObjects id) (s.remove_cryptoObjectTypes id)
  | deleteAll hc => exact .clears hc
  | curve hw hr =>
    obtain ⟨-, rfl | ⟨m, rfl⟩⟩ := hw.eq_ok hr
    · exact .keeps rfl rfl
    · exact .keeps (ObjectStore.persist_cryptoObjects _) (ObjectStore.persist_cryptoObjectTypes _)
  | init k hc hr =>
    obtain ⟨rfl, tlvs, cid, subtype, c, ht, hcid, hsub, hstart, rfl⟩ := initHandler_eq_ok hr
    exact .starts hc ht hcid hsub hstart
  | update k hc hr =>
    obtain ⟨tlvs, cid, c, c', ht, hcid, hl, -, hadv, rfl⟩ := updateHandler_eq_ok hr
    exact .advances hc ht hcid hl hadv
  | final k hc hr =>
    obtain ⟨tlvs, cid, c, ht, hcid, -, rfl⟩ := finalHandler_eq_ok hr
    exact .ends hc ht hcid
  | createCryptoObj _ hr =>
    obtain ⟨rfl, _, cid, context, -, -, hfree, rfl⟩ := handleCryptoObjCreate_eq_ok hr
    exact .creates hfree
  | deleteCryptoObj hc hr =>
    obtain ⟨rfl, tlvs, cid, ht, hcid, rfl⟩ := handleCryptoObjDelete_eq_ok hr
    exact .deletes hc ht hcid
  | setScp hr =>
    obtain ⟨-, -, b, rfl⟩ := handleSetPlatformScp_eq_ok hr
    exact .keeps (ObjectStore.persist_cryptoObjects _) (ObjectStore.persist_cryptoObjectTypes _)

/-! ### Registered operations -/

/-- The chain vector of a cipher is a block, and less than a block waits. -/
def CryptoObjectState.Sized : CryptoObjectState → Prop
  | .cipher _ _ _ chain pending => chain.length = 16 ∧ pending.length < 16
  | _ => True

/-- A running operation belongs to a crypto object of its kind and algorithm. -/
def ObjectStore.Registers (s : ObjectStore) (cid : UInt16) (c : CryptoObjectState) : Prop :=
  s.cryptoObjectTypes.lookup cid = some (c.kind.context, c.subtype) ∧ c.Sized

/-- Every running operation is registered. -/
def ObjectStore.Registered (s : ObjectStore) : Prop :=
  ∀ cid c, s.cryptoObjects.lookup cid = some c → s.Registers cid c

section Steps

variable {K : Crates} {env : Env} {apdu : ParsedApdu} {a : Bool} {s s' : ObjectStore} {r : ApduResponse}
  {tlvs : List Tlv} {cid : UInt16} {c c' : CryptoObjectState}

theorem Starts.registers {k : ContextKind} {subtype : UInt8} (h : Starts apdu tlvs s subtype k c) :
    c.kind = k ∧ c.subtype = subtype ∧ c.Sized := by
  cases h with
  | digest => exact ⟨rfl, rfl, trivial⟩
  | @cipher _ chain _ _ _ => exact ⟨rfl, rfl, chain.size, by decide⟩
  | mac => exact ⟨rfl, rfl, trivial⟩

/-- An Update keeps the kind, the algorithm and the sizes. -/
theorem Advances.registers (h : Advances K tlvs s c r c') :
    c'.kind = c.kind ∧ c'.subtype = c.subtype ∧ (c.Sized → c'.Sized) := by
  cases h with
  | digest => exact ⟨rfl, rfl, id⟩
  | @cipher _ _ _ _ chain' pending input _ _ _ _ _ =>
    refine ⟨rfl, rfl, fun _ => ⟨chain'.size, ?_⟩⟩
    -- what is left over is the remainder of the whole blocks
    have hmod : (pending ++ input).length % 16 < 16 := Nat.mod_lt _ (by decide)
    have hle : (pending ++ input).length % 16 ≤ (pending ++ input).length := Nat.mod_le _ _
    rw [List.length_drop]
    omega
  | mac => exact ⟨rfl, rfl, id⟩

/-- Only the entry of the context changes. -/
theorem ObjectStore.Registered.setContext (h : s.Registered) (hc : s.Registers cid c) :
    (s.setContext cid c).Registered := by
  intro id d hd
  by_cases hid : id = cid
  · subst hid
    have heq : some c = some d := (Finmap.lookup_insert _).symm.trans hd
    cases heq
    exact hc
  · have hold : s.cryptoObjects.lookup id = some d := (Finmap.lookup_insert_of_ne _ hid).symm.trans hd
    exact h id d hold

/-- Operations that are no longer there need no crypto object. -/
theorem ObjectStore.Registered.mono (h : s.Registered)
    (hc : ∀ cid c, s'.cryptoObjects.lookup cid = some c → s.cryptoObjects.lookup cid = some c ∧
      s'.cryptoObjectTypes.lookup cid = s.cryptoObjectTypes.lookup cid) : s'.Registered := by
  intro cid c hl
  obtain ⟨hold, htypes⟩ := hc cid c hl
  obtain ⟨hreg, hsize⟩ := h cid c hold
  exact ⟨htypes.trans hreg, hsize⟩

theorem ObjectStore.Registered.of_eq (h : s.Registered) (hc : s'.cryptoObjects = s.cryptoObjects)
    (ht : s'.cryptoObjectTypes = s.cryptoObjectTypes) : s'.Registered := by
  apply h.mono
  intro cid c hl
  exact ⟨hc ▸ hl, by rw [ht]⟩

theorem lookup_of_erase {cid' : UInt16} (h : (s.cryptoObjects.erase cid').lookup cid = some c) :
    cid ≠ cid' ∧ s.cryptoObjects.lookup cid = some c := by
  by_cases hid : cid = cid'
  · subst hid
    rw [Finmap.lookup_erase] at h
    cases h
  · rw [Finmap.lookup_erase_ne hid] at h
    exact ⟨hid, h⟩

/-- Every command keeps the running operations registered. -/
theorem ContextEffect.registered (hs : s.Registered) (h : ContextEffect K apdu s r s') : s'.Registered := by
  cases h with
  | keeps ho ht => exact hs.of_eq ho ht
  | starts _ _ _ hsub hstart =>
    obtain ⟨rfl, rfl, hsize⟩ := hstart.registers
    exact hs.setContext ⟨hsub, hsize⟩
  | @advances k cid c c' tlvs r _ _ _ hl hadv =>
    obtain ⟨hkind, hsub, hsize⟩ := hadv.registers
    obtain ⟨hreg, hold⟩ := hs cid c hl
    apply hs.setContext
    exact ⟨by rw [hkind, hsub, hreg], hsize hold⟩
  | ends =>
    apply hs.mono
    intro id d hl
    exact ⟨(lookup_of_erase hl).2, rfl⟩
  | creates hfree =>
    apply hs.mono
    intro id d hl
    refine ⟨hl, Finmap.lookup_insert_of_ne _ ?_⟩
    -- the new identifier has no running operation, or it would be registered
    rintro rfl
    have hreg := (hs id d hl).1
    rw [hfree] at hreg
    cases hreg
  | deletes =>
    apply hs.mono
    intro id d hl
    obtain ⟨hne, hold⟩ := lookup_of_erase hl
    exact ⟨hold, Finmap.lookup_erase_ne hne⟩
  | clears =>
    intro cid c hl
    rw [ObjectStore.clear_cryptoObjects, Finmap.lookup_empty] at hl
    cases hl

end Steps

theorem ObjectStore.new_registered : ObjectStore.new.Registered := by
  intro cid c hl
  simp [ObjectStore.new] at hl

/-- After any commands, a running operation belongs to a crypto object that was created for its kind, with its
algorithm, and a cipher's chain vector is a block and its pending bytes are less than one. -/
theorem contexts_registered (K : Crates) {log : List (Event ObjectStore Command ApduResponse)} {s : ObjectStore}
    (h : Run (execute K) .new log s) {cid : UInt16} {c : CryptoObjectState}
    (hl : s.cryptoObjects.lookup cid = some c) :
    s.cryptoObjectTypes.lookup cid = some (c.kind.context, c.subtype) ∧ c.Sized := by
  have hinv : s.Registered := by
    refine h.invariant (P := fun _ => True) ?_ (fun _ _ => trivial) ObjectStore.new_registered
    intro s i o s' hs _ hstep
    exact (dispatch_handled hstep).contextEffect.registered hs
  exact hinv cid c hl

/-- CreateCryptoObject for AES-CBC under `0001`, an AES key, CipherInit with it, and an update of three bytes. -/
def cipherStart : List Command :=
  [⟨0x80, 0x01, 0x10, 0x00, [0x41, 0x02, 0, 1, 0x42, 0x01, 0x02, 0x43, 0x01, 0x0D], none⟩,
    ⟨0x80, 0x01, 0x03, 0x00, [0x41, 0x04, 0, 0, 0, 9, 0x43, 0x10] ++ List.replicate 16 0x2B, none⟩,
    ⟨0x80, 0x03, 0x0E, 0x42, [0x41, 0x04, 0, 0, 0, 9, 0x42, 0x02, 0, 1], none⟩,
    ⟨0x80, 0x03, 0x0E, 0x0C, [0x42, 0x02, 0, 1, 0x43, 0x03, 1, 2, 3], none⟩].map fun apdu => ⟨.unset, apdu, false⟩

theorem cipherStart_registered : ∃ log s chain, Run (execute .blank) .new log s ∧
    s.cryptoObjects.lookup 1 = some (.cipher true 0x0D ⟨0, 0, 0, 9⟩ chain [1, 2, 3]) ∧
    s.cryptoObjectTypes.lookup 1 = some (0x02, 0x0D) ∧ chain.length = 16 := by
  have hrun : (trace (execute .blank) .new cipherStart).map (testLast fun _ _ s =>
      s.cryptoObjects.lookup 1 == some (.cipher true 0x0D ⟨0, 0, 0, 9⟩ (zeroArr 16).bytes [1, 2, 3])) = .ok true := by
    decide +kernel
  obtain ⟨past, e, s, h, htest⟩ := exists_run_of_trace hrun
  have hl := beq_iff_eq.mp htest
  obtain ⟨hreg, hsize, -⟩ := contexts_registered .blank h hl
  exact ⟨_, s, _, h, hl, hreg, hsize⟩

end SE050
end Simulators
