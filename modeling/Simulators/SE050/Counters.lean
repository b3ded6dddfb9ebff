/-
# SE050: counters

A counter of `size` bytes counts modulo `256 ^ size`. Its value is kept in a
`u64`: a new value is shifted in byte by byte, whatever its length, an
increment masks to the size, and a read cuts the low bytes off. The three
agree on the value modulo `256 ^ size` (`Holds.count`), so a read returns the
last value set and the increments since (`counters_count`).

Key definitions: `StoreEvent.count`, `counted`, `Holds`.
-/
import Simulators.Lib.Words
import Simulators.SE050.Files

namespace Simulators
namespace SE050

open Handler

/-! ### Values -/

/-- Shifting a byte in. -/
theorem toNat_shift_or (v : UInt64) (x : UInt8) :
    ((v <<< 8) ||| x.toUInt64).toNat = (v.toNat * 256 + x.toNat) % 2 ^ 64 := by
  have hx := x.toNat_lt
  have hshift : (v.toNat <<< 8) % 2 ^ 64 = (v.toNat % 2 ^ 56) <<< 8 := by
    rw [Nat.shiftLeft_eq, Nat.shiftLeft_eq, show (2 : ℕ) ^ 64 = 2 ^ 56 * 2 ^ 8 from rfl, Nat.mul_mod_mul_right]
  rw [UInt64.toNat_or, UInt64.toNat_shiftLeft, UInt8.toNat_toUInt64, show UInt64.toNat 8 % 64 = 8 from rfl, hshift,
    ← Nat.shiftLeft_add_eq_or_of_lt hx, Nat.shiftLeft_eq]
  omega

/-- The value bytes, as a number modulo the width of the variable. -/
theorem counterValue_toNat (b : Bytes) : (counterValue b).toNat = ofBe b % 2 ^ 64 := by
  induction b using List.reverseRecOn with
  | nil => rfl
  | append_singleton b x ih =>
    have hfold : counterValue (b ++ [x]) = (counterValue b <<< 8) ||| x.toUInt64 := by
      rw [counterValue, List.foldl_append]
      rfl
    rw [hfold, toNat_shift_or, ih, ofBe_append]
    omega

/-- A size that a counter can have. -/
def CounterSize (size : UInt16) : Prop := size ≠ 0 ∧ size ≤ 8

theorem CounterSize.cases {size : UInt16} (h : CounterSize size) :
    size = 1 ∨ size = 2 ∨ size = 3 ∨ size = 4 ∨ size = 5 ∨ size = 6 ∨ size = 7 ∨ size = 8 := by
  obtain ⟨h0, h8⟩ := h
  have h1 : size.toNat ≠ 0 := fun hz => h0 (UInt16.toNat_inj.mp hz)
  have h2 : size.toNat ≤ 8 := h8
  simp only [← UInt16.toNat_inj]
  have hlit : UInt16.toNat 1 = 1 ∧ UInt16.toNat 2 = 2 ∧ UInt16.toNat 3 = 3 ∧ UInt16.toNat 4 = 4 ∧
      UInt16.toNat 5 = 5 ∧ UInt16.toNat 6 = 6 ∧ UInt16.toNat 7 = 7 ∧ UInt16.toNat 8 = 8 := by decide
  omega

theorem CounterSize.toNat_le {size : UInt16} (h : CounterSize size) : 1 ≤ size.toNat ∧ size.toNat ≤ 8 :=
  ⟨Nat.one_le_iff_ne_zero.mpr fun hz => h.1 (UInt16.toNat_inj.mp hz), h.2⟩

/-- The mask has the bits of the counter. -/
theorem CounterSize.mask_toNat {size : UInt16} (h : CounterSize size) :
    (counterMask size).toNat = 2 ^ (8 * size.toNat) - 1 := by
  rcases h.cases with rfl | rfl | rfl | rfl | rfl | rfl | rfl | rfl <;> decide

/-- The range of a counter divides that of the variable. -/
theorem CounterSize.pow_dvd {size : UInt16} (h : CounterSize size) : 256 ^ size.toNat ∣ 2 ^ 64 := by
  rw [show (2 : ℕ) ^ 64 = 256 ^ 8 from rfl]
  exact Nat.pow_dvd_pow 256 h.toNat_le.2

theorem CounterSize.increment_toNat {size : UInt16} (h : CounterSize size) (v : UInt64) :
    ((v + 1) &&& counterMask size).toNat = (v.toNat + 1) % 256 ^ size.toNat := by
  have hpow : 2 ^ (8 * size.toNat) = 256 ^ size.toNat := Nat.pow_mul 2 8 _
  have hone : UInt64.toNat 1 = 1 := rfl
  rw [UInt64.toNat_and, h.mask_toNat, Nat.and_two_pow_sub_one_eq_mod, UInt64.toNat_add, hone, hpow]
  exact Nat.mod_mod_of_dvd _ h.pow_dvd

/-! ### Counting -/

namespace ParsedApdu

/-- The value that CreateCounter or SetCounterValue brings. -/
def counterValueBytes (a : ParsedApdu) : Option Bytes := valueOf a.tlvsOrDefault tag3

/-- The size that CreateCounter asks for. -/
def counterSize (a : ParsedApdu) : Option UInt16 := (valueOf a.tlvsOrDefault tag2).bind u16?

/-- ReadSize. -/
def IsReadSize (a : ParsedApdu) : Prop :=
  a.IsCommand insRead ∧ a.p2 = p2Size ∧ a.credType ≠ p1CryptoObj ∧ a.credType ≠ p1Curve

end ParsedApdu

/-- The last value set and the number of increments since, after one more command. -/
def StoreEvent.count (id : ObjectId) (c : ℕ × ℕ) (e : StoreEvent) : ℕ × ℕ :=
  if e.Accepted ∧ e.input.apdu.Writes p1Counter id then
    e.input.apdu.counterValueBytes.elim (c.1, c.2 + 1) fun b => (ofBe b, 0)
  else c

/-- The last value set and the number of increments since, after commands on a counter created with `start`. -/
def counted (id : ObjectId) (start : ℕ) (log : List StoreEvent) : ℕ × ℕ := log.foldl (StoreEvent.count id) (start, 0)

section Counting

variable {K : Crates} {env : Env} {apdu : ParsedApdu} {a : Bool} {s s' : ObjectStore} {r : ApduResponse}
  {tlvs : List Tlv} {id : ObjectId} {size : UInt16} {c : ℕ × ℕ}

/-- A counter that stands for a value set and a number of increments. -/
def Holds (s : ObjectStore) (id : ObjectId) (size : UInt16) (c : ℕ × ℕ) : Prop :=
  ∃ v : UInt64, s.get id = some (.counter v size) ∧ v.toNat % 256 ^ size.toNat = (c.1 + c.2) % 256 ^ size.toNat

theorem exists_tlvs_of_counterTarget (hc : apdu.IsWrite p1Counter) (ht : apdu.writeTarget = some id) :
    ∃ tlvs, apdu.tlvs = .ok tlvs ∧ objectIdOf tlvs tag1 = some id := by
  cases hp : apdu.parseTlvs with
  | ok tlvs =>
    have htlvs := ParsedApdu.tlvs_eq_ok.mpr hp
    refine ⟨tlvs, htlvs, ?_⟩
    rw [← writeTarget_eq hc (by decide) htlvs, ht]
  | error e =>
    rw [ParsedApdu.writeTarget, hp] at ht
    cases ht

/-- A value that is set is the value of its bytes, modulo the range. -/
theorem counterValue_mod (hs : CounterSize size) (b : Bytes) :
    (counterValue b).toNat % 256 ^ size.toNat = (ofBe b + 0) % 256 ^ size.toNat := by
  rw [counterValue_toNat, Nat.mod_mod_of_dvd _ hs.pow_dvd, Nat.add_zero]

/-- A new counter has a size of 1 to 8 bytes and stands for its initial value, or zero. -/
theorem Holds.create (hw : apdu.Writes p1Counter id) (hget : s.get id = none)
    (h : handleWriteCounter apdu s = .ok (r, s')) : ∃ size, apdu.counterSize = some size ∧ CounterSize size ∧
      Holds s' id size ((apdu.counterValueBytes.map ofBe).getD 0, 0) := by
  obtain ⟨tlvs, htlvs, hid⟩ := exists_tlvs_of_counterTarget hw.1 hw.2
  simp only [handleWriteCounter, htlvs, ok_bind, extractObjectId, hid, orRefuse, counterAt, hget, bind_eq_ok,
    ensure_eq_ok] at h
  obtain ⟨policy, -, -, -, h⟩ := h
  rw [ParsedApdu.counterSize, ParsedApdu.counterValueBytes, ParsedApdu.tlvsOrDefault_eq htlvs]
  cases hsize : (valueOf tlvs tag2).bind u16? with
  | none =>
    rw [hsize] at h
    simp at h
  | some size =>
    rw [hsize] at h
    simp only [bind_eq_ok, ensure_eq_ok] at h
    obtain ⟨-, hok, h⟩ := h
    cases h
    refine ⟨size, rfl, hok, _, by rw [ObjectStore.get_setCreationMetadata, ObjectStore.get_insert_self], ?_⟩
    cases valueOf tlvs tag3 with
    | none => rfl
    | some b => exact counterValue_mod hok b

/-- An accepted write of a counter sets its value, or counts one more. -/
theorem Holds.write (hs : CounterSize size) (hold : Holds s id size c) (hw : apdu.Writes p1Counter id)
    (h : handleWriteCounter apdu s = .ok (r, s')) :
    Holds s' id size (apdu.counterValueBytes.elim (c.1, c.2 + 1) fun b => (ofBe b, 0)) := by
  obtain ⟨v, hget, hv⟩ := hold
  obtain ⟨tlvs, htlvs, hid⟩ := exists_tlvs_of_counterTarget hw.1 hw.2
  simp only [handleWriteCounter, htlvs, ok_bind, extractObjectId, hid, orRefuse, counterAt, hget, bind_eq_ok,
    ensure_eq_ok] at h
  obtain ⟨policy, -, -, -, h⟩ := h
  rw [ParsedApdu.counterValueBytes, ParsedApdu.tlvsOrDefault_eq htlvs]
  cases hvalue : valueOf tlvs tag3 with
  | some b =>
    rw [hvalue] at h
    cases h
    exact ⟨_, s.get_insert_self id _, counterValue_mod hs b⟩
  | none =>
    rw [hvalue] at h
    cases hsize : (valueOf tlvs tag2).bind u16? with
    | some n =>
      rw [hsize] at h
      simp at h
    | none =>
      rw [hsize] at h
      cases h
      refine ⟨_, s.get_insert_self id _, ?_⟩
      rw [hs.increment_toNat, Nat.mod_mod, Option.elim_none, ← Nat.add_assoc, Nat.add_mod, hv, ← Nat.add_mod]

/-- One command counts on the counter if it is an accepted write of it, and leaves it alone otherwise. -/
theorem Holds.count (hs : CounterSize size) (hold : Holds s id size c) (hd : dispatch K env apdu s a = .ok (r, s'))
    (hno : r.sw = swNoError → ¬ apdu.Replaces p1Counter id) :
    Holds s' id size (StoreEvent.count id c ⟨s, ⟨env, apdu, a⟩, r⟩) := by
  unfold StoreEvent.count
  by_cases hw : r.sw = swNoError ∧ apdu.Writes p1Counter id
  · have hboth : StoreEvent.Accepted ⟨s, ⟨env, apdu, a⟩, r⟩ ∧ apdu.Writes p1Counter id := hw
    rw [if_pos hboth]
    rw [dispatch, dispatchCmd_write hw.2.1 (.counter : WriteHandler K env apdu s p1Counter _)] at hd
    exact hold.write hs hw.2 (accepted hd handleWriteCounter_refuses hw.1)
  · have hnot : ¬ (StoreEvent.Accepted ⟨s, ⟨env, apdu, a⟩, r⟩ ∧ apdu.Writes p1Counter id) := hw
    rw [if_neg hnot]
    obtain ⟨v, hget, hv⟩ := hold
    have hsame := (dispatch_handled hd).objectEffect.get_of_not_write hno hw
    exact ⟨v, hsame.trans hget, hv⟩

/-- The counter after a run in which no command deletes or replaces it. -/
theorem Holds.run (hs : CounterSize size) {log : List StoreEvent} (h : Run (execute K) s log s')
    (hno : ∀ e ∈ log, e.Accepted → ¬ e.input.apdu.Replaces p1Counter id) : ∀ {c : ℕ × ℕ}, Holds s id size c →
      Holds s' id size (log.foldl (StoreEvent.count id) c) := by
  induction h with
  | nil s => exact fun hold => hold
  | cons hstep _ ih =>
    intro c hold
    exact ih (fun e he => hno e (List.mem_cons_of_mem _ he)) (hold.count hs hstep (hno _ List.mem_cons_self))

/-! ### Reads -/

/-- A read cuts the low bytes off. -/
theorem readValue_counter (hs : CounterSize size) (v : UInt64) (offset : ℕ) (length : Option ℕ) :
    readValue K (.counter v size) offset length = .ok (toBe size.toNat (v.toNat % 256 ^ size.toNat)) := by
  have hle := hs.toNat_le.2
  have hcut : (toBe 8 v.toNat).drop (8 - size.toNat) = toBe size.toNat v.toNat := by
    have hdrop := toBe_drop (8 - size.toNat) size.toNat v.toNat
    rwa [Nat.sub_add_cancel hle] at hdrop
  rw [toBe_mod, readValue, if_pos hle, slice, counterBytes,
    if_pos ⟨Nat.sub_le _ _, Nat.le_of_eq (toBe_length 8 _).symm⟩, hcut, List.take_of_length_le]
  rw [toBe_length]
  omega

theorem dispatchCmd_readSize (hc : apdu.IsReadSize) :
    dispatchCmd K env apdu s a = readOnly s (handleReadSize apdu s) := by
  obtain ⟨hcmd, hp2, hobj, hcurve⟩ := hc
  have hrsa : ¬ (apdu.credType = p1Default ∧ apdu.p2 = p2Default ∧ hasTag4 apdu = true) := by
    rw [hp2]
    exact fun h => absurd h.2.1 (by decide)
  rw [dispatchCmd_eq hcmd, if_neg (by decide), if_pos rfl, dispatchRead, if_neg hrsa, if_neg hobj, if_neg hcurve,
    handleRead, hp2]
  rfl

/-- A counter under an identifier, as commands see it. -/
structure ServesCounter (K : Crates) (s : ObjectStore) (id : ObjectId) (size total : ℕ) : Prop where
  /-- A read that the policy allows returns `size` bytes, the total modulo the range. Any other read fails without
  data. -/
  read : ∀ (env : Env) (apdu : ParsedApdu) (a : Bool), apdu.IsReadObject → apdu.objectTarget = some id →
    (s.policyAllows id policyObjAllowRead = true → ∃ r, dispatch K env apdu s a = .ok (r, s) ∧ r.sw = swNoError ∧
      parseTlvs r.data = .ok [⟨tag1, toBe size (total % 256 ^ size)⟩]) ∧
    (¬ s.policyAllows id policyObjAllowRead = true →
      dispatch K env apdu s a = .ok (.error swCommandNotAllowed, s))
  readSize : ∀ (env : Env) (apdu : ParsedApdu) (a : Bool), apdu.IsReadSize → apdu.objectTarget = some id →
    ∃ r, dispatch K env apdu s a = .ok (r, s) ∧ r.sw = swNoError ∧ parseTlvs r.data = .ok [⟨tag1, toBe 2 size⟩]

theorem Holds.serves (hs : CounterSize size) (hold : Holds s id size c) :
    ServesCounter K s id size.toNat (c.1 + c.2) where
  read := by
    intro env apdu a hc ht
    obtain ⟨v, hget, hv⟩ := hold
    obtain ⟨tlvs, htlvs, hid⟩ := exists_tlvs_of_objectTarget ht
    rw [dispatch, dispatchCmd_readObject hc, handleReadObject, htlvs, ok_bind, extractObjectId, hid, orRefuse, ok_bind]
    refine ⟨?_, ?_⟩
    · intro hallow
      rw [ensure, if_pos hallow, ok_bind, hget, orRefuse, ok_bind, readValue_counter hs, hv]
      refine ⟨_, rfl, rfl, ?_⟩
      apply parseTlvs_encodeTlvs
      intro t ht
      rw [List.mem_singleton.mp ht, toBe_length]
      exact Nat.le_trans hs.toNat_le.2 (by decide)
    · intro hdeny
      rw [ensure, if_neg hdeny]
      rfl
  readSize := by
    intro env apdu a hc ht
    obtain ⟨v, hget, -⟩ := hold
    obtain ⟨tlvs, htlvs, hid⟩ := exists_tlvs_of_objectTarget ht
    have hlt : size.toNat % 65536 = size.toNat := Nat.mod_eq_of_lt size.toNat_lt
    rw [dispatch, dispatchCmd_readSize hc, handleReadSize, handleReadOf, htlvs, ok_bind, extractObjectId, hid, orRefuse,
      ok_bind, hget, orRefuse, ok_bind, SecureObject.dataSize, hlt]
    refine ⟨_, rfl, rfl, ?_⟩
    apply parseTlvs_encodeTlvs
    intro t ht
    rw [List.mem_singleton.mp ht, toBe_length]
    decide

end Counting

/-- A counter that was created with a size of 1 to 8 bytes is read, in every run and as long as no command deletes or
replaces it, as the last value set (or its initial value, or zero) and the increments since, modulo `256 ^ size`, in
exactly `size` bytes, if its policy allows to read it; and it keeps its size. -/
theorem counters_count (K : Crates) {past since : List StoreEvent} {e : StoreEvent} {s : ObjectStore} {id : ObjectId}
    (h : Run (execute K) .new (past ++ e :: since) s) (hnew : e.pre.get id = none) (hacc : e.Accepted)
    (hw : e.input.apdu.Writes p1Counter id)
    (hno : ∀ f ∈ since, f.Accepted → ¬ f.input.apdu.Replaces p1Counter id) :
    ∃ size : UInt16, e.input.apdu.counterSize = some size ∧ (1 ≤ size.toNat ∧ size.toNat ≤ 8) ∧
      ServesCounter K s id size.toNat
        ((counted id ((e.input.apdu.counterValueBytes.map ofBe).getD 0) since).1 +
          (counted id ((e.input.apdu.counterValueBytes.map ofBe).getD 0) since).2) := by
  obtain ⟨next, -, hstep, hrest⟩ := h.mid
  rw [execute, dispatch, dispatchCmd_write hw.1 (.counter : WriteHandler K _ _ _ p1Counter _)] at hstep
  obtain ⟨size, hsize, hs, hold⟩ := Holds.create hw hnew (accepted hstep handleWriteCounter_refuses hacc)
  exact ⟨size, hsize, hs.toNat_le, (hold.run hs hrest hno).serves hs⟩

/-- CreateCounter of one byte, SetCounterValue to `01 FF` and IncCounter. -/
def createCounter : ParsedApdu := ⟨0x80, 0x01, 0x08, 0x00, [0x41, 0x04, 0, 0, 0, 9, 0x42, 0x02, 0, 1], none⟩

def setCounter : ParsedApdu := ⟨0x80, 0x01, 0x08, 0x00, [0x41, 0x04, 0, 0, 0, 9, 0x43, 0x02, 1, 0xFF], none⟩

def incCounter : ParsedApdu := ⟨0x80, 0x01, 0x08, 0x00, [0x41, 0x04, 0, 0, 0, 9], none⟩

theorem incCounter_wraps : ∃ log s, Run (execute .blank) .new log s ∧ ServesCounter .blank s ⟨0, 0, 0, 9⟩ 1 512 := by
  have hrun : (trace (execute .blank) .new ([createCounter, setCounter, incCounter].map fun apdu =>
      ⟨.unset, apdu, false⟩)).map (testLast fun past (e : StoreEvent) _ =>
        past.map (fun f : StoreEvent => (f.input.apdu, f.output.sw, f.pre.get ⟨0, 0, 0, 9⟩)) ==
            [(createCounter, swNoError, none), (setCounter, swNoError, some (.counter 0 1))] &&
          decide (e.Accepted ∧ e.input.apdu = incCounter)) = .ok true := by
    decide +kernel
  obtain ⟨past, e, s, h, htest⟩ := exists_run_of_trace hrun
  simp only [Bool.and_eq_true, beq_iff_eq, decide_eq_true_eq] at htest
  obtain ⟨hpast, hacc, hinc⟩ := htest
  obtain ⟨f, past, rfl, hf, hpast⟩ := List.map_eq_cons_iff.mp hpast
  obtain ⟨g, past, rfl, hg, hpast⟩ := List.map_eq_cons_iff.mp hpast
  obtain rfl := List.map_eq_nil_iff.mp hpast
  simp only [Prod.mk.injEq] at hf hg
  obtain ⟨hcreate, hfacc, hnew⟩ := hf
  obtain ⟨hset, hgacc, -⟩ := hg
  have hcount : counted ⟨0, 0, 0, 9⟩ 0 [g, e] = (511, 1) := by
    have hgset : StoreEvent.count ⟨0, 0, 0, 9⟩ (0, 0) g = (511, 0) := by
      rw [StoreEvent.count, if_pos ⟨hgacc, hset ▸ by decide⟩, hset]
      decide
    have heinc : StoreEvent.count ⟨0, 0, 0, 9⟩ (511, 0) e = (511, 1) := by
      rw [StoreEvent.count, if_pos ⟨hacc, hinc ▸ by decide⟩, hinc]
      decide
    rw [counted, List.foldl_cons, List.foldl_cons, List.foldl_nil, hgset, heinc]
  have hlog : Run (execute .blank) .new ([] ++ f :: [g, e]) s := h
  have hserves := counters_count .blank hlog hnew hfacc (hcreate ▸ by decide) ?_
  · obtain ⟨size, hsize, -, hserve⟩ := hserves
    rw [hcreate] at hsize hserve
    obtain rfl : size = 1 := Option.some.inj (hsize.symm.trans (by decide))
    have hstart : (createCounter.counterValueBytes.map ofBe).getD 0 = 0 := by decide
    rw [hstart, hcount] at hserve
    exact ⟨_, s, h, hserve⟩
  · intro f' hf' _
    apply ParsedApdu.Writes.not_replaces
    rcases List.mem_cons.mp hf' with rfl | hf'
    · rw [hset]
      decide
    · rw [List.mem_singleton.mp hf', hinc]
      decide

/-- CreateCounter with a policy that allows to write and delete it. -/
def createUnreadable : ParsedApdu :=
  ⟨0x80, 0x01, 0x08, 0x00,
    [0x11, 0x09, 8, 0, 0, 0, 0, 0x00, 0x14, 0x00, 0x00, 0x41, 0x04, 0, 0, 0, 9, 0x42, 0x02, 0, 1], none⟩

/-- ReadObject. -/
def readCounter : ParsedApdu := ⟨0x80, 0x02, 0x00, 0x00, [0x41, 0x04, 0, 0, 0, 9], none⟩

/-- A counter whose policy does not allow to read it is not read. -/
theorem unreadable_counter : ¬ ∀ (log : List StoreEvent) (s : ObjectStore) (id : ObjectId) (v : UInt64)
    (size : UInt16) (apdu : ParsedApdu), Run (execute .blank) .new log s → s.get id = some (.counter v size) →
      apdu.IsReadObject → apdu.objectTarget = some id →
      ∃ r, dispatch .blank .unset apdu s false = .ok (r, s) ∧ r.sw = swNoError := by
  intro hclaim
  have hrun : (trace (execute .blank) .new [⟨.unset, createUnreadable, false⟩]).map (testLast fun _ _ s =>
      s.get ⟨0, 0, 0, 9⟩ == some (.counter 0 1) &&
        decide (dispatch .blank .unset readCounter s false = .ok (.error swCommandNotAllowed, s))) = .ok true := by
    decide +kernel
  obtain ⟨past, e, s, h, htest⟩ := exists_run_of_trace hrun
  simp only [Bool.and_eq_true, beq_iff_eq, decide_eq_true_eq] at htest
  obtain ⟨hget, hrefused⟩ := htest
  obtain ⟨r, hok, hr⟩ := hclaim _ s _ _ _ readCounter h hget (by decide) (by decide)
  rw [hrefused] at hok
  have hsw : r.sw = swCommandNotAllowed := congrArg ApduResponse.sw (Prod.mk.inj (Except.ok.inj hok)).1.symm
  rw [hsw] at hr
  exact absurd hr (by decide)

end SE050
end Simulators
