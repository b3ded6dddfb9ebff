/-
# ATECC608: the locks

The locks live in bytes 86 to 89 of the configuration zone, which a Write can
reach while that zone is unlocked, and each handler has its own test of the
zone and slot locks. `Kept` is what one-way locks promise of two states of a
run. Two kinds of packet break the promise: a Write to the configuration zone
that opens a lock again (`Reopens`), and a Write to a locked slot of an
unlocked data zone (`Overwrites`). All others keep it.

Key theorems: `keeps_iff_honours`, `locks_kept_iff_honoured`.
-/
import Simulators.ATECC608.Update
import Simulators.Lib.Bits
import Simulators.Lib.Overlay

namespace Simulators
namespace ATECC608

open Handler

/-! ### Bytes and lock bits of the configuration zone -/

theorem overwrite_getElem? {b data : Bytes} {off : ℕ} (h : off + data.length ≤ b.length) (i : ℕ) :
    (overwrite b off data)[i]? = if off ≤ i ∧ i < off + data.length then data[i - off]? else b[i]? := by
  exact splice_getElem? h i

namespace Device

variable (d : Device)

theorem setConfigByte_configByte (i j : ℕ) (v : UInt8) (hi : i < configSize) :
    (d.setConfigByte i v).configByte j = if i = j then v else d.configByte j := by
  unfold configByte setConfigByte
  by_cases h : i = j
  · subst h
    rw [if_pos rfl, List.getElem?_set_self (by rw [d.config.size]; exact hi), Option.getD_some]
  · rw [if_neg h, List.getElem?_set_ne h]

theorem slotLocked_iff {slot : ℕ} (h : slot < numSlots) :
    d.slotLocked slot = true ↔ (d.configByte (88 + slot / 8)).toNat.testBit (slot % 8) = false := by
  have hlt : slot < 16 := h
  rw [slotLocked, decide_eq_true_iff, bit_eq_zero _ hlt, slotWord, u16Le, UInt16.toNat_ofNat',
    Nat.mod_eq_of_lt (be16_lt _ _), testBit_be16]
  by_cases h8 : slot < 8
  · rw [if_pos h8, Nat.div_eq_of_lt h8, Nat.mod_eq_of_lt h8]
  · rw [if_neg h8, show slot / 8 = 1 by omega, show slot % 8 = slot - 8 by omega]

/-- The SlotLocked word, bit by bit. -/
theorem testBit_slotWord {j k : ℕ} (hj : j < 2) (hk : k < 8) :
    d.slotWord.toNat.testBit (8 * j + k) = (d.configByte (88 + j)).toNat.testBit k := by
  rw [slotWord, u16Le, UInt16.toNat_ofNat', Nat.mod_eq_of_lt (be16_lt _ _), testBit_be16]
  obtain rfl | rfl : j = 0 ∨ j = 1 := by omega
  · rw [if_pos (by omega)]
    simp
  · rw [if_neg (by omega)]
    simp

/-- Locking a slot clears its bit. -/
theorem setSlotLocked_testBit {slot j k : ℕ} (hs : slot < numSlots) (hj : j < 2) (hk : k < 8) :
    ((d.setSlotLocked slot).configByte (88 + j)).toNat.testBit k =
      ((d.configByte (88 + j)).toNat.testBit k && decide (8 * j + k ≠ slot)) := by
  have hlt : slot < 16 := hs
  rw [← d.testBit_slotWord hj hk, ← testBit_clearBit d.slotWord hlt (by omega), setSlotLocked,
    setConfigByte_configByte _ _ _ _ (by decide), setConfigByte_configByte _ _ _ _ (by decide)]
  obtain rfl | rfl : j = 0 ∨ j = 1 := by omega
  · rw [if_neg (by decide), if_pos rfl, testBit_loByte _ hk]
    simp
  · rw [if_pos rfl, testBit_hiByte _ hk]
    simp [Nat.add_comm]

theorem setSlotLocked_configByte {slot i : ℕ} (h8 : i ≠ 88) (h9 : i ≠ 89) :
    (d.setSlotLocked slot).configByte i = d.configByte i := by
  rw [setSlotLocked, setConfigByte_configByte _ _ _ _ (by decide), setConfigByte_configByte _ _ _ _ (by decide),
    if_neg h9.symm, if_neg h8.symm]

end Device

/-! ### What one-way locks promise -/

/-- The bytes that Lock can still change in a locked configuration zone. -/
def LockByte (d d' : Device) (i : ℕ) : Prop :=
  (i = 86 ∧ d.configByte i = 0x55 ∧ d'.configByte i = 0x00) ∨
    ((i = 88 ∨ i = 89) ∧ ∀ k, (d'.configByte i).toNat.testBit k = true → (d.configByte i).toNat.testBit k = true)

/-- From one state to a later one: locks stay, and what is locked stays as it is. -/
structure Kept (d d' : Device) : Prop where
  config : d.configLocked = true → d'.configLocked = true
  data : d.dataLocked = true → d'.dataLocked = true
  slot : ∀ slot < numSlots, d.slotLocked slot = true → d'.slotLocked slot = true
  bytes : d.configLocked = true → ∀ i, d'.configByte i = d.configByte i ∨ LockByte d d' i
  otp : d.dataLocked = true → d'.otp = d.otp
  content : ∀ slot < numSlots, d.slotLocked slot = true → d'.slots[slot]? = d.slots[slot]?

/-- What a packet must keep; only Lock changes a locked configuration zone. -/
structure Keeps (raw : Bytes) (d d' : Device) : Prop extends Kept d d' where
  byLock : d.configLocked = true → d'.config ≠ d.config → ∃ cmd, Command.parse raw = .ok cmd ∧ cmd.opcode = opLock

@[refl] theorem Kept.refl (d : Device) : Kept d d where
  config := id
  data := id
  slot _ _ := id
  bytes _ _ := .inl rfl
  otp _ := rfl
  content _ _ _ := rfl

theorem LockByte.trans {d d' d'' : Device} {i : ℕ} (h : d'.configByte i = d.configByte i ∨ LockByte d d' i)
    (h' : d''.configByte i = d'.configByte i ∨ LockByte d' d'' i) :
    d''.configByte i = d.configByte i ∨ LockByte d d'' i := by
  rcases h with h | ⟨hi, h1, h2⟩ | ⟨hi, h⟩
  · rcases h' with h' | h'
    · exact .inl (h'.trans h)
    · unfold LockByte at *
      rw [h] at h'
      exact .inr h'
  · rcases h' with h' | ⟨-, h1', -⟩ | ⟨hi', -⟩
    · exact .inr (.inl ⟨hi, h1, h'.trans h2⟩)
    · rw [h2] at h1'
      exact absurd h1' (by decide)
    · omega
  · rcases h' with h' | ⟨hi', -, -⟩ | ⟨-, h'⟩
    · exact .inr (.inr ⟨hi, fun k hk => h k (h' ▸ hk)⟩)
    · omega
    · exact .inr (.inr ⟨hi, fun k hk => h k (h' k hk)⟩)

theorem Kept.trans {d d' d'' : Device} (h : Kept d d') (h' : Kept d' d'') : Kept d d'' where
  config := fun hl => h'.config (h.config hl)
  data := fun hl => h'.data (h.data hl)
  slot := fun slot hs hl => h'.slot slot hs (h.slot slot hs hl)
  bytes := fun hl i => LockByte.trans (h.bytes hl i) (h'.bytes (h.config hl) i)
  otp := fun hl => (h'.otp (h.data hl)).trans (h.otp hl)
  content := fun slot hs hl => (h'.content slot hs (h.slot slot hs hl)).trans (h.content slot hs hl)

/-! ### The packets that break it -/

/-- The byte that a Write has for byte `i` of the configuration zone. -/
def Command.configData (cmd : Command) (i : ℕ) : Option UInt8 :=
  if cmd.zoneOffset ≤ i then cmd.data[i - cmd.zoneOffset]? else none

/-- A Write to an unlocked configuration zone with `55` for the byte of a
locked data zone, or a one for the bit of a locked slot. -/
def Reopens (d : Device) (cmd : Command) : Prop :=
  cmd.WritesTo zoneConfig ∧ d.configLocked = false ∧
    (d.dataLocked = true ∧ cmd.configData 86 = some 0x55 ∨
      ∃ slot < numSlots, d.slotLocked slot = true ∧
        ∃ v, cmd.configData (88 + slot / 8) = some v ∧ v.toNat.testBit (slot % 8) = true)

/-- A Write of other bytes to a locked slot, with the data zone unlocked. -/
def Overwrites (d : Device) (cmd : Command) : Prop :=
  cmd.WritesTo zoneData ∧ d.dataLocked = false ∧ d.slotLocked (dataSlot cmd.p2) = true ∧
    cmd.slotOffset + cmd.data.length ≤ slotSize ∧
    (((d.slots[dataSlot cmd.p2]?).getD []).drop cmd.slotOffset).take cmd.data.length ≠ cmd.data

/-- The packet is neither of the two. -/
def Honours (d : Device) (raw : Bytes) : Prop :=
  ∀ cmd, Command.parse raw = .ok cmd → ¬ Reopens d cmd ∧ ¬ Overwrites d cmd

/-! ### Packets that keep the locks -/

section Step

variable {K : Crates} {g : Rng} {d d' : Device} {s s' : Session} {cmd : Command} {raw response : Bytes}

/-- The configuration zone after a Write, byte by byte. -/
theorem writeZone_configByte (h : cmd.zoneOffset + cmd.data.length ≤ configSize) (i : ℕ) :
    Device.configByte { d with config := writeZone d.config cmd.zoneOffset cmd.data h } i =
      (cmd.configData i).getD (d.configByte i) := by
  unfold Device.configByte Command.configData writeZone
  rw [overwrite_getElem? (by rw [d.config.size]; exact h)]
  by_cases hin : cmd.zoneOffset ≤ i ∧ i < cmd.zoneOffset + cmd.data.length
  · rw [if_pos hin, if_pos hin.1, List.getElem?_eq_getElem (by omega), Option.getD_some, Option.getD_some]
  · rw [if_neg hin]
    by_cases hle : cmd.zoneOffset ≤ i
    · rw [if_pos hle, List.getElem?_eq_none (by omega : cmd.data.length ≤ i - cmd.zoneOffset), Option.getD_none]
    · rw [if_neg hle, Option.getD_none]

/-- Locks are read off the configuration zone alone. -/
theorem Kept.of_config (hc : d'.config = d.config) (hotp : d.dataLocked = true → d'.otp = d.otp)
    (hslots : ∀ slot < numSlots, d.slotLocked slot = true → d'.slots[slot]? = d.slots[slot]?) : Kept d d' := by
  have hbyte : ∀ i, d'.configByte i = d.configByte i := fun i => by rw [Device.configByte, hc, Device.configByte]
  refine ⟨?_, ?_, ?_, fun _ i => .inl (hbyte i), hotp, hslots⟩
  · rw [Device.configLocked, Device.configLocked, hbyte]
    exact id
  · rw [Device.dataLocked, Device.dataLocked, hbyte]
    exact id
  · intro slot hs
    rw [d.slotLocked_iff hs, d'.slotLocked_iff hs, hbyte]
    exact id

theorem writeConfig_kept (hc : cmd.WritesTo zoneConfig) (hl : d.configLocked = false)
    (h : cmd.zoneOffset + cmd.data.length ≤ configSize) (hr : ¬ Reopens d cmd) :
    Kept d { d with config := writeZone d.config cmd.zoneOffset cmd.data h } where
  config := by simp [hl]
  data := by
    simp only [Device.dataLocked, decide_eq_true_eq, writeZone_configByte h]
    intro hlocked
    rcases hv : cmd.configData 86 with _ | v
    · exact hlocked
    · rintro rfl
      exact hr ⟨hc, hl, .inl ⟨decide_eq_true hlocked, hv⟩⟩
  slot := by
    intro slot hs hlocked
    rw [Device.slotLocked_iff _ hs, writeZone_configByte h]
    rcases hv : cmd.configData (88 + slot / 8) with _ | v
    · exact (d.slotLocked_iff hs).mp hlocked
    · by_contra hbit
      exact hr ⟨hc, hl, .inr ⟨slot, hs, hlocked, v, hv, by simpa using hbit⟩⟩
  bytes := by simp [hl]
  otp := fun _ => rfl
  content := fun _ _ _ => rfl

/-- Writing what is there changes nothing. -/
theorem overwrite_same {b data : Bytes} {off : ℕ} (h : (b.drop off).take data.length = data) (hne : data ≠ []) :
    overwrite (padTo (off + data.length) b) off data = b := by
  have hlen : off + data.length ≤ b.length := by
    have hle := congrArg List.length h
    have hpos := List.length_pos_iff.mpr hne
    rw [List.length_take, List.length_drop] at hle
    omega
  have hrest : data ++ b.drop (off + data.length) = b.drop off := by
    calc data ++ b.drop (off + data.length)
        = (b.drop off).take data.length ++ (b.drop off).drop data.length := by rw [h, List.drop_drop]
      _ = b.drop off := List.take_append_drop _ _
  rw [padTo, Nat.sub_eq_zero_of_le hlen, List.replicate_zero, List.append_nil, overwrite, List.append_assoc, hrest,
    List.take_append_drop]

theorem WritesTo.data_ne_nil {zoneId : UInt8} (h : cmd.WritesTo zoneId) : cmd.data ≠ [] := by
  intro hnil
  have hlen := h.2.2.1
  rw [hnil, accessLen] at hlen
  split at hlen <;> cases hlen

theorem writeData_kept {old : Bytes} (hc : cmd.WritesTo zoneData)
    (hl : ¬ (d.dataLocked = true ∧ d.slotLocked (dataSlot cmd.p2) = true))
    (h : cmd.slotOffset + cmd.data.length ≤ slotSize) (hs : d.slots[dataSlot cmd.p2]? = some old)
    (ho : ¬ Overwrites d cmd) : Kept d (d.putSlot (dataSlot cmd.p2) old cmd.slotOffset cmd.data) := by
  refine .of_config rfl (fun _ => rfl) fun slot _ hlocked => ?_
  by_cases heq : dataSlot cmd.p2 = slot
  · rw [← heq] at hlocked ⊢
    have hunlocked : d.dataLocked = false := by
      rw [← Bool.not_eq_true]
      exact fun hd => hl ⟨hd, hlocked⟩
    have hsame : (old.drop cmd.slotOffset).take cmd.data.length = cmd.data := by
      by_contra hne
      refine ho ⟨hc, hunlocked, hlocked, h, ?_⟩
      rw [hs]
      exact hne
    rw [Device.putSlot, overwrite_same hsame (WritesTo.data_ne_nil hc), hs]
    exact List.getElem?_set_self (List.getElem?_eq_some_iff.mp hs).1
  · exact List.getElem?_set_ne heq

theorem setConfigLocked_kept (hl : d.configLocked = false) : Kept d d.setConfigLocked := by
  have hbyte : ∀ i, i ≠ 87 → d.setConfigLocked.configByte i = d.configByte i := by
    intro i hi
    rw [Device.setConfigLocked, Device.setConfigByte_configByte _ _ _ _ (by decide), if_neg hi.symm]
  refine ⟨by simp [hl], ?_, ?_, by simp [hl], fun _ => rfl, fun _ _ _ => rfl⟩
  · rw [Device.dataLocked, Device.dataLocked, hbyte 86 (by decide)]
    exact id
  · intro slot hs
    have hlt : slot < 16 := hs
    rw [Device.slotLocked_iff _ hs, Device.slotLocked_iff _ hs, hbyte _ (by omega)]
    exact id

/-- Changes of the lock bytes that Lock makes keep the locks. -/
theorem Kept.of_lockBytes (h : ∀ i, d'.configByte i = d.configByte i ∨ LockByte d d' i) (hotp : d'.otp = d.otp)
    (hslots : d'.slots = d.slots) : Kept d d' := by
  refine ⟨?_, ?_, ?_, fun _ => h, fun _ => hotp, fun _ _ _ => by rw [hslots]⟩
  · have h87 : d'.configByte 87 = d.configByte 87 := by
      rcases h 87 with h | ⟨h, -, -⟩ | ⟨h, -⟩
      · exact h
      · cases h
      · omega
    rw [Device.configLocked, Device.configLocked, h87]
    exact id
  · intro hl
    rcases h 86 with h | ⟨-, -, h⟩ | ⟨h, -⟩
    · rwa [Device.dataLocked, h]
    · rw [Device.dataLocked, h]
      rfl
    · omega
  · intro slot hs hl
    have hlt : slot < 16 := hs
    rw [Device.slotLocked_iff _ hs] at hl ⊢
    rcases h (88 + slot / 8) with h | ⟨h, -, -⟩ | ⟨-, h⟩
    · rw [h, hl]
    · omega
    · rw [← Bool.not_eq_true] at hl ⊢
      exact fun hbit => hl (h _ hbit)

theorem setDataLocked_kept (hl : d.dataLocked = false) : Kept d d.setDataLocked := by
  refine .of_lockBytes (fun i => ?_) rfl rfl
  by_cases hi : 86 = i
  · subst hi
    rw [Device.dataLocked, decide_eq_false_iff_not, not_not] at hl
    refine .inr (.inl ⟨rfl, hl, ?_⟩)
    rw [Device.setDataLocked, Device.setConfigByte_configByte _ _ _ _ (by decide), if_pos rfl]
  · rw [Device.setDataLocked, Device.setConfigByte_configByte _ _ _ _ (by decide), if_neg hi]
    exact .inl rfl

theorem setSlotLocked_kept {slot : ℕ} (hs : slot < numSlots) : Kept d (d.setSlotLocked slot) := by
  have hbits : ∀ j < 2, ∀ k, ((d.setSlotLocked slot).configByte (88 + j)).toNat.testBit k = true →
      (d.configByte (88 + j)).toNat.testBit k = true := by
    intro j hj k hk
    by_cases hk8 : k < 8
    · rw [d.setSlotLocked_testBit hs hj hk8, Bool.and_eq_true] at hk
      exact hk.1
    · rw [Nat.testBit_eq_false_of_lt] at hk
      · cases hk
      · exact Nat.lt_of_lt_of_le (UInt8.toNat_lt _) (Nat.pow_le_pow_right (by decide) (by omega : 8 ≤ k))
  refine .of_lockBytes (fun i => ?_) rfl rfl
  by_cases h8 : i = 88
  · exact .inr (.inr ⟨.inl h8, h8 ▸ hbits 0 (by decide)⟩)
  by_cases h9 : i = 89
  · exact .inr (.inr ⟨.inr h9, h9 ▸ hbits 1 (by decide)⟩)
  exact .inl (d.setSlotLocked_configByte h8 h9)

theorem putSlot_kept {slot off : ℕ} {old data : Bytes} (hl : d.slotLocked slot = false) :
    Kept d (d.putSlot slot old off data) := by
  refine .of_config rfl (fun _ => rfl) fun slot' _ hl' => ?_
  have hne : slot ≠ slot' := by
    rintro rfl
    rw [hl] at hl'
    cases hl'
  exact List.getElem?_set_ne hne

/-- One update, one packet. -/
theorem Update.kept (h : Update cmd d d') (hr : ¬ Reopens d cmd) (ho : ¬ Overwrites d cmd) : Kept d d' := by
  cases h with
  | unchanged => exact .refl d
  | writeConfig hc hl h => exact writeConfig_kept hc hl h hr
  | writeOtp _ hl _ => exact .of_config rfl (by simp [hl]) fun _ _ _ => rfl
  | writeData hc hl h hs => exact writeData_kept hc hl h hs ho
  | lockConfig _ hl => exact setConfigLocked_kept hl
  | lockData _ hl => exact setDataLocked_kept hl
  | lockSlot _ h _ => exact setSlotLocked_kept h
  | genkey _ _ hl _ => exact putSlot_kept hl

theorem Update.byLock (h : Update cmd d d') (hl : d.configLocked = true) (hne : d'.config ≠ d.config) :
    cmd.opcode = opLock := by
  cases h with
  | writeConfig _ hl' _ =>
    rw [hl] at hl'
    cases hl'
  | lockConfig hc _ => exact hc
  | lockData hc _ => exact hc
  | lockSlot hc _ _ => exact hc
  | _ => exact absurd rfl hne

theorem dispatch_keeps (h : dispatch K g d s raw = .ok (response, d', s')) (hh : Honours d raw) : Keeps raw d d' := by
  rcases dispatch_update h with rfl | ⟨cmd, hp, hu⟩
  · exact ⟨.refl d', fun _ hne => absurd rfl hne⟩
  · exact ⟨hu.kept (hh cmd hp).1 (hh cmd hp).2, fun hl hne => ⟨cmd, hp, hu.byLock hl hne⟩⟩

/-! ### Packets that do not -/

theorem handle_write (hc : cmd.opcode = opWrite) : handle K g d s cmd = write d s cmd := by
  simp [handle, hc, opWrite, opInfo, opRandom, opRead]

theorem write_of_writesTo {zoneId : UInt8} (hc : cmd.WritesTo zoneId) (h : writeTo d zoneId cmd.p2 cmd.data = .ok d') :
    write d s cmd = .ok (success, d', s) := by
  obtain ⟨-, hplain, hlen, hzone⟩ := hc
  simp [write, ensure, hplain, hlen, hzone, h]

/-- Every address of the configuration zone is inside of it. -/
theorem WritesTo.config_fits (hc : cmd.WritesTo zoneConfig) : cmd.zoneOffset + cmd.data.length ≤ configSize := by
  have hword : (cmd.p2 &&& 0x7).toNat ≤ 7 := by
    rw [UInt16.toNat_and]
    exact Nat.and_le_right
  have hblock : ((cmd.p2 >>> 3) &&& 0x3).toNat ≤ 3 := by
    rw [UInt16.toNat_and]
    exact Nat.and_le_right
  have hlen : cmd.data.length = 32 ∨ cmd.data.length = 4 := by
    rw [hc.2.2.1, accessLen]
    split
    · exact .inl rfl
    · exact .inr rfl
  simp only [Command.zoneOffset, addrToByteOffset, configSize]
  rcases hlen with h | h
  · rw [h, if_pos rfl]
    omega
  · rw [h, if_neg (by decide)]
    omega

/-- The device after a packet whose command was accepted. -/
theorem dispatch_of_write {zoneId : UInt8} {d1 : Device} (hp : Command.parse raw = .ok cmd) (hc : cmd.WritesTo zoneId)
    (hw : writeTo d zoneId cmd.p2 cmd.data = .ok d1) (h : dispatch K g d s raw = .ok (response, d', s')) : d' = d1 := by
  unfold dispatch at h
  rw [hp] at h
  dsimp only at h
  rw [handle_write hc.1, write_of_writesTo hc hw] at h
  have hd := respond_eq_ok (r := (success, d1, s)) h
  exact (Prod.mk.inj hd).1.symm

theorem reopens_breaks (hp : Command.parse raw = .ok cmd) (hr : Reopens d cmd)
    (h : dispatch K g d s raw = .ok (response, d', s')) : ¬ Kept d d' := by
  obtain ⟨hc, hl, hcase⟩ := hr
  have hfits := WritesTo.config_fits hc
  have hw : writeTo d zoneConfig cmd.p2 cmd.data =
      .ok { d with config := writeZone d.config cmd.zoneOffset cmd.data hfits } := by
    simp only [writeTo, writeConfig, ensure, if_pos hl, ok_bind, reduceIte]
    exact dif_pos hfits
  obtain rfl := dispatch_of_write hp hc hw h
  intro hk
  rcases hcase with ⟨hlocked, hv⟩ | ⟨slot, hs, hlocked, v, hv, hbit⟩
  · have hkept := hk.data hlocked
    rw [Device.dataLocked, writeZone_configByte, hv] at hkept
    cases hkept
  · have hkept := (Device.slotLocked_iff _ hs).mp (hk.slot slot hs hlocked)
    rw [writeZone_configByte, hv, Option.getD_some, hbit] at hkept
    cases hkept

theorem dataSlot_lt (addr : UInt16) : dataSlot addr < numSlots := by
  rw [dataSlot, UInt16.toNat_and]
  exact Nat.lt_of_le_of_lt Nat.and_le_right (by decide)

/-- The bytes written are there afterwards. -/
theorem overwrite_drop_take {b data : Bytes} {off : ℕ} (h : off ≤ b.length) :
    ((overwrite b off data).drop off).take data.length = data := by
  rw [overwrite, List.append_assoc, List.drop_left' (List.length_take_of_le h), List.take_left]

theorem overwrites_breaks (h16 : d.slots.length = numSlots) (hp : Command.parse raw = .ok cmd) (ho : Overwrites d cmd)
    (h : dispatch K g d s raw = .ok (response, d', s')) : ¬ Kept d d' := by
  obtain ⟨hc, hunlocked, hlocked, hfits, hne⟩ := ho
  have hslot := dataSlot_lt cmd.p2
  obtain ⟨old, hs⟩ : ∃ old, d.slots[dataSlot cmd.p2]? = some old :=
    ⟨_, List.getElem?_eq_getElem (by rw [h16]; exact hslot)⟩
  have hw : writeTo d zoneData cmd.p2 cmd.data = .ok (d.putSlot (dataSlot cmd.p2) old cmd.slotOffset cmd.data) := by
    have hguard : ¬ (d.dataLocked = true ∧ d.slotLocked (dataSlot cmd.p2) = true) := by simp [hunlocked]
    have hwrite : writeTo d zoneData cmd.p2 cmd.data = writeData d cmd.p2 cmd.data := rfl
    have hfits' : dataByteOffset cmd.p2 cmd.data.length + cmd.data.length ≤ slotSize := hfits
    simp only [hwrite, writeData, ensure, if_pos hslot, if_pos hguard, if_pos hfits', ok_bind, index_eq_ok.mpr hs]
    rfl
  obtain rfl := dispatch_of_write hp hc hw h
  intro hk
  have hkept : (d.slots.set _ _)[dataSlot cmd.p2]? = _ := hk.content _ hslot hlocked
  rw [hs, List.getElem?_set_self (by rw [h16]; exact hslot), Option.some.injEq] at hkept
  rw [hs, Option.getD_some, ← hkept] at hne
  refine hne (overwrite_drop_take ?_)
  rw [padTo_length]
  omega

/-- A packet keeps the locks exactly if it is neither of the two kinds. -/
theorem keeps_iff_honours (h16 : d.slots.length = numSlots) (h : dispatch K g d s raw = .ok (response, d', s')) :
    Keeps raw d d' ↔ Honours d raw := by
  constructor
  · intro hk cmd hp
    exact ⟨fun hr => reopens_breaks hp hr h hk.toKept, fun ho => overwrites_breaks h16 hp ho h hk.toKept⟩
  · exact dispatch_keeps h

end Step

/-! ### Sequences of packets -/

/-- Every sequence of packets is answered. Its packets all keep the locks
exactly if they are all of the other kinds, and then the locks are one-way
from its start to its end. -/
theorem locks_kept_iff_honoured (K : Crates) (s : Device × Session) (h16 : s.1.slots.length = numSlots)
    (inputs : List (Rng × Bytes)) :
    ∃ log s', trace (step K) s inputs = .ok (log, s') ∧
      ((∀ e ∈ log, Honours e.pre.1 e.input.2) ↔
        ∀ e ∈ log, ∃ t, step K e.pre e.input = .ok (e.output, t) ∧ Keeps e.input.2 e.pre.1 t.1) ∧
      ((∀ e ∈ log, Honours e.pre.1 e.input.2) → Kept s.1 s'.1) := by
  induction inputs generalizing s with
  | nil => exact ⟨[], s, rfl, by simp, fun _ => .refl s.1⟩
  | cons i inputs ih =>
    obtain ⟨response, d1, s1, h⟩ := dispatch_returns (K := K) (g := i.1) (s := s.2) h16 i.2
    have hstep : step K s i = .ok (response, d1, s1) := h
    have h16' : d1.slots.length = numSlots := by
      rcases dispatch_update h with rfl | ⟨cmd, -, hu⟩
      · exact h16
      · rw [hu.slots_length, h16]
    obtain ⟨log, s', htrace, hiff, hkept⟩ := ih (d1, s1) h16'
    have hone : Keeps i.2 s.1 d1 ↔ Honours s.1 i.2 := keeps_iff_honours h16 h
    refine ⟨⟨s, i, response⟩ :: log, s', by simp only [trace, hstep, htrace], ?_, ?_⟩
    · simp only [List.forall_mem_cons, hiff, hstep, Except.ok.injEq, Prod.mk.injEq, true_and, exists_eq_left', hone]
    · intro hall
      rw [List.forall_mem_cons] at hall
      exact (hone.mpr hall.1).toKept.trans (hkept hall.2)

/-- Crates that know no key; Write and Lock use none. -/
def noCrates : Crates where
  sha256 _ := zeroArr 32
  SigningKey := Unit
  signingKeyRandom _ := ()
  toBytes _ := zeroArr 32
  signingKeyFromBytes _ := none
  pubkeyRaw _ := zeroArr 64
  signPrehash _ _ := none
  Signature := Unit
  signatureTryFrom _ := none
  VerifyingKey := Unit
  verifyingKeyFromPoint _ := none
  verifyPrehash _ _ _ := false
  SecretKey := Unit
  secretKeyFromBytes _ := none
  PublicKey := Unit
  publicKeyFromPoint _ := none
  diffieHellman _ _ := zeroArr 32

/-- The configuration zone unlocked, the data zone as `lockValue` says and slot 3 locked; all slots are empty. -/
def partlyLocked (lockValue : UInt8) : Device where
  config := ⟨List.replicate 86 0 ++ [lockValue, 0x55, 0xF7, 0xFF] ++ List.replicate 38 0, rfl⟩
  otp := zeroArr otpSize
  slots := List.replicate numSlots []

/-- Lock of the data zone, without a CRC of its content. -/
def lockDataPacket : Bytes := [0x07, 0x17, 0x81, 0x00, 0x00, 0x3A, 0x07]

theorem lockDataPacket_honours (d : Device) : Honours d lockDataPacket := by
  intro cmd hp
  have hop : cmd.opcode = opLock := by
    have hparse : Command.parse lockDataPacket = .ok ⟨opLock, 0x81, 0, []⟩ := by decide +kernel
    rw [hparse] at hp
    cases hp
    rfl
  have hno : ∀ zoneId, ¬ cmd.WritesTo zoneId := by
    intro zoneId hc
    have hwrite := hc.1
    rw [hop] at hwrite
    exact absurd hwrite (by decide)
  exact ⟨fun hr => hno _ hr.1, fun ho => hno _ ho.1⟩

/-- Locking the data zone keeps slot 3 locked and as it is. -/
theorem lockData_run_kept : (partlyLocked 0x55).slots.length = numSlots ∧
    ∃ log s', trace (step noCrates) (partlyLocked 0x55, {}) [(fun _ => 0, lockDataPacket)] = .ok (log, s') ∧
      log.length = 1 ∧ Kept (partlyLocked 0x55) s'.1 := by
  refine ⟨by decide, ?_⟩
  obtain ⟨log, s', htrace, -, hkept⟩ :=
    locks_kept_iff_honoured noCrates (partlyLocked 0x55, {}) (by decide) [(fun _ => 0, lockDataPacket)]
  obtain ⟨response, d1, s1, h⟩ := dispatch_returns (K := noCrates) (g := fun _ => 0) (d := partlyLocked 0x55) (s := {})
    (by decide) lockDataPacket
  have hstep : step noCrates (partlyLocked 0x55, {}) (fun _ => 0, lockDataPacket) = .ok (response, d1, s1) := h
  have hlog := htrace
  simp only [trace, hstep, Except.ok.injEq, Prod.mk.injEq] at hlog
  obtain ⟨rfl, rfl⟩ := hlog
  exact ⟨_, _, htrace, rfl, hkept (by simp [lockDataPacket_honours])⟩

/-- Write of bytes 84 to 87 of the configuration zone. -/
def reopenPacket : Bytes := [0x0B, 0x12, 0x00, 0x15, 0x00, 0x00, 0x00, 0x55, 0x55, 0xF2, 0x70]

/-- Write of the first word of slot 3. -/
def overwritePacket : Bytes := [0x0B, 0x12, 0x02, 0x00, 0x03, 0x01, 0x02, 0x03, 0x04, 0x54, 0xAC]

/-- Two Writes unlock the data zone and then fill a slot that stays locked. -/
theorem locks_reopened_and_overwritten :
    (partlyLocked 0x00).slots.length = numSlots ∧ (partlyLocked 0x00).dataLocked = true ∧
      (partlyLocked 0x00).slotLocked 3 = true ∧ (partlyLocked 0x00).slots[3]? = some [] ∧
      (trace (step noCrates) (partlyLocked 0x00, {})
        [(fun _ => 0, reopenPacket), (fun _ => 0, overwritePacket)]).map
          (fun r => (r.2.1.dataLocked, r.2.1.slotLocked 3, r.2.1.slots[3]?)) =
        .ok (false, true, some [0x01, 0x02, 0x03, 0x04]) := by
  refine ⟨by decide, by decide +kernel, by decide +kernel, by decide, ?_⟩
  decide +kernel

end ATECC608
end Simulators
