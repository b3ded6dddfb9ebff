/-
# ATECC608: what a command can do

`Update` says once what a command does to the device: nothing, one of three
writes, one of three locks, or a new key, each after the checks of its handler.
With 16 slots every packet is answered (`dispatch_returns`), and the number of
slots stays.

Key theorems: `dispatch_update`, `dispatch_returns`.
-/
import Simulators.Lib.Run
import Simulators.ATECC608.Handlers

namespace Simulators
namespace ATECC608

open Handler

/-- A plain Write, of as many bytes as its mode says. -/
def Command.WritesTo (cmd : Command) (zoneId : UInt8) : Prop :=
  cmd.opcode = opWrite ∧ cmd.p1 &&& 0x40 = 0 ∧ cmd.data.length = accessLen cmd.p1 ∧ cmd.p1 &&& 0x03 = zoneId

instance (cmd : Command) (zoneId : UInt8) : Decidable (cmd.WritesTo zoneId) :=
  inferInstanceAs (Decidable (_ ∧ _ ∧ _ ∧ _))

/-- Where a Write to the configuration or OTP zone starts. -/
def Command.zoneOffset (cmd : Command) : ℕ := addrToByteOffset cmd.p2 cmd.data.length

/-- Where a Write to a slot starts. -/
def Command.slotOffset (cmd : Command) : ℕ := dataByteOffset cmd.p2 cmd.data.length

/-- A slot with part of it replaced. -/
def Device.putSlot (d : Device) (slot : ℕ) (old : Bytes) (off : ℕ) (data : Bytes) : Device :=
  { d with slots := d.slots.set slot (overwrite (padTo (off + data.length) old) off data) }

/-- The device after a command. -/
inductive Update (cmd : Command) (d : Device) : Device → Prop
  | unchanged : Update cmd d d
  | writeConfig (hc : cmd.WritesTo zoneConfig) (hl : d.configLocked = false)
      (h : cmd.zoneOffset + cmd.data.length ≤ configSize) :
      Update cmd d { d with config := writeZone d.config cmd.zoneOffset cmd.data h }
  | writeOtp (hc : cmd.WritesTo zoneOtp) (hl : d.dataLocked = false)
      (h : cmd.zoneOffset + cmd.data.length ≤ otpSize) :
      Update cmd d { d with otp := writeZone d.otp cmd.zoneOffset cmd.data h }
  | writeData {old : Bytes} (hc : cmd.WritesTo zoneData)
      (hl : ¬ (d.dataLocked = true ∧ d.slotLocked (dataSlot cmd.p2) = true))
      (h : cmd.slotOffset + cmd.data.length ≤ slotSize) (hs : d.slots[dataSlot cmd.p2]? = some old) :
      Update cmd d (d.putSlot (dataSlot cmd.p2) old cmd.slotOffset cmd.data)
  | lockConfig (hc : cmd.opcode = opLock) (hl : d.configLocked = false) : Update cmd d d.setConfigLocked
  | lockData (hc : cmd.opcode = opLock) (hl : d.dataLocked = false) : Update cmd d d.setDataLocked
  | lockSlot {slot : ℕ} (hc : cmd.opcode = opLock) (h : slot < numSlots) (hl : d.slotLocked slot = false) :
      Update cmd d (d.setSlotLocked slot)
  | genkey {slot : ℕ} {old : Bytes} (scalar : ByteArr 32) (hc : cmd.opcode = opGenkey) (hl : d.slotLocked slot = false)
      (hs : d.slots[slot]? = some old) : Update cmd d (d.putSlot slot old 0 scalar.bytes)

section Handlers

variable {K : Crates} {g : Rng} {d d' : Device} {s : Session} {cmd : Command} {body : Bytes}
  {r : Bytes × Device × Session}

theorem writeConfig_update (hc : cmd.WritesTo zoneConfig) (h : writeConfig d cmd.p2 cmd.data = .ok d') :
    Update cmd d d' := by
  simp only [writeConfig, bind_eq_ok, ensure_eq_ok] at h
  obtain ⟨-, hl, h⟩ := h
  split at h
  · rename_i hle
    cases h
    exact .writeConfig hc hl hle
  · cases h

theorem writeOtp_update (hc : cmd.WritesTo zoneOtp) (h : writeOtp d cmd.p2 cmd.data = .ok d') :
    Update cmd d d' := by
  simp only [writeOtp, bind_eq_ok, ensure_eq_ok] at h
  obtain ⟨-, hl, h⟩ := h
  split at h
  · rename_i hle
    cases h
    exact .writeOtp hc hl hle
  · cases h

theorem writeData_update (hc : cmd.WritesTo zoneData) (h : writeData d cmd.p2 cmd.data = .ok d') :
    Update cmd d d' := by
  simp only [writeData, bind_eq_ok, ensure_eq_ok, index_eq_ok, pure_eq_ok, Except.ok.injEq] at h
  obtain ⟨-, -, -, hl, -, hle, old, hs, rfl⟩ := h
  exact .writeData hc hl hle hs

/-- What a handler leaves behind: one of the updates, and a body that fits a packet. -/
structure Answered (cmd : Command) (d : Device) (r : Bytes × Device × Session) : Prop where
  update : Update cmd d r.2.1
  body : r.1.length ≤ 64

theorem Answered.reads {r : Bytes × Device × Session} (hd : r.2.1 = d) (hb : r.1.length ≤ 64) : Answered cmd d r :=
  ⟨hd ▸ .unchanged, hb⟩

theorem write_answered (hop : cmd.opcode = opWrite) (h : write d s cmd = .ok r) : Answered cmd d r := by
  simp only [write, bind_eq_ok, ensure_eq_ok, pure_eq_ok, Except.ok.injEq] at h
  obtain ⟨-, hplain, -, hlen, d', h, rfl⟩ := h
  refine ⟨?_, by simp [success]⟩
  unfold writeTo at h
  split at h
  · exact writeConfig_update ⟨hop, hplain, hlen, ‹_›⟩ h
  · split at h
    · exact writeOtp_update ⟨hop, hplain, hlen, ‹_›⟩ h
    · split at h
      · exact writeData_update ⟨hop, hplain, hlen, ‹_›⟩ h
      · cases h

theorem lock_answered (hop : cmd.opcode = opLock) (h : lock d s cmd = .ok r) : Answered cmd d r := by
  simp only [lock] at h
  split at h
  · simp only [bind_eq_ok, ensure_eq_ok, pure_eq_ok, Except.ok.injEq] at h
    obtain ⟨-, hl, rfl⟩ := h
    exact ⟨.lockConfig hop hl, by simp [success]⟩
  · split at h
    · simp only [bind_eq_ok, ensure_eq_ok, pure_eq_ok, Except.ok.injEq] at h
      obtain ⟨-, hl, rfl⟩ := h
      exact ⟨.lockData hop hl, by simp [success]⟩
    · split at h
      · simp only [bind_eq_ok, ensure_eq_ok, pure_eq_ok, Except.ok.injEq] at h
        obtain ⟨-, hlt, -, hl, rfl⟩ := h
        exact ⟨.lockSlot hop hlt hl, by simp [success]⟩
      · cases h

theorem genkey_answered (hop : cmd.opcode = opGenkey) (h : genkey K g d s cmd = .ok r) : Answered cmd d r := by
  simp only [genkey, bind_eq_ok, ensure_eq_ok] at h
  obtain ⟨-, -, h⟩ := h
  split at h
  · simp only [bind_eq_ok, ensure_eq_ok, index_eq_ok, pure_eq_ok, Except.ok.injEq] at h
    obtain ⟨-, hl, old, hs, rfl⟩ := h
    have hput := Update.genkey (K.toBytes (K.signingKeyRandom g)) hop hl hs
    rw [Device.putSlot, ByteArr.size] at hput
    exact ⟨hput, Nat.le_of_eq (ByteArr.size _)⟩
  · simp only [bind_eq_ok, pure_eq_ok, Except.ok.injEq] at h
    obtain ⟨-, -, sk, -, rfl⟩ := h
    exact .reads rfl (Nat.le_of_eq (K.pubkeyRaw sk).size)
  · cases h

theorem readFrom_length {zoneId : UInt8} {addr : UInt16} {len : ℕ} (h : readFrom d zoneId addr len = .ok body) :
    body.length = len := by
  have hlinear : ∀ zone size, readLinear zone size addr len = .ok body → body.length = len := by
    intro zone size h
    simp only [readLinear, bind_eq_ok, ensure_eq_ok, slice_eq_ok] at h
    obtain ⟨-, -, ⟨-, hle⟩, rfl⟩ := h
    rw [List.length_take, List.length_drop]
    omega
  unfold readFrom at h
  split at h
  · exact hlinear _ _ h
  · split at h
    · exact hlinear _ _ h
    · split at h
      · simp only [readData, bind_eq_ok, ensure_eq_ok, pure_eq_ok, Except.ok.injEq] at h
        obtain ⟨-, -, -, -, old, -, rfl⟩ := h
        rw [padTo_length, List.length_take]
        omega
      · cases h

theorem read_answered (h : read d s cmd = .ok r) : Answered cmd d r := by
  simp only [read, bind_eq_ok, pure_eq_ok, Except.ok.injEq] at h
  obtain ⟨body, hread, rfl⟩ := h
  refine .reads rfl ?_
  rw [readFrom_length hread, accessLen]
  split <;> decide

theorem info_answered (h : info d s cmd = .ok r) : Answered cmd d r := by
  simp only [info, bind_eq_ok, slice_eq_ok, pure_eq_ok, Except.ok.injEq] at h
  obtain ⟨-, -, rev, ⟨-, rfl⟩, rfl⟩ := h
  refine .reads rfl ?_
  exact Nat.le_trans (List.length_take_le _ _) (by decide)

theorem random_answered (h : random g d s cmd = .ok r) : Answered cmd d r := by
  cases h
  exact .reads rfl (by simp)

theorem sha_answered (h : sha K d s cmd = .ok r) : Answered cmd d r := by
  have hsha : ∀ b, (K.sha256 b).bytes.length ≤ 64 := by
    intro b
    rw [ByteArr.size]
    decide
  unfold sha at h
  split at h
  · cases h
    exact .reads rfl (by simp [success])
  · simp only [bind_eq_ok, pure_eq_ok, Except.ok.injEq] at h
    obtain ⟨-, -, rfl⟩ := h
    exact .reads rfl (by simp [success])
  · simp only [bind_eq_ok, pure_eq_ok, Except.ok.injEq] at h
    obtain ⟨-, -, rfl⟩ := h
    exact .reads rfl (hsha _)
  · cases h
    exact .reads rfl (hsha _)
  · cases h

theorem nonce_answered (h : nonce d s cmd = .ok r) : Answered cmd d r := by
  simp only [nonce, bind_eq_ok] at h
  obtain ⟨-, -, h⟩ := h
  split at h
  · cases h
    exact .reads rfl (by simp [success])
  · cases h

theorem sign_answered (h : sign K d s cmd = .ok r) : Answered cmd d r := by
  simp only [sign, bind_eq_ok, pure_eq_ok, Except.ok.injEq] at h
  obtain ⟨-, -, -, -, -, -, -, -, -, -, sig, -, rfl⟩ := h
  exact .reads rfl (Nat.le_of_eq sig.size)

theorem verify_answered (h : verify K d s cmd = .ok r) : Answered cmd d r := by
  simp only [verify, bind_eq_ok, pure_eq_ok, Except.ok.injEq] at h
  obtain ⟨-, -, -, -, -, -, -, -, -, -, -, -, rfl⟩ := h
  exact .reads rfl (by simp [success])

theorem ecdh_answered (h : ecdh K d s cmd = .ok r) : Answered cmd d r := by
  simp only [ecdh, bind_eq_ok, pure_eq_ok, Except.ok.injEq] at h
  obtain ⟨-, -, -, -, -, -, -, -, sk, -, peer, -, rfl⟩ := h
  refine .reads rfl ?_
  rw [ByteArr.size]
  decide

/-- What holds of each handler on its opcode, and of a refusal, holds of a command. -/
theorem handle_induction {P : Cmd → Prop} (hinfo : P (info d s cmd)) (hrandom : P (random g d s cmd))
    (hread : P (read d s cmd)) (hwrite : cmd.opcode = opWrite → P (write d s cmd))
    (hlock : cmd.opcode = opLock → P (lock d s cmd)) (hsha : cmd.opcode = opSha → P (sha K d s cmd))
    (hnonce : cmd.opcode = opNonce → P (nonce d s cmd)) (hgenkey : cmd.opcode = opGenkey → P (genkey K g d s cmd))
    (hsign : P (sign K d s cmd)) (hverify : P (verify K d s cmd)) (hecdh : P (ecdh K d s cmd))
    (hrefuse : P (refuse statusParseError)) : P (handle K g d s cmd) :=
  iteInduction (fun _ => hinfo) fun _ => iteInduction (fun _ => hrandom) fun _ =>
  iteInduction (fun _ => hread) fun _ => iteInduction hwrite fun _ =>
  iteInduction hlock fun _ => iteInduction hsha fun _ =>
  iteInduction hnonce fun _ => iteInduction hgenkey fun _ =>
  iteInduction (fun _ => hsign) fun _ => iteInduction (fun _ => hverify) fun _ =>
  iteInduction (fun _ => hecdh) fun _ => hrefuse

/-- A handler that returns has made one of the updates. -/
theorem handle_answered : handle K g d s cmd = .ok r → Answered cmd d r :=
  handle_induction (P := fun x => x = .ok r → Answered cmd d r) info_answered random_answered read_answered
    write_answered lock_answered (fun _ => sha_answered) (fun _ => nonce_answered) genkey_answered sign_answered
    verify_answered ecdh_answered (fun h => (refuse_eq_ok.mp h).elim)

/-! ### Every packet is answered -/

theorem readFrom_noPanic {zoneId : UInt8} {addr : UInt16} {len : ℕ} (h16 : d.slots.length = numSlots) :
    NoPanic (readFrom d zoneId addr len) := by
  have hlinear : ∀ {n : ℕ} (zone : ByteArr n), NoPanic (readLinear zone.bytes n addr len) := by
    intro n zone
    simp only [readLinear, noPanic_bind, noPanic_ensure, ensure_eq_ok, true_and]
    intro _ hle
    exact noPanic_slice.mpr ⟨by omega, by rw [zone.size]; exact hle⟩
  have hdata : NoPanic (readData d addr len) := by
    simp only [readData, noPanic_bind, noPanic_ensure, ensure_eq_ok, true_and]
    intro _ hlt _ _
    exact ⟨noPanic_index.mpr (h16 ▸ hlt), fun _ _ => noPanic_pure _⟩
  unfold readFrom
  simp only [noPanic_ite]
  exact ⟨fun _ => hlinear _, fun _ => ⟨fun _ => hlinear _, fun _ => ⟨fun _ => hdata, fun _ => noPanic_refuse _⟩⟩⟩

theorem writeTo_noPanic {zoneId : UInt8} {addr : UInt16} {data : Bytes} (h16 : d.slots.length = numSlots) :
    NoPanic (writeTo d zoneId addr data) := by
  have hconfig : NoPanic (writeConfig d addr data) := by
    simp only [writeConfig, noPanic_bind, noPanic_ensure, true_and]
    intro _ _
    split
    · exact noPanic_ok _
    · exact noPanic_refuse _
  have hotp : NoPanic (writeOtp d addr data) := by
    simp only [writeOtp, noPanic_bind, noPanic_ensure, true_and]
    intro _ _
    split
    · exact noPanic_ok _
    · exact noPanic_refuse _
  have hdata : NoPanic (writeData d addr data) := by
    simp only [writeData, noPanic_bind, noPanic_ensure, ensure_eq_ok, true_and]
    intro _ hlt _ _ _ _
    exact ⟨noPanic_index.mpr (h16 ▸ hlt), fun _ _ => noPanic_pure _⟩
  unfold writeTo
  simp only [noPanic_ite]
  exact ⟨fun _ => hconfig, fun _ => ⟨fun _ => hotp, fun _ => ⟨fun _ => hdata, fun _ => noPanic_refuse _⟩⟩⟩

theorem lock_noPanic : NoPanic (lock d s cmd) := by
  simp only [lock, noPanic_ite, noPanic_bind, noPanic_ensure, noPanic_pure, noPanic_refuse, implies_true, and_self]

theorem slotScalar_noPanic {slot : ℕ} (h16 : d.slots.length = numSlots) (hlt : slot < numSlots) :
    NoPanic (slotScalar d slot) := by
  simp only [slotScalar, noPanic_bind, noPanic_orRefuse, implies_true, and_true]
  exact noPanic_index.mpr (h16 ▸ hlt)

theorem genkey_noPanic (h16 : d.slots.length = numSlots) : NoPanic (genkey K g d s cmd) := by
  simp only [genkey, noPanic_bind, noPanic_ensure, ensure_eq_ok, true_and]
  intro _ hlt
  split
  · simp only [noPanic_bind, noPanic_ensure, noPanic_pure, implies_true, and_true, true_and]
    exact fun _ _ => noPanic_index.mpr (h16 ▸ hlt)
  · simp only [noPanic_bind, noPanic_orRefuse, noPanic_pure, implies_true, and_true]
    exact slotScalar_noPanic h16 hlt
  · exact noPanic_refuse _

theorem sign_noPanic (h16 : d.slots.length = numSlots) : NoPanic (sign K d s cmd) := by
  simp only [sign, noPanic_bind, noPanic_ensure, noPanic_orRefuse, noPanic_pure, ensure_eq_ok, implies_true, and_true,
    true_and]
  exact fun _ _ _ hlt _ _ => slotScalar_noPanic h16 hlt

theorem ecdh_noPanic (h16 : d.slots.length = numSlots) : NoPanic (ecdh K d s cmd) := by
  simp only [ecdh, noPanic_bind, noPanic_ensure, noPanic_orRefuse, noPanic_pure, ensure_eq_ok, implies_true, and_true,
    true_and]
  exact fun _ _ _ hlt _ _ => slotScalar_noPanic h16 hlt

theorem info_noPanic : NoPanic (info d s cmd) := by
  simp only [info, noPanic_bind, noPanic_ensure, noPanic_pure, implies_true, and_true, true_and]
  intro _ _
  exact noPanic_slice.mpr ⟨by decide, by rw [d.config.size]; decide⟩

theorem sha_noPanic : NoPanic (sha K d s cmd) := by
  unfold sha
  split
  all_goals simp

theorem nonce_noPanic : NoPanic (nonce d s cmd) := by
  simp only [nonce, noPanic_bind, noPanic_ensure, true_and]
  intro _ _
  split
  · exact noPanic_ok _
  · exact noPanic_refuse _

theorem handle_noPanic (h16 : d.slots.length = numSlots) : NoPanic (handle K g d s cmd) := by
  have hread : NoPanic (read d s cmd) := by
    simp only [read, noPanic_bind, noPanic_pure, implies_true, and_true]
    exact readFrom_noPanic h16
  have hwrite : NoPanic (write d s cmd) := by
    simp only [write, noPanic_bind, noPanic_ensure, noPanic_pure, implies_true, and_true, true_and]
    exact fun _ _ _ _ => writeTo_noPanic h16
  have hverify : NoPanic (verify K d s cmd) := by simp [verify]
  exact handle_induction info_noPanic (noPanic_pure _) hread (fun _ => hwrite) (fun _ => lock_noPanic)
    (fun _ => sha_noPanic) (fun _ => nonce_noPanic) (fun _ => genkey_noPanic h16) (sign_noPanic h16) hverify
    (ecdh_noPanic h16) (noPanic_refuse _)

end Handlers

section Dispatch

variable {K : Crates} {g : Rng} {d d' : Device} {s s' : Session} {raw response : Bytes}

theorem Update.slots_length {cmd : Command} (h : Update cmd d d') : d'.slots.length = d.slots.length := by
  cases h
  all_goals simp [Device.putSlot, Device.setConfigLocked, Device.setDataLocked, Device.setSlotLocked,
    Device.setConfigByte]

theorem respond_eq_ok {r : Bytes × Device × Session} (h : respond r = .ok (response, d', s')) : r.2 = (d', s') := by
  unfold respond at h
  generalize buildResponse r.1 = x at h
  rcases x with p | q
  · cases h
  · exact (Prod.mk.inj (Except.ok.inj h)).2

theorem respond_returns {r : Bytes × Device × Session} (h : r.1.length ≤ 64) : ∃ q, respond r = .ok (q, r.2) := by
  have hle : 1 + r.1.length + 2 ≤ 0xFF := by omega
  unfold respond buildResponse
  rw [if_pos hle]
  exact ⟨_, rfl⟩

/-- A packet that does not parse changes nothing, and one that does makes one of the updates. -/
theorem dispatch_update (h : dispatch K g d s raw = .ok (response, d', s')) :
    d' = d ∨ ∃ cmd, Command.parse raw = .ok cmd ∧ Update cmd d d' := by
  unfold dispatch at h
  rcases hp : Command.parse raw with sw | cmd
  · rw [hp] at h
    have := respond_eq_ok h
    exact .inl (by simp_all)
  · rw [hp] at h
    dsimp only at h
    rcases hs : settle (fun sw => [sw]) (d, s) (handle K g d s cmd) with p | ⟨body, t⟩
    · rw [hs] at h
      cases h
    · rw [hs] at h
      have ht : t = (d', s') := respond_eq_ok h
      rcases settle_eq_ok.mp hs with hok | ⟨-, -, -, hsame⟩
      · exact .inr ⟨cmd, rfl, (ht ▸ (handle_answered hok).update :)⟩
      · rw [ht] at hsame
        exact .inl (Prod.mk.inj hsame).1.symm

/-- Sixteen slots are enough for every packet to be answered. -/
theorem dispatch_returns (h16 : d.slots.length = numSlots) (raw : Bytes) :
    ∃ response d' s', dispatch K g d s raw = .ok (response, d', s') := by
  unfold dispatch
  rcases Command.parse raw with sw | cmd
  · obtain ⟨q, hq⟩ := respond_returns (r := ([sw], d, s)) (by simp)
    exact ⟨q, d, s, hq⟩
  · dsimp only
    rcases hs : settle (fun sw => [sw]) (d, s) (handle K g d s cmd) with p | ⟨body, t⟩
    · exact absurd hs (settle_ne_error (handle_noPanic h16) p)
    · have hb : body.length ≤ 64 := by
        rcases settle_eq_ok.mp hs with hok | ⟨sw, -, rfl, -⟩
        · exact (handle_answered hok).body
        · simp
      obtain ⟨q, hq⟩ := respond_returns (r := (body, t)) hb
      exact ⟨q, t.1, t.2, hq⟩

/-- A packet arrives; the random generator may do what it likes. -/
def step (K : Crates) (state : Device × Session) (input : Rng × Bytes) : Except Panic (Bytes × (Device × Session)) :=
  dispatch K input.1 state.1 state.2 input.2

end Dispatch

end ATECC608
end Simulators
