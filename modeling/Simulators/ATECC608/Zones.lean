/-
# ATECC608: the zones as flat arrays

The configuration zone is an array of 128 bytes, the OTP zone one of 64 and
each slot one of 72, of which the code keeps as many as were written. An
address names a span of one of the arrays (`Command.span`): four bytes or 32,
by block and word. Read returns the span and Write replaces it, for the same
addresses (`readFrom_eq`, `writeTo_eq_ok`).

Key theorem: `zones_flat`.
-/
import Simulators.ATECC608.Locks
import Simulators.ATECC608.Responses

namespace Simulators
namespace ATECC608

open Handler

/-! ### Arrays and spans -/

inductive ZoneArray
  | config
  | otp
  | slot (n : ℕ)
deriving DecidableEq

def ZoneArray.size : ZoneArray → ℕ
  | .config => 128
  | .otp => 64
  | .slot _ => 72

/-- The blocks of 32 bytes that an address can tell apart. -/
def ZoneArray.blocks : ZoneArray → ℕ
  | .slot _ => 32
  | _ => 4

/-- A slot is as if filled with zeros. -/
def Device.flat (d : Device) : ZoneArray → Bytes
  | .config => d.config.bytes
  | .otp => d.otp.bytes
  | .slot n => padTo slotSize (d.slots.getD n [])

/-- The lock that a Write to the array is refused for. -/
def Device.writeLocked (d : Device) : ZoneArray → Bool
  | .config => d.configLocked
  | .otp => d.dataLocked
  | .slot n => d.dataLocked && d.slotLocked n

/-- Bytes of an array. -/
structure Span where
  array : ZoneArray
  offset : ℕ
  length : ℕ
  fits : offset + length ≤ array.size

def Span.of (r : Span) (d : Device) : Bytes := ((d.flat r.array).drop r.offset).take r.length

/-- The zone is in the low bits of P1, the slot in the low bits of the high byte of P2. -/
def Command.array (cmd : Command) : Option ZoneArray :=
  if cmd.p1.toNat % 4 = 0 then some .config
  else if cmd.p1.toNat % 4 = 1 then some .otp
  else if cmd.p1.toNat % 4 = 2 then some (.slot (cmd.p2.toNat / 256 % 16))
  else none

/-- The top bit of P1 asks for a block instead of a word. -/
def Command.len (cmd : Command) : ℕ := if 128 ≤ cmd.p1.toNat then 32 else 4

/-- Block and word, in the low byte of P2. -/
def Command.offsetIn (cmd : Command) (a : ZoneArray) : ℕ :=
  32 * (cmd.p2.toNat / 8 % a.blocks) + if cmd.len = 32 then 0 else 4 * (cmd.p2.toNat % 8)

/-- What a Read or a Write is about, if that is inside of an array. -/
def Command.span (cmd : Command) : Option Span :=
  cmd.array.bind fun a =>
    if h : cmd.offsetIn a + cmd.len ≤ a.size then some ⟨a, cmd.offsetIn a, cmd.len, h⟩ else none

/-! ### What a packet does to the arrays -/

/-- Sixteen slots, of 72 bytes at most. -/
structure Shaped (d : Device) : Prop where
  slots : d.slots.length = numSlots
  sized : ∀ b ∈ d.slots, b.length ≤ slotSize

/-- The span has the data, and every other byte is as before. -/
structure Replaced (d d' : Device) (r : Span) (data : Bytes) : Prop where
  inside : d'.flat r.array = splice (d.flat r.array) r.offset data
  outside : ∀ a ≠ r.array, d'.flat a = d.flat a

/-- A packet and its response, on flat arrays. -/
structure Flat (d d' : Device) (raw response : Bytes) : Prop where
  shaped : Shaped d'
  refused : IsError response → d' = d
  readAccepts : ∀ cmd, Command.parse raw = .ok cmd → cmd.opcode = opRead →
    (¬ IsError response ↔ cmd.span.isSome = true)
  readReturns : ∀ cmd, Command.parse raw = .ok cmd → cmd.opcode = opRead → ∀ r ∈ cmd.span,
    Carries response (r.of d) ∧ d' = d
  writeAccepts : ∀ cmd, Command.parse raw = .ok cmd → cmd.opcode = opWrite →
    (¬ IsError response ↔ cmd.p1 &&& 0x40 = 0 ∧ cmd.data.length = cmd.len ∧
      ∃ r ∈ cmd.span, d.writeLocked r.array = false)
  writeReplaces : ∀ cmd, Command.parse raw = .ok cmd → cmd.opcode = opWrite → ¬ IsError response → ∀ r ∈ cmd.span,
    r.length = cmd.data.length ∧ Replaced d d' r cmd.data

/-! ### Padding -/

section Padding

variable {b data : Bytes} {i n off : ℕ}

theorem padTo_zero : padTo 0 b = b := by simp [padTo]

theorem padTo_append (a : Bytes) : padTo n (a ++ b) = a ++ padTo (n - a.length) b := by
  rw [padTo, padTo, List.length_append, Nat.sub_add_eq, List.append_assoc]

theorem take_padTo (h : i ≤ n) : (padTo n b).take i = padTo i (b.take i) := by
  rw [padTo, padTo, List.take_append, List.take_replicate, List.length_take]
  congr 2
  omega

theorem drop_padTo : (padTo n b).drop i = padTo (n - i) (b.drop i) := by
  rw [padTo, padTo, List.drop_append, List.drop_replicate, List.length_drop]
  congr 2
  omega

/-- Only as much as is asked for need be padded. -/
theorem padTo_slice (h : off + i ≤ n) : padTo i ((b.drop off).take i) = ((padTo n b).drop off).take i := by
  rw [drop_padTo, take_padTo (by omega)]

/-- A slot that is grown for a write, and one that was full all along. -/
theorem padTo_overwrite (h : off + data.length ≤ n) :
    padTo n (overwrite (padTo (off + data.length) b) off data) = splice (padTo n b) off data := by
  have hpast : (padTo (off + data.length) b).take off = (padTo n b).take off := by
    rw [take_padTo (by omega), take_padTo (by omega)]
  have hlen : ((padTo n b).take off ++ data).length = off + data.length := by
    rw [List.length_append, List.length_take, padTo_length]
    omega
  calc padTo n (overwrite (padTo (off + data.length) b) off data)
      = padTo n ((padTo n b).take off ++ data ++ b.drop (off + data.length)) := by
        rw [overwrite, hpast, drop_padTo, Nat.sub_self, padTo_zero]
    _ = (padTo n b).take off ++ data ++ padTo (n - (off + data.length)) (b.drop (off + data.length)) := by
        rw [padTo_append, hlen]
    _ = splice (padTo n b) off data := by rw [splice, drop_padTo]

end Padding

/-! ### The bits of an address -/

section Addresses

variable {cmd : Command}

theorem zoneId_eq_iff {z : UInt8} : cmd.p1 &&& 0x03 = z ↔ cmd.p1.toNat % 4 = z.toNat := by
  rw [← UInt8.toNat_inj, UInt8.toNat_and]
  have hmod := Nat.and_two_pow_sub_one_eq_mod cmd.p1.toNat 2
  rw [show UInt8.toNat 0x03 = 2 ^ 2 - 1 from rfl, hmod]

theorem accessLen_eq : accessLen cmd.p1 = cmd.len := by
  have hlt := cmd.p1.toNat_lt
  have htop : cmd.p1 &&& 0x80 ≠ 0 ↔ 128 ≤ cmd.p1.toNat := by
    rw [ne_eq, ← UInt8.toNat_inj, UInt8.toNat_and, show UInt8.toNat 0x80 = 2 ^ 7 from rfl, Nat.and_two_pow,
      Nat.testBit_eq_decide_div_mod_eq]
    simp
    omega
  simp only [accessLen, Command.len, htop]

theorem wordBits (addr : UInt16) : (addr &&& 0x7).toNat = addr.toNat % 8 := by
  have hmod := Nat.and_two_pow_sub_one_eq_mod addr.toNat 3
  rw [UInt16.toNat_and]
  exact hmod

/-- A field of an address, as a quotient and a remainder. -/
theorem fieldBits (addr : UInt16) (k : UInt16) (j : ℕ) (m : UInt16) (hk : k.toNat < 16) (hm : m.toNat = 2 ^ j - 1) :
    ((addr >>> k) &&& m).toNat = addr.toNat / 2 ^ k.toNat % 2 ^ j := by
  rw [UInt16.toNat_and, UInt16.toNat_shiftRight, Nat.mod_eq_of_lt hk, hm, Nat.and_two_pow_sub_one_eq_mod,
    Nat.shiftRight_eq_div_pow]

theorem addrToByteOffset_eq {a : ZoneArray} (ha : a.blocks = 4) :
    addrToByteOffset cmd.p2 cmd.len = cmd.offsetIn a := by
  have hblock := fieldBits cmd.p2 3 2 0x3 (by decide) rfl
  rw [addrToByteOffset, Command.offsetIn, ha, wordBits, hblock, Nat.mul_comm, Nat.mul_comm (cmd.p2.toNat % 8)]
  rfl

theorem dataByteOffset_eq (n : ℕ) : dataByteOffset cmd.p2 cmd.len = cmd.offsetIn (.slot n) := by
  have hblock := fieldBits cmd.p2 3 5 0x1F (by decide) rfl
  rw [dataByteOffset, Command.offsetIn, wordBits, hblock, Nat.mul_comm, Nat.mul_comm (cmd.p2.toNat % 8)]
  rfl

theorem dataSlot_eq : dataSlot cmd.p2 = cmd.p2.toNat / 256 % 16 := fieldBits cmd.p2 8 4 0x0F (by decide) rfl

theorem mem_span {r : Span} : r ∈ cmd.span ↔
    cmd.array = some r.array ∧ r.offset = cmd.offsetIn r.array ∧ r.length = cmd.len := by
  rw [Option.mem_def, Command.span, Option.bind_eq_some_iff]
  constructor
  · rintro ⟨a, ha, h⟩
    split at h
    · cases h
      exact ⟨ha, rfl, rfl⟩
    · cases h
  · rintro ⟨ha, ho, hl⟩
    obtain ⟨a, off, len, fits⟩ := r
    dsimp only at ho hl
    subst ho hl
    exact ⟨a, ha, dif_pos fits⟩

end Addresses

/-! ### Reads and writes -/

section Access

variable {K : Crates} {g : Rng} {d d' : Device} {s s' : Session} {cmd : Command} {raw response body : Bytes}

/-- The zones that P1 can name. -/
theorem array_cases (cmd : Command) :
    (cmd.p1 &&& 0x03 = zoneConfig ∧ cmd.array = some .config) ∨ (cmd.p1 &&& 0x03 = zoneOtp ∧ cmd.array = some .otp) ∨
      (cmd.p1 &&& 0x03 = zoneData ∧ cmd.array = some (.slot (dataSlot cmd.p2))) ∨
      ((∀ z : UInt8, z.toNat < 3 → cmd.p1 &&& 0x03 ≠ z) ∧ cmd.array = none) := by
  have hlt : cmd.p1.toNat % 4 < 4 := Nat.mod_lt _ (by decide)
  simp only [zoneId_eq_iff, ne_eq, Command.array, dataSlot_eq]
  by_cases h0 : cmd.p1.toNat % 4 = 0
  · exact .inl ⟨h0, if_pos h0⟩
  by_cases h1 : cmd.p1.toNat % 4 = 1
  · exact .inr (.inl ⟨h1, by rw [if_neg h0, if_pos h1]⟩)
  by_cases h2 : cmd.p1.toNat % 4 = 2
  · exact .inr (.inr (.inl ⟨h2, by rw [if_neg h0, if_neg h1, if_pos h2]⟩))
  · refine .inr (.inr (.inr ⟨fun z hz heq => ?_, by rw [if_neg h0, if_neg h1, if_neg h2]⟩))
    omega

theorem exists_span {a : ZoneArray} (ha : cmd.array = some a) (P : ZoneArray → ℕ → ℕ → Prop) :
    (∃ r ∈ cmd.span, P r.array r.offset r.length) ↔
      cmd.offsetIn a + cmd.len ≤ a.size ∧ P a (cmd.offsetIn a) cmd.len := by
  constructor
  · rintro ⟨⟨a', off, len, fits⟩, hr, hP⟩
    obtain ⟨ha', ho, hl⟩ := mem_span.mp hr
    dsimp only at ha' ho hl
    rw [ha, Option.some.injEq] at ha'
    subst ha' ho hl
    exact ⟨fits, hP⟩
  · rintro ⟨h, hP⟩
    exact ⟨⟨a, _, _, h⟩, mem_span.mpr ⟨ha, rfl, rfl⟩, hP⟩

theorem no_span {P : Span → Prop} (ha : cmd.array = none) : ¬ ∃ r ∈ cmd.span, P r := by
  rintro ⟨r, hr, -⟩
  rw [(mem_span.mp hr).1] at ha
  cases ha

theorem readLinear_eq_ok {a : ZoneArray} {n : ℕ} (zone : ByteArr n) (ha : a.blocks = 4) :
    readLinear zone.bytes n cmd.p2 cmd.len = .ok body ↔
      cmd.offsetIn a + cmd.len ≤ n ∧ (zone.bytes.drop (cmd.offsetIn a)).take cmd.len = body := by
  simp only [readLinear, bind_eq_ok, ensure_eq_ok, slice_eq_ok, addrToByteOffset_eq ha, zone.size,
    Nat.add_sub_cancel_left]
  constructor
  · rintro ⟨-, hle, -, hbody⟩
    exact ⟨hle, hbody⟩
  · rintro ⟨hle, hbody⟩
    exact ⟨(), hle, ⟨Nat.le_add_right _ _, hle⟩, hbody⟩

theorem readData_eq_ok (hd : Shaped d) :
    readData d cmd.p2 cmd.len = .ok body ↔ cmd.offsetIn (.slot (dataSlot cmd.p2)) + cmd.len ≤ slotSize ∧
      ((d.flat (.slot (dataSlot cmd.p2))).drop (cmd.offsetIn (.slot (dataSlot cmd.p2)))).take cmd.len = body := by
  obtain ⟨old, hs⟩ : ∃ old, d.slots[dataSlot cmd.p2]? = some old :=
    ⟨_, List.getElem?_eq_getElem (by rw [hd.slots]; exact dataSlot_lt cmd.p2)⟩
  simp only [readData, bind_eq_ok, ensure_eq_ok, index_eq_ok, pure_eq_ok, Except.ok.injEq,
    dataByteOffset_eq (dataSlot cmd.p2), Device.flat, List.getD_eq_getElem?_getD, hs, Option.getD_some]
  constructor
  · rintro ⟨-, -, -, hle, b, hb, rfl⟩
    cases hb
    exact ⟨hle, (padTo_slice hle).symm⟩
  · rintro ⟨hle, rfl⟩
    exact ⟨(), dataSlot_lt cmd.p2, (), hle, old, rfl, padTo_slice hle⟩

/-- A Read returns the span that its address names. -/
theorem readFrom_eq_ok (hd : Shaped d) :
    readFrom d (cmd.p1 &&& 0x03) cmd.p2 (accessLen cmd.p1) = .ok body ↔ ∃ r ∈ cmd.span, r.of d = body := by
  have hspan := fun {a : ZoneArray} (ha : cmd.array = some a) =>
    exists_span ha fun a off len => ((d.flat a).drop off).take len = body
  rw [accessLen_eq]
  rcases array_cases cmd with ⟨hz, ha⟩ | ⟨hz, ha⟩ | ⟨hz, ha⟩ | ⟨hz, ha⟩
  · rw [hz]
    exact (readLinear_eq_ok d.config rfl).trans (hspan ha).symm
  · rw [hz]
    exact (readLinear_eq_ok d.otp rfl).trans (hspan ha).symm
  · rw [hz]
    exact (readData_eq_ok hd).trans (hspan ha).symm
  · rw [readFrom, if_neg (hz _ (by decide)), if_neg (hz _ (by decide)), if_neg (hz _ (by decide)), refuse_eq_ok,
      false_iff]
    exact no_span ha

theorem putSlot_replaced {n off : ℕ} {old data : Bytes} (h : off + data.length ≤ slotSize)
    (hs : d.slots[n]? = some old) : Replaced d (d.putSlot n old off data) ⟨.slot n, off, data.length, h⟩ data where
  inside := by
    have hn := (List.getElem?_eq_some_iff.mp hs).1
    simp only [Device.flat, Device.putSlot, List.getD_eq_getElem?_getD, List.getElem?_set_self hn, hs, Option.getD_some]
    exact padTo_overwrite h
  outside := by
    intro a ha
    cases a with
    | config => rfl
    | otp => rfl
    | slot m =>
      have hne : n ≠ m := fun heq => ha (heq ▸ rfl)
      simp only [Device.flat, Device.putSlot, List.getD_eq_getElem?_getD, List.getElem?_set_ne hne]

theorem writeConfig_eq_ok (hlen : cmd.data.length = cmd.len) :
    writeConfig d cmd.p2 cmd.data = .ok d' ↔ d.configLocked = false ∧
      ∃ h : cmd.offsetIn .config + cmd.data.length ≤ configSize,
        { d with config := writeZone d.config (cmd.offsetIn .config) cmd.data h } = d' := by
  have hoff : addrToByteOffset cmd.p2 cmd.data.length = cmd.offsetIn .config := by
    rw [hlen]
    exact addrToByteOffset_eq rfl
  simp only [writeConfig, bind_eq_ok, ensure_eq_ok, exists_and_left, exists_const, hoff]
  exact and_congr_right fun _ => dite_refuse_eq_ok

theorem writeOtp_eq_ok (hlen : cmd.data.length = cmd.len) :
    writeOtp d cmd.p2 cmd.data = .ok d' ↔ d.dataLocked = false ∧
      ∃ h : cmd.offsetIn .otp + cmd.data.length ≤ otpSize,
        { d with otp := writeZone d.otp (cmd.offsetIn .otp) cmd.data h } = d' := by
  have hoff : addrToByteOffset cmd.p2 cmd.data.length = cmd.offsetIn .otp := by
    rw [hlen]
    exact addrToByteOffset_eq rfl
  simp only [writeOtp, bind_eq_ok, ensure_eq_ok, exists_and_left, exists_const, hoff]
  exact and_congr_right fun _ => dite_refuse_eq_ok

theorem writeData_eq_ok {slot : ℕ} {old : Bytes} (hslot : dataSlot cmd.p2 = slot) (hs : d.slots[slot]? = some old)
    (hlen : cmd.data.length = cmd.len) :
    writeData d cmd.p2 cmd.data = .ok d' ↔ (d.dataLocked && d.slotLocked slot) = false ∧
      cmd.offsetIn (.slot slot) + cmd.data.length ≤ slotSize ∧
        d.putSlot slot old (cmd.offsetIn (.slot slot)) cmd.data = d' := by
  have hoff : dataByteOffset cmd.p2 cmd.data.length = cmd.offsetIn (.slot slot) := by
    rw [hlen, dataByteOffset_eq]
  have hlt : slot < numSlots := hslot ▸ dataSlot_lt cmd.p2
  have hlock : ¬ (d.dataLocked = true ∧ d.slotLocked slot = true) ↔ (d.dataLocked && d.slotLocked slot) = false := by
    rw [← Bool.and_eq_true, Bool.not_eq_true]
  simp only [writeData, bind_eq_ok, ensure_eq_ok, index_eq_ok, pure_eq_ok, Except.ok.injEq, hslot, hs, hoff, hlock, hlt,
    Option.some.injEq, exists_eq_left', true_and, exists_const]
  rfl

theorem exists_slot (hd : Shaped d) (cmd : Command) : ∃ old, d.slots[dataSlot cmd.p2]? = some old :=
  ⟨_, List.getElem?_eq_getElem (by rw [hd.slots]; exact dataSlot_lt cmd.p2)⟩

/-- A Write is accepted for the spans of unlocked arrays. -/
theorem writeTo_accepts (hd : Shaped d) (hlen : cmd.data.length = cmd.len) :
    (∃ d', writeTo d (cmd.p1 &&& 0x03) cmd.p2 cmd.data = .ok d') ↔
      ∃ r ∈ cmd.span, d.writeLocked r.array = false := by
  have hspan := fun {a : ZoneArray} (ha : cmd.array = some a) =>
    exists_span ha fun a _ _ => d.writeLocked a = false
  rcases array_cases cmd with ⟨hz, ha⟩ | ⟨hz, ha⟩ | ⟨hz, ha⟩ | ⟨hz, ha⟩
  · rw [hspan ha, hz, ← hlen]
    constructor
    · rintro ⟨d', h⟩
      obtain ⟨hl, hle, -⟩ := (writeConfig_eq_ok hlen).mp h
      exact ⟨hle, hl⟩
    · rintro ⟨hle, hl⟩
      exact ⟨_, (writeConfig_eq_ok hlen).mpr ⟨hl, hle, rfl⟩⟩
  · rw [hspan ha, hz, ← hlen]
    constructor
    · rintro ⟨d', h⟩
      obtain ⟨hl, hle, -⟩ := (writeOtp_eq_ok hlen).mp h
      exact ⟨hle, hl⟩
    · rintro ⟨hle, hl⟩
      exact ⟨_, (writeOtp_eq_ok hlen).mpr ⟨hl, hle, rfl⟩⟩
  · obtain ⟨old, hs⟩ := exists_slot hd cmd
    rw [hspan ha, hz, ← hlen]
    constructor
    · rintro ⟨d', h⟩
      obtain ⟨hl, hle, -⟩ := (writeData_eq_ok rfl hs hlen).mp h
      exact ⟨hle, hl⟩
    · rintro ⟨hle, hl⟩
      exact ⟨_, (writeData_eq_ok rfl hs hlen).mpr ⟨hl, hle, rfl⟩⟩
  · rw [writeTo, if_neg (hz _ (by decide)), if_neg (hz _ (by decide)), if_neg (hz _ (by decide))]
    constructor
    · rintro ⟨d', h⟩
      exact (refuse_eq_ok.mp h).elim
    · exact fun h => absurd h (no_span ha)

/-- An accepted Write replaces the span that its address names. -/
theorem writeTo_replaces (hd : Shaped d) (hlen : cmd.data.length = cmd.len)
    (h : writeTo d (cmd.p1 &&& 0x03) cmd.p2 cmd.data = .ok d') {r : Span} (hr : r ∈ cmd.span) :
    Replaced d d' r cmd.data := by
  obtain ⟨a, off, len, fits⟩ := r
  obtain ⟨ha, ho, hl⟩ := mem_span.mp hr
  dsimp only at ha ho hl
  rw [← hlen] at hl
  subst ho hl
  rcases array_cases cmd with ⟨hz, ha'⟩ | ⟨hz, ha'⟩ | ⟨hz, ha'⟩ | ⟨-, ha'⟩
  · rw [ha, Option.some.injEq] at ha'
    subst ha'
    rw [hz] at h
    obtain ⟨-, hle, rfl⟩ := (writeConfig_eq_ok hlen).mp h
    refine ⟨rfl, fun a hne => ?_⟩
    cases a with
    | config => exact absurd rfl hne
    | otp => rfl
    | slot _ => rfl
  · rw [ha, Option.some.injEq] at ha'
    subst ha'
    rw [hz] at h
    obtain ⟨-, hle, rfl⟩ := (writeOtp_eq_ok hlen).mp h
    refine ⟨rfl, fun a hne => ?_⟩
    cases a with
    | config => rfl
    | otp => exact absurd rfl hne
    | slot _ => rfl
  · rw [ha, Option.some.injEq] at ha'
    subst ha'
    rw [hz] at h
    obtain ⟨old, hs⟩ := exists_slot hd cmd
    obtain ⟨-, hle, rfl⟩ := (writeData_eq_ok rfl hs hlen).mp h
    exact putSlot_replaced hle hs
  · rw [ha] at ha'
    cases ha'

/-! ### Every packet -/

theorem putSlot_shaped {n off : ℕ} {old data : Bytes} (hd : Shaped d) (h : off + data.length ≤ slotSize)
    (hs : d.slots[n]? = some old) : Shaped (d.putSlot n old off data) where
  slots := by
    simp only [Device.putSlot, List.length_set]
    exact hd.slots
  sized := by
    intro b hb
    rcases List.mem_or_eq_of_mem_set hb with hb | rfl
    · exact hd.sized b hb
    · have hold := hd.sized old (List.mem_of_getElem? hs)
      have hfits : off + data.length ≤ (padTo (off + data.length) old).length := by
        rw [padTo_length]
        omega
      rw [overwrite_length hfits, padTo_length]
      omega

theorem Update.shaped (h : Update cmd d d') (hd : Shaped d) : Shaped d' := by
  cases h with
  | writeData _ _ h hs => exact putSlot_shaped hd h hs
  | genkey scalar _ _ hs => exact putSlot_shaped hd (by rw [scalar.size]; decide) hs
  | _ => exact ⟨hd.slots, hd.sized⟩

theorem handle_read (hc : cmd.opcode = opRead) : handle K g d s cmd = read d s cmd := by
  simp [handle, hc, opRead, opInfo, opRandom]

theorem read_eq_ok (hd : Shaped d) : read d s cmd = .ok (body, d', s') ↔
    (∃ r ∈ cmd.span, r.of d = body) ∧ d' = d ∧ s' = s := by
  simp only [read, bind_eq_ok, readFrom_eq_ok hd, pure_eq_ok, Except.ok.injEq, Prod.mk.injEq]
  constructor
  · rintro ⟨b, hr, rfl, rfl, rfl⟩
    exact ⟨hr, rfl, rfl⟩
  · rintro ⟨hr, rfl, rfl⟩
    exact ⟨body, hr, rfl, rfl, rfl⟩

theorem write_eq_ok : write d s cmd = .ok (body, d', s') ↔ cmd.p1 &&& 0x40 = 0 ∧ cmd.data.length = cmd.len ∧
    writeTo d (cmd.p1 &&& 0x03) cmd.p2 cmd.data = .ok d' ∧ body = success ∧ s' = s := by
  simp only [write, bind_eq_ok, ensure_eq_ok, pure_eq_ok, Except.ok.injEq, Prod.mk.injEq, accessLen_eq]
  constructor
  · rintro ⟨-, hplain, -, hlen, d1, h, rfl, rfl, rfl⟩
    exact ⟨hplain, hlen, h, rfl, rfl⟩
  · rintro ⟨hplain, hlen, h, rfl, rfl⟩
    exact ⟨(), hplain, (), hlen, d', h, rfl, rfl, rfl⟩

theorem dispatch_flat (hd : Shaped d) (h : dispatch K g d s raw = .ok (response, d', s')) :
    Flat d d' raw response where
  shaped := by
    rcases dispatch_update h with rfl | ⟨cmd, -, hu⟩
    · exact hd
    · exact hu.shaped hd
  refused := by
    intro herr
    rcases dispatch_cases h with ⟨-, hsame, -⟩ | ⟨hok, -⟩
    · exact (Prod.mk.inj hsame).1
    · exact absurd herr hok
  readAccepts := by
    intro cmd hp hop
    rw [accepted_iff hp h, handle_read hop, Option.isSome_iff_exists]
    constructor
    · rintro ⟨⟨body, d1, s1⟩, hr⟩
      obtain ⟨⟨r, hspan, -⟩, -⟩ := (read_eq_ok hd).mp hr
      exact ⟨r, hspan⟩
    · rintro ⟨r, hspan⟩
      exact ⟨(r.of d, d, s), (read_eq_ok hd).mpr ⟨⟨r, hspan, rfl⟩, rfl, rfl⟩⟩
  readReturns := by
    intro cmd hp hop r hspan
    have hr : handle K g d s cmd = .ok (r.of d, d, s) := by
      rw [handle_read hop]
      exact (read_eq_ok hd).mpr ⟨⟨r, hspan, rfl⟩, rfl, rfl⟩
    obtain ⟨hc, hsame⟩ := accepted_returns hp h hr
    exact ⟨hc, (Prod.mk.inj hsame).1.symm⟩
  writeAccepts := by
    intro cmd hp hop
    rw [accepted_iff hp h, handle_write hop]
    constructor
    · rintro ⟨⟨body, d1, s1⟩, hr⟩
      obtain ⟨hplain, hlen, hw, -⟩ := write_eq_ok.mp hr
      exact ⟨hplain, hlen, (writeTo_accepts hd hlen).mp ⟨d1, hw⟩⟩
    · rintro ⟨hplain, hlen, hr⟩
      obtain ⟨d1, hw⟩ := (writeTo_accepts hd hlen).mpr hr
      exact ⟨(success, d1, s), write_eq_ok.mpr ⟨hplain, hlen, hw, rfl, rfl⟩⟩
  writeReplaces := by
    intro cmd hp hop hok r hspan
    obtain ⟨⟨body, d1, s1⟩, hr⟩ := (accepted_iff hp h).mp hok
    have hsame := (accepted_returns hp h hr).2
    rw [handle_write hop] at hr
    obtain ⟨-, hlen, hw, -⟩ := write_eq_ok.mp hr
    rw [← (Prod.mk.inj hsame).1]
    exact ⟨(mem_span.mp hspan).2.2.trans hlen.symm, writeTo_replaces hd hlen hw hspan⟩

end Access

/-- Along every sequence of packets the zones are flat arrays. -/
theorem zones_flat (K : Crates) (s : Device × Session) (h16 : s.1.slots.length = numSlots)
    (h72 : ∀ b ∈ s.1.slots, b.length ≤ slotSize) (inputs : List (Rng × Bytes)) :
    ∃ log s', trace (step K) s inputs = .ok (log, s') ∧ Shaped s'.1 ∧
      ∀ e ∈ log, ∃ t, step K e.pre e.input = .ok (e.output, t) ∧ Flat e.pre.1 t.1 e.input.2 e.output := by
  induction inputs generalizing s with
  | nil => exact ⟨[], s, rfl, ⟨h16, h72⟩, by simp⟩
  | cons i inputs ih =>
    obtain ⟨response, d1, s1, h⟩ := dispatch_returns (K := K) (g := i.1) (s := s.2) h16 i.2
    have hstep : step K s i = .ok (response, d1, s1) := h
    have hflat : Flat s.1 d1 i.2 response := dispatch_flat ⟨h16, h72⟩ h
    obtain ⟨log, s', htrace, hshaped, hall⟩ := ih (d1, s1) hflat.shaped.slots hflat.shaped.sized
    refine ⟨⟨s, i, response⟩ :: log, s', by simp only [trace, hstep, htrace], hshaped, ?_⟩
    rw [List.forall_mem_cons]
    exact ⟨⟨(d1, s1), hstep, hflat⟩, hall⟩

/-- Write of the last word of slot 3. -/
def lastWordPacket : Bytes := [0x0B, 0x12, 0x02, 0x11, 0x03, 0x01, 0x02, 0x03, 0x04, 0xD6, 0x6C]

/-- Read of the same word. -/
def readLastPacket : Bytes := [0x07, 0x02, 0x02, 0x11, 0x03, 0x97, 0x9A]

/-- The last word of an empty slot, written and read back. -/
theorem lastWord_run_flat : (partlyLocked 0x55).slots.length = numSlots ∧
    (∀ b ∈ (partlyLocked 0x55).slots, b.length ≤ slotSize) ∧
      ∃ log s', trace (step noCrates) (partlyLocked 0x55, {})
          [(fun _ => 0, lastWordPacket), (fun _ => 0, readLastPacket)] = .ok (log, s') ∧
        log.map (fun e => e.output) = [[0x04, 0x00, 0x03, 0x40], [0x07, 0x01, 0x02, 0x03, 0x04, 0xF3, 0x28]] ∧
        ∀ e ∈ log, ∃ t, step noCrates e.pre e.input = .ok (e.output, t) ∧
          Flat e.pre.1 t.1 e.input.2 e.output := by
  have h16 : (partlyLocked 0x55).slots.length = numSlots := by decide
  have h72 : ∀ b ∈ (partlyLocked 0x55).slots, b.length ≤ slotSize := by decide
  have houtputs : (trace (step noCrates) (partlyLocked 0x55, {})
      [(fun _ => 0, lastWordPacket), (fun _ => 0, readLastPacket)]).map (fun r => r.1.map fun e => e.output) =
        .ok [[0x04, 0x00, 0x03, 0x40], [0x07, 0x01, 0x02, 0x03, 0x04, 0xF3, 0x28]] := by decide +kernel
  obtain ⟨log, s', htrace, -, hall⟩ := zones_flat noCrates (partlyLocked 0x55, {}) h16 h72
    [(fun _ => 0, lastWordPacket), (fun _ => 0, readLastPacket)]
  rw [htrace] at houtputs
  exact ⟨h16, h72, log, s', htrace, Except.ok.inj houtputs, hall⟩

end ATECC608
end Simulators
