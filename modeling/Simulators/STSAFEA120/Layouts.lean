/-
# STSAFE-A120: what each command takes

What `parseCommand` accepts are the framed payloads, and what a handler
answers with OK are bodies that read, position by position, as its layout.
The layouts are the ones written above the handlers. Some handlers take more
than their layout: bytes that are left over, or a value that they do not look
at. `Exact` is the condition on a body that rules this out.

Key theorems: `parseCommand_eq_ok`, `dispatch_meetsLayouts_iff`.
-/
import Simulators.Lib.Layout
import Simulators.STSAFEA120.Handlers

namespace Simulators
namespace STSAFEA120

open Handler

/-! ### Words -/

@[simp] theorem u16Be_length (w : UInt16) : (u16Be w).length = 2 := rfl

theorem be16_eq_toNat {hi lo : UInt8} {w : UInt16} : be16 hi lo = w.toNat ↔ [hi, lo] = u16Be w := by
  rw [← be16_bytes w, be16_inj, u16Be]
  simp

theorem u16At_eq_ok {ε : Type} {b : Bytes} {p n : ℕ} : (u16At b p : Handler ε ℕ) = .ok n ↔
    ∃ hi lo, b.drop p = hi :: lo :: b.drop (p + 2) ∧ be16 hi lo = n := by
  simp only [u16At, bind_eq_ok, index_eq_ok_drop, pure_eq_ok, Except.ok.injEq]
  constructor
  · rintro ⟨hi, h1, lo, h2, rfl⟩
    exact ⟨hi, lo, by rw [h1, h2], rfl⟩
  · rintro ⟨hi, lo, h, rfl⟩
    have h1 : b.drop (p + 1) = lo :: b.drop (p + 2) := by rw [← List.drop_drop, h, List.drop_one, List.tail_cons]
    exact ⟨hi, by rw [h, h1], lo, h1, rfl⟩

theorem u16At_eq_ok_word {ε : Type} {b : Bytes} {p : ℕ} {w : UInt16} :
    (u16At b p : Handler ε ℕ) = .ok w.toNat ↔ b.drop p = u16Be w ++ b.drop (p + 2) := by
  rw [u16At_eq_ok]
  constructor
  · rintro ⟨hi, lo, h, hw⟩
    rw [← be16_eq_toNat.mp hw]
    exact h
  · exact fun h => ⟨hiByte w, loByte w, h, be16_bytes w⟩

theorem noPanic_u16At {ε : Type} {b : Bytes} {p : ℕ} : NoPanic (u16At b p : Handler ε ℕ) ↔ p + 2 ≤ b.length := by
  simp only [u16At, noPanic_bind, noPanic_index, index_eq_ok, noPanic_pure, implies_true, and_true]
  constructor
  · rintro ⟨h1, h2⟩
    exact h2 _ (List.getElem?_eq_getElem h1)
  · exact fun h => ⟨by omega, fun _ _ => by omega⟩

theorem refuses_u16At {ε : Type} {Q : ε → Prop} {b : Bytes} {p : ℕ} : Refuses Q (u16At b p : Handler ε ℕ) := by
  simp [u16At]

/-! ### Frames -/

/-- A payload and its CRC. -/
def framed (payload : Bytes) : Bytes := payload ++ u16Be (crc16X25 payload)

@[simp] theorem framed_length (payload : Bytes) : (framed payload).length = payload.length + 2 := by simp [framed]

/-- The bytes that a command is parsed from. -/
def Command.payload (cmd : Command) : Bytes := cmd.header :: (cmd.extended.toList ++ cmd.body)

/-- A frame of a right length that ends in the CRC of what comes before. The
prefix of extended commands is not a whole command. -/
def WellFramed (raw : Bytes) : Prop :=
  ∃ header rest, raw = framed (header :: rest) ∧ raw.length ≤ maxFrameLengthA120 + 2 ∧
    (header = extendedPrefix → rest ≠ [])

theorem parseCommand_noPanic (raw : Bytes) : NoPanic (parseCommand raw) := by
  simp only [parseCommand, noPanic_bind, noPanic_ensure, ensure_eq_ok, noPanic_u16At, noPanic_slice, noPanic_index,
    noPanic_ite, noPanic_pure, not_lt, true_and, implies_true, and_true]
  intro _ h3 _ _
  refine ⟨by omega, fun _ _ => ⟨by omega, fun _ _ _ _ => ⟨by omega, fun _ _ => ⟨fun _ _ h4 => ?_, fun _ => by omega⟩⟩⟩⟩
  exact ⟨by omega, fun _ _ => by omega⟩

/-- The part of `parseCommand` before the header is looked at. -/
theorem payload_eq_ok {raw payload : Bytes} {received : ℕ} (h : 3 ≤ raw.length) :
    ((u16At raw (raw.length - 2) : Handler FrameError ℕ) = .ok received ∧
      (slice raw 0 (raw.length - 2) : Handler FrameError Bytes) = .ok payload ∧
      (crc16X25 payload).toNat = received) ↔
    raw = framed payload ∧ received = (crc16X25 payload).toNat := by
  have hend : raw.drop (raw.length - 2 + 2) = [] := List.drop_eq_nil_of_le (by omega)
  constructor
  · rintro ⟨hcrc, hpay, rfl⟩
    rw [u16At_eq_ok_word, hend, List.append_nil] at hcrc
    obtain ⟨-, -, -, hpay⟩ := slice_eq_ok_drop.mp hpay
    rw [hcrc, List.drop_zero] at hpay
    exact ⟨hpay, rfl⟩
  · rintro ⟨rfl, rfl⟩
    have hl : (framed payload).length - 2 = payload.length := by rw [framed_length]; omega
    have hd : (framed payload).drop payload.length = u16Be (crc16X25 payload) := List.drop_left
    rw [hl, u16At_eq_ok_word, slice_eq_ok_drop, hd, ← hl, hend, hl]
    refine ⟨(List.append_nil _).symm, ⟨by omega, by rw [framed_length]; omega, rfl, ?_⟩, rfl⟩
    rw [List.drop_zero, framed]

theorem slice_framed {ε : Type} {payload : Bytes} {i : ℕ} (h : i ≤ payload.length) :
    (slice (framed payload) i ((framed payload).length - 2) : Handler ε Bytes) = .ok (payload.drop i) := by
  rw [slice_eq_ok, framed_length, Nat.add_sub_cancel]
  refine ⟨⟨h, by omega⟩, ?_⟩
  rw [framed, List.drop_append_of_le_length h, List.take_left' List.length_drop]

section Parse

variable {header : UInt8} {rest raw : Bytes}

/-- `parseCommand` up to the header. -/
theorem parseCommand_framed (hmax : (framed (header :: rest)).length ≤ maxFrameLengthA120 + 2) :
    parseCommand (framed (header :: rest)) =
      if header = extendedPrefix then do
        ensure (¬ (framed (header :: rest)).length < 4) FrameError.tooShort
        let extended ← index (framed (header :: rest)) 1
        let body ← slice (framed (header :: rest)) 2 ((framed (header :: rest)).length - 2)
        return ⟨header, some extended, body⟩
      else return ⟨header, none, rest⟩ := by
  have h3 : 3 ≤ (framed (header :: rest)).length := by simp
  obtain ⟨hcrc, hpay, -⟩ := (payload_eq_ok h3).mpr ⟨rfl, rfl⟩
  have hh : (index (framed (header :: rest)) 0 : Handler FrameError UInt8) = .ok header := rfl
  have hb : (slice (framed (header :: rest)) 1 ((framed (header :: rest)).length - 2) : Handler FrameError Bytes) =
      .ok rest := slice_framed (by simp)
  have e3 : ensure (¬ (framed (header :: rest)).length < 3) FrameError.tooShort = .ok () := if_pos (by omega)
  have emax : ensure (¬ (framed (header :: rest)).length > maxFrameLengthA120 + 2) FrameError.overflow = .ok () :=
    if_pos (by omega)
  have ecrc : ensure True FrameError.badCrc = .ok () := if_pos trivial
  simp only [parseCommand, hcrc, hpay, hh, hb, ok_bind, pure_eq_ok, e3, emax, ecrc]

theorem parseCommand_plain (hmax : (framed (header :: rest)).length ≤ maxFrameLengthA120 + 2)
    (hh : header ≠ extendedPrefix) : parseCommand (framed (header :: rest)) = .ok ⟨header, none, rest⟩ := by
  rw [parseCommand_framed hmax, if_neg hh, pure_eq_ok]

theorem parseCommand_extended {x : UInt8}
    (hmax : (framed (extendedPrefix :: x :: rest)).length ≤ maxFrameLengthA120 + 2) :
    parseCommand (framed (extendedPrefix :: x :: rest)) = .ok ⟨extendedPrefix, some x, rest⟩ := by
  have hx : (index (framed (extendedPrefix :: x :: rest)) 1 : Handler FrameError UInt8) = .ok x := rfl
  rw [parseCommand_framed hmax, if_pos rfl, hx, slice_framed (by simp)]
  simp [ensure]

theorem parseCommand_short : parseCommand (framed [extendedPrefix]) = refuse .tooShort := by
  rw [parseCommand_framed (by simp [maxFrameLengthA120]), if_pos rfl]
  rfl

/-- Only well-framed payloads are looked at further. -/
theorem framed_of_parseCommand {cmd : Command} (h : parseCommand raw = .ok cmd) :
    ∃ header rest, raw = framed (header :: rest) ∧ raw.length ≤ maxFrameLengthA120 + 2 := by
  simp only [parseCommand, bind_eq_ok, ensure_eq_ok, not_lt] at h
  obtain ⟨-, h3, -, hmax, received, hcrc, payload, hpay, -, heq, -⟩ := h
  obtain ⟨hraw, -⟩ := (payload_eq_ok h3).mp ⟨hcrc, hpay, heq⟩
  rcases payload with _ | ⟨header, rest⟩
  · simp [hraw] at h3
  · exact ⟨header, rest, hraw, hmax⟩

/-- The commands are the framed payloads. -/
theorem parseCommand_eq_ok {cmd : Command} : parseCommand raw = .ok cmd ↔
    raw = framed cmd.payload ∧ raw.length ≤ maxFrameLengthA120 + 2 ∧
      (cmd.extended.isSome ↔ cmd.header = extendedPrefix) := by
  constructor
  · intro h
    obtain ⟨header, rest, rfl, hmax⟩ := framed_of_parseCommand h
    by_cases hext : header = extendedPrefix
    · subst hext
      rcases rest with _ | ⟨x, rest⟩
      · rw [parseCommand_short, refuse_eq_ok] at h
        exact h.elim
      · rw [parseCommand_extended hmax, Except.ok.injEq] at h
        subst h
        exact ⟨rfl, hmax, by simp⟩
    · rw [parseCommand_plain hmax hext, Except.ok.injEq] at h
      subst h
      exact ⟨rfl, hmax, by simp [hext]⟩
  · rintro ⟨rfl, hmax, hext⟩
    obtain ⟨header, _ | x, body⟩ := cmd
    · exact parseCommand_plain hmax (by simpa using hext)
    · obtain rfl : header = extendedPrefix := hext.mp rfl
      exact parseCommand_extended hmax

theorem wellFramed_iff : WellFramed raw ↔ ∃ cmd, parseCommand raw = .ok cmd := by
  constructor
  · rintro ⟨header, rest, rfl, hmax, hrest⟩
    by_cases hext : header = extendedPrefix
    · subst hext
      obtain ⟨x, rest, rfl⟩ := List.exists_cons_of_ne_nil (hrest rfl)
      exact ⟨_, parseCommand_extended hmax⟩
    · exact ⟨_, parseCommand_plain hmax hext⟩
  · rintro ⟨cmd, h⟩
    obtain ⟨hraw, hmax, hext⟩ := parseCommand_eq_ok.mp h
    refine ⟨cmd.header, _, hraw, hmax, fun hh => ?_⟩
    obtain ⟨x, hx⟩ := Option.isSome_iff_exists.mp (hext.mpr hh)
    simp [hx]

end Parse

/-! ### What the handlers take -/

/-- A range of a data zone. -/
def InZone (device : Device) (zoneIndex : UInt8) (offset length : ℕ) : Prop :=
  ∃ zone ∈ device.dataZones.lookup zoneIndex, offset + length ≤ zone.data.length

/-- The key of a slot and a point that have a shared secret. -/
def Agrees (K : Crates) (device : Device) (slot : UInt8) (x y : Bytes) : Prop :=
  ∃ entry ∈ device.eccSlots.lookup slot, entry.curve = .nistP256 ∧ entry.privateKey.length = 32 ∧
    ∃ secret ∈ K.secretKeyFromSlice entry.privateKey, ∃ pubkey ∈ K.publicKeyFromPoint x y,
      (K.diffieHellman secret pubkey).length = 32

section Handlers

variable (K : Crates) (g : Rng) (device : Device) {body : Bytes}

theorem random_eq_ok : (∃ r, random g body = .ok r) ↔ ∃ subject size, body = [subject, size] ∧ size ≠ 0 := by
  constructor
  · rintro ⟨r, h⟩
    simp only [random, bind_eq_ok, ensure_eq_ok, index_eq_ok] at h
    obtain ⟨-, hl, subject, -, size, hs, -, h0, -⟩ := h
    obtain ⟨x, y, rfl⟩ := List.length_eq_two.mp hl
    rw [List.getElem?_cons_succ, List.getElem?_cons_zero, Option.some.injEq] at hs
    exact ⟨x, y, rfl, hs ▸ h0⟩
  · rintro ⟨subject, size, rfl, h⟩
    simp [random, ensure, index, h]

theorem zone_eq_ok {zoneIndex : UInt8} {offset length : ℕ} :
    (∃ r, (do
      let zone ← orRefuse statusInvalidParameter (device.dataZones.lookup zoneIndex)
      ensure (¬ offset + length > zone.data.length) statusInvalidParameter
      slice zone.data offset (offset + length) : Handler UInt8 Bytes) = .ok r) ↔
    InZone device zoneIndex offset length := by
  simp only [bind_eq_ok, orRefuse_eq_ok, ensure_eq_ok, slice_eq_ok, InZone, not_lt, Option.mem_def]
  constructor
  · rintro ⟨r, zone, hz, -, hl, -⟩
    exact ⟨zone, hz, hl⟩
  · rintro ⟨zone, hz, hl⟩
    exact ⟨_, zone, hz, (), hl, ⟨by omega, hl⟩, rfl⟩

theorem read_narrow_eq_ok {option zone o₁ o₂ l₁ l₂ : UInt8} {rest : Bytes} (h : rest.length ≠ 3) :
    (∃ r, read device (option :: zone :: o₁ :: o₂ :: l₁ :: l₂ :: rest) = .ok r) ↔
      InZone device zone (be16 o₁ o₂) (be16 l₁ l₂) := by
  have hp : ¬ rest.length + 1 + 1 + 1 + 1 + 1 + 1 = 1 + 4 + 2 + 2 := by omega
  rw [← zone_eq_ok]
  simp only [read, List.length_cons, if_neg hp]
  rfl

theorem read_wide_eq_ok {option zone u₁ u₂ u₃ o₁ o₂ l₁ l₂ : UInt8} :
    (∃ r, read device [option, zone, u₁, u₂, u₃, o₁, o₂, l₁, l₂] = .ok r) ↔
      InZone device zone (be16 o₁ o₂) (be16 l₁ l₂) := by
  rw [← zone_eq_ok]
  rfl

/-- The first six bytes of a body. -/
theorem exists_six (h : 6 ≤ body.length) : ∃ a b c d e f rest, body = a :: b :: c :: d :: e :: f :: rest := by
  obtain ⟨a, b, c, hb⟩ := List.length_eq_three.mp (List.length_take_of_le (show 3 ≤ body.length by omega))
  have hl : 3 ≤ (body.drop 3).length := by rw [List.length_drop]; omega
  obtain ⟨d, e, f, hd⟩ := List.length_eq_three.mp (List.length_take_of_le hl)
  refine ⟨a, b, c, d, e, f, (body.drop 3).drop 3, ?_⟩
  rw [← List.take_append_drop 3 body, hb, ← List.take_append_drop 3 (body.drop 3), hd]
  simp

/-- The two forms of the body of READ. -/
theorem read_forms (h : 6 ≤ body.length) :
    (∃ option zone o₁ o₂ l₁ l₂ rest, body = option :: zone :: o₁ :: o₂ :: l₁ :: l₂ :: rest ∧ rest.length ≠ 3) ∨
      ∃ option zone u₁ u₂ u₃ o₁ o₂ l₁ l₂, body = [option, zone, u₁, u₂, u₃, o₁, o₂, l₁, l₂] := by
  obtain ⟨a, b, c, d, e, f, rest, rfl⟩ := exists_six h
  by_cases h3 : rest.length = 3
  · obtain ⟨x, y, z, rfl⟩ := List.length_eq_three.mp h3
    exact .inr ⟨a, b, c, d, e, f, x, y, z, rfl⟩
  · exact .inl ⟨a, b, c, d, e, f, rest, rfl, h3⟩

theorem length_of_read_eq_ok {r : Bytes} (h : read device body = .ok r) : 6 ≤ body.length := by
  simp only [read, bind_eq_ok, ensure_eq_ok] at h
  obtain ⟨-, h, -⟩ := h
  omega

theorem generateKey_eq_ok {r : Bytes × Device} (h : generateKey K g device body = .ok r) :
    ∃ tag slot u₁ u₂ f₁ f₂ entry, body = tag :: slot :: u₁ :: u₂ :: f₁ :: f₂ :: nistP256CurveId ∧
      r.2 = { device with eccSlots := device.eccSlots.insert slot entry } := by
  simp only [generateKey, bind_eq_ok, ensure_eq_ok, pure_eq_ok, Except.ok.injEq] at h
  obtain ⟨-, hl, tag, -, slot, hslot, curveId, hcurve, -, hid, -, -, x, -, y, -, rfl⟩ := h
  obtain ⟨tag, slot', u₁, u₂, f₁, f₂, rest, rfl⟩ := exists_six (show 6 ≤ body.length by omega)
  obtain rfl : slot' = slot := Except.ok.inj hslot
  obtain ⟨-, rfl⟩ := slice_eq_ok.mp hcurve
  have hrest : rest = nistP256CurveId := by simpa [isNistP256] using hid
  exact ⟨tag, slot', u₁, u₂, f₁, f₂, _, by rw [hrest], rfl⟩

theorem generateSignature_eq_ok {r : Bytes} (h : generateSignature K device body = .ok r) :
    ∃ slot hi lo msg, body = slot :: hi :: lo :: msg ∧ msg.length = be16 hi lo := by
  simp only [generateSignature, bind_eq_ok, ensure_eq_ok, u16At_eq_ok] at h
  obtain ⟨-, -, slot, hslot, msgLen, ⟨hi, lo, hd, rfl⟩, -, hl, -⟩ := h
  have hb := index_eq_ok_drop.mp hslot
  rw [List.drop_zero, hd] at hb
  refine ⟨slot, hi, lo, _, hb, ?_⟩
  rw [List.length_drop]
  omega

theorem coordinate_length {c : Bytes} (h : c.length = 32) : (coordinate c).length = 34 := by
  rw [coordinate, List.length_append, u16Be_length, h]

/-- A coordinate is its length and its bytes. -/
theorem coordinate_eq_ok {ε : Type} {b c : Bytes} {p : ℕ} :
    ((u16At b p : Handler ε ℕ) = .ok 32 ∧ (slice b (p + 2) (p + 34) : Handler ε Bytes) = .ok c) ↔
      c.length = 32 ∧ p + 34 ≤ b.length ∧ b.drop p = coordinate c ++ b.drop (p + 34) := by
  have h32 : (u16At b p : Handler ε ℕ) = .ok 32 ↔ b.drop p = u16Be 32 ++ b.drop (p + 2) :=
    u16At_eq_ok_word (w := 32)
  rw [h32, slice_eq_ok_drop, coordinate]
  constructor
  · rintro ⟨h1, -, hl, hc, h2⟩
    exact ⟨by omega, hl, by rw [h1, h2, List.append_assoc]⟩
  · rintro ⟨hc, hl, h⟩
    have h2 : b.drop (p + 2) = c ++ b.drop (p + 34) := by
      rw [← List.drop_drop, h, List.append_assoc, List.drop_left' (u16Be_length _)]
    exact ⟨by rw [h, h2, List.append_assoc], by omega, hl, by omega, h2⟩

/-- Two coordinates, one after the other. -/
def point (x y rest : Bytes) : Bytes := coordinate x ++ (coordinate y ++ rest)

theorem point_length {x y : Bytes} (rest : Bytes) (hx : x.length = 32) (hy : y.length = 32) :
    (point x y rest).length = 68 + rest.length := by
  rw [point, List.length_append, List.length_append, coordinate_length hx, coordinate_length hy]
  omega

theorem point_drop {x y : Bytes} (rest : Bytes) (hx : x.length = 32) (hy : y.length = 32) :
    (point x y rest).drop 34 = coordinate y ++ rest ∧ (point x y rest).drop 68 = rest := by
  have hd : (point x y rest).drop 34 = coordinate y ++ rest := List.drop_left' (coordinate_length hx)
  refine ⟨hd, ?_⟩
  rw [← List.drop_drop (i := 34) (j := 34), hd, List.drop_left' (coordinate_length hy)]

theorem readXy_eq_ok {buf x y : Bytes} {n : ℕ} : readXy buf = .ok (some (x, y, n)) ↔
    n = 68 ∧ x.length = 32 ∧ y.length = 32 ∧ ∃ rest, buf = point x y rest := by
  constructor
  · intro h
    unfold readXy at h
    split at h
    · simp at h
    simp only [bind_eq_ok] at h
    obtain ⟨xlen, hxlen, h⟩ := h
    split at h
    · simp at h
    rename_i hx
    obtain rfl : xlen = 32 := not_not.mp hx
    simp only [bind_eq_ok] at h
    obtain ⟨x', hx', ylen, hylen, h⟩ := h
    split at h
    · simp at h
    rename_i hy
    obtain rfl : ylen = 32 := not_not.mp hy
    simp only [bind_eq_ok, pure_eq_ok, Except.ok.injEq, Option.some.injEq, Prod.mk.injEq] at h
    obtain ⟨y', hy', rfl, rfl, rfl⟩ := h
    obtain ⟨hxl, -, h1⟩ := coordinate_eq_ok.mp ⟨hxlen, hx'⟩
    obtain ⟨hyl, -, h2⟩ := coordinate_eq_ok.mp ⟨hylen, hy'⟩
    rw [List.drop_zero, h2] at h1
    exact ⟨rfl, hxl, hyl, _, h1⟩
  · rintro ⟨rfl, hx, hy, rest, rfl⟩
    have hl := point_length rest hx hy
    obtain ⟨hd, hd'⟩ := point_drop rest hx hy
    obtain ⟨h1, h2⟩ := (coordinate_eq_ok (ε := UInt8) (b := point x y rest) (p := 0)).mpr
      ⟨hx, by omega, by rw [List.drop_zero, hd, point]⟩
    obtain ⟨h3, h4⟩ := (coordinate_eq_ok (ε := UInt8) (b := point x y rest) (p := 34)).mpr
      ⟨hy, by omega, by rw [hd, hd']⟩
    simp [readXy, hl, h1, h2, h3, h4]

theorem p256Slot_eq_ok {slot : UInt8} {entry : EccSlot} : p256Slot device slot = .ok entry ↔
    entry ∈ device.eccSlots.lookup slot ∧ entry.curve = .nistP256 ∧ entry.privateKey.length = 32 := by
  simp only [p256Slot, bind_eq_ok, orRefuse_eq_ok, ensure_eq_ok, pure_eq_ok, Except.ok.injEq, Option.mem_def]
  constructor
  · rintro ⟨e, h, -, hc, -, hl, rfl⟩
    exact ⟨h, hc, hl⟩
  · rintro ⟨h, hc, hl⟩
    exact ⟨entry, h, (), hc, (), hl, rfl⟩

/-- What ESTABLISH_KEY answers. -/
theorem establishKey_returns {r : Bytes} : establishKey K device body = .ok r ↔
    ∃ slot x y rest entry secret pubkey, x.length = 32 ∧ y.length = 32 ∧
      body = slot :: pointRepresentationUncompressed :: point x y rest ∧ p256Slot device slot = .ok entry ∧
      K.secretKeyFromSlice entry.privateKey = some secret ∧ K.publicKeyFromPoint x y = some pubkey ∧
      (K.diffieHellman secret pubkey).length = 32 ∧ r = u16Be 32 ++ K.diffieHellman secret pubkey := by
  simp only [establishKey, bind_eq_ok, ensure_eq_ok, orRefuse_eq_ok, pure_eq_ok, Except.ok.injEq]
  constructor
  · rintro ⟨-, -, slot, hslot, repr, hrepr, -, rfl, _, hxlen, -, rfl, x, hx, _, hylen, -, rfl, y, hy, entry,
      hentry, secret, hs, pk, hp, -, hraw, rfl⟩
    obtain ⟨hxl, -, h1⟩ := coordinate_eq_ok.mp ⟨hxlen, hx⟩
    obtain ⟨hyl, -, h2⟩ := coordinate_eq_ok.mp ⟨hylen, hy⟩
    refine ⟨slot, x, y, body.drop 70, entry, secret, pk, hxl, hyl, ?_, hentry, hs, hp, hraw, rfl⟩
    rw [point, ← h2, ← h1, ← index_eq_ok_drop.mp hrepr, ← index_eq_ok_drop.mp hslot, List.drop_zero]
  · rintro ⟨slot, x, y, rest, entry, secret, pk, hx, hy, rfl, hentry, hs, hp, hraw, rfl⟩
    set body := slot :: pointRepresentationUncompressed :: point x y rest with hbody
    obtain ⟨hd, hd'⟩ := point_drop rest hx hy
    have hlen : body.length = 70 + rest.length := by
      rw [hbody, List.length_cons, List.length_cons, point_length _ hx hy]
      omega
    obtain ⟨h1, h2⟩ := (coordinate_eq_ok (ε := UInt8) (b := body) (p := 2)).mpr ⟨hx, by omega, by
      rw [show body.drop (2 + 34) = (point x y rest).drop 34 from rfl, hd]
      rfl⟩
    obtain ⟨h3, h4⟩ := (coordinate_eq_ok (ε := UInt8) (b := body) (p := 36)).mpr ⟨hy, by omega, by
      rw [show body.drop 36 = (point x y rest).drop 34 from rfl, hd,
        show body.drop (36 + 34) = (point x y rest).drop 68 from rfl, hd']⟩
    exact ⟨(), by omega, slot, rfl, _, rfl, (), rfl, 32, h1, (), rfl, x, h2, 32, h3, (), rfl, y, h4, entry, hentry,
      secret, hs, pk, hp, (), hraw, rfl⟩

/-- The body of ESTABLISH_KEY, and what may come after it. -/
theorem establishKey_eq_ok : (∃ r, establishKey K device body = .ok r) ↔
    ∃ slot x y rest, x.length = 32 ∧ y.length = 32 ∧
      body = slot :: pointRepresentationUncompressed :: point x y rest ∧ Agrees K device slot x y := by
  simp only [establishKey_returns]
  constructor
  · rintro ⟨r, slot, x, y, rest, entry, secret, pk, hx, hy, hbody, hentry, hs, hp, hraw, -⟩
    obtain ⟨he, hc, hl⟩ := (p256Slot_eq_ok device).mp hentry
    exact ⟨slot, x, y, rest, hx, hy, hbody, entry, he, hc, hl, secret, hs, pk, hp, hraw⟩
  · rintro ⟨slot, x, y, rest, hx, hy, hbody, entry, he, hc, hl, secret, hs, pk, hp, hraw⟩
    exact ⟨_, slot, x, y, rest, entry, secret, pk, hx, hy, hbody, (p256Slot_eq_ok device).mpr ⟨he, hc, hl⟩, hs, hp,
      hraw, rfl⟩

/-- The body of VERIFY_SIGNATURE, and what may come after it. -/
def verification (subject : UInt8) (x y r s digest rest : Bytes) : Bytes :=
  subject :: (nistP256CurveId ++
    pointRepresentationUncompressed :: point x y (point r s (coordinate digest ++ rest)))

theorem slice_end {ε : Type} {b c : Bytes} {i : ℕ} :
    (slice b i b.length : Handler ε Bytes) = .ok c ↔ i ≤ b.length ∧ b.drop i = c := by
  rw [slice_eq_ok_drop, List.drop_length, List.append_nil]
  constructor
  · rintro ⟨hi, -, -, h⟩
    exact ⟨hi, h⟩
  · rintro ⟨hi, rfl⟩
    exact ⟨hi, le_rfl, List.length_drop, rfl⟩

/-- Whether the signature verifies; invalid points and signatures do not. -/
def verdict (x y r s : Bytes) (digest : ByteArr 32) : Bytes :=
  match K.publicKeyFromPoint x y, K.signatureFromSlice (r ++ s) with
  | some pk, some signature => [if K.verifyPrehash pk digest signature then 1 else 0]
  | _, _ => [0]

/-- What VERIFY_SIGNATURE answers. -/
theorem verifySignature_returns {res : Bytes} : verifySignature K body = .ok res ↔
    ∃ subject x y r s digest rest, x.length = 32 ∧ y.length = 32 ∧ r.length = 32 ∧ s.length = 32 ∧
      body = verification subject x y r s digest.bytes rest ∧ res = verdict K x y r s digest := by
  simp only [verifySignature, bind_eq_ok, ensure_eq_ok, orRefuse_eq_ok, slice_end]
  constructor
  · rintro ⟨-, -, subject, hsubject, -, -, curveId, hcurve, -, hid, -, -, repr, hrepr, -, rfl, xyBuf, ⟨-, hxy⟩,
      _, hpub, ⟨x, y, n⟩, rfl, rsBuf, ⟨-, hrs⟩, _, hsig, ⟨r, s, m⟩, rfl, -, -, msgLen, hlen, -, -, -, rfl,
      c, hc, digest, hdigest, hres⟩
    obtain ⟨rfl, hx, hy, rest1, rfl⟩ := readXy_eq_ok.mp hpub
    obtain ⟨rfl, hr, hs, rest2, rfl⟩ := readXy_eq_ok.mp hsig
    obtain rfl := array_eq_ok.mp hdigest
    change body.drop 80 = point r s rest2 at hrs
    change u16At body 148 = .ok 32 at hlen
    change slice body 150 182 = .ok digest.bytes at hc
    have h80 : body.drop 80 = rest1 := by
      rw [← (point_drop rest1 hx hy).2, ← hxy, List.drop_drop]
    have h148 : body.drop 148 = rest2 := by
      rw [← (point_drop rest2 hr hs).2, ← hrs, List.drop_drop]
    obtain ⟨-, -, h182⟩ := coordinate_eq_ok.mp ⟨hlen, hc⟩
    refine ⟨subject, x, y, r, s, digest, body.drop 182, hx, hy, hr, hs, ?_, ?_⟩
    · have hid : curveId = nistP256CurveId := by simpa [isNistP256] using hid
      obtain ⟨-, -, -, h1⟩ := slice_eq_ok_drop.mp hcurve
      rw [verification, ← h182, h148, ← hrs, h80, ← hxy, ← index_eq_ok_drop.mp hrepr, ← hid,
        show body.drop 11 = body.drop (1 + nistP256CurveId.length) from rfl, ← h1, ← index_eq_ok_drop.mp hsubject,
        List.drop_zero]
    · unfold verdict
      dsimp only at hres
      rcases hk : K.publicKeyFromPoint x y with _ | pk
      · rw [hk] at hres
        exact (Except.ok.inj hres).symm
      · rw [hk] at hres
        rcases hg : K.signatureFromSlice (r ++ s) with _ | signature
        · rw [hg] at hres
          exact (Except.ok.inj hres).symm
        · rw [hg] at hres
          exact (Except.ok.inj hres).symm
  · rintro ⟨subject, x, y, r, s, digest, rest, hx, hy, hr, hs, rfl, rfl⟩
    have hd := digest.size
    set body := verification subject x y r s digest.bytes rest with hbody
    set sig := point r s (coordinate digest.bytes ++ rest) with hsig
    have hxy : body.drop 12 = point x y sig := rfl
    have hrs : body.drop 80 = sig := by
      rw [show (80 : ℕ) = 12 + 68 from rfl, ← List.drop_drop, hxy, (point_drop _ hx hy).2]
    have hdg : body.drop 148 = coordinate digest.bytes ++ rest := by
      rw [show (148 : ℕ) = 80 + 68 from rfl, ← List.drop_drop, hrs, (point_drop _ hr hs).2]
    have hrest : body.drop 182 = rest := by
      rw [show (182 : ℕ) = 148 + 34 from rfl, ← List.drop_drop, hdg, List.drop_left' (coordinate_length hd)]
    have hlen : body.length = 182 + rest.length := by
      have hl := congrArg List.length hxy
      rw [point_length _ hx hy, point_length _ hr hs, List.length_append, coordinate_length hd, List.length_drop] at hl
      omega
    obtain ⟨h1, h2⟩ := (coordinate_eq_ok (ε := UInt8) (b := body) (p := 148)).mpr ⟨hd, by omega, by rw [hdg, hrest]⟩
    have hcurve : (slice body 1 11 : Handler UInt8 Bytes) = .ok nistP256CurveId :=
      slice_eq_ok.mpr ⟨⟨by omega, by omega⟩, rfl⟩
    have hp := readXy_eq_ok.mpr ⟨rfl, hx, hy, sig, rfl⟩
    have hq := readXy_eq_ok.mpr ⟨rfl, hr, hs, _, hsig⟩
    have h11 : 1 + nistP256CurveId.length ≤ body.length := by
      simp only [nistP256CurveId, List.length_cons, List.length_nil]
      omega
    have h80 : 80 ≤ body.length := by omega
    have h150 : 150 ≤ body.length := by omega
    have h182 : 182 ≤ body.length := by omega
    -- invalid points and signatures are answered with OK as well
    rcases hk : K.publicKeyFromPoint x y with _ | pk <;> rcases hg : K.signatureFromSlice (r ++ s) with _ | sg <;>
    exact ⟨(), by omega, subject, rfl, (), h11, _, hcurve, (), by simp [isNistP256], (), by omega, _, rfl, (), rfl,
      _, ⟨by omega, hxy⟩, _, hp, _, rfl, _, ⟨h80, hrs⟩, _, hq, _, rfl, (), h150, 32, h1, (), h182, (), rfl, _, h2,
      digest, array_eq_ok.mpr rfl, by rw [verdict, hk, hg]; rfl⟩

theorem verifySignature_eq_ok : (∃ r, verifySignature K body = .ok r) ↔
    ∃ subject x y r s digest rest, x.length = 32 ∧ y.length = 32 ∧ r.length = 32 ∧ s.length = 32 ∧
      digest.length = 32 ∧ body = verification subject x y r s digest rest := by
  simp only [verifySignature_returns]
  constructor
  · rintro ⟨_, subject, x, y, r, s, digest, rest, hx, hy, hr, hs, hbody, -⟩
    exact ⟨subject, x, y, r, s, digest.bytes, rest, hx, hy, hr, hs, digest.size, hbody⟩
  · rintro ⟨subject, x, y, r, s, digest, rest, hx, hy, hr, hs, hd, hbody⟩
    exact ⟨_, subject, x, y, r, s, ⟨digest, hd⟩, rest, hx, hy, hr, hs, hbody, rfl⟩

/-! ### No handler reads outside of a body -/

theorem random_noPanic : NoPanic (random g body) := by
  simp only [random, noPanic_bind, noPanic_ensure, ensure_eq_ok, noPanic_index, noPanic_pure, true_and, implies_true,
    and_true]
  intro _ h
  exact ⟨by omega, fun _ _ => by omega⟩

theorem read_noPanic : NoPanic (read device body) := by
  simp only [read, noPanic_bind, noPanic_ensure, ensure_eq_ok, noPanic_index, noPanic_u16At, noPanic_orRefuse,
    noPanic_slice, true_and, not_lt]
  intro _ h
  refine ⟨by omega, fun _ _ => ⟨by omega, fun _ _ => ⟨?_, fun _ _ => ⟨?_, fun _ _ _ _ _ hl => ⟨by omega, hl⟩⟩⟩⟩⟩
  · split <;> omega
  · split <;> omega

theorem generateKey_noPanic : NoPanic (generateKey K g device body) := by
  simp only [generateKey, noPanic_bind, noPanic_ensure, ensure_eq_ok, noPanic_index, noPanic_slice, noPanic_pure,
    true_and, not_lt, implies_true, and_true]
  intro _ h
  exact ⟨by omega, fun _ _ => ⟨by omega, fun _ _ => ⟨⟨by omega, le_rfl⟩, fun _ _ _ _ _ hl =>
    ⟨⟨by omega, by rw [hl]; omega⟩, fun _ _ => ⟨by omega, by rw [hl]⟩⟩⟩⟩⟩

theorem query_noPanic : NoPanic (query device body) := by
  simp only [query, noPanic_bind, noPanic_ensure, ensure_eq_ok, noPanic_index, noPanic_ite, noPanic_pure,
    noPanic_refuse, true_and, implies_true, and_true]
  intro _ h
  omega

theorem p256Slot_noPanic {slot : UInt8} : NoPanic (p256Slot device slot) := by simp [p256Slot]

theorem generateSignature_noPanic : NoPanic (generateSignature K device body) := by
  simp only [generateSignature, noPanic_bind, noPanic_ensure, ensure_eq_ok, noPanic_index, noPanic_u16At,
    noPanic_orRefuse, noPanic_slice, noPanic_pure, p256Slot_noPanic, true_and, not_lt, implies_true, and_true]
  intro _ h
  exact ⟨by omega, fun _ _ => ⟨by omega, fun _ _ _ hl => ⟨by omega, by omega⟩⟩⟩

theorem readXy_noPanic {buf : Bytes} : NoPanic (readXy buf) := by
  simp only [readXy, noPanic_bind, noPanic_ite, noPanic_u16At, noPanic_slice, noPanic_pure, implies_true, true_and,
    and_true, not_lt]
  intro h
  exact ⟨by omega, fun _ _ _ => ⟨by omega, fun _ _ => ⟨by omega, fun _ _ _ => by omega⟩⟩⟩

theorem verifySignature_noPanic : NoPanic (verifySignature K body) := by
  simp only [verifySignature, noPanic_bind, noPanic_ensure, ensure_eq_ok, noPanic_index, noPanic_u16At,
    noPanic_orRefuse, orRefuse_eq_ok, noPanic_slice, readXy_noPanic, noPanic_array, slice_end, true_and]
  intro _ h1
  refine ⟨by omega, fun subject _ _ hc => ⟨⟨by omega, hc⟩, fun curveId _ _ _ _ h12 => ⟨by omega, fun repr _ _ _ =>
    ⟨⟨by omega, le_rfl⟩, ?_⟩⟩⟩⟩
  rintro xyBuf ⟨-, hxy⟩ o hpub ⟨x, y, n⟩ rfl
  obtain ⟨rfl, hx, hy, rest, rfl⟩ := readXy_eq_ok.mp hpub
  have hl := congrArg List.length hxy
  rw [point_length _ hx hy, List.length_drop] at hl
  refine ⟨⟨show 80 ≤ body.length by omega, le_rfl⟩, ?_⟩
  rintro rsBuf - o hsig ⟨r, s, m⟩ rfl
  obtain ⟨rfl, -, -, -⟩ := readXy_eq_ok.mp hsig
  refine fun _ hp => ⟨hp, fun msgLen _ _ hmsg _ h32 => ⟨⟨by omega, hmsg⟩, fun digest hd => ⟨?_, fun _ _ => ?_⟩⟩⟩
  · obtain ⟨-, -, hd, -⟩ := slice_eq_ok_drop.mp hd
    rw [hd, h32, Nat.add_sub_cancel_left]
    rfl
  · split <;> simp

theorem establishKey_noPanic : NoPanic (establishKey K device body) := by
  simp only [establishKey, noPanic_bind, noPanic_ensure, ensure_eq_ok, noPanic_index, noPanic_u16At,
    noPanic_orRefuse, noPanic_slice, noPanic_pure, p256Slot_noPanic, true_and, not_lt, implies_true, and_true]
  intro _ h
  exact ⟨by omega, fun _ _ => ⟨by omega, fun _ _ _ _ => ⟨by omega, fun _ _ _ _ => ⟨by omega, fun _ _ =>
    ⟨by omega, fun _ _ _ _ => by omega⟩⟩⟩⟩⟩

/-! ### No handler refuses with OK -/

/-- A status that is not read as OK. -/
def Refused (status : UInt8) : Prop := status &&& statusMask ≠ statusOk

instance (status : UInt8) : Decidable (Refused status) := inferInstanceAs (Decidable (_ ≠ _))

@[simp] theorem refused_lengthError : Refused statusLengthError := by decide

@[simp] theorem refused_unexpectedError : Refused statusUnexpectedError := by decide

@[simp] theorem refused_invalidParameter : Refused statusInvalidParameter := by decide

@[simp] theorem refused_commandCodeNotSupported : Refused statusCommandCodeNotSupported := by decide

theorem refused_frameError (e : FrameError) : Refused e.status := by cases e <;> decide

theorem p256Slot_refuses {slot : UInt8} : Refuses Refused (p256Slot device slot) := by simp [p256Slot]

theorem readXy_refuses {buf : Bytes} : Refuses Refused (readXy buf) := by simp [readXy, refuses_ite, refuses_u16At]

theorem random_refuses : Refuses Refused (random g body) := by simp [random]

theorem read_refuses : Refuses Refused (read device body) := by simp [read, refuses_u16At]

theorem generateKey_refuses : Refuses Refused (generateKey K g device body) := by simp [generateKey]

theorem query_refuses : Refuses Refused (query device body) := by simp [query, refuses_ite]

theorem generateSignature_refuses : Refuses Refused (generateSignature K device body) := by
  simp [generateSignature, refuses_u16At, p256Slot_refuses]

theorem verifySignature_refuses : Refuses Refused (verifySignature K body) := by
  simp only [verifySignature, refuses_bind, refuses_ensure, refuses_index, refuses_slice, refuses_array,
    refuses_orRefuse,
    refuses_u16At, readXy_refuses, refused_lengthError, refused_invalidParameter, implies_true, true_and]
  intros
  split <;> exact refuses_pure

theorem establishKey_refuses : Refuses Refused (establishKey K device body) := by
  simp [establishKey, refuses_u16At, p256Slot_refuses]

theorem handle_refuses {store : Store} {session : Session K} {cmd : Command} :
    Refuses Refused (handle K g store session cmd) := by
  simp only [handle, refuses_ite, refuses_map, random_refuses, read_refuses, generateKey_refuses,
    generateSignature_refuses, verifySignature_refuses, establishKey_refuses, query_refuses, refuses_pure,
    refuses_refuse, refused_commandCodeNotSupported, echo, implies_true, and_self]

theorem handle_noPanic {store : Store} {session : Session K} {cmd : Command} :
    NoPanic (handle K g store session cmd) := by
  simp only [handle, noPanic_ite, noPanic_map, random_noPanic, read_noPanic, generateKey_noPanic,
    generateSignature_noPanic, verifySignature_noPanic, establishKey_noPanic, query_noPanic, noPanic_pure,
    noPanic_refuse, echo, implies_true, and_self]

end Handlers

/-! ### Dispatch -/

@[simp] theorem buildResponse_head? (status : UInt8) (body : Bytes) :
    (buildResponse status body).head? = some (status &&& statusMask) := rfl

theorem buildError_head? {status : UInt8} (h : Refused status) : (buildError status).head? ≠ some statusOk := by
  rw [buildError, buildResponse_head?, ne_eq, Option.some.injEq]
  exact h

section Dispatch

variable {K : Crates} {g : Rng} {store : Store} {session : Session K} {raw : Bytes}

/-- A handler that answers OK answers for `dispatch`. -/
theorem dispatch_ok {header : UInt8} {body r : Bytes} {after : Store × Session K} (hh : header ≠ extendedPrefix)
    (hmax : (framed (header :: body)).length ≤ maxFrameLengthA120 + 2)
    (h : handle K g store session ⟨header, none, body⟩ = .ok (r, after)) :
    dispatch K g store session (framed (header :: body)) = .ok (buildResponse statusOk r, after) := by
  have hp : parseCommand (framed (header :: body)) = .ok ⟨header, none, body⟩ := parseCommand_plain hmax hh
  simp [dispatch, hp, Command.isExtended, h, Except.map, settle]

/-- Either a handler answers OK, or nothing is changed. -/
theorem dispatch_cases (K : Crates) (g : Rng) (store : Store) (session : Session K) (raw : Bytes) :
    (∃ header body r after, parseCommand raw = .ok ⟨header, none, body⟩ ∧
      handle K g store session ⟨header, none, body⟩ = .ok (r, after) ∧
      dispatch K g store session raw = .ok (buildResponse statusOk r, after)) ∨
    ∃ status, Refused status ∧ dispatch K g store session raw = .ok (buildError status, store, session) := by
  rcases hp : parseCommand raw with (p | e) | cmd
  · exact absurd hp (parseCommand_noPanic raw p)
  · exact .inr ⟨e.status, refused_frameError e, by rw [dispatch, hp]⟩
  · obtain ⟨header, _ | x, body⟩ := cmd
    · rcases hh : handle K g store session ⟨header, none, body⟩ with (p | e) | ⟨r, after⟩
      · exact absurd hh (handle_noPanic K g p)
      · exact .inr ⟨e, handle_refuses K g e hh, by simp [dispatch, hp, Command.isExtended, hh, Except.map, settle]⟩
      · exact .inl ⟨header, body, r, after, rfl, hh, by
          simp [dispatch, hp, Command.isExtended, hh, Except.map, settle]⟩
    · exact .inr ⟨_, refused_commandCodeNotSupported, by
        simp [dispatch, hp, Command.isExtended, refuse, Except.map, settle]⟩

end Dispatch

/-! ### The documented layouts -/

/-- A length of 32 and 32 bytes. -/
def coordinateLayout : List Field := [.const (u16Be 32), .bytes 32]

/-- The layouts written above a handler. The zone index of READ has one byte,
or four of which the upper ones are sent as zero. -/
def documented (header : UInt8) : Option (List (List Field)) :=
  if header = cmdGenerateRandom then some [[.const [0x00], .positive]]
  else if header = cmdRead then
    some [[.bytes 1, .bytes 1, .bytes 2, .bytes 2],
      [.bytes 1, .bytes 1, .const [0x00, 0x00, 0x00], .bytes 2, .bytes 2]]
  else if header = cmdGenerateKey then some [[.bytes 1, .bytes 1, .bytes 2, .bytes 2, .const nistP256CurveId]]
  else if header = cmdGenerateSignature then some [[.bytes 1, .counted]]
  else if header = cmdVerifySignature then
    some [.const [0x00] :: .const nistP256CurveId :: .const [pointRepresentationUncompressed] ::
      (coordinateLayout ++ coordinateLayout ++ coordinateLayout ++ coordinateLayout ++ [.counted])]
  else if header = cmdEstablishKey then
    some [.bytes 1 :: .const [pointRepresentationUncompressed] :: (coordinateLayout ++ coordinateLayout)]
  else none

/-- What is promised of the answer to a frame. -/
structure MeetsLayouts (K : Crates) (g : Rng) (store : Store) (session : Session K) (raw : Bytes) : Prop where
  noPanic : ∀ p, dispatch K g store session raw ≠ .error p
  badFrame : ¬ WellFramed raw → ∀ response after, dispatch K g store session raw = .ok (response, after) →
    after = (store, session)
  sentence : ∀ header body crc response after layouts, raw = header :: (body ++ crc) → crc.length = 2 →
    dispatch K g store session raw = .ok (response, after) → response.head? = some statusOk →
    documented header = some layouts → ∃ layout ∈ layouts, Sentence layout body
  change : ∀ response store' session', dispatch K g store session raw = .ok (response, store', session') →
    store' ≠ store → response.head? = some statusOk ∧
      ∃ body crc slot, raw = cmdGenerateKey :: (body ++ crc) ∧ crc.length = 2 ∧ body[1]? = some slot ∧
        store'.device.serialNumber = store.device.serialNumber ∧
        store'.device.dataZones = store.device.dataZones ∧
        ∀ other ≠ slot, store'.device.eccSlots.lookup other = store.device.eccSlots.lookup other

/-- A body that its handler takes has no byte too many, and the bytes that
the handler does not look at are the documented ones. -/
structure Exact (K : Crates) (device : Device) (header : UInt8) (body : Bytes) : Prop where
  random : header = cmdGenerateRandom → ∀ subject size, body = [subject, size] → size ≠ 0 → subject = 0
  read : header = cmdRead → ∀ option zone o₁ o₂ l₁ l₂ rest,
    body = option :: zone :: o₁ :: o₂ :: l₁ :: l₂ :: rest → rest.length ≠ 3 →
    InZone device zone (be16 o₁ o₂) (be16 l₁ l₂) → rest = []
  readWide : header = cmdRead → ∀ option zone u₁ u₂ u₃ o₁ o₂ l₁ l₂,
    body = [option, zone, u₁, u₂, u₃, o₁, o₂, l₁, l₂] →
    InZone device zone (be16 o₁ o₂) (be16 l₁ l₂) → u₁ = 0 ∧ u₂ = 0 ∧ u₃ = 0
  verify : header = cmdVerifySignature → ∀ subject x y r s digest rest, x.length = 32 → y.length = 32 →
    r.length = 32 → s.length = 32 → digest.length = 32 → body = verification subject x y r s digest rest →
    subject = 0 ∧ rest = []
  establishKey : header = cmdEstablishKey → ∀ slot x y rest, x.length = 32 → y.length = 32 →
    body = slot :: pointRepresentationUncompressed :: point x y rest → Agrees K device slot x y → rest = []

section Sentences

theorem sentence_coordinate {fs : List Field} {c rest : Bytes} (h : c.length = 32) :
    Sentence (coordinateLayout ++ fs) (coordinate c ++ rest) ↔ Sentence fs rest := by
  rw [coordinateLayout, coordinate, List.append_assoc]
  exact (sentence_const_append (u16Be_length _)).trans ((and_iff_right rfl).trans (sentence_bytes_append h))

theorem sentence_point {x y rest : Bytes} (fs : List Field) (hx : x.length = 32) (hy : y.length = 32) :
    Sentence (coordinateLayout ++ (coordinateLayout ++ fs)) (point x y rest) ↔ Sentence fs rest := by
  rw [point, sentence_coordinate hx, sentence_coordinate hy]

theorem sentence_verification {subject : UInt8} {x y r s digest rest : Bytes} (hx : x.length = 32)
    (hy : y.length = 32) (hr : r.length = 32) (hs : s.length = 32) (hd : digest.length = 32) :
    Sentence (.const [0x00] :: .const nistP256CurveId :: .const [pointRepresentationUncompressed] ::
      (coordinateLayout ++ coordinateLayout ++ coordinateLayout ++ coordinateLayout ++ [.counted]))
      (verification subject x y r s digest rest) ↔ subject = 0 ∧ rest = [] := by
  rw [verification, sentence_const_byte, sentence_const_append rfl, sentence_const_byte, List.append_assoc,
    List.append_assoc, List.append_assoc, sentence_point _ hx hy, sentence_point _ hr hs]
  have hc : coordinate digest ++ rest = 0 :: 32 :: (digest ++ rest) := rfl
  rw [hc, sentence_counted_append (hd.trans rfl), sentence_nil]
  simp

theorem sentence_upper {fs : List Field} {u₁ u₂ u₃ : UInt8} {rest : Bytes} :
    Sentence (.const [0x00, 0x00, 0x00] :: fs) (u₁ :: u₂ :: u₃ :: rest) ↔
      [u₁, u₂, u₃] = [0x00, 0x00, 0x00] ∧ Sentence fs rest :=
  sentence_const_append (v := [u₁, u₂, u₃]) rfl

end Sentences

section Commands

variable {K : Crates} {g : Rng} {store : Store} {session : Session K} {header : UInt8} {body : Bytes}

/-- A handler whose response is all that it gives. -/
def reply (store : Store) (session : Session K) (h : Handler UInt8 Bytes) : Cmd K := h.map fun b => (b, store, session)

theorem reply_eq_ok {h : Handler UInt8 Bytes} : (∃ r, reply store session h = .ok r) ↔ ∃ r, h = .ok r := by
  rcases h with e | b <;> simp [reply, Except.map]

theorem handle_random :
    handle K g store session ⟨cmdGenerateRandom, none, body⟩ = reply store session (random g body) := rfl

theorem handle_read :
    handle K g store session ⟨cmdRead, none, body⟩ = reply store session (read store.device body) := rfl

theorem handle_generateSignature : handle K g store session ⟨cmdGenerateSignature, none, body⟩ =
    reply store session (generateSignature K store.device body) := rfl

theorem handle_verifySignature : handle K g store session ⟨cmdVerifySignature, none, body⟩ =
    reply store session (verifySignature K body) := rfl

theorem handle_establishKey : handle K g store session ⟨cmdEstablishKey, none, body⟩ =
    reply store session (establishKey K store.device body) := rfl

/-- What is taken of an exact body is a sentence. -/
theorem sentence_of_exact {layouts : List (List Field)} (hex : Exact K store.device header body)
    (h : ∃ r, handle K g store session ⟨header, none, body⟩ = .ok r) (hl : documented header = some layouts) :
    ∃ layout ∈ layouts, Sentence layout body := by
  unfold documented at hl
  split_ifs at hl with h1 h2 h3 h4 h5 h6 <;> obtain rfl := Option.some.inj hl
  · subst h1
    rw [handle_random, reply_eq_ok, random_eq_ok] at h
    obtain ⟨subject, size, rfl, hsize⟩ := h
    exact ⟨_, List.mem_singleton_self _, by simp [hex.random rfl subject size rfl hsize, hsize]⟩
  · subst h2
    rw [handle_read, reply_eq_ok] at h
    obtain ⟨r, hr⟩ := h
    rcases read_forms (length_of_read_eq_ok store.device hr) with
      ⟨option, zone, o₁, o₂, l₁, l₂, rest, rfl, h3⟩ | ⟨option, zone, u₁, u₂, u₃, o₁, o₂, l₁, l₂, rfl⟩
    · have hz := (read_narrow_eq_ok store.device h3).mp ⟨r, hr⟩
      obtain rfl := hex.read rfl option zone o₁ o₂ l₁ l₂ rest rfl h3 hz
      exact ⟨_, List.mem_cons_self, by simp [sentence_bytes]⟩
    · have hz := (read_wide_eq_ok store.device).mp ⟨r, hr⟩
      obtain ⟨rfl, rfl, rfl⟩ := hex.readWide rfl option zone u₁ u₂ u₃ o₁ o₂ l₁ l₂ rfl hz
      refine ⟨_, List.mem_cons_of_mem _ (List.mem_singleton_self _), ?_⟩
      rw [sentence_byte, sentence_byte]
      exact sentence_upper.mpr ⟨rfl, by simp [sentence_bytes]⟩
  · subst h3
    obtain ⟨r, hr⟩ := h
    obtain ⟨b, hb, -⟩ := map_eq_ok.mp hr
    obtain ⟨tag, slot, u₁, u₂, f₁, f₂, entry, rfl, -⟩ := generateKey_eq_ok K g store.device hb
    refine ⟨_, List.mem_singleton_self _, ?_⟩
    rw [sentence_byte, sentence_byte]
    refine (sentence_bytes_append (v := [u₁, u₂]) rfl).mpr ((sentence_bytes_append (v := [f₁, f₂]) rfl).mpr ?_)
    exact ⟨nistP256CurveId, [], (List.append_nil _).symm, rfl, rfl⟩
  · subst h4
    rw [handle_generateSignature, reply_eq_ok] at h
    obtain ⟨r, hr⟩ := h
    obtain ⟨slot, hi, lo, msg, rfl, hmsg⟩ := generateSignature_eq_ok K store.device hr
    refine ⟨_, List.mem_singleton_self _, sentence_byte.mpr ?_⟩
    exact ⟨hi :: lo :: msg, [], (List.append_nil _).symm, ⟨hi, lo, msg, rfl, hmsg⟩, rfl⟩
  · subst h5
    rw [handle_verifySignature, reply_eq_ok, verifySignature_eq_ok] at h
    obtain ⟨subject, x, y, r, s, digest, rest, hx, hy, hr, hs, hd, rfl⟩ := h
    have hexact := hex.verify rfl subject x y r s digest rest hx hy hr hs hd rfl
    exact ⟨_, List.mem_singleton_self _, (sentence_verification hx hy hr hs hd).mpr hexact⟩
  · subst h6
    rw [handle_establishKey, reply_eq_ok, establishKey_eq_ok] at h
    obtain ⟨slot, x, y, rest, hx, hy, rfl, hagrees⟩ := h
    obtain rfl := hex.establishKey rfl slot x y rest hx hy rfl hagrees
    refine ⟨_, List.mem_singleton_self _, ?_⟩
    rw [sentence_byte, sentence_const_byte]
    exact ⟨rfl, (sentence_point [] hx hy).mpr rfl⟩

/-- If all that is taken of a body is sentences, then the body is exact. -/
theorem exact_of_sentence (g : Rng) (session : Session K)
    (h : (∃ r, handle K g store session ⟨header, none, body⟩ = .ok r) →
    ∀ layouts, documented header = some layouts → ∃ layout ∈ layouts, Sentence layout body) :
    Exact K store.device header body where
  random := by
    rintro rfl subject size rfl hsize
    obtain ⟨layout, hl, hs⟩ := h (by
      rw [handle_random, reply_eq_ok, random_eq_ok]
      exact ⟨subject, size, rfl, hsize⟩) _ rfl
    rw [List.mem_singleton] at hl
    subst hl
    exact (sentence_const_byte.mp hs).1
  read := by
    rintro rfl option zone o₁ o₂ l₁ l₂ rest rfl h3 hz
    obtain ⟨layout, hl, hs⟩ := h (by
      rw [handle_read, reply_eq_ok]
      exact (read_narrow_eq_ok store.device h3).mpr hz) _ rfl
    simp only [List.mem_cons, List.not_mem_nil, or_false] at hl
    rcases hl with rfl | rfl
    · simpa [sentence_bytes] using hs
    · rw [sentence_byte, sentence_byte] at hs
      have hrest := (sentence_upper.mp hs).2
      simp only [sentence_bytes, sentence_nil, List.length_cons, List.drop_eq_nil_iff, List.length_drop] at hrest
      omega
  readWide := by
    rintro rfl option zone u₁ u₂ u₃ o₁ o₂ l₁ l₂ rfl hz
    obtain ⟨layout, hl, hs⟩ := h (by
      rw [handle_read, reply_eq_ok]
      exact (read_wide_eq_ok store.device).mpr hz) _ rfl
    simp only [List.mem_cons, List.not_mem_nil, or_false] at hl
    rcases hl with rfl | rfl
    · simp [sentence_bytes] at hs
    · rw [sentence_byte, sentence_byte] at hs
      have hu := (sentence_upper.mp hs).1
      simpa using hu
  verify := by
    rintro rfl subject x y r s digest rest hx hy hr hs hd rfl
    obtain ⟨layout, hl, hsentence⟩ := h (by
      rw [handle_verifySignature, reply_eq_ok, verifySignature_eq_ok]
      exact ⟨subject, x, y, r, s, digest, rest, hx, hy, hr, hs, hd, rfl⟩) _ rfl
    rw [List.mem_singleton] at hl
    subst hl
    exact (sentence_verification hx hy hr hs hd).mp hsentence
  establishKey := by
    rintro rfl slot x y rest hx hy rfl hagrees
    obtain ⟨layout, hl, hs⟩ := h (by
      rw [handle_establishKey, reply_eq_ok, establishKey_eq_ok]
      exact ⟨slot, x, y, rest, hx, hy, rfl, hagrees⟩) _ rfl
    rw [List.mem_singleton] at hl
    subst hl
    rw [sentence_byte, sentence_const_byte] at hs
    exact (sentence_point [] hx hy).mp hs.2

end Commands

/-- A frame is one header, one body and one CRC. -/
theorem framed_inj {header header' : UInt8} {body body' crc : Bytes} (hcrc : crc.length = 2)
    (h : framed (header :: body) = header' :: (body' ++ crc)) : header = header' ∧ body = body' := by
  rw [framed, List.cons_append, List.cons.injEq] at h
  obtain ⟨rfl, h⟩ := h
  exact ⟨rfl, (List.append_inj' h (by rw [u16Be_length, hcrc])).1⟩

/-- Commands other than GENERATE_KEY leave the store. -/
theorem handle_store {K : Crates} {g : Rng} {store : Store} {session : Session K} {cmd : Command} {r : Bytes}
    {after : Store × Session K} (h : handle K g store session cmd = .ok (r, after)) (hs : after.1 ≠ store) :
    cmd.header = cmdGenerateKey ∧ ∃ b, generateKey K g store.device cmd.body = .ok b ∧ after.1 = ⟨b.2⟩ := by
  have hreply : ∀ x : Handler UInt8 Bytes, (x.map fun b => (b, store, session)) ≠ .ok (r, after) := by
    intro x hx
    obtain ⟨b, -, he⟩ := map_eq_ok.mp hx
    obtain ⟨rfl, rfl⟩ := Prod.mk.inj he
    exact hs rfl
  simp only [handle] at h
  split_ifs at h with h1 h2 h3 h4
  · exact absurd h (hreply _)
  · exact absurd h (hreply _)
  · exact absurd h (hreply _)
  · obtain ⟨b, hb, he⟩ := map_eq_ok.mp h
    obtain ⟨-, rfl⟩ := Prod.mk.inj he
    exact ⟨h4, b, hb, rfl⟩
  · exact absurd h (hreply _)
  · exact absurd h (hreply _)
  · exact absurd h (hreply _)
  · exact absurd h (hreply _)
  · rw [pure_eq_ok, Except.ok.injEq, Prod.mk.injEq] at h
    obtain ⟨-, rfl⟩ := h
    exact absurd rfl hs
  · rw [refuse_eq_ok] at h
    exact h.elim

theorem exact_of_meetsLayouts {K : Crates} {g : Rng} {store : Store} {session : Session K} {header : UInt8}
    {body : Bytes} (hm : MeetsLayouts K g store session (framed (header :: body)))
    (hmax : (framed (header :: body)).length ≤ maxFrameLengthA120 + 2) : Exact K store.device header body := by
  refine exact_of_sentence g session fun ⟨⟨r, after⟩, hr⟩ layouts hl => ?_
  have hh : header ≠ extendedPrefix := by
    rintro rfl
    cases hl
  exact hm.sentence header body _ _ after layouts rfl (u16Be_length _) (dispatch_ok hh hmax hr) rfl hl

/-- What `dispatch` answers with OK are the documented layouts, but for the
bodies that are not exact. -/
theorem dispatch_meetsLayouts_iff (K : Crates) (g : Rng) (store : Store) (session : Session K) (raw : Bytes) :
    MeetsLayouts K g store session raw ↔ ∀ header body, raw = framed (header :: body) →
      raw.length ≤ maxFrameLengthA120 + 2 → Exact K store.device header body := by
  constructor
  · rintro hm header body rfl hmax
    exact exact_of_meetsLayouts hm hmax
  · intro hex
    rcases dispatch_cases K g store session raw with
      ⟨header, body, r, after, hp, hh, hd⟩ | ⟨status, href, hd⟩
    · refine ⟨fun p => by simp [hd], fun hbad => absurd (wellFramed_iff.mpr ⟨_, hp⟩) hbad, ?_, ?_⟩ <;>
        obtain ⟨rfl, hmax, -⟩ := parseCommand_eq_ok.mp hp
      · intro header' body' crc response after' layouts hraw hcrc _ _ hl
        obtain ⟨rfl, rfl⟩ := framed_inj hcrc hraw
        exact sentence_of_exact (hex header body rfl hmax) ⟨_, hh⟩ hl
      · intro response store' session' hd' hne
        obtain ⟨rfl, rfl⟩ := Prod.mk.inj (Except.ok.inj (hd.symm.trans hd'))
        obtain ⟨rfl, b, hb, hstore⟩ := handle_store hh hne
        obtain ⟨tag, slot, u₁, u₂, f₁, f₂, entry, hbody, hdev⟩ := generateKey_eq_ok K g store.device hb
        obtain rfl : store' = ⟨b.2⟩ := hstore
        obtain rfl : body = _ := hbody
        refine ⟨rfl, _, _, slot, rfl, u16Be_length _, rfl, ?_⟩
        rw [hdev]
        exact ⟨rfl, rfl, fun other ho => Finmap.lookup_insert_of_ne _ ho⟩
    · refine ⟨fun p => by simp [hd], ?_, ?_, ?_⟩
      · intro _ response after hd'
        exact (Prod.mk.inj (Except.ok.inj (hd.symm.trans hd'))).2.symm
      · intro header body crc response after layouts _ _ hd' hok _
        obtain ⟨rfl, -⟩ := Prod.mk.inj (Except.ok.inj (hd.symm.trans hd'))
        exact absurd hok (buildError_head? href)
      · intro response store' session' hd' hne
        obtain ⟨-, he⟩ := Prod.mk.inj (Except.ok.inj (hd.symm.trans hd'))
        exact absurd (Prod.mk.inj he).1.symm hne

/-! ### READ takes more than its layout -/

/-- Crates without keys: READ does not call them. -/
def noCrates : Crates where
  SecretKey := Unit
  secretKeyRandom _ := ()
  secretKeyFromSlice _ := none
  toBytes _ := zeroArr 32
  SigningKey := Unit
  signingKeyFrom _ := ()
  signingKeyFromSlice _ := none
  encodedPoint _ := 0x04 :: List.replicate 64 0
  signPrehash _ _ := none
  PublicKey := Unit
  publicKeyFromPoint _ _ := none
  Signature := Unit
  signatureFromSlice _ := none
  verifyPrehash _ _ _ := false
  diffieHellman _ _ := []

/-- A device with sixteen bytes in its zone 0. -/
def zoneStore : Store := ⟨⟨zeroArr 8, ∅, Finmap.singleton 0 ⟨List.replicate 16 0⟩⟩⟩

/-- READ of the first four bytes of zone 0, and a byte after the length. -/
def longRead : Bytes := [0x00, 0x00, 0x00, 0x00, 0x00, 0x04, 0xFF]

theorem longRead_answered : ¬ ∀ (K : Crates) (g : Rng) (store : Store) (session : Session K) (raw : Bytes),
    MeetsLayouts K g store session raw := by
  intro h
  have hex := exact_of_meetsLayouts (h noCrates (fun _ => 0) zoneStore ⟨none⟩ (framed (cmdRead :: longRead)))
    (by decide)
  have hzone : InZone zoneStore.device 0 (be16 0 0) (be16 0 4) := ⟨_, Finmap.lookup_singleton_eq, by decide⟩
  exact absurd (hex.read rfl 0 0 0 0 0 4 [0xFF] rfl (by decide) hzone) (by decide)

end STSAFEA120
end Simulators
