/-
# TROPIC01: bit errors on the wire

The polynomial `8005` has, with its leading term, an even number of terms, so
no step of the CRC register changes the parity of its ones. The register holds
the parity of the bytes it has read, exchanging its two bytes at the end keeps
it, and a frame with its CRC has an even number of ones. The parser accepts
nothing but such frames, and an odd number of flipped bits leaves none.

Key theorems: `crc16_parity`, `parseRequest_eq_ok`, `odd_errors_rejected`.
-/
import Simulators.Lib.Parity
import Simulators.TROPIC01.Frame

namespace Simulators
namespace TROPIC01

/-! ### The register -/

/-- A one shifted out is made up for by the three of the polynomial. -/
theorem crcBit_parity (crc : UInt16) : ones 16 (crcBit crc).toNat % 2 = ones 16 crc.toNat % 2 := by
  have htop : ones 16 crc.toNat = ones 15 crc.toNat + (crc.toNat.testBit 15).toNat := ones_succ 15 crc.toNat
  have hshift : ones 16 (crc <<< 1).toNat = ones 15 crc.toNat := by
    rw [UInt16.toNat_shiftLeft, show UInt16.toNat 1 % 16 = 1 from rfl, ones_mod (Nat.le_refl 16)]
    exact ones_shiftLeft 1 15 crc.toNat
  have hbit : crc &&& 0x8000 ≠ 0 ↔ crc.toNat.testBit 15 = true := by
    rw [Ne, ← UInt16.toNat_inj, UInt16.toNat_and, show UInt16.toNat 0x8000 = 2 ^ 15 from rfl, Nat.and_two_pow]
    cases crc.toNat.testBit 15 <;> simp
  unfold crcBit
  by_cases h : crc.toNat.testBit 15 = true
  · have hpoly := ones_xor 16 (crc <<< 1).toNat 0x8005
    have hthree : ones 16 0x8005 = 3 := by decide
    rw [if_pos (hbit.mpr h), UInt16.toNat_xor, show UInt16.toNat 0x8005 = 0x8005 from rfl]
    rw [h, Bool.toNat_true] at htop
    omega
  · rw [if_neg (mt hbit.mp h)]
    rw [Bool.not_eq_true] at h
    rw [h, Bool.toNat_false] at htop
    omega

theorem repeat_crcBit_parity (k : ℕ) (crc : UInt16) :
    ones 16 (Nat.repeat crcBit k crc).toNat % 2 = ones 16 crc.toNat % 2 := by
  induction k with
  | zero => rfl
  | succ k ih => exact (crcBit_parity _).trans ih

theorem crcByte_parity (crc : UInt16) (b : UInt8) :
    ones 16 (crcByte crc b).toNat % 2 = (ones 16 crc.toNat + ones 8 b.toNat) % 2 := by
  have hbyte : ones 16 (b.toUInt16 <<< 8).toNat = ones 8 b.toNat := by
    rw [UInt16.toNat_shiftLeft, show UInt16.toNat 8 % 16 = 8 from rfl, ones_mod (Nat.le_refl 16), UInt8.toNat_toUInt16]
    exact ones_shiftLeft 8 8 b.toNat
  rw [crcByte, repeat_crcBit_parity, UInt16.toNat_xor, ones_xor, hbyte]

/-- The register after `buf` has the parity of `buf` on top of the one it began with. -/
theorem foldl_crcByte_parity (buf : Bytes) (crc : UInt16) :
    ones 16 (buf.foldl crcByte crc).toNat % 2 = (ones 16 crc.toNat + onesOf buf) % 2 := by
  induction buf generalizing crc with
  | nil => rw [List.foldl_nil, onesOf_nil, Nat.add_zero]
  | cons b buf ih =>
    have hbyte := crcByte_parity crc b
    rw [List.foldl_cons, ih, onesOf_cons]
    omega

theorem crc16_parity (buf : Bytes) : ones 16 (crc16 buf).toNat % 2 = onesOf buf % 2 := by
  have hzero : ones 16 (0 : UInt16).toNat = 0 := by decide
  have hreg := foldl_crcByte_parity buf 0
  rw [crc16, ones_swap]
  omega

/-- A frame with its CRC has an even number of ones. -/
theorem appendCrc_parity (frame : Bytes) : onesOf (appendCrc frame) % 2 = 0 := by
  have hcrc := crc16_parity frame
  have hbytes := ones_bytes (crc16 frame)
  rw [appendCrc, onesOf_append, onesOf_cons, onesOf_cons, onesOf_nil]
  omega

/-! ### What the parser accepts -/

theorem u16Be_toNat (hi lo : UInt8) : (u16Be hi lo).toNat = be16 hi lo := by
  rw [u16Be, UInt16.toNat_ofNat', Nat.mod_eq_of_lt (be16_lt hi lo)]

theorem hiByte_u16Be (hi lo : UInt8) : hiByte (u16Be hi lo) = hi := by
  have hh := hi.toNat_lt
  have hl := lo.toNat_lt
  apply UInt8.toNat_inj.mp
  rw [hiByte, UInt16.toNat_toUInt8, UInt16.toNat_shiftRight, u16Be_toNat, be16, show UInt16.toNat 8 % 16 = 8 from rfl,
    Nat.shiftRight_eq_div_pow, show 2 ^ 8 = 256 from rfl]
  omega

theorem loByte_u16Be (hi lo : UInt8) : loByte (u16Be hi lo) = lo := by
  have h := lo.toNat_lt
  apply UInt8.toNat_inj.mp
  rw [loByte, UInt16.toNat_toUInt8, u16Be_toNat, be16]
  omega

theorem u16Be_bytes (w : UInt16) : u16Be (hiByte w) (loByte w) = w := by
  apply UInt16.toNat_inj.mp
  rw [u16Be_toNat, be16_bytes]

theorem buildRequest_of_le {reqId : UInt8} {data : Bytes} (hlen : data.length ≤ maxL2DataSize) :
    buildRequest reqId data = .ok (appendCrc (reqId :: UInt8.ofNat data.length :: data)) := if_pos hlen

theorem parseRequest_appendCrc {reqId : UInt8} {data : Bytes} (hlen : data.length ≤ maxL2DataSize) :
    parseRequest (appendCrc (reqId :: UInt8.ofNat data.length :: data)) = .ok ⟨reqId, data⟩ := by
  have hbound : data.length ≤ 252 := hlen
  have hdeclared : (UInt8.ofNat data.length).toNat = data.length := by
    rw [UInt8.toNat_ofNat', Nat.mod_eq_of_lt (by omega)]
  have hsize : (appendCrc (reqId :: UInt8.ofNat data.length :: data)).length = data.length + 4 := by
    simp [appendCrc]
  have hmax : maxL2FrameSize = 256 := rfl
  unfold parseRequest
  rw [if_neg (by omega), if_neg (by omega)]
  simp only [appendCrc, List.cons_append, hdeclared, List.drop_left, List.take_left, u16Be_bytes]
  exact if_neg (not_not.mpr rfl)

/-- An accepted buffer is the request's own frame. -/
theorem parseRequest_eq_ok {buf : Bytes} {r : Request} :
    parseRequest buf = .ok r ↔ buildRequest r.reqId r.data = .ok buf := by
  constructor
  · intro h
    unfold parseRequest at h
    split_ifs at h with hshort hover
    split at h
    · rename_i reqId reqLen rest
      split at h
      · rename_i hi lo hcrc
        split_ifs at h with hbad
        cases h
        have hmax : maxL2FrameSize = 256 := rfl
        have hrest : rest.length = reqLen.toNat + 2 := by
          have := congrArg List.length hcrc
          simp only [List.length_drop, List.length_cons, List.length_nil] at this
          omega
        have hlen : (rest.take reqLen.toNat).length = reqLen.toNat := by
          rw [List.length_take]
          omega
        simp only [List.length_cons, hrest, not_lt] at hover
        have hle : (rest.take reqLen.toNat).length ≤ maxL2DataSize := by
          have : maxL2DataSize = 252 := rfl
          omega
        rw [not_not] at hbad
        rw [buildRequest_of_le hle, hlen, UInt8.ofNat_toNat, appendCrc, hbad, hiByte_u16Be, loByte_u16Be, ← hcrc,
          List.cons_append, List.cons_append, List.take_append_drop]
      · cases h
    · cases h
  · intro h
    by_cases hlen : r.data.length ≤ maxL2DataSize
    · rw [buildRequest_of_le hlen, Except.ok.injEq] at h
      rw [← h]
      exact parseRequest_appendCrc hlen
    · rw [buildRequest, buildResponse, if_neg hlen] at h
      cases h

theorem parity_of_parseRequest {buf : Bytes} {r : Request} (h : parseRequest buf = .ok r) : onesOf buf % 2 = 0 := by
  have hbuilt := parseRequest_eq_ok.mp h
  unfold buildRequest buildResponse at hbuilt
  split_ifs at hbuilt
  cases hbuilt
  exact appendCrc_parity _

/-! ### Errors -/

/-- The frame with the bits of `errors` flipped. -/
def flipBits (errors frame : Bytes) : Bytes := List.zipWith (· ^^^ ·) frame errors

/-- A request of at most 252 bytes of data is read back, and with any odd number of its bits flipped it is refused. -/
theorem odd_errors_rejected (reqId : UInt8) (data : Bytes) (hlen : data.length ≤ 252) :
    ∃ frame, buildRequest reqId data = .ok frame ∧ parseRequest frame = .ok ⟨reqId, data⟩ ∧
      ∀ errors : Bytes, errors.length = frame.length → Odd (onesOf errors) →
        ∃ e, parseRequest (flipBits errors frame) = .error e := by
  refine ⟨_, buildRequest_of_le hlen, parseRequest_appendCrc hlen, ?_⟩
  intro errors hsize hodd
  have hframe := appendCrc_parity (reqId :: UInt8.ofNat data.length :: data)
  have hsum : onesOf (flipBits errors (appendCrc (reqId :: UInt8.ofNat data.length :: data))) % 2 = 1 := by
    have hflip := onesOf_xor hsize.symm
    rw [Nat.odd_iff] at hodd
    unfold flipBits
    omega
  cases hres : parseRequest (flipBits errors (appendCrc (reqId :: UInt8.ofNat data.length :: data))) with
  | error e => exact ⟨e, rfl⟩
  | ok r =>
    have heven := parity_of_parseRequest hres
    omega

/-- The request for the chip's identity. -/
theorem getInfo_errors_rejected :
    ([0x01, 0x00] : Bytes).length ≤ 252 ∧ ∃ frame, buildRequest 0x01 [0x01, 0x00] = .ok frame ∧
      parseRequest frame = .ok ⟨0x01, [0x01, 0x00]⟩ ∧ ∀ errors : Bytes, errors.length = frame.length →
        Odd (onesOf errors) → ∃ e, parseRequest (flipBits errors frame) = .error e :=
  ⟨by decide, odd_errors_rejected 0x01 [0x01, 0x00] (by decide)⟩

end TROPIC01
end Simulators
