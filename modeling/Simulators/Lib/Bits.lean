/-
# Bits of a register

Registers are 32-bit words, and the code reads their fields with shifts and
masks; a lock word is 16 bits, kept as two bytes. The lemmas say which bits of
a word or of a byte such an expression depends on.

Key theorems: `field_ne_zero`, `testBit_be16`, `testBit_clearBit`.
-/
import Mathlib.Data.Nat.Bitwise
import Simulators.Lib.Bytes

namespace Simulators

theorem testBit_255 : ∀ {k : ℕ}, k < 8 → (255 : ℕ).testBit k = true := by decide

theorem toNat_one_shiftLeft {k : ℕ} (hk : k < 32) : ((1 : UInt32) <<< UInt32.ofNat k).toNat = 2 ^ k := by
  have hlt : 2 ^ k < 2 ^ 32 := Nat.pow_lt_pow_right (by decide) hk
  rw [UInt32.toNat_shiftLeft, UInt32.toNat_ofNat', Nat.mod_eq_of_lt (by omega : k < 2 ^ 32),
    Nat.mod_eq_of_lt hk, UInt32.toNat_one, Nat.one_shiftLeft]
  exact Nat.mod_eq_of_lt hlt

theorem toNat_shiftRight_ofNat (reg : UInt32) {pos : ℕ} (hpos : pos < 32) :
    (reg >>> UInt32.ofNat pos).toNat = reg.toNat >>> pos := by
  rw [UInt32.toNat_shiftRight, UInt32.toNat_ofNat', Nat.mod_eq_of_lt (by omega : pos < 2 ^ 32), Nat.mod_eq_of_lt hpos]

theorem uint32_ne_zero {v : UInt32} : v ≠ 0 ↔ v.toNat ≠ 0 := by
  rw [Ne, Ne, ← UInt32.toNat_inj]
  rfl

/-- Bit `k` of the field of eight bits at `pos`. -/
theorem field_ne_zero (reg : UInt32) {pos k : ℕ} (hpos : pos < 32) (hk : k < 8) :
    decide ((reg >>> UInt32.ofNat pos) &&& 0xff &&& ((1 : UInt32) <<< UInt32.ofNat k) ≠ 0) =
      reg.toNat.testBit (pos + k) := by
  have hnat : ((reg >>> UInt32.ofNat pos) &&& 0xff &&& ((1 : UInt32) <<< UInt32.ofNat k)).toNat =
      (reg.toNat.testBit (pos + k)).toNat * 2 ^ k := by
    rw [UInt32.toNat_and, UInt32.toNat_and, toNat_one_shiftLeft (by omega), toNat_shiftRight_ofNat reg hpos,
      Nat.and_two_pow, Nat.testBit_and, Nat.testBit_shiftRight, show (255 : UInt32).toNat = 255 from rfl,
      testBit_255 hk, Bool.and_true]
  apply Bool.eq_iff_iff.mpr
  rw [decide_eq_true_iff, uint32_ne_zero, hnat]
  cases reg.toNat.testBit (pos + k)
  · simp
  · simp

theorem or_and_self (v c : UInt32) : (v ||| c) &&& c = c := by
  apply UInt32.eq_of_toBitVec_eq
  ext i hi
  simp only [UInt32.toBitVec_and, UInt32.toBitVec_or, BitVec.getElem_and, BitVec.getElem_or]
  cases c.toBitVec[i] <;> simp

theorem clear_and_self (v c : UInt32) : (v &&& ~~~c) &&& c = 0 := by
  apply UInt32.eq_of_toBitVec_eq
  ext i hi
  simp only [UInt32.toBitVec_and, UInt32.toBitVec_not, BitVec.getElem_and, BitVec.getElem_not]
  cases c.toBitVec[i] <;> simp

/-! ### Words of 16 bits -/

theorem toNat_shiftRight_ofNat16 (w : UInt16) {pos : ℕ} (hpos : pos < 16) :
    (w >>> UInt16.ofNat pos).toNat = w.toNat >>> pos := by
  rw [UInt16.toNat_shiftRight, UInt16.toNat_ofNat', Nat.mod_eq_of_lt (by omega : pos < 2 ^ 16), Nat.mod_eq_of_lt hpos]

theorem bit_eq_zero (w : UInt16) {pos : ℕ} (hpos : pos < 16) :
    (w >>> UInt16.ofNat pos) &&& 1 = 0 ↔ w.toNat.testBit pos = false := by
  rw [← UInt16.toNat_inj, UInt16.toNat_and, toNat_shiftRight_ofNat16 w hpos, UInt16.toNat_one, Nat.and_one_is_mod,
    Nat.shiftRight_eq_div_pow, Nat.testBit_eq_decide_div_mod_eq]
  simp only [UInt16.toNat_zero, decide_eq_false_iff_not]
  omega

theorem toNat_one_shiftLeft16 {k : ℕ} (hk : k < 16) : ((1 : UInt16) <<< UInt16.ofNat k).toNat = 2 ^ k := by
  have hlt : 2 ^ k < 2 ^ 16 := Nat.pow_lt_pow_right (by decide) hk
  rw [UInt16.toNat_shiftLeft, UInt16.toNat_ofNat', Nat.mod_eq_of_lt (by omega : k < 2 ^ 16),
    Nat.mod_eq_of_lt hk, UInt16.toNat_one, Nat.one_shiftLeft]
  exact Nat.mod_eq_of_lt hlt

/-- One bit cleared. -/
theorem testBit_clearBit (w : UInt16) {k i : ℕ} (hk : k < 16) (hi : i < 16) :
    (w &&& ~~~((1 : UInt16) <<< UInt16.ofNat k)).toNat.testBit i = (w.toNat.testBit i && decide (i ≠ k)) := by
  have hlt : 2 ^ k < 2 ^ 16 := Nat.pow_lt_pow_right (by decide) hk
  have hnot : (~~~((1 : UInt16) <<< UInt16.ofNat k)).toNat = 2 ^ 16 - (2 ^ k + 1) := by
    rw [UInt16.toNat_not, toNat_one_shiftLeft16 hk, Nat.sub_sub, Nat.add_comm 1]
    rfl
  rw [UInt16.toNat_and, Nat.testBit_and, hnot, Nat.testBit_two_pow_sub_succ hlt, Nat.testBit_two_pow]
  simp [hi, eq_comm]

/-- The bits of two bytes. -/
theorem testBit_be16 (hi lo : UInt8) (i : ℕ) :
    (be16 hi lo).testBit i = if i < 8 then lo.toNat.testBit i else hi.toNat.testBit (i - 8) := by
  rw [be16, Nat.mul_comm]
  exact Nat.testBit_two_pow_mul_add hi.toNat lo.toNat_lt i

theorem testBit_loByte (w : UInt16) {i : ℕ} (hi : i < 8) : (loByte w).toNat.testBit i = w.toNat.testBit i := by
  rw [loByte, UInt16.toNat_toUInt8, Nat.testBit_mod_two_pow, decide_eq_true hi, Bool.true_and]

theorem testBit_hiByte (w : UInt16) {i : ℕ} (hi : i < 8) : (hiByte w).toNat.testBit i = w.toNat.testBit (i + 8) := by
  rw [hiByte, UInt16.toNat_toUInt8, Nat.testBit_mod_two_pow, decide_eq_true hi, Bool.true_and,
    show (8 : UInt16) = UInt16.ofNat 8 from rfl, toNat_shiftRight_ofNat16 w (by decide), Nat.testBit_shiftRight,
    Nat.add_comm]

/-- Bit `k` of a word, shifted down. -/
theorem shiftRight_and_one_ne_zero_word (w : UInt32) {k : ℕ} (hk : k < 32) :
    (w >>> UInt32.ofNat k) &&& 1 ≠ 0 ↔ w.toNat.testBit k = true := by
  have hnat : ((w >>> UInt32.ofNat k) &&& 1).toNat = (w.toNat >>> k) % 2 := by
    rw [UInt32.toNat_and, toNat_shiftRight_ofNat w hk, UInt32.toNat_one, Nat.and_one_is_mod]
  rw [uint32_ne_zero, hnat, Nat.testBit, Nat.one_and_eq_mod_two, bne_iff_ne]

/-- Bit `k` of a word, masked. -/
theorem and_two_pow_ne_zero_word (w : UInt32) {m : UInt32} {k : ℕ} (hm : m.toNat = 2 ^ k) :
    w &&& m ≠ 0 ↔ w.toNat.testBit k = true := by
  rw [uint32_ne_zero, UInt32.toNat_and, hm, Nat.and_two_pow]
  cases w.toNat.testBit k <;> simp

theorem xor_and_distrib (a b m : UInt32) : (a ^^^ b) &&& m = (a &&& m) ^^^ (b &&& m) := by
  apply UInt32.toNat_inj.mp
  rw [UInt32.toNat_and, UInt32.toNat_xor, UInt32.toNat_xor, UInt32.toNat_and, UInt32.toNat_and,
    Nat.and_xor_distrib_right]

/-! ### Bytes -/

theorem toNat_shiftRight_byte (b : UInt8) {k : ℕ} (hk : k < 8) : (b >>> UInt8.ofNat k).toNat = b.toNat >>> k := by
  rw [UInt8.toNat_shiftRight, UInt8.toNat_ofNat', Nat.mod_eq_of_lt (by omega : k < 2 ^ 8), Nat.mod_eq_of_lt hk]

theorem and_one_ne_zero (b : UInt8) : b &&& 1 ≠ 0 ↔ b.toNat.testBit 0 = true := by
  rw [Ne, ← UInt8.toNat_inj, UInt8.toNat_and, show (1 : UInt8).toNat = 1 from rfl, Nat.and_one_is_mod,
    Nat.testBit_zero, decide_eq_true_eq, show (0 : UInt8).toNat = 0 from rfl]
  omega

/-- Bit `k` of a byte, shifted down. -/
theorem shiftRight_and_one_ne_zero (b : UInt8) {k : ℕ} (hk : k < 8) :
    (b >>> UInt8.ofNat k) &&& 1 ≠ 0 ↔ b.toNat.testBit k = true := by
  rw [and_one_ne_zero, toNat_shiftRight_byte b hk, Nat.testBit_shiftRight, Nat.add_zero]

end Simulators
