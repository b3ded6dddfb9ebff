/-
# STM32 CRYP: the multiplication of GHASH

`gf128_mul` (`cryp/gcm.rs`) shifts an array of 16 bytes, its debug aid
`gf128_mul_u128` one word of 128 bits. Both are the multiplication of
polynomials over two elements modulo `1 + z + z^2 + z^7 + z^128`, the
coefficient of `z^i` in bit `i` of the block, the highest bit of the first
byte being bit 0. The laws of the multiplication are those of the quotient.

Key definitions: `gf128MulU128`, `coefficient`, `polynomial`.
Key theorems: `polynomial_eq_value`, `residue_gf128Mul`, `gf128Mul_is_field_multiplication`.
-/
import Simulators.Lib.GcmField
import Simulators.STM32.Cryp.Gcm

namespace Simulators
namespace STM32
namespace Cryp

open Polynomial

/-! ### The multiplication on words of 128 bits -/

def gf128U128Step (xi : BitVec 128) (s : BitVec 128 × BitVec 128) (i : ℕ) : BitVec 128 × BitVec 128 :=
  (if (xi >>> (127 - i)) &&& 1 ≠ 0 then s.1 ^^^ s.2 else s.1,
    if s.2 &&& 1 ≠ 0 then (s.2 >>> 1) ^^^ 0xE100_0000_0000_0000_0000_0000_0000_0000 else s.2 >>> 1)

def gf128MulU128 (x y : Block) : Block :=
  let xi := BitVec.ofNat 128 (ofBe x.bytes)
  let yi := BitVec.ofNat 128 (ofBe y.bytes)
  let z := ((List.range 128).foldl (gf128U128Step xi) (0, yi)).1
  ⟨toBe 16 z.toNat, toBe_length 16 _⟩

theorem and_one_ne_zero_iff (v : BitVec 128) : v &&& 1 ≠ 0 ↔ v.getLsbD 0 = true := by
  have hbit : (v &&& 1).toNat = (v.getLsbD 0).toNat := by
    rw [BitVec.toNat_and, BitVec.getLsbD, Nat.testBit_zero]
    exact (Nat.and_one_is_mod _).trans (by rcases Nat.mod_two_eq_zero_or_one v.toNat with h | h <;> simp [h])
  rw [ne_eq, ← BitVec.toNat_inj, hbit]
  cases v.getLsbD 0 <;> decide

theorem gf128U128Step_eq (xi : BitVec 128) (s : BitVec 128 × BitVec 128) {i : ℕ} (hi : i < 128) :
    gf128U128Step xi s i = Gcm.mulStep xi s i := by
  have hbit : ((xi >>> (127 - i)) &&& 1 ≠ 0) = (xi.getMsbD i = true) := by
    rw [and_one_ne_zero_iff, BitVec.getLsbD_ushiftRight, BitVec.getMsbD, decide_eq_true hi, Bool.true_and, Nat.add_zero]
  unfold gf128U128Step Gcm.mulStep
  simp only [hbit, and_one_ne_zero_iff]
  rfl

theorem gf128MulU128_eq_mul (x y : Block) : gf128MulU128 x y = Gcm.mul x y := by
  have hfold : (List.range 128).foldl (gf128U128Step (Gcm.toBits x)) (0, Gcm.toBits y) =
      (List.range 128).foldl (Gcm.mulStep (Gcm.toBits x)) (0, Gcm.toBits y) :=
    List.foldl_ext _ _ _ fun s i hi => gf128U128Step_eq _ s (List.mem_range.mp hi)
  exact congrArg (fun s : BitVec 128 × BitVec 128 => Gcm.ofBits s.1) hfold

/-! ### Blocks as polynomials -/

/-- Bit `i` of a block, the highest bit of the first byte first. -/
def coefficient (b : Block) (i : ℕ) : Bool := ((b.bytes[i / 8]?).getD 0).toNat.testBit (7 - i % 8)

noncomputable def polynomial (b : Block) : (ZMod 2)[X] :=
  ∑ i ∈ Finset.range 128, if coefficient b i then X ^ i else 0

theorem coefficient_eq (b : Block) {i : ℕ} (hi : i < 128) : coefficient b i = (Gcm.toBits b).getMsbD i := by
  have hidx : b.bytes.length - 1 - (127 - i) / 8 = i / 8 := by
    rw [b.size]
    omega
  have hmod : (127 - i) % 8 = 7 - i % 8 := by omega
  have hlt : 127 - i < 8 * b.bytes.length := by
    rw [b.size]
    omega
  rw [BitVec.getMsbD, BitVec.getLsbD, Gcm.toNat_toBits, show 128 - 1 - i = 127 - i by omega, testBit_ofBe b.bytes hlt,
    hidx, hmod, decide_eq_true hi, Bool.true_and, coefficient]

theorem polynomial_eq_value (b : Block) : polynomial b = Gcm.value X (Gcm.toBits b) :=
  Finset.sum_congr rfl fun i hi => by rw [coefficient_eq b (Finset.mem_range.mp hi)]

/-- The product is that of the residues. -/
theorem residue_gf128Mul (x y : Block) : Gcm.residue (Gcm.toBits (gf128Mul x y)) =
    Gcm.residue (Gcm.toBits x) * Gcm.residue (Gcm.toBits y) := by
  rw [gf128Mul_eq_mul, Gcm.mul, Gcm.toBits_ofBits, Gcm.residue_mul]

theorem polynomial_gf128Mul (x y : Block) : polynomial (gf128Mul x y) = polynomial x * polynomial y %ₘ Gcm.modulus := by
  have hself : polynomial (gf128Mul x y) %ₘ Gcm.modulus = polynomial (gf128Mul x y) := by
    rw [modByMonic_eq_self_iff Gcm.modulus_monic, polynomial_eq_value]
    exact Gcm.degree_value_lt _
  have hmk : AdjoinRoot.mk Gcm.modulus (polynomial (gf128Mul x y)) =
      AdjoinRoot.mk Gcm.modulus (polynomial x * polynomial y) := by
    rw [map_mul, polynomial_eq_value, polynomial_eq_value, polynomial_eq_value, ← Gcm.residue_eq_mk,
      ← Gcm.residue_eq_mk,
      ← Gcm.residue_eq_mk, residue_gf128Mul]
  rw [← hself]
  exact modByMonic_eq_of_dvd_sub Gcm.modulus_monic (AdjoinRoot.mk_eq_mk.mp hmk)

/-- The block `80 00 .. 00`. -/
def oneBlock : Block := ⟨0x80 :: List.replicate 15 0, rfl⟩

theorem residue_oneBlock : Gcm.residue (Gcm.toBits oneBlock) = 1 := by
  have hbits : (Finset.range 128).filter (fun i => (Gcm.toBits oneBlock).getMsbD i = true) = {0} := by decide
  rw [Gcm.residue, Gcm.value, ← Finset.sum_filter, hbits, Finset.sum_singleton, pow_zero]

theorem block_eq_of_residue {a b : Block} (h : Gcm.residue (Gcm.toBits a) = Gcm.residue (Gcm.toBits b)) : a = b :=
  Gcm.toBits_injective (Gcm.residue_injective h)

theorem residue_xorArr (a b : Block) : Gcm.residue (Gcm.toBits (xorArr a b)) =
    Gcm.residue (Gcm.toBits a) + Gcm.residue (Gcm.toBits b) := by rw [Gcm.toBits_xorArr, Gcm.residue_xor]

theorem gf128Mul_is_field_multiplication :
    (∀ x y : Block, polynomial (gf128Mul x y) =
      polynomial x * polynomial y %ₘ (1 + X + X ^ 2 + X ^ 7 + X ^ 128)) ∧
    (∀ x y : Block, gf128Mul x y = gf128MulU128 x y) ∧
    (∀ x y : Block, gf128Mul x y = gf128Mul y x) ∧
    (∀ x y z : Block, gf128Mul (gf128Mul x y) z = gf128Mul x (gf128Mul y z)) ∧
    (∀ x y z : Block, gf128Mul x (xorArr y z) = xorArr (gf128Mul x y) (gf128Mul x z) ∧
      gf128Mul (xorArr x y) z = xorArr (gf128Mul x z) (gf128Mul y z)) ∧
    ∀ x : Block, gf128Mul oneBlock x = x ∧ gf128Mul x oneBlock = x := by
  refine ⟨fun x y => ?_, fun x y => ?_, fun x y => ?_, fun x y z => ?_, fun x y z => ⟨?_, ?_⟩, fun x => ⟨?_, ?_⟩⟩
  · have hmod : (1 + X + X ^ 2 + X ^ 7 + X ^ 128 : (ZMod 2)[X]) = Gcm.modulus := by
      rw [Gcm.modulus_eq]
      ring
    rw [hmod, polynomial_gf128Mul]
  · rw [gf128Mul_eq_mul, gf128MulU128_eq_mul]
  · apply block_eq_of_residue
    rw [residue_gf128Mul, residue_gf128Mul, mul_comm]
  · apply block_eq_of_residue
    rw [residue_gf128Mul, residue_gf128Mul, residue_gf128Mul, residue_gf128Mul, mul_assoc]
  · apply block_eq_of_residue
    rw [residue_gf128Mul, residue_xorArr, residue_xorArr, residue_gf128Mul, residue_gf128Mul, mul_add]
  · apply block_eq_of_residue
    rw [residue_gf128Mul, residue_xorArr, residue_xorArr, residue_gf128Mul, residue_gf128Mul, add_mul]
  · apply block_eq_of_residue
    rw [residue_gf128Mul, residue_oneBlock, one_mul]
  · apply block_eq_of_residue
    rw [residue_gf128Mul, residue_oneBlock, mul_one]

end Cryp
end STM32
end Simulators
