/-
# The blocks of GCM are a field

The first bit of a block is the coefficient of 1, the last that of `x ^ 127`,
and the multiplication of blocks is that of polynomials over two elements
modulo `x ^ 128 + x ^ 7 + x ^ 2 + x + 1` (`value_mulBits`). This polynomial is
irreducible: `x` is a root of `x ^ 2 ^ 128 - x` modulo it, and the value of
`x ^ 2 ^ 64 - x` has an inverse, both computed on packed polynomials. So a
product of blocks is zero only if a factor is.

Key theorems: `value_mulBits`, `irreducible_modulus`, `mul_xorArr_inj`.
-/
import Mathlib.FieldTheory.Finite.Extension
import Mathlib.RingTheory.AdjoinRoot
import Simulators.Lib.Gcm
import Simulators.Lib.Packed

namespace Simulators
namespace Gcm

open Polynomial

/-! ### The value of a block in a ring -/

section Value

variable {R : Type*} [CommRing R] (x : R)

/-- The polynomial whose coefficients are the bits, at `x`. -/
def value (v : BitVec 128) : R := ∑ i ∈ Finset.range 128, if v.getMsbD i then x ^ i else 0

@[simp] theorem value_zero : value x 0#128 = 0 := by simp [value]

/-- In characteristic two, bits are added by exclusive or. -/
theorem value_xor (h2 : (2 : R) = 0) (v w : BitVec 128) : value x (v ^^^ w) = value x v + value x w := by
  rw [value, value, value, ← Finset.sum_add_distrib]
  refine Finset.sum_congr rfl fun i _ => ?_
  have hdouble : x ^ i + x ^ i = 0 := by rw [← two_mul, h2, zero_mul]
  rw [BitVec.getMsbD_xor]
  cases v.getMsbD i <;> cases w.getMsbD i <;> simp [hdouble]

/-- A shift to the right multiplies by `x`, up to the bit that falls out. -/
theorem value_shift (v : BitVec 128) :
    x * value x v = value x (v >>> 1) + if v.getLsbD 0 then x ^ 128 else 0 := by
  have hlast : v.getMsbD 127 = v.getLsbD 0 := by simp [BitVec.getMsbD]
  have hfirst : (v >>> 1).getMsbD 0 = false := by simp [BitVec.getMsbD_ushiftRight]
  have hrest {i : ℕ} (hi : i < 127) : (v >>> 1).getMsbD (i + 1) = v.getMsbD i := by
    simp [BitVec.getMsbD_ushiftRight, Nat.succ_lt_succ hi]
  rw [value, value, Finset.sum_range_succ, Finset.sum_range_succ' _ 127, hfirst, hlast, mul_add, Finset.mul_sum]
  congr 1
  · rw [if_neg (by decide), add_zero]
    refine Finset.sum_congr rfl fun i hi => ?_
    rw [hrest (Finset.mem_range.mp hi), pow_succ']
    split <;> simp
  · rw [pow_succ' x 127]
    split <;> simp

variable {x}

/-- `x` is a root of the polynomial that `reduction` stands for. -/
def IsRoot (x : R) : Prop := x ^ 128 = value x reduction

/-- The factor shifted by one step. -/
theorem value_mulStep_snd (h2 : (2 : R) = 0) (hx : IsRoot x) (a : BitVec 128) (s : BitVec 128 × BitVec 128) (i : ℕ) :
    value x (mulStep a s i).2 = x * value x s.2 := by
  rw [value_shift, mulStep]
  dsimp only
  split
  · rw [value_xor x h2, hx]
  · rw [add_zero]

/-- The first `n` steps add up the product of the first `n` bits. -/
theorem value_foldl_mulStep (h2 : (2 : R) = 0) (hx : IsRoot x) (a b : BitVec 128) (n : ℕ) :
    value x ((List.range n).foldl (mulStep a) (0, b)).1 =
        (∑ i ∈ Finset.range n, if a.getMsbD i then x ^ i else 0) * value x b ∧
      value x ((List.range n).foldl (mulStep a) (0, b)).2 = x ^ n * value x b := by
  induction n with
  | zero => simp
  | succ n ih =>
    obtain ⟨hprod, hshift⟩ := ih
    rw [List.range_succ, List.foldl_append, List.foldl_cons, List.foldl_nil]
    refine ⟨?_, ?_⟩
    · rw [Finset.sum_range_succ, add_mul, ← hprod, mulStep]
      dsimp only
      split
      · rw [value_xor x h2, hshift]
      · rw [zero_mul, add_zero]
    · rw [value_mulStep_snd h2 hx, hshift, pow_succ', mul_assoc]

theorem value_mulBits (h2 : (2 : R) = 0) (hx : IsRoot x) (a b : BitVec 128) :
    value x (mulBits a b) = value x a * value x b := (value_foldl_mulStep h2 hx a b 128).1

end Value

/-! ### Packed polynomials modulo the polynomial -/

section Packed

open Packed

/-- `x ^ 128` replaced by `x ^ 7 + x ^ 2 + x + 1`. -/
def fold (n : ℕ) : ℕ := n % (2 ^ 32) ^ 128 + (1 + 2 ^ 32 + (2 ^ 32) ^ 2 + (2 ^ 32) ^ 7) * (n / (2 ^ 32) ^ 128)

def mulPacked (a b : ℕ) : ℕ := fold (fold (a * b)) &&& comb 136

/-- 136 coefficients of 0 or 1. -/
def Clean (n : ℕ) : Prop := n < (2 ^ 32) ^ 136 ∧ Small 1 n

variable {R : Type*} [CommRing R] {x : R}

theorem fold_lt {k m n : ℕ} (hm : 128 ≤ m) (hk : k + 8 ≤ m) (hn : n < (2 ^ 32) ^ (128 + k)) :
    fold n < (2 ^ 32) ^ (m + 1) := by
  have hlow : n % (2 ^ 32) ^ 128 < (2 ^ 32) ^ m :=
    Nat.lt_of_lt_of_le (Nat.mod_lt _ (by positivity)) (Nat.pow_le_pow_right (by decide) hm)
  have hdiv : n / (2 ^ 32) ^ 128 < (2 ^ 32) ^ k := Nat.div_lt_of_lt_mul (by rwa [← pow_add])
  have hhigh : (1 + 2 ^ 32 + (2 ^ 32) ^ 2 + (2 ^ 32) ^ 7) * (n / (2 ^ 32) ^ 128) ≤ (2 ^ 32) ^ m := by
    calc (1 + 2 ^ 32 + (2 ^ 32) ^ 2 + (2 ^ 32) ^ 7) * (n / (2 ^ 32) ^ 128)
        ≤ (2 ^ 32) ^ 8 * (2 ^ 32) ^ k := Nat.mul_le_mul (by decide) hdiv.le
      _ = (2 ^ 32) ^ (k + 8) := by rw [← pow_add, Nat.add_comm]
      _ ≤ (2 ^ 32) ^ m := Nat.pow_le_pow_right (by decide) hk
  have hpow : (2 ^ 32) ^ (m + 1) = 2 ^ 32 * (2 ^ 32) ^ m := pow_succ' _ m
  rw [fold, hpow]
  omega

theorem valueAt_modulus : valueAt x (1 + 2 ^ 32 + (2 ^ 32) ^ 2 + (2 ^ 32) ^ 7) = x ^ 7 + x ^ 2 + x + 1 ∧
    Small 1 (1 + 2 ^ 32 + (2 ^ 32) ^ 2 + (2 ^ 32) ^ 7) := by
  constructor
  · rw [valueAt_eq, valueAt_eq, valueAt_eq, valueAt_eq, valueAt_eq, valueAt_eq, valueAt_eq, valueAt_eq]
    norm_num [valueAt_zero]
    ring
  · iterate 8 refine small_iff.mpr ⟨by decide, ?_⟩
    exact small_zero 1

theorem valueAt_fold (hx : x ^ 128 = x ^ 7 + x ^ 2 + x + 1) {s n : ℕ} (hs : s + 8 * (1 * s) < 2 ^ 32) (h : Small s n) :
    valueAt x (fold n) = valueAt x n ∧ Small (s + 8 * (1 * s)) (fold n) := by
  obtain ⟨hm, hmsmall⟩ := valueAt_modulus (x := x)
  obtain ⟨hmul, hmuls⟩ := valueAt_mul x (h.div 128) 8 (by omega) _ (by decide) hmsmall
  obtain ⟨hadd, hadds⟩ := valueAt_add x hs _ _ (h.mod 128) hmuls
  refine ⟨?_, hadds⟩
  rw [fold, hadd, hmul, hm, ← hx, ← valueAt_split]

theorem valueAt_mulPacked (h2 : (2 : R) = 0) (hx : x ^ 128 = x ^ 7 + x ^ 2 + x + 1) {a b : ℕ} (ha : Clean a)
    (hb : Clean b) :
    valueAt x (mulPacked a b) = valueAt x a * valueAt x b ∧ Clean (mulPacked a b) := by
  obtain ⟨hmul, hmuls⟩ := valueAt_mul x hb.2 136 (by decide) a ha.1 ha.2
  obtain ⟨hfold, hfolds⟩ := valueAt_fold hx (by decide) hmuls
  obtain ⟨hfold', hfolds'⟩ := valueAt_fold hx (by decide) hfolds
  have hab : a * b < (2 ^ 32) ^ (128 + 144) := by
    calc a * b < (2 ^ 32) ^ 136 * (2 ^ 32) ^ 136 := Nat.mul_lt_mul'' ha.1 hb.1
      _ = (2 ^ 32) ^ (128 + 144) := by rw [← pow_add]
  have hlt : fold (fold (a * b)) < (2 ^ 32) ^ 136 := by
    have h1 : fold (a * b) < (2 ^ 32) ^ (128 + 25) := fold_lt (m := 152) (by decide) (by decide) hab
    exact fold_lt (m := 135) (by decide) (by decide) h1
  obtain ⟨hcomb, hcombs⟩ := valueAt_comb x h2 136 _ hlt
  refine ⟨?_, and_comb_lt _ _, hcombs⟩
  rw [mulPacked, hcomb, hfold', hfold, hmul]

/-- `n` squarings. -/
def squares (n v : ℕ) : ℕ := (fun w => mulPacked w w)^[n] v

theorem valueAt_squares (h2 : (2 : R) = 0) (hx : x ^ 128 = x ^ 7 + x ^ 2 + x + 1) {v : ℕ} (hv : Clean v) (n : ℕ) :
    valueAt x (squares n v) = valueAt x v ^ 2 ^ n ∧ Clean (squares n v) := by
  induction n with
  | zero => exact ⟨(pow_one _).symm, hv⟩
  | succ n ih =>
    obtain ⟨he, hc⟩ := valueAt_mulPacked h2 hx ih.2 ih.2
    rw [squares, Function.iterate_succ_apply', ← squares]
    refine ⟨?_, hc⟩
    rw [he, ih.1, ← pow_add, ← two_mul, ← pow_succ']

/-- The product of `n` squarings, of the first, the second and so on. -/
def squareProduct (n v : ℕ) : ℕ × ℕ :=
  (fun p : ℕ × ℕ => (mulPacked p.1 p.1, mulPacked (mulPacked p.1 p.1) p.2))^[n] (v, 1)

theorem clean_one : Clean 1 := ⟨Nat.one_lt_pow (by decide) (by decide), small_iff.mpr ⟨by decide, small_zero 1⟩⟩

theorem clean_squareProduct (h2 : (2 : R) = 0) (hx : x ^ 128 = x ^ 7 + x ^ 2 + x + 1) {v : ℕ} (hv : Clean v) (n : ℕ) :
    Clean (squareProduct n v).1 ∧ Clean (squareProduct n v).2 := by
  induction n with
  | zero => exact ⟨hv, clean_one⟩
  | succ n ih =>
    rw [squareProduct, Function.iterate_succ_apply', ← squareProduct]
    have hsquare := (valueAt_mulPacked h2 hx ih.1 ih.1).2
    exact ⟨hsquare, (valueAt_mulPacked h2 hx hsquare ih.2).2⟩

/-- `x ^ 2 ^ 64 - x`. -/
def frobenius64 : ℕ := (squares 64 (2 ^ 32) + 2 ^ 32) &&& comb 136

/-- Evaluated on the numbers. -/
theorem packed_powers : squares 128 (2 ^ 32) = 2 ^ 32 ∧ squares 64 (2 ^ 32) + 2 ^ 32 < (2 ^ 32) ^ 136 ∧
    mulPacked frobenius64 (squareProduct 127 frobenius64).2 = 1 := by decide +kernel

theorem valueAt_root (x : R) : valueAt x (2 ^ 32) = x := by
  rw [valueAt_eq, valueAt_eq]
  norm_num [valueAt_zero]

theorem clean_root : Clean (2 ^ 32) := by
  refine ⟨lt_self_pow₀ (by decide) (by decide), ?_⟩
  iterate 2 refine small_iff.mpr ⟨by decide, ?_⟩
  exact small_zero 1

section Root

variable (h2 : (2 : R) = 0) (hx : x ^ 128 = x ^ 7 + x ^ 2 + x + 1)
include h2 hx

theorem pow_root {n : ℕ} (hn : n = 128) : x ^ 2 ^ n = x := by
  have h := (valueAt_squares h2 hx clean_root n).1
  have hsq : squares n (2 ^ 32) = 2 ^ 32 := by rw [hn, packed_powers.1]
  rw [hsq, valueAt_root] at h
  exact h.symm

theorem valueAt_frobenius64 {n : ℕ} (hn : n = 64) : valueAt x frobenius64 = x ^ 2 ^ n + x ∧ Clean frobenius64 := by
  obtain ⟨hsq, hclean⟩ := valueAt_squares h2 hx clean_root n
  obtain ⟨hadd, -⟩ := valueAt_add x (show 1 + 1 < 2 ^ 32 by decide) _ _ hclean.2 clean_root.2
  have hlt : squares n (2 ^ 32) + 2 ^ 32 < (2 ^ 32) ^ 136 := hn ▸ packed_powers.2.1
  obtain ⟨hcomb, hsmall⟩ := valueAt_comb x h2 136 _ hlt
  have heq : frobenius64 = (squares n (2 ^ 32) + 2 ^ 32) &&& comb 136 := by
    subst hn
    rfl
  rw [heq]
  refine ⟨?_, and_comb_lt _ _, hsmall⟩
  rw [hcomb, hadd, hsq, valueAt_root]

theorem exists_inverse_of_root {n : ℕ} (hn : n = 64) : ∃ u, (x ^ 2 ^ n + x) * u = 1 := by
  obtain ⟨hval, hclean⟩ := valueAt_frobenius64 h2 hx hn
  have hmul := (valueAt_mulPacked h2 hx hclean (clean_squareProduct h2 hx hclean 127).2).1
  refine ⟨valueAt x (squareProduct 127 frobenius64).2, ?_⟩
  rw [← hval, ← hmul, packed_powers.2.2, valueAt_eq]
  norm_num [valueAt_zero]

end Root

end Packed

/-! ### The polynomial is irreducible -/

noncomputable def modulus : (ZMod 2)[X] := X ^ 128 + X ^ 7 + X ^ 2 + X + 1

theorem modulus_eq : modulus = X ^ 128 + X ^ 7 + X ^ 2 + X + 1 := by
  delta modulus
  with_reducible rfl

attribute [irreducible] modulus

theorem modulus_monic : modulus.Monic := by
  rw [modulus_eq]
  monicity!

theorem modulus_natDegree : modulus.natDegree = 128 := by
  rw [modulus_eq]
  compute_degree!

theorem modulus_ne_one : modulus ≠ 1 := by
  intro h
  have hdeg := modulus_natDegree
  rw [h, natDegree_one] at hdeg
  exact absurd hdeg (by decide)

/-- The value of a block in the polynomials modulo `modulus`. -/
noncomputable def residue : BitVec 128 → AdjoinRoot modulus := value (AdjoinRoot.root modulus)

theorem two_eq_zero : (2 : AdjoinRoot modulus) = 0 := by
  have h : algebraMap (ZMod 2) (AdjoinRoot modulus) 2 = 0 := by rw [show (2 : ZMod 2) = 0 from rfl, map_zero]
  rwa [map_ofNat] at h

theorem value_reduction {R : Type*} [CommRing R] (x : R) : value x reduction = x ^ 7 + x ^ 2 + x + 1 := by
  have hbits : (Finset.range 128).filter (fun i => reduction.getMsbD i = true) = {0, 1, 2, 7} := by decide
  rw [value, ← Finset.sum_filter, hbits]
  simp
  ring

theorem isRoot_root : IsRoot (AdjoinRoot.root modulus) := by
  have hmk : AdjoinRoot.mk modulus (X ^ 128 + X ^ 7 + X ^ 2 + X + 1) = 0 := by rw [← modulus_eq, AdjoinRoot.mk_self]
  simp only [map_add, map_pow, AdjoinRoot.mk_X, map_one] at hmk
  rw [IsRoot, value_reduction]
  generalize AdjoinRoot.root modulus = r at hmk ⊢
  generalize r ^ 128 = y at hmk ⊢
  linear_combination hmk - (r ^ 7 + r ^ 2 + r + 1) * two_eq_zero

theorem residue_mul (a b : BitVec 128) : residue (mulBits a b) = residue a * residue b :=
  value_mulBits two_eq_zero isRoot_root a b

theorem residue_xor (a b : BitVec 128) : residue (a ^^^ b) = residue a + residue b := value_xor _ two_eq_zero a b

/-- The polynomial whose coefficients are the bits. -/
theorem residue_eq_mk (v : BitVec 128) : residue v = AdjoinRoot.mk modulus (value X v) := by
  rw [residue, value, value, map_sum]
  refine Finset.sum_congr rfl fun i _ => ?_
  split
  · rw [map_pow, AdjoinRoot.mk_X]
  · rw [map_zero]

theorem coeff_value_X (v : BitVec 128) (i : ℕ) :
    (value (X : (ZMod 2)[X]) v).coeff i = if v.getMsbD i then 1 else 0 := by
  rw [value, finsetSum_coeff]
  have hterm (k : ℕ) : (if v.getMsbD k then (X : (ZMod 2)[X]) ^ k else 0).coeff i =
      if k = i then (if v.getMsbD i then 1 else 0) else 0 := by
    by_cases hk : k = i
    · subst hk
      split <;> simp
    · rw [if_neg hk]
      split
      · rw [coeff_X_pow, if_neg (Ne.symm hk)]
      · rw [coeff_zero]
  simp only [hterm, Finset.sum_ite_eq', Finset.mem_range]
  split
  · rfl
  · rename_i hi
    rw [BitVec.getMsbD_of_ge _ _ (Nat.le_of_not_lt hi)]
    rfl

theorem degree_value_lt (v : BitVec 128) : (value (X : (ZMod 2)[X]) v).degree < modulus.degree := by
  rw [degree_eq_natDegree modulus_monic.ne_zero, modulus_natDegree, degree_lt_iff_coeff_zero]
  intro i hi
  rw [coeff_value_X, BitVec.getMsbD_of_ge _ _ hi]
  rfl

theorem residue_eq_zero {v : BitVec 128} (h : residue v = 0) : v = 0 := by
  rw [residue_eq_mk, AdjoinRoot.mk_eq_zero] at h
  have hzero := eq_zero_of_dvd_of_degree_lt h (degree_value_lt v)
  apply BitVec.eq_of_getMsbD_eq
  intro i _
  have hcoeff := coeff_value_X v i
  rw [hzero, coeff_zero] at hcoeff
  cases hbit : v.getMsbD i with
  | false => simp
  | true => simp [hbit] at hcoeff

theorem residue_injective : Function.Injective residue := by
  intro a b h
  have hsum : residue (a ^^^ b) = 0 := by rw [residue_xor, h, ← two_mul, two_eq_zero, zero_mul]
  exact BitVec.xor_eq_zero_iff.mp (residue_eq_zero hsum)

theorem root_pow : AdjoinRoot.root modulus ^ 128 =
    AdjoinRoot.root modulus ^ 7 + AdjoinRoot.root modulus ^ 2 + AdjoinRoot.root modulus + 1 := by
  rw [isRoot_root, value_reduction]

theorem modulus_dvd {n : ℕ} (hn : n = 128) : modulus ∣ X ^ 2 ^ n - X := by
  rw [← AdjoinRoot.mk_eq_zero, map_sub, map_pow, AdjoinRoot.mk_X, pow_root two_eq_zero root_pow hn, sub_self]

theorem isUnit_of_dvd {f p u : (ZMod 2)[X]} (hf : f ∣ modulus) (hp : f ∣ p) (h : AdjoinRoot.mk modulus (p * u) = 1) :
    IsUnit f := by
  have hrest : modulus ∣ p * u - 1 := by rw [← AdjoinRoot.mk_eq_zero, map_sub, map_one, h, sub_self]
  exact isUnit_of_dvd_one ((dvd_sub_right (hp.mul_right u)).mp (hf.trans hrest))

/-- The value of `x ^ 2 ^ 64 - x` has an inverse. -/
theorem exists_inverse {n : ℕ} (hn : n = 64) : ∃ u, AdjoinRoot.mk modulus ((X ^ 2 ^ n - X) * u) = 1 := by
  obtain ⟨v, hv⟩ := exists_inverse_of_root two_eq_zero root_pow hn
  obtain ⟨u, rfl⟩ := AdjoinRoot.mk_surjective v
  refine ⟨u, ?_⟩
  rw [map_mul, map_sub, map_pow, AdjoinRoot.mk_X, ← hv]
  linear_combination -AdjoinRoot.root modulus * AdjoinRoot.mk modulus u * two_eq_zero

theorem natDegree_dvd_iff {f : (ZMod 2)[X]} (hf : Irreducible f) (n : ℕ) : f.natDegree ∣ n ↔ f ∣ X ^ 2 ^ n - X := by
  have h := hf.natDegree_dvd_iff_dvd_X_pow_card_pow_sub_X (n := n)
  rwa [Nat.card_zmod] at h

/-- Rabin's test: a factor has degree 128, since its degree divides 128 and
not 64. -/
theorem irreducible_modulus : Irreducible modulus := by
  rw [modulus_monic.irreducible_iff_lt_natDegree_lt modulus_ne_one]
  intro q hq hdeg hdvd
  rw [modulus_natDegree, Finset.mem_Ioc] at hdeg
  obtain ⟨f, hf, hfq⟩ := exists_irreducible_of_natDegree_pos hdeg.1
  have hle : f.natDegree ≤ 2 ^ 6 := (natDegree_le_of_dvd hfq hq.ne_zero).trans hdeg.2
  have h128 : f.natDegree ∣ 128 := (natDegree_dvd_iff hf 128).mpr ((hfq.trans hdvd).trans (modulus_dvd rfl))
  obtain ⟨k, -, hk⟩ := (Nat.dvd_prime_pow Nat.prime_two (m := 7)).mp h128
  have hk6 : k ≤ 6 := (Nat.pow_le_pow_iff_right (by decide)).mp (hk ▸ hle)
  obtain ⟨n, hn⟩ : ∃ n, n = 64 := ⟨64, rfl⟩
  obtain ⟨u, hu⟩ := exists_inverse hn
  have hfn : f.natDegree ∣ n := hn ▸ hk ▸ Nat.pow_dvd_pow 2 hk6
  exact hf.not_isUnit (isUnit_of_dvd (hfq.trans hdvd) ((natDegree_dvd_iff hf n).mp hfn) hu)

/-! ### Products of blocks -/

theorem toBits_injective : Function.Injective toBits := fun a b h => by
  rw [← ofBits_toBits a, h, ofBits_toBits]

theorem toBits_ofBits (v : BitVec 128) : toBits (ofBits v) = v := by
  have hlt : v.toNat < 256 ^ 16 := Nat.lt_of_lt_of_le v.isLt (by decide)
  apply BitVec.eq_of_toNat_eq
  rw [toNat_toBits, ofBits, ofBe_toBe, Nat.mod_eq_of_lt hlt]

theorem toBits_zero : toBits (zeroArr 16) = 0#128 := by decide

/-- Two sums with the same block have the same product with `h` only if they
are the same, or `h` is zero. -/
theorem mul_xorArr_inj (y a b h : Block) : mul (xorArr y a) h = mul (xorArr y b) h ↔ a = b ∨ h = zeroArr 16 := by
  have : Fact (Irreducible modulus) := ⟨irreducible_modulus⟩
  have hzero : residue (toBits h) = 0 ↔ h = zeroArr 16 := by
    rw [← toBits_injective.eq_iff, toBits_zero]
    exact ⟨residue_eq_zero, fun h0 => by rw [h0, residue, value_zero]⟩
  have hbits : Function.Injective ofBits := Function.LeftInverse.injective toBits_ofBits
  rw [mul, mul, hbits.eq_iff, ← residue_injective.eq_iff, residue_mul, residue_mul, toBits_xorArr, toBits_xorArr,
    residue_xor, residue_xor, mul_eq_mul_right_iff, add_right_inj, residue_injective.eq_iff, toBits_injective.eq_iff,
    hzero]

end Gcm
end Simulators
