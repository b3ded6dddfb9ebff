/-
# Polynomials packed into a number

A polynomial with natural coefficients is packed into one number, a
coefficient every 32 bits. As long as no coefficient outgrows its place, sums
and products of the numbers are those of the polynomials (`valueAt_add`,
`valueAt_mul`), and where 2 is 0 a coefficient may be replaced by its lowest bit
(`valueAt_comb`). So a power of a polynomial over two elements takes a few
operations on numbers for each squaring.

Key theorems: `valueAt_add`, `valueAt_mul`, `valueAt_split`, `valueAt_comb`.
-/
import Mathlib.Data.Nat.Digits.Defs
import Mathlib.Tactic.LinearCombination
import Mathlib.Tactic.Ring

namespace Simulators
namespace Packed

/-- Every coefficient is at most `s`. -/
def Small (s n : ℕ) : Prop := ∀ i, n / (2 ^ 32) ^ i % 2 ^ 32 ≤ s

theorem small_iff {s n : ℕ} : Small s n ↔ n % 2 ^ 32 ≤ s ∧ Small s (n / 2 ^ 32) := by
  have hnext (i : ℕ) : n / 2 ^ 32 / (2 ^ 32) ^ i = n / (2 ^ 32) ^ (i + 1) := by
    rw [Nat.div_div_eq_div_mul, ← pow_succ']
  constructor
  · intro h
    refine ⟨by simpa using h 0, fun i => ?_⟩
    rw [hnext]
    exact h (i + 1)
  · rintro ⟨h0, h⟩ (_ | i)
    · simpa using h0
    · rw [← hnext]
      exact h i

theorem small_zero (s : ℕ) : Small s 0 := fun i => by simp

theorem Small.mono {s t n : ℕ} (h : Small s n) (hst : s ≤ t) : Small t n := fun i => (h i).trans hst

theorem Small.div {s n : ℕ} (h : Small s n) (k : ℕ) : Small s (n / (2 ^ 32) ^ k) := fun i => by
  rw [Nat.div_div_eq_div_mul, ← pow_add]
  exact h (k + i)

theorem mod_pow_succ (n k : ℕ) :
    n % (2 ^ 32) ^ (k + 1) % 2 ^ 32 = n % 2 ^ 32 ∧ n % (2 ^ 32) ^ (k + 1) / 2 ^ 32 = n / 2 ^ 32 % (2 ^ 32) ^ k := by
  have h : n % (2 ^ 32) ^ (k + 1) = n % 2 ^ 32 + 2 ^ 32 * (n / 2 ^ 32 % (2 ^ 32) ^ k) := by rw [pow_succ', Nat.mod_mul]
  omega

theorem Small.mod {s : ℕ} (k : ℕ) : ∀ {n : ℕ}, Small s n → Small s (n % (2 ^ 32) ^ k) := by
  induction k with
  | zero =>
    intro n _
    rw [pow_zero, Nat.mod_one]
    exact small_zero s
  | succ k ih =>
    intro n h
    obtain ⟨h0, hdiv⟩ := small_iff.mp h
    rw [small_iff, (mod_pow_succ n k).1, (mod_pow_succ n k).2]
    exact ⟨h0, ih hdiv⟩

/-! ### The value of the polynomial -/

section ValueAt

variable {R : Type*} [CommRing R] (x : R)

/-- The packed polynomial at `x`. -/
def valueAt (n : ℕ) : R := Nat.ofDigits x (Nat.digits (2 ^ 32) n)

theorem valueAt_zero : valueAt x 0 = 0 := by
  rw [valueAt, Nat.digits_zero]
  rfl

theorem valueAt_eq (n : ℕ) : valueAt x n = (n % 2 ^ 32 : ℕ) + x * valueAt x (n / 2 ^ 32) := by
  by_cases h : n = 0
  · subst h
    simp [valueAt_zero]
  · rw [valueAt, Nat.digits_def' (by decide) (Nat.pos_of_ne_zero h)]
    rfl

variable {s t : ℕ}

theorem valueAt_add (hst : s + t < 2 ^ 32) (u : ℕ) : ∀ v, Small s u → Small t v →
    valueAt x (u + v) = valueAt x u + valueAt x v ∧ Small (s + t) (u + v) := by
  induction u using Nat.strong_induction_on with
  | _ u ih =>
    intro v hu hv
    by_cases h0 : u = 0
    · subst h0
      rw [Nat.zero_add, valueAt_zero, zero_add]
      exact ⟨rfl, hv.mono (Nat.le_add_left t s)⟩
    · obtain ⟨hu0, hudiv⟩ := small_iff.mp hu
      obtain ⟨hv0, hvdiv⟩ := small_iff.mp hv
      have hmod : (u + v) % 2 ^ 32 = u % 2 ^ 32 + v % 2 ^ 32 := by omega
      have hdiv : (u + v) / 2 ^ 32 = u / 2 ^ 32 + v / 2 ^ 32 := by omega
      obtain ⟨he, hs⟩ := ih (u / 2 ^ 32) (by omega) (v / 2 ^ 32) hudiv hvdiv
      constructor
      · rw [valueAt_eq x (u + v), hmod, hdiv, he, valueAt_eq x u, valueAt_eq x v]
        push_cast
        ring
      · rw [small_iff, hmod, hdiv]
        exact ⟨Nat.add_le_add hu0 hv0, hs⟩

theorem valueAt_shift {v : ℕ} (hv : Small t v) : valueAt x (2 ^ 32 * v) = x * valueAt x v ∧ Small t (2 ^ 32 * v) := by
  constructor
  · rw [valueAt_eq, Nat.mul_mod_right, Nat.mul_div_cancel_left _ (by decide), Nat.cast_zero, zero_add]
  · rw [small_iff, Nat.mul_mod_right, Nat.mul_div_cancel_left _ (by decide)]
    exact ⟨Nat.zero_le t, hv⟩

theorem valueAt_scale {c : ℕ} (hc : c ≤ s) (hst : s * t < 2 ^ 32) (v : ℕ) : Small t v →
    valueAt x (c * v) = c * valueAt x v ∧ Small (s * t) (c * v) := by
  induction v using Nat.strong_induction_on with
  | _ v ih =>
    intro hv
    by_cases h0 : v = 0
    · subst h0
      rw [Nat.mul_zero, valueAt_zero, mul_zero]
      exact ⟨rfl, small_zero _⟩
    · obtain ⟨hv0, hvdiv⟩ := small_iff.mp hv
      have hle : c * (v % 2 ^ 32) ≤ s * t := Nat.mul_le_mul hc hv0
      have hsplit : c * v = c * (v % 2 ^ 32) + 2 ^ 32 * (c * (v / 2 ^ 32)) := by
        calc c * v = c * (v % 2 ^ 32 + 2 ^ 32 * (v / 2 ^ 32)) := by rw [Nat.mod_add_div]
          _ = c * (v % 2 ^ 32) + 2 ^ 32 * (c * (v / 2 ^ 32)) := by rw [Nat.mul_add, Nat.mul_left_comm]
      have hmod : c * v % 2 ^ 32 = c * (v % 2 ^ 32) := by omega
      have hdiv : c * v / 2 ^ 32 = c * (v / 2 ^ 32) := by omega
      obtain ⟨he, hs⟩ := ih (v / 2 ^ 32) (by omega) hvdiv
      constructor
      · rw [valueAt_eq x (c * v), hmod, hdiv, he, valueAt_eq x v]
        push_cast
        ring
      · rw [small_iff, hmod, hdiv]
        exact ⟨hle, hs⟩

/-- The induction is on the coefficients of the first factor. -/
theorem valueAt_mul {b : ℕ} (hb : Small t b) (n : ℕ) : n * (s * t) < 2 ^ 32 → ∀ a, a < (2 ^ 32) ^ n → Small s a →
    valueAt x (a * b) = valueAt x a * valueAt x b ∧ Small (n * (s * t)) (a * b) := by
  induction n with
  | zero =>
    intro _ a ha _
    rw [pow_zero, Nat.lt_one_iff] at ha
    rw [ha, Nat.zero_mul, valueAt_zero, zero_mul]
    exact ⟨rfl, small_zero _⟩
  | succ n ih =>
    intro hst a ha hsmall
    rw [Nat.succ_mul] at hst
    obtain ⟨ha0, hadiv⟩ := small_iff.mp hsmall
    have hlt : a / 2 ^ 32 < (2 ^ 32) ^ n := Nat.div_lt_of_lt_mul (by rwa [← pow_succ'])
    obtain ⟨hlow, hlows⟩ := valueAt_scale x ha0 (by omega) b hb
    obtain ⟨hhigh, hhighs⟩ := ih (by omega) (a / 2 ^ 32) hlt hadiv
    obtain ⟨hshift, hshifts⟩ := valueAt_shift x hhighs
    obtain ⟨hsum, hsums⟩ := valueAt_add x (by omega) _ _ hshifts hlows
    have hab : a * b = 2 ^ 32 * (a / 2 ^ 32 * b) + a % 2 ^ 32 * b := by
      rw [← Nat.mul_assoc, ← Nat.add_mul, Nat.div_add_mod]
    rw [hab, Nat.succ_mul]
    refine ⟨?_, hsums⟩
    rw [hsum, hshift, hhigh, hlow, valueAt_eq x a]
    ring

/-- The coefficients below place `k` and those from it on. -/
theorem valueAt_split (k : ℕ) : ∀ n,
    valueAt x n = valueAt x (n % (2 ^ 32) ^ k) + x ^ k * valueAt x (n / (2 ^ 32) ^ k) := by
  induction k with
  | zero =>
    intro n
    rw [pow_zero, Nat.mod_one, Nat.div_one, valueAt_zero, pow_zero, one_mul, zero_add]
  | succ k ih =>
    intro n
    rw [valueAt_eq x n, valueAt_eq x (n % (2 ^ 32) ^ (k + 1)), (mod_pow_succ n k).1, (mod_pow_succ n k).2,
      ih (n / 2 ^ 32),
      Nat.div_div_eq_div_mul, ← pow_succ']
    ring

/-- `k` coefficients of 1. -/
def comb : ℕ → ℕ
  | 0 => 0
  | k + 1 => 1 + 2 ^ 32 * comb k

/-- Where 2 is 0, the lowest bit of a coefficient is enough. -/
theorem valueAt_comb (h2 : (2 : R) = 0) (k : ℕ) : ∀ n, n < (2 ^ 32) ^ k →
    valueAt x (n &&& comb k) = valueAt x n ∧ Small 1 (n &&& comb k) := by
  induction k with
  | zero =>
    intro n hn
    rw [pow_zero, Nat.lt_one_iff] at hn
    rw [hn, Nat.zero_and]
    exact ⟨rfl, small_zero 1⟩
  | succ k ih =>
    intro n hn
    have hlt : n / 2 ^ 32 < (2 ^ 32) ^ k := Nat.div_lt_of_lt_mul (by rwa [← pow_succ'])
    have hmod : (n &&& comb (k + 1)) % 2 ^ 32 = n % 2 ^ 32 % 2 := by
      have hone : comb (k + 1) % 2 ^ 32 = 1 := by
        rw [comb, Nat.add_mul_mod_self_left]
        rfl
      rw [Nat.and_mod_two_pow, hone, Nat.and_one_is_mod]
    have hdiv : (n &&& comb (k + 1)) / 2 ^ 32 = n / 2 ^ 32 &&& comb k := by
      have hrest : comb (k + 1) / 2 ^ 32 = comb k := by
        rw [comb, Nat.add_mul_div_left _ _ (by decide)]
        exact Nat.zero_add _
      rw [Nat.and_div_two_pow, hrest]
    have hcast (c : ℕ) : ((c % 2 : ℕ) : R) = c := by
      have h := congrArg (Nat.cast : ℕ → R) (Nat.div_add_mod c 2)
      push_cast at h
      linear_combination h - (c / 2 : ℕ) * h2
    obtain ⟨he, hs⟩ := ih (n / 2 ^ 32) hlt
    constructor
    · rw [valueAt_eq, hmod, hdiv, he, hcast, ← valueAt_eq]
    · rw [small_iff, hmod, hdiv]
      exact ⟨Nat.le_of_lt_succ (Nat.mod_lt _ (by decide)), hs⟩

theorem and_comb_lt (n k : ℕ) : n &&& comb k < (2 ^ 32) ^ k := by
  have h : comb k < (2 ^ 32) ^ k := by
    induction k with
    | zero => decide
    | succ k ih =>
      have hpow : (2 ^ 32) ^ (k + 1) = 2 ^ 32 * (2 ^ 32) ^ k := pow_succ' _ k
      rw [comb, hpow]
      omega
  exact Nat.lt_of_le_of_lt Nat.and_le_right h

end ValueAt

end Packed
end Simulators
