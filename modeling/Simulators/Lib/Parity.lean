/-
# Counting ones

The number of ones among the low bits of a number and in a byte string, and
its parity under exclusive or: the ones of `a ^^^ b` are those of `a` and of `b`
less the common ones, each of which was counted twice.

Key definitions: `ones`, `onesOf`.
Key theorems: `ones_xor`, `onesOf_xor`, `ones_swap`, `ones_bytes`.
-/
import Mathlib.Algebra.BigOperators.Intervals
import Simulators.Lib.Bits

namespace Simulators

open Finset

/-- The ones among the `k` low bits of `n`. -/
def ones (k n : ℕ) : ℕ := ∑ i ∈ range k, (n.testBit i).toNat

theorem ones_succ (k n : ℕ) : ones (k + 1) n = ones k n + (n.testBit k).toNat := sum_range_succ _ k

/-- The ones of two neighbouring fields. -/
theorem ones_add (j k n : ℕ) : ones (j + k) n = ones j n + ones k (n >>> j) := by
  simp only [ones, sum_range_add, Nat.testBit_shiftRight]

theorem ones_congr {k m n : ℕ} (h : ∀ i < k, m.testBit i = n.testBit i) : ones k m = ones k n := by
  apply sum_congr rfl
  intro i hi
  rw [h i (mem_range.mp hi)]

/-- The bits shifted in are zero. -/
theorem ones_shiftLeft (j k n : ℕ) : ones (j + k) (n <<< j) = ones k n := by
  have hlow : ones j (n <<< j) = ones j 0 := by
    apply ones_congr
    intro i hi
    rw [Nat.testBit_shiftLeft, Nat.zero_testBit, decide_eq_false (by omega), Bool.false_and]
  have hzero : ones j 0 = 0 := by simp [ones]
  rw [ones_add, hlow, hzero, Nat.zero_add, Nat.shiftLeft_shiftRight]

/-- Bits from `k` on do not count. -/
theorem ones_mod {k j : ℕ} (h : k ≤ j) (n : ℕ) : ones k (n % 2 ^ j) = ones k n := by
  apply ones_congr
  intro i hi
  rw [Nat.testBit_mod_two_pow, decide_eq_true (by omega), Bool.true_and]

theorem ones_xor (k m n : ℕ) : ones k (m ^^^ n) % 2 = (ones k m + ones k n) % 2 := by
  induction k with
  | zero => rfl
  | succ k ih =>
    have hbit : ((m ^^^ n).testBit k).toNat % 2 = ((m.testBit k).toNat + (n.testBit k).toNat) % 2 := by
      rw [Nat.testBit_xor]
      cases m.testBit k <;> cases n.testBit k <;> rfl
    rw [ones_succ, ones_succ, ones_succ]
    omega

/-! ### Words and strings -/

/-- The two bytes of a word. -/
theorem ones_bytes (w : UInt16) : ones 8 (loByte w).toNat + ones 8 (hiByte w).toNat = ones 16 w.toNat := by
  have hlo : ones 8 (loByte w).toNat = ones 8 w.toNat := ones_congr fun i hi => testBit_loByte w hi
  have hhi : ones 8 (hiByte w).toNat = ones 8 (w.toNat >>> 8) := by
    apply ones_congr
    intro i hi
    rw [testBit_hiByte w hi, Nat.testBit_shiftRight, Nat.add_comm]
  rw [hlo, hhi, ← ones_add 8 8]

/-- Exchanging the bytes of a word keeps its ones. -/
theorem ones_swap (w : UInt16) : ones 16 ((w <<< 8) ||| (w >>> 8)).toNat = ones 16 w.toNat := by
  have hbit : ∀ i < 16, ((w <<< 8) ||| (w >>> 8)).toNat.testBit i =
      ((decide (8 ≤ i) && w.toNat.testBit (i - 8)) || w.toNat.testBit (8 + i)) := by
    intro i hi
    rw [UInt16.toNat_or, UInt16.toNat_shiftLeft, UInt16.toNat_shiftRight, Nat.testBit_or,
      show UInt16.toNat 8 % 16 = 8 from rfl, Nat.testBit_mod_two_pow, Nat.testBit_shiftLeft, Nat.testBit_shiftRight,
      decide_eq_true hi, Bool.true_and]
  have hhigh : ∀ i, 8 ≤ i → w.toNat.testBit (8 + i) = false := by
    intro i hi
    exact Nat.testBit_lt_two_pow (w.toNat_lt.trans_le (Nat.pow_le_pow_right (by decide) (by omega)))
  have hlow : ones 8 ((w <<< 8) ||| (w >>> 8)).toNat = ones 8 (w.toNat >>> 8) := by
    apply ones_congr
    intro i hi
    rw [hbit i (by omega), decide_eq_false (by omega), Nat.testBit_shiftRight, Bool.false_and, Bool.false_or]
  have hup : ones 8 (((w <<< 8) ||| (w >>> 8)).toNat >>> 8) = ones 8 w.toNat := by
    apply ones_congr
    intro i hi
    rw [Nat.testBit_shiftRight, hbit (8 + i) (by omega), decide_eq_true (by omega), hhigh (8 + i) (by omega),
      Bool.true_and, Bool.or_false, Nat.add_sub_cancel_left]
  rw [ones_add 8 8, hlow, hup, Nat.add_comm, ← ones_add 8 8]

/-- The ones of a byte string. -/
def onesOf (b : Bytes) : ℕ := (b.map fun x => ones 8 x.toNat).sum

@[simp] theorem onesOf_nil : onesOf [] = 0 := rfl

theorem onesOf_cons (x : UInt8) (b : Bytes) : onesOf (x :: b) = ones 8 x.toNat + onesOf b := by
  simp only [onesOf, List.map_cons, List.sum_cons]

theorem onesOf_append (a b : Bytes) : onesOf (a ++ b) = onesOf a + onesOf b := by
  simp only [onesOf, List.map_append, List.sum_append]

/-- Strings of one length, byte by byte. -/
theorem onesOf_xor {a b : Bytes} (h : a.length = b.length) :
    onesOf (List.zipWith (· ^^^ ·) a b) % 2 = (onesOf a + onesOf b) % 2 := by
  induction a generalizing b with
  | nil =>
    have hb : b = [] := List.length_eq_zero_iff.mp h.symm
    rw [hb]
    rfl
  | cons x a ih =>
    obtain ⟨y, b, rfl⟩ := List.exists_cons_of_length_eq_add_one h.symm
    have htail := ih (Nat.succ.inj h)
    have hhead := ones_xor 8 x.toNat y.toNat
    rw [List.zipWith_cons_cons, onesOf_cons, onesOf_cons, onesOf_cons, UInt8.toNat_xor]
    omega

end Simulators
