/-
# Words of 32 bits as bytes

Registers carry byte streams as 32-bit words, most significant byte first, or
with the order of halfwords, bytes or bits turned round inside of a word.

Key theorems: `testBit_ofBe`, `ofBe_xor`, `beBytes_beWord`, `beWord_beBytes`, `rotate16_rotate16`, `reverseBits_reverseBits`.
-/
import Mathlib.Data.List.Induction
import Mathlib.Tactic.Common
import Simulators.Lib.Blocks

namespace Simulators

theorem toBe_ofBe (b : Bytes) : toBe b.length (ofBe b) = b := by
  induction b using List.reverseRecOn with
  | nil => rfl
  | append_singleton b x ih =>
    have hx := x.toNat_lt
    have hdiv : (ofBe b * 256 + x.toNat) / 256 = ofBe b := by omega
    have hmod : (ofBe b * 256 + x.toNat) % 256 = x.toNat := by omega
    rw [List.length_append, List.length_singleton, toBe, ofBe_append, hdiv, hmod, ih, UInt8.ofNat_toNat]

theorem ofBe_lt (b : Bytes) : ofBe b < 256 ^ b.length := by
  have h := ofBe_toBe b.length (ofBe b)
  rw [toBe_ofBe] at h
  rw [h]
  exact Nat.mod_lt _ (Nat.pow_pos (by decide))

theorem toBe_mod : ∀ n v : ℕ, toBe n (v % 256 ^ n) = toBe n v
  | 0, _ => rfl
  | n + 1, v => by
    have hdiv : v % 256 ^ (n + 1) / 256 = v / 256 % 256 ^ n := by
      rw [Nat.pow_succ', Nat.mod_mul, Nat.add_mul_div_left _ _ (by decide), Nat.div_eq_of_lt (Nat.mod_lt _ (by decide)),
        Nat.zero_add]
    have hmod : v % 256 ^ (n + 1) % 256 = v % 256 := Nat.mod_mod_of_dvd _ ⟨256 ^ n, Nat.pow_succ'⟩
    rw [toBe, hdiv, hmod, toBe_mod n, toBe]

/-- The low bytes come last. -/
theorem toBe_drop (m : ℕ) : ∀ n v : ℕ, (toBe (m + n) v).drop m = toBe n v
  | 0, v => List.drop_of_length_le (Nat.le_of_eq (toBe_length m v))
  | n + 1, v => by
    have hlen : m ≤ (toBe (m + n) (v / 256)).length := by
      rw [toBe_length]
      exact Nat.le_add_right m n
    rw [← Nat.add_assoc, toBe, List.drop_append_of_le_length hlen, toBe_drop m n, toBe]

theorem ofBe_cons (x : UInt8) (b : Bytes) : ofBe (x :: b) = 256 ^ b.length * x.toNat + ofBe b := by
  induction b using List.reverseRecOn with
  | nil => simp [ofBe]
  | append_singleton b y ih =>
    rw [← List.cons_append, ofBe_append, ofBe_append, ih, List.length_append, List.length_singleton, Nat.pow_succ,
      Nat.add_mul, Nat.mul_right_comm, Nat.add_assoc]

/-! ### The bits of a byte string -/

theorem testBit_ofBe_cons (x : UInt8) (b : Bytes) (j : ℕ) :
    (ofBe (x :: b)).testBit j =
      if j < 8 * b.length then (ofBe b).testBit j else x.toNat.testBit (j - 8 * b.length) := by
  have hpow : 256 ^ b.length = 2 ^ (8 * b.length) := (Nat.pow_mul 2 8 _).symm
  have hlt : ofBe b < 2 ^ (8 * b.length) := hpow ▸ ofBe_lt b
  rw [ofBe_cons, hpow, Nat.testBit_two_pow_mul_add _ hlt]

/-- Bit `j`, from the right, is in byte `j / 8` from the right. -/
theorem testBit_ofBe : ∀ (b : Bytes) {j : ℕ}, j < 8 * b.length →
    (ofBe b).testBit j = ((b[b.length - 1 - j / 8]?).getD 0).toNat.testBit (j % 8)
  | [], _, h => absurd h (by simp)
  | x :: b, j, h => by
    rw [List.length_cons] at h
    rw [testBit_ofBe_cons]
    by_cases hj : j < 8 * b.length
    · have hidx : (x :: b).length - 1 - j / 8 = (b.length - 1 - j / 8) + 1 := by
        rw [List.length_cons]
        omega
      rw [if_pos hj, hidx, List.getElem?_cons_succ, testBit_ofBe b hj]
    · have hidx : (x :: b).length - 1 - j / 8 = 0 := by
        rw [List.length_cons]
        omega
      have hmod : j - 8 * b.length = j % 8 := by omega
      rw [if_neg hj, hidx, hmod, List.getElem?_cons_zero, Option.getD_some]

theorem ofBe_xor : ∀ {a b : Bytes}, a.length = b.length →
    ofBe (List.zipWith (· ^^^ ·) a b) = ofBe a ^^^ ofBe b
  | [], [], _ => rfl
  | x :: a, y :: b, h => by
    have hlen : a.length = b.length := Nat.succ.inj h
    have hz : (List.zipWith (· ^^^ ·) a b).length = b.length := by rw [List.length_zipWith, hlen, Nat.min_self]
    apply Nat.eq_of_testBit_eq
    intro j
    rw [List.zipWith_cons_cons, Nat.testBit_xor, testBit_ofBe_cons, testBit_ofBe_cons, testBit_ofBe_cons, hz, hlen,
      ofBe_xor hlen]
    by_cases hj : j < 8 * b.length
    · rw [if_pos hj, if_pos hj, if_pos hj, Nat.testBit_xor]
    · rw [if_neg hj, if_neg hj, if_neg hj, UInt8.toNat_xor, Nat.testBit_xor]
  | [], _ :: _, h => absurd h (by simp)
  | _ :: _, [], h => absurd h (by simp)

/-! ### Words -/

/-- `to_be_bytes`. -/
def beBytes (w : UInt32) : Bytes := toBe 4 w.toNat

/-- `from_be_bytes`. -/
def beWord (b : Bytes) : UInt32 := UInt32.ofNat (ofBe b)

@[simp] theorem beBytes_length (w : UInt32) : (beBytes w).length = 4 := toBe_length 4 _

@[simp] theorem beWord_beBytes (w : UInt32) : beWord (beBytes w) = w := by
  apply UInt32.toNat_inj.mp
  rw [beWord, beBytes, ofBe_toBe, UInt32.toNat_ofNat']
  have := w.toNat_lt
  omega

theorem beBytes_beWord {b : Bytes} (h : b.length = 4) : beBytes (beWord b) = b := by
  have hlt : ofBe b < 2 ^ 32 := by
    have hle := ofBe_lt b
    rw [h] at hle
    exact Nat.lt_of_lt_of_le hle (by decide)
  rw [beBytes, beWord, UInt32.toNat_ofNat', Nat.mod_eq_of_lt hlt, ← h, toBe_ofBe]

theorem flatMap_beBytes_length (ws : List UInt32) : (ws.flatMap beBytes).length = 4 * ws.length := by
  induction ws with
  | nil => rfl
  | cons w ws ih =>
    rw [List.flatMap_cons, List.length_append, beBytes_length, ih, List.length_cons]
    omega

/-- `to_le_bytes`. -/
def leBytes (w : UInt32) : Bytes := (beBytes w).reverse

/-- `from_le_bytes`. -/
def leWord (b : Bytes) : UInt32 := beWord b.reverse

@[simp] theorem leBytes_length (w : UInt32) :
    (leBytes w).length = 4 := by rw [leBytes, List.length_reverse, beBytes_length]

@[simp] theorem leWord_leBytes (w : UInt32) : leWord (leBytes w) = w := by
  rw [leWord, leBytes, List.reverse_reverse, beWord_beBytes]

/-- Word `i` of a byte string, least significant byte first. -/
def leWordAt (b : Bytes) (i : ℕ) : UInt32 := leWord ((b.drop (4 * i)).take 4)

@[simp] theorem leWordAt_zero (w : UInt32) (b : Bytes) : leWordAt (leBytes w ++ b) 0 = w := by
  rw [leWordAt, Nat.mul_zero, List.drop_zero, List.take_left' (leBytes_length w), leWord_leBytes]

@[simp] theorem leWordAt_succ (w : UInt32) (b : Bytes) (i : ℕ) : leWordAt (leBytes w ++ b) (i + 1) = leWordAt b i := by
  rw [leWordAt, leWordAt, Nat.mul_succ, Nat.add_comm, ← List.drop_drop, List.drop_left' (leBytes_length w)]

/-- The words of a byte string of whole words carry it. -/
theorem beWords_chunks {b : Bytes} {n : ℕ} (h : b.length = 4 * n) :
    ((chunks 4 b).map beWord).length = n ∧ ((chunks 4 b).map beWord).flatMap beBytes = b := by
  obtain ⟨bs, rfl, hbs⟩ := exists_flat n b h
  rw [chunks_flat (by decide), List.map_map, List.length_map, List.flatMap_map]
  refine ⟨hbs, ?_⟩
  have hid : (fun b : ByteArr 4 => beBytes ((beWord ∘ (·.bytes)) b)) = fun b => b.bytes :=
    funext fun b => beBytes_beWord b.size
  rw [hid]
  rfl

/-- `rotate_right(16)`. -/
def rotate16 (w : UInt32) : UInt32 := (w >>> 16) ||| (w <<< 16)

@[simp] theorem rotate16_rotate16 (w : UInt32) : rotate16 (rotate16 w) = w := by
  apply UInt32.eq_of_toBitVec_eq
  ext i hi
  simp [rotate16]
  grind

/-- `reverse_bits` of a byte. -/
def reverseBits (b : UInt8) : UInt8 := ⟨b.toBitVec.reverse⟩

@[simp] theorem reverseBits_reverseBits (b : UInt8) : reverseBits (reverseBits b) = b := by
  apply UInt8.eq_of_toBitVec_eq
  exact BitVec.reverse_reverse_eq

end Simulators
