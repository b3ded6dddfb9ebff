/-
# Byte strings

The simulators exchange byte strings and keep fixed-size byte arrays. A byte
string is a list of bytes, a Rust `[u8; n]` is a `ByteArr n`, which carries
its length. Integers are read and written big-endian (`ofBe`, `toBe`) or
little-endian (`ofLe`, `toLe`).

Key definitions: `Bytes`, `ByteArr`, `toArr`, `ofBe`, `toBe`, `ofLe`, `toLe`, `xorArr`.
-/
import Mathlib.Algebra.Group.Nat.Defs
import Mathlib.Data.Nat.Notation
import Mathlib.Tactic.Common

namespace Simulators

/-- A byte string, a Rust `Vec<u8>` or `&[u8]`. -/
abbrev Bytes := List UInt8

/-- A fixed-size byte array, a Rust `[u8; n]`. -/
@[ext] structure ByteArr (n : ℕ) where
  bytes : Bytes
  size : bytes.length = n
deriving DecidableEq

/-- `[0u8; n]`. -/
def zeroArr (n : ℕ) : ByteArr n := ⟨List.replicate n 0, List.length_replicate⟩

/-- `b` as a fixed-size array, if it has that length. -/
def toArr (n : ℕ) (b : Bytes) : Option (ByteArr n) := if h : b.length = n then some ⟨b, h⟩ else none

@[simp] theorem toArr_bytes {n : ℕ} (a : ByteArr n) : toArr n a.bytes = some a := dif_pos a.size

/-! ### Integers -/

/-- The value of a byte string, most significant byte first. -/
def ofBe (b : Bytes) : ℕ := b.foldl (fun acc x => acc * 256 + x.toNat) 0

/-- The `n` least significant bytes of `v`, most significant first. -/
def toBe : ℕ → ℕ → Bytes
  | 0, _ => []
  | n + 1, v => toBe n (v / 256) ++ [UInt8.ofNat (v % 256)]

@[simp] theorem toBe_length : ∀ n v : ℕ, (toBe n v).length = n
  | 0, _ => rfl
  | n + 1, v => by simp [toBe, toBe_length n]

theorem ofBe_append (b : Bytes) (x : UInt8) : ofBe (b ++ [x]) = ofBe b * 256 + x.toNat := by simp [ofBe]

theorem ofBe_toBe : ∀ n v : ℕ, ofBe (toBe n v) = v % 256 ^ n
  | 0, v => by simp [toBe, ofBe, Nat.mod_one]
  | n + 1, v => by
    have hx : (UInt8.ofNat (v % 256)).toNat = v % 256 := by simp
    rw [toBe, ofBe_append, ofBe_toBe n, hx, Nat.pow_succ', Nat.mod_mul]
    omega

/-- The value of a byte string, least significant byte first. -/
def ofLe (b : Bytes) : ℕ := ofBe b.reverse

/-- The `n` least significant bytes of `v`, least significant first. -/
def toLe (n v : ℕ) : Bytes := (toBe n v).reverse

@[simp] theorem toLe_length (n v : ℕ) : (toLe n v).length = n := by simp [toLe]

theorem ofLe_toLe (n v : ℕ) : ofLe (toLe n v) = v % 256 ^ n := by simp [ofLe, toLe, ofBe_toBe]

/-- `((hi as usize) << 8) | lo`. -/
def be16 (hi lo : UInt8) : ℕ := hi.toNat * 256 + lo.toNat

theorem be16_lt (hi lo : UInt8) : be16 hi lo < 65536 := by
  have h1 := hi.toNat_lt
  have h2 := lo.toNat_lt
  simp only [be16]
  omega

/-- The high byte of a 16-bit word, `(w >> 8) as u8`. -/
def hiByte (w : UInt16) : UInt8 := (w >>> 8).toUInt8

/-- The low byte of a 16-bit word, `w as u8`. -/
def loByte (w : UInt16) : UInt8 := w.toUInt8

/-- The bytes of a word, put together again. -/
theorem be16_bytes (w : UInt16) : be16 (hiByte w) (loByte w) = w.toNat := by
  have h := w.toNat_lt
  simp only [be16, hiByte, loByte, UInt16.toNat_toUInt8, UInt16.toNat_shiftRight, Nat.shiftRight_eq_div_pow]
  rw [show UInt16.toNat 8 % 16 = 8 from rfl]
  omega

/-! ### Exclusive or -/

/-- Bytewise exclusive or. -/
def xorArr {n : ℕ} (a b : ByteArr n) : ByteArr n :=
  ⟨List.zipWith (· ^^^ ·) a.bytes b.bytes, by simp [a.size, b.size]⟩

theorem zipWith_xor_cancel : ∀ a b : Bytes, a.length = b.length →
    List.zipWith (· ^^^ ·) (List.zipWith (· ^^^ ·) a b) b = a
  | [], [], _ => rfl
  | x :: a, y :: b, h => by
    simp only [List.length_cons, Nat.succ.injEq] at h
    simp only [List.zipWith_cons_cons, zipWith_xor_cancel a b h, UInt8.xor_assoc, UInt8.xor_self, UInt8.xor_zero]
  | [], _ :: _, h => by simp at h
  | _ :: _, [], h => by simp at h

/-- Adding the same array twice changes nothing. -/
@[simp] theorem xorArr_cancel {n : ℕ} (a b : ByteArr n) : xorArr (xorArr a b) b = a := by
  apply ByteArr.ext
  exact zipWith_xor_cancel a.bytes b.bytes (a.size.trans b.size.symm)

end Simulators
