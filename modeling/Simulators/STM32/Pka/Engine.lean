/-
# STM32 PKA: the arithmetic engine

`pka/mod.rs`: the numbers come and go as big-endian byte strings, the result
as long as the modulus. The curves of RustCrypto are parameters.
-/
import Mathlib.Data.Nat.Log
import Simulators.Lib.Limbs

namespace Simulators
namespace STM32
namespace Pka

inductive Curve
  | p256
  | p384
deriving DecidableEq, Repr

def Curve.byteLen : Curve → ℕ
  | .p256 => 32
  | .p384 => 48

inductive Status
  | idle
  | ok
  | error
deriving DecidableEq, Repr

structure Engine where
  lastStatus : Status
deriving DecidableEq, Repr

/-- X and Y, big-endian. -/
structure Point where
  x : Bytes
  y : Bytes
deriving DecidableEq, Repr

/-- What the simulator takes from `p256` and `p384`. -/
structure Crates where
  eccMul : Curve → Bytes → Bytes → Bytes → Option Point
  verifyPrehash : Curve → Bytes → Bytes → Bytes → Bytes → Bytes → Bool

/-- `BigUint::to_bytes_be`: no leading zeros, one zero byte for 0. -/
def toBytesBe (v : ℕ) : Bytes := toBe (Nat.log 256 v + 1) v

def padBe (v n : ℕ) : Bytes :=
  let out := toBytesBe v
  if out.length < n then List.replicate (n - out.length) 0 ++ out else out

namespace Engine

def new : Engine := ⟨.idle⟩

def eccMul (C : Crates) (curve : Curve) (k px py : Bytes) : Option Point × Engine :=
  let result :=
    if k.length ≠ curve.byteLen ∨ px.length ≠ curve.byteLen ∨ py.length ≠ curve.byteLen then none
    else C.eccMul curve k px py
  (result, ⟨if result.isSome then .ok else .error⟩)

/-- `base ^ exp mod modulus`. -/
def modExp (base exp modulus : Bytes) : Bytes × Engine :=
  let result := if ofBe modulus = 0 then 0 else ofBe base ^ ofBe exp % ofBe modulus
  (padBe result modulus.length, ⟨.ok⟩)

/-- `(a + b) mod n`. -/
def modAdd (a b n : Bytes) : Bytes × Engine :=
  if ofBe n = 0 then (List.replicate n.length 0, ⟨.error⟩)
  else (padBe ((ofBe a + ofBe b) % ofBe n) n.length, ⟨.ok⟩)

/-- `(a - b) mod n`. -/
def modSub (a b n : Bytes) : Bytes × Engine :=
  if ofBe n = 0 then (List.replicate n.length 0, ⟨.error⟩)
  else
    let r :=
      if ofBe a ≥ ofBe b then (ofBe a - ofBe b) % ofBe n
      else
        let m := (ofBe b - ofBe a) % ofBe n
        if m = 0 then m else ofBe n - m
    (padBe r n.length, ⟨.ok⟩)

/-- `(a * b) mod n`. -/
def modMul (a b n : Bytes) : Bytes × Engine :=
  if ofBe n = 0 then (List.replicate n.length 0, ⟨.error⟩)
  else (padBe (ofBe a * ofBe b % ofBe n) n.length, ⟨.ok⟩)

end Engine

/-! ### The bytes of a result -/

theorem toBe_zero : ∀ n : ℕ, toBe n 0 = List.replicate n 0
  | 0 => rfl
  | n + 1 => by
    rw [toBe, Nat.zero_div, toBe_zero n, List.replicate_succ']
    rfl

/-- A number that fits is padded to its bytes. -/
theorem padBe_eq {v n : ℕ} (hn : 0 < n) (h : v < 256 ^ n) : padBe v n = toBe n v := by
  have hlog : Nat.log 256 v + 1 ≤ n := by
    by_cases h0 : v = 0
    · subst h0
      rw [Nat.log_zero_right]
      exact hn
    · exact Nat.log_lt_of_lt_pow h0 h
  have hlt : v < 256 ^ (Nat.log 256 v + 1) := Nat.lt_pow_succ_log_self (by decide) v
  have hsplit : toBe n v = List.replicate (n - (Nat.log 256 v + 1)) 0 ++ toBytesBe v := by
    have hadd := toBe_add (n - (Nat.log 256 v + 1)) (Nat.log 256 v + 1) v
    rwa [Nat.sub_add_cancel hlog, Nat.div_eq_of_lt hlt, toBe_zero] at hadd
  rw [padBe, hsplit]
  simp only [toBytesBe, toBe_length]
  by_cases hshort : Nat.log 256 v + 1 < n
  · rw [if_pos hshort]
  · rw [if_neg hshort, Nat.sub_eq_zero_of_le (by omega), List.replicate_zero, List.nil_append]

/-- The residue of a difference, as the engine forms it. -/
theorem sub_residue (a b : ℕ) {n : ℕ} (hn : n ≠ 0) :
    (if a ≥ b then (a - b) % n else if (b - a) % n = 0 then (b - a) % n else n - (b - a) % n) =
      (((a : ℤ) - b) % n).toNat := by
  have hpos : (n : ℤ) ≠ 0 := by exact_mod_cast hn
  by_cases h : a ≥ b
  · have hcast : (a : ℤ) - b = ((a - b : ℕ) : ℤ) := by omega
    rw [if_pos h, hcast, ← Int.natCast_mod, Int.toNat_natCast]
  · have hcast : (a : ℤ) - b = -((b - a : ℕ) : ℤ) := by omega
    rw [if_neg h, hcast]
    generalize b - a = d
    have hlt : d % n < n := Nat.mod_lt d (Nat.pos_of_ne_zero hn)
    have hneg : (-(d : ℤ)) % n = if d % n = 0 then 0 else (n : ℤ) - (d % n : ℕ) := by
      by_cases h0 : d % n = 0
      · rw [if_pos h0]
        exact Int.emod_eq_zero_of_dvd (Int.dvd_neg.mpr (by exact_mod_cast Nat.dvd_of_mod_eq_zero h0))
      · rw [if_neg h0]
        have hd : -(d : ℤ) = ((n : ℤ) - (d % n : ℕ)) + n * (-(d / n : ℕ) - 1) := by
          have := Nat.div_add_mod d n
          have hz : (n : ℤ) * (d / n : ℕ) + (d % n : ℕ) = d := by exact_mod_cast this
          rw [← hz]
          ring
        rw [hd, Int.add_mul_emod_self_left]
        exact Int.emod_eq_of_lt (by omega) (by omega)
    rw [hneg]
    by_cases h0 : d % n = 0
    · rw [if_pos h0, if_pos h0, h0]
      rfl
    · rw [if_neg h0, if_neg h0]
      omega

end Pka
end STM32
end Simulators
