/-
# Byte-addressed memory

A memory maps addresses to bytes, and some addresses are not backed by RAM: a
transfer that touches one of them fails as a whole. Transfers are byte strings
at an address (`readPhys`, `writePhys`); a store changes the bytes of its range
and no others.

Key theorems: `load_store_same`, `load_store_disjoint`, `load_append`.
-/
import Simulators.Lib.Bytes

namespace Simulators

structure Memory where
  bytes : ℕ → UInt8
  mapped : ℕ → Bool

/-- Two ranges, each an address and a length, with no byte in common. -/
def Apart (p n q k : ℕ) : Prop := p + n ≤ q ∨ q + k ≤ p

namespace Apart

variable {p n q k : ℕ}

theorem swap (h : Apart p n q k) : Apart q k p n := Or.symm h

theorem shrink {k' : ℕ} (h : Apart p n q k) (hk : k' ≤ k) : Apart p n q k' := by
  rcases h with h | h
  · exact .inl h
  · exact .inr (by omega)

end Apart

namespace Memory

variable (m : Memory)

def backed (p n : ℕ) : Bool := (List.range n).all fun i => m.mapped (p + i)

def load (p n : ℕ) : Bytes := (List.range n).map fun i => m.bytes (p + i)

def store (p : ℕ) (b : Bytes) : Memory :=
  { m with bytes := fun a => if p ≤ a ∧ a < p + b.length then (b[a - p]?).getD 0 else m.bytes a }

def readPhys (p n : ℕ) : Option Bytes := if m.backed p n then some (m.load p n) else none

def writePhys (p : ℕ) (b : Bytes) : Option Memory := if m.backed p b.length then some (m.store p b) else none

@[simp] theorem load_length (p n : ℕ) : (m.load p n).length = n := by simp [load]

@[simp] theorem backed_store (p n q : ℕ) (b : Bytes) : (m.store q b).backed p n = m.backed p n := rfl

theorem backed_prefix {p n k : ℕ} (h : m.backed p n = true) (hk : k ≤ n) : m.backed p k = true := by
  simp only [backed, List.all_eq_true, List.mem_range] at h ⊢
  exact fun i hi => h i (Nat.lt_of_lt_of_le hi hk)

theorem load_append (p a b : ℕ) : m.load p (a + b) = m.load p a ++ m.load (p + a) b := by
  simp only [load, List.range_add, List.map_append, List.map_map, Function.comp_def, Nat.add_assoc]

theorem load_take {p n k : ℕ} (hk : k ≤ n) : (m.load p n).take k = m.load p k := by
  obtain ⟨d, rfl⟩ := Nat.exists_eq_add_of_le hk
  rw [load_append, List.take_left' (m.load_length p k)]

theorem store_nil (p : ℕ) : m.store p [] = m := by
  have hbytes : (m.store p []).bytes = m.bytes := by
    funext a
    apply if_neg
    rw [List.length_nil]
    omega
  exact congrArg (fun bytes => { m with bytes := bytes }) hbytes

theorem load_store_same (p : ℕ) (b : Bytes) : (m.store p b).load p b.length = b := by
  apply List.ext_getElem
  · exact load_length _ p b.length
  · intro i h1 h2
    have hi : p ≤ p + i ∧ p + i < p + b.length := ⟨Nat.le_add_right p i, Nat.add_lt_add_left h2 p⟩
    simp only [load, store, List.getElem_map, List.getElem_range, if_pos hi, Nat.add_sub_cancel_left,
      List.getElem?_eq_getElem h2, Option.getD_some]

theorem load_store_disjoint {p n q : ℕ} {b : Bytes} (h : Apart p n q b.length) :
    (m.store q b).load p n = m.load p n := by
  refine List.map_congr_left fun i hi => ?_
  have hlt := List.mem_range.mp hi
  have hout : ¬ (q ≤ p + i ∧ p + i < q + b.length) := by
    rcases h with h | h <;> omega
  exact if_neg hout

end Memory

end Simulators
