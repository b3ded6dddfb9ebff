/-
# Layouts of command bodies

A documented wire layout is a list of fields, one after another. A body is a
sentence of it when it is one part for each field and nothing else. Handlers
read bodies by position: a successful read at a position says how the body
goes on from there (`index_eq_ok_drop`, `slice_eq_ok_drop`), so that the
reads of a handler, one after another, put the body together again.

Key definitions: `Field`, `Field.Is`, `Sentence`.
-/
import Simulators.Lib.Handler

namespace Simulators

/-! ### Sentences -/

inductive Field
  /-- Any bytes, so many of them. -/
  | bytes (n : ℕ)
  /-- These bytes. -/
  | const (c : Bytes)
  /-- One byte that is not zero. -/
  | positive
  /-- A length of two bytes, the high one first, and as many bytes. -/
  | counted
deriving DecidableEq, Repr

/-- A part of a body is the field. -/
def Field.Is : Field → Bytes → Prop
  | .bytes n, v => v.length = n
  | .const c, v => v = c
  | .positive, v => ∃ x, v = [x] ∧ x ≠ 0
  | .counted, v => ∃ hi lo data, v = hi :: lo :: data ∧ data.length = be16 hi lo

/-- One part for each field, nothing missing and nothing after them. -/
def Sentence : List Field → Bytes → Prop
  | [], b => b = []
  | f :: fs, b => ∃ v rest, b = v ++ rest ∧ f.Is v ∧ Sentence fs rest

section Sentence

variable {fs : List Field} {b v rest : Bytes}

@[simp] theorem sentence_nil : Sentence [] b ↔ b = [] := Iff.rfl

theorem sentence_bytes_append {n : ℕ} (h : v.length = n) : Sentence (.bytes n :: fs) (v ++ rest) ↔
    Sentence fs rest := by
  constructor
  · rintro ⟨w, r, he, hw, hr⟩
    obtain ⟨-, rfl⟩ := List.append_inj he (h.trans hw.symm)
    exact hr
  · exact fun hr => ⟨v, rest, rfl, h, hr⟩

theorem sentence_const_append {c : Bytes} (h : v.length = c.length) :
    Sentence (.const c :: fs) (v ++ rest) ↔ v = c ∧ Sentence fs rest := by
  constructor
  · rintro ⟨w, r, he, rfl, hr⟩
    obtain ⟨rfl, rfl⟩ := List.append_inj he h
    exact ⟨rfl, hr⟩
  · exact fun hr => ⟨v, rest, rfl, hr.1, hr.2⟩

@[simp] theorem sentence_byte {x : UInt8} : Sentence (.bytes 1 :: fs) (x :: rest) ↔ Sentence fs rest :=
  sentence_bytes_append (v := [x]) rfl

@[simp] theorem sentence_const_byte {c x : UInt8} : Sentence (.const [c] :: fs) (x :: rest) ↔
    x = c ∧ Sentence fs rest := by
  have h : Sentence (.const [c] :: fs) ([x] ++ rest) ↔ [x] = [c] ∧ Sentence fs rest := sentence_const_append rfl
  rwa [List.singleton_inj] at h

@[simp] theorem sentence_positive {x : UInt8} : Sentence (.positive :: fs) (x :: rest) ↔ x ≠ 0 ∧ Sentence fs rest := by
  constructor
  · rintro ⟨w, r, he, ⟨y, rfl, hy⟩, hr⟩
    obtain ⟨rfl, rfl⟩ := List.cons.inj he
    exact ⟨hy, hr⟩
  · exact fun hr => ⟨[x], rest, rfl, ⟨x, rfl, hr.1⟩, hr.2⟩

theorem sentence_counted_append {hi lo : UInt8} {data : Bytes} (h : data.length = be16 hi lo) :
    Sentence (.counted :: fs) (hi :: lo :: (data ++ rest)) ↔ Sentence fs rest := by
  constructor
  · rintro ⟨w, r, he, ⟨hi', lo', data', rfl, hl⟩, hr⟩
    simp only [List.cons_append, List.cons.injEq] at he
    obtain ⟨rfl, rfl, he⟩ := he
    obtain ⟨-, rfl⟩ := List.append_inj he (h.trans hl.symm)
    exact hr
  · exact fun hr => ⟨hi :: lo :: data, rest, rfl, ⟨hi, lo, data, rfl, h⟩, hr⟩

/-- A body with as many bytes as a field, and the rest. -/
theorem sentence_bytes {n : ℕ} : Sentence (.bytes n :: fs) b ↔ n ≤ b.length ∧ Sentence fs (b.drop n) := by
  constructor
  · rintro ⟨w, r, rfl, rfl, hr⟩
    refine ⟨by simp, ?_⟩
    rwa [List.drop_left]
  · rintro ⟨hn, hr⟩
    rw [← List.take_append_drop n b]
    exact (sentence_bytes_append (List.length_take_of_le hn)).mpr hr

end Sentence

/-! ### Reading a body by position -/

theorem be16_inj {hi lo hi' lo' : UInt8} : be16 hi lo = be16 hi' lo' ↔ hi = hi' ∧ lo = lo' := by
  have h1 := lo.toNat_lt
  have h2 := lo'.toNat_lt
  rw [← UInt8.toNat_inj, ← UInt8.toNat_inj, be16, be16]
  omega

namespace Handler

variable {ε : Type}

theorem index_eq_ok_drop {α : Type} {b : List α} {i : ℕ} {a : α} :
    (index b i : Handler ε α) = .ok a ↔ b.drop i = a :: b.drop (i + 1) := by
  rw [index_eq_ok]
  constructor
  · intro h
    obtain ⟨hi, rfl⟩ := List.getElem?_eq_some_iff.mp h
    exact List.drop_eq_getElem_cons hi
  · intro h
    rw [← List.head?_drop, h, List.head?_cons]

theorem slice_eq_ok_drop {b c : Bytes} {i j : ℕ} :
    (slice b i j : Handler ε Bytes) = .ok c ↔ i ≤ j ∧ j ≤ b.length ∧ c.length = j - i ∧ b.drop i = c ++ b.drop j := by
  rw [slice_eq_ok]
  constructor
  · rintro ⟨⟨hi, hj⟩, rfl⟩
    refine ⟨hi, hj, by rw [List.length_take, List.length_drop]; omega, ?_⟩
    conv_rhs => rw [show j = i + (j - i) by omega, ← List.drop_drop]
    rw [show i + (j - i) - i = j - i by omega, List.take_append_drop]
  · rintro ⟨hi, hj, hc, he⟩
    exact ⟨⟨hi, hj⟩, by rw [he, List.take_left' hc]⟩

/-! ### Results that are only renamed -/

theorem map_eq_ok {α β : Type} {f : α → β} {h : Handler ε α} {b : β} : h.map f = .ok b ↔ ∃ a, h = .ok a ∧ f a = b := by
  rcases h with e | a <;> simp [Except.map]

theorem refuses_map {α β : Type} {Q : ε → Prop} {f : α → β} {h : Handler ε α} :
    Refuses Q (h.map f) ↔ Refuses Q h := by
  rcases h with (p | e) | a <;> simp [Except.map, Refuses, refuse]

theorem noPanic_map {α β : Type} {f : α → β} {h : Handler ε α} : NoPanic (h.map f) ↔ NoPanic h := by
  rcases h with (p | e) | a <;> simp [Except.map, NoPanic]

end Handler

end Simulators
