/-
# Splitting data into blocks, cipher block chaining, method 2 padding

`chunks n` is the slice method `chunks(n)`: pieces of `n` bytes, the last one
possibly shorter. `cbcEncrypt` and `cbcDecrypt` are CBC over a list of blocks
for any block function, and undo each other when the block functions do
(`cbcDecrypt_cbcEncrypt`). `padM2` is the padding of ISO 9797-1 method 2 to a
multiple of `n` bytes; `unpadM2` strips it (`unpadM2_padM2`). There are only
finitely many blocks, so a block function that can be undone also undoes
(`undoes_of_undone`).
-/
import Mathlib.Data.Finite.Prod
import Mathlib.Data.Fintype.EquivFin
import Mathlib.Data.List.GetD
import Simulators.Lib.Handler

namespace Simulators

/-! ### Chunks -/

/-- `chunks`, with fuel. -/
def chunksFrom (n : ℕ) : ℕ → Bytes → List Bytes
  | _, [] => []
  | 0, _ => []
  | fuel + 1, b => b.take n :: chunksFrom n fuel (b.drop n)

/-- Pieces of `n` bytes, the last one possibly shorter. -/
def chunks (n : ℕ) (b : Bytes) : List Bytes := chunksFrom n b.length b

theorem chunksFrom_nil (n fuel : ℕ) : chunksFrom n fuel [] = [] := by cases fuel <;> rfl

theorem chunksFrom_fuel {n : ℕ} (hn : 0 < n) : ∀ (f g : ℕ) (b : Bytes), b.length ≤ f → b.length ≤ g →
    chunksFrom n f b = chunksFrom n g b
  | _, _, [], _, _ => by rw [chunksFrom_nil, chunksFrom_nil]
  | 0, _, _ :: _, hf, _ => by simp at hf
  | _, 0, _ :: _, _, hg => by simp at hg
  | f + 1, g + 1, x :: b, hf, hg => by
    have hd : ((x :: b).drop n).length ≤ b.length := by
      simp only [List.length_drop, List.length_cons]
      omega
    simp only [List.length_cons, Nat.add_le_add_iff_right] at hf hg
    simp only [chunksFrom]
    rw [chunksFrom_fuel hn f g _ (Nat.le_trans hd hf) (Nat.le_trans hd hg)]

@[simp] theorem chunks_nil (n : ℕ) : chunks n [] = [] := rfl

theorem chunksFrom_length_le (n : ℕ) : ∀ (fuel : ℕ) (b : Bytes), ∀ chunk ∈ chunksFrom n fuel b, chunk.length ≤ n
  | fuel, [], chunk, h => by
    rw [chunksFrom_nil] at h
    cases h
  | 0, _ :: _, chunk, h => by cases h
  | fuel + 1, x :: b, chunk, h => by
    rcases List.mem_cons.mp h with rfl | h
    · exact List.length_take_le n (x :: b)
    · exact chunksFrom_length_le n fuel _ chunk h

/-- No chunk is longer than `n`. -/
theorem chunks_length_le {n : ℕ} {b chunk : Bytes} (h : chunk ∈ chunks n b) : chunk.length ≤ n :=
  chunksFrom_length_le n b.length b chunk h

theorem chunksFrom_ne_nil {n : ℕ} (hn : 0 < n) : ∀ (fuel : ℕ) (b : Bytes), ∀ chunk ∈ chunksFrom n fuel b, chunk ≠ []
  | fuel, [], chunk, h => by
    rw [chunksFrom_nil] at h
    cases h
  | 0, _ :: _, chunk, h => by cases h
  | fuel + 1, x :: b, chunk, h => by
    rcases List.mem_cons.mp h with rfl | h
    · rw [← List.length_pos_iff, List.length_take]
      exact Nat.lt_min.mpr ⟨hn, Nat.succ_pos _⟩
    · exact chunksFrom_ne_nil hn fuel _ chunk h

theorem chunks_ne_nil {n : ℕ} (hn : 0 < n) {b chunk : Bytes} (h : chunk ∈ chunks n b) : chunk ≠ [] :=
  chunksFrom_ne_nil hn b.length b chunk h

/-- The first chunk and the rest. -/
theorem chunks_eq_cons {n : ℕ} (hn : 0 < n) {b : Bytes} (hb : b ≠ []) :
    chunks n b = b.take n :: chunks n (b.drop n) := by
  obtain ⟨x, b, rfl⟩ := List.exists_cons_of_ne_nil hb
  unfold chunks
  simp only [List.length_cons, chunksFrom]
  congr 1
  exact chunksFrom_fuel hn _ _ _ (by simp only [List.length_drop, List.length_cons]; omega) (Nat.le_refl _)

/-- A block in front is the first chunk. -/
theorem chunks_append {n : ℕ} (hn : 0 < n) (a b : Bytes) (ha : a.length = n) :
    chunks n (a ++ b) = a :: chunks n b := by
  have hne : a ++ b ≠ [] := by
    intro h
    simp only [List.append_eq_nil_iff] at h
    simp [h.1] at ha
    omega
  rw [chunks_eq_cons hn hne, List.take_left' ha, List.drop_left' ha]

/-- The pieces of the data are the data. -/
theorem chunks_flatten {n : ℕ} (hn : 0 < n) : ∀ (k : ℕ) (b : Bytes), b.length ≤ k → (chunks n b).flatten = b
  | _, [], _ => rfl
  | 0, _ :: _, h => by simp at h
  | k + 1, x :: b, h => by
    have hd : ((x :: b).drop n).length ≤ k := by
      simp only [List.length_drop, List.length_cons] at h ⊢
      omega
    rw [chunks_eq_cons hn (List.cons_ne_nil x b), List.flatten_cons, chunks_flatten hn k _ hd,
      List.take_append_drop]

/-- The bytes of a list of blocks. -/
def flat {n : ℕ} (bs : List (ByteArr n)) : Bytes := bs.flatMap (·.bytes)

@[simp] theorem flat_nil {n : ℕ} : flat ([] : List (ByteArr n)) = [] := rfl

@[simp] theorem flat_cons {n : ℕ} (b : ByteArr n) (bs : List (ByteArr n)) :
    flat (b :: bs) = b.bytes ++ flat bs := rfl

theorem flat_length {n : ℕ} : ∀ bs : List (ByteArr n), (flat bs).length = n * bs.length
  | [] => by simp
  | b :: bs => by
    rw [flat_cons, List.length_append, flat_length bs, b.size, List.length_cons,
      Nat.mul_succ, Nat.add_comm]

theorem chunks_flat {n : ℕ} (hn : 0 < n) : ∀ bs : List (ByteArr n), chunks n (flat bs) = bs.map (·.bytes)
  | [] => rfl
  | b :: bs => by rw [flat_cons, chunks_append hn _ _ b.size, chunks_flat hn bs, List.map_cons]

/-- Data of a whole number of blocks is a list of blocks. -/
theorem exists_flat {n : ℕ} : ∀ (k : ℕ) (b : Bytes), b.length = n * k →
    ∃ bs : List (ByteArr n), flat bs = b ∧ bs.length = k
  | 0, b, h => ⟨[], (List.eq_nil_of_length_eq_zero h).symm, rfl⟩
  | k + 1, b, h => by
    have h1 : (b.take n).length = n := by
      rw [List.length_take]
      have : n ≤ n * (k + 1) := Nat.le_mul_of_pos_right n (Nat.succ_pos k)
      omega
    have h2 : (b.drop n).length = n * k := by
      rw [List.length_drop, h, Nat.mul_succ]
      omega
    obtain ⟨bs, hbs, hl⟩ := exists_flat k (b.drop n) h2
    exact ⟨⟨b.take n, h1⟩ :: bs, by rw [flat_cons, hbs, List.take_append_drop], by simp [hl]⟩

/-- The chunks of `data`, each copied into an `[u8; n]`. -/
def blocksOf {ε : Type} (n : ℕ) (data : Bytes) : Handler ε (List (ByteArr n)) := go (chunks n data)
where
  go : List Bytes → Handler ε (List (ByteArr n))
    | [] => .ok []
    | c :: cs => do
      let b ← Handler.array n c
      let bs ← go cs
      return b :: bs

@[simp] theorem blocksOf_flat {ε : Type} {n : ℕ} (hn : 0 < n) (bs : List (ByteArr n)) :
    (blocksOf n (flat bs) : Handler ε _) = .ok bs := by
  have go : ∀ bs : List (ByteArr n), (blocksOf.go n (bs.map (·.bytes)) : Handler ε _) = .ok bs := by
    intro bs
    induction bs with
    | nil => rfl
    | cons b bs ih => simp [blocksOf.go, ih]
  rw [blocksOf, chunks_flat hn, go]

/-- Cutting into blocks panics or succeeds. -/
theorem refuses_blocksOf {ε : Type} {Q : ε → Prop} {n : ℕ} {data : Bytes} :
    (blocksOf n data : Handler ε (List (ByteArr n))).Refuses Q := by
  have go : ∀ cs : List Bytes, (blocksOf.go n cs : Handler ε (List (ByteArr n))).Refuses Q := by
    intro cs
    induction cs with
    | nil => exact Handler.refuses_ok
    | cons c cs ih =>
      simp only [blocksOf.go, Handler.refuses_bind, Handler.refuses_array, Handler.refuses_pure, ih, implies_true,
        and_self]
  exact go _

/-- A whole number of blocks is copied without a panic. -/
theorem blocksOf_of_dvd {ε : Type} {n : ℕ} (hn : 0 < n) {data : Bytes} (h : n ∣ data.length) :
    ∃ bs : List (ByteArr n), (blocksOf n data : Handler ε _) = .ok bs ∧ flat bs = data := by
  obtain ⟨k, hk⟩ := h
  obtain ⟨bs, rfl, -⟩ := exists_flat k data hk
  exact ⟨bs, blocksOf_flat hn bs, rfl⟩

/-- The chunks of whole blocks and what follows them. -/
theorem chunks_flat_append {n : ℕ} (hn : 0 < n) (bs : List (ByteArr n)) (rest : Bytes) :
    chunks n (flat bs ++ rest) = bs.map (·.bytes) ++ chunks n rest := by
  induction bs with
  | nil => rfl
  | cons b bs ih => rw [flat_cons, List.append_assoc, chunks_append hn _ _ b.size, ih, List.map_cons, List.cons_append]

/-- Whole blocks in front are copied first. -/
theorem blocksOf_flat_append {ε : Type} {n : ℕ} (hn : 0 < n) (bs : List (ByteArr n)) (rest : Bytes) :
    (blocksOf n (flat bs ++ rest) : Handler ε _) = (blocksOf n rest).map (bs ++ ·) := by
  have go : ∀ cs : List Bytes, (blocksOf.go n (bs.map (·.bytes) ++ cs) : Handler ε _) =
      (blocksOf.go n cs).map (bs ++ ·) := by
    intro cs
    induction bs with
    | nil =>
      rw [List.map_nil, List.nil_append]
      cases blocksOf.go n cs <;> rfl
    | cons b bs ih =>
      simp only [List.map_cons, List.cons_append, blocksOf.go, Handler.array_bytes, Handler.ok_bind, ih]
      cases blocksOf.go n cs <;> rfl
  rw [blocksOf, chunks_flat_append hn, go]
  rfl

/-! ### Cipher block chaining -/

section Cbc

variable {n : ℕ} (E D : ByteArr n → ByteArr n)

def cbcEncrypt : ByteArr n → List (ByteArr n) → List (ByteArr n)
  | _, [] => []
  | iv, b :: bs => E (xorArr b iv) :: cbcEncrypt (E (xorArr b iv)) bs

def cbcDecrypt : ByteArr n → List (ByteArr n) → List (ByteArr n)
  | _, [] => []
  | iv, c :: cs => xorArr (D c) iv :: cbcDecrypt c cs

theorem cbcEncrypt_length : ∀ (iv : ByteArr n) (bs : List (ByteArr n)), (cbcEncrypt E iv bs).length = bs.length
  | _, [] => rfl
  | iv, b :: bs => by simp [cbcEncrypt, cbcEncrypt_length]

/-- The chain goes on from the last block of output. -/
theorem cbcEncrypt_append (iv : ByteArr n) (bs cs : List (ByteArr n)) : cbcEncrypt E iv (bs ++ cs) =
    cbcEncrypt E iv bs ++ cbcEncrypt E ((cbcEncrypt E iv bs).getLast?.getD iv) cs := by
  induction bs generalizing iv with
  | nil => rfl
  | cons b bs ih =>
    rw [List.cons_append, cbcEncrypt, ih, cbcEncrypt, List.cons_append, List.getLast?_cons, Option.getD_some]

/-- The chain goes on from the last block of input. -/
theorem cbcDecrypt_append (iv : ByteArr n) (bs cs : List (ByteArr n)) :
    cbcDecrypt D iv (bs ++ cs) = cbcDecrypt D iv bs ++ cbcDecrypt D (bs.getLast?.getD iv) cs := by
  induction bs generalizing iv with
  | nil => rfl
  | cons b bs ih =>
    rw [List.cons_append, cbcDecrypt, ih, cbcDecrypt, List.cons_append, List.getLast?_cons, Option.getD_some]

variable {E D}

/-- CBC decryption undoes CBC encryption under the same initial vector. -/
theorem cbcDecrypt_cbcEncrypt (h : ∀ b, D (E b) = b) :
    ∀ (iv : ByteArr n) (bs : List (ByteArr n)), cbcDecrypt D iv (cbcEncrypt E iv bs) = bs
  | _, [] => rfl
  | iv, b :: bs => by
    simp only [cbcEncrypt, cbcDecrypt, h, xorArr_cancel]
    rw [cbcDecrypt_cbcEncrypt h]

end Cbc

/-! ### ISO 9797-1 method 2 -/

/-- Append `80`, then zeros up to a multiple of `n` bytes. -/
def padM2 (n : ℕ) (data : Bytes) : Bytes :=
  data ++ 0x80 :: List.replicate ((n - (data.length + 1) % n) % n) 0

/-- Strip zeros and the marker from the end of reversed data. -/
def unpadRev : Bytes → Option Bytes
  | [] => none
  | b :: rest => if b = 0x00 then unpadRev rest else if b = 0x80 then some rest.reverse else none

/-- None if there is no marker or a byte after it is not zero. -/
def unpadM2 (data : Bytes) : Option Bytes := unpadRev data.reverse

theorem padM2_length_dvd {n : ℕ} (hn : 0 < n) (data : Bytes) : n ∣ (padM2 n data).length := by
  simp only [padM2, List.length_append, List.length_cons, List.length_replicate]
  have hlt := Nat.mod_lt (data.length + 1) hn
  have hdiv := Nat.div_add_mod (data.length + 1) n
  by_cases h0 : (data.length + 1) % n = 0
  · rw [h0, Nat.sub_zero, Nat.mod_self]
    exact ⟨(data.length + 1) / n, by omega⟩
  · rw [Nat.mod_eq_of_lt (by omega : n - (data.length + 1) % n < n)]
    exact ⟨(data.length + 1) / n + 1, by rw [Nat.mul_succ]; omega⟩

theorem unpadRev_zeros : ∀ (k : ℕ) (b : Bytes), unpadRev (List.replicate k 0 ++ b) = unpadRev b
  | 0, _ => rfl
  | k + 1, b => by simp [List.replicate_succ, unpadRev, unpadRev_zeros k]

/-- Padding is stripped exactly. -/
theorem unpadM2_padM2 (n : ℕ) (data : Bytes) : unpadM2 (padM2 n data) = some data := by
  unfold unpadM2 padM2
  rw [List.reverse_append, List.reverse_cons, List.append_assoc, List.reverse_replicate, unpadRev_zeros]
  simp [unpadRev]

/-! ### Finitely many blocks -/

instance finiteByte : Finite UInt8 := by
  apply Finite.of_injective (fun x : UInt8 => (⟨x.toNat, x.toNat_lt⟩ : Fin (2 ^ 8)))
  intro x y h
  exact UInt8.toNat_inj.mp (congrArg Fin.val h)

instance (n : ℕ) : Finite (ByteArr n) := by
  apply Finite.of_injective (fun (a : ByteArr n) (i : Fin n) => a.bytes.getD i 0)
  intro a b h
  apply ByteArr.ext
  apply List.ext_getElem (a.size.trans b.size.symm)
  intro i hi hj
  have hd : a.bytes.getD i 0 = b.bytes.getD i 0 := congrFun h ⟨i, Nat.lt_of_lt_of_eq hi a.size⟩
  rwa [List.getD_eq_getElem a.bytes 0 hi, List.getD_eq_getElem b.bytes 0 hj] at hd

/-- What is undone by `g` undoes `g`. -/
theorem undoes_of_undone {n : ℕ} {f g : ByteArr n → ByteArr n} (h : ∀ b, g (f b) = b) (b : ByteArr n) :
    f (g b) = b := by
  have hinj : Function.Injective f := Function.LeftInverse.injective h
  have hsurj : Function.Surjective f := Finite.injective_iff_surjective.mp hinj
  exact Function.LeftInverse.rightInverse_of_surjective h hsurj b

end Simulators
