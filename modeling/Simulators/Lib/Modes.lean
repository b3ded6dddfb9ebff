/-
# Modes of operation over byte strings

A block cipher of `n`-byte blocks is a permutation of the blocks for every
key. `Chaining` is how it goes over the blocks of some data: each for itself
(ECB) or chained (CBC). A loop over blocks with a value that it carries from
one to the next is `blockScan`; both modes are such loops. `streamXor` adds a
key stream to data of any length: that of counter mode with one counter of 128
bits (`ctrStream`), or that of GCM, where only the last 32 bits count
(`gctrStream`). `Gcm.byteTag` is the tag of GCM for data of any length.

Key theorems: `Chaining.run_run`, `streamXor_streamXor`, `gctrStream_eq_ctrStream`.
-/
import Simulators.Lib.Gcm

namespace Simulators

/-! ### Whole blocks -/

/-- The blocks of the data, without a shorter piece at its end. -/
def wholeBlocks (n : ℕ) (b : Bytes) : List (ByteArr n) := (chunks n b).filterMap (toArr n)

theorem wholeBlocks_flat {n : ℕ} (hn : 0 < n) (bs : List (ByteArr n)) : wholeBlocks n (flat bs) = bs := by
  have hid : (toArr n ∘ fun b : ByteArr n => b.bytes) = some := funext toArr_bytes
  rw [wholeBlocks, chunks_flat hn, List.filterMap_map, hid, List.filterMap_some]

/-- A piece shorter than a block does not count. -/
theorem wholeBlocks_flat_append {n : ℕ} {rest : Bytes} (h : rest.length < n) (bs : List (ByteArr n)) :
    wholeBlocks n (flat bs ++ rest) = bs := by
  have hn : 0 < n := Nat.zero_lt_of_lt h
  induction bs with
  | nil =>
    rw [flat_nil, List.nil_append, wholeBlocks]
    by_cases hrest : rest = []
    · rw [hrest, chunks_nil, List.filterMap_nil]
    · have hshort : ¬ (rest.take n).length = n := by
        rw [List.length_take]
        omega
      rw [chunks_eq_cons hn hrest, List.drop_of_length_le (Nat.le_of_lt h), chunks_nil, List.filterMap_cons, toArr,
        dif_neg hshort, List.filterMap_nil]
  | cons b bs ih =>
    rw [flat_cons, List.append_assoc, wholeBlocks, chunks_append hn _ _ b.size, List.filterMap_cons, toArr_bytes]
    exact congrArg (b :: ·) ih

theorem chunks_length {n : ℕ} (hn : 0 < n) : ∀ (k : ℕ) (b : Bytes), b.length ≤ k →
    (chunks n b).length = (b.length + (n - 1)) / n
  | _, [], _ => by
    rw [chunks_nil, List.length_nil, List.length_nil, Nat.zero_add, Nat.div_eq_of_lt (Nat.sub_lt hn Nat.one_pos)]
  | 0, _ :: _, h => absurd h (Nat.not_succ_le_zero _)
  | k + 1, x :: b, h => by
    have hd : ((x :: b).drop n).length ≤ k := by
      rw [List.length_drop]
      omega
    rw [chunks_eq_cons hn (List.cons_ne_nil x b), List.length_cons, chunks_length hn k _ hd, List.length_drop]
    obtain hle | hlt := Nat.lt_or_ge n (x :: b).length
    · rw [← Nat.add_div_right _ hn]
      congr 1
      omega
    · rw [Nat.sub_eq_zero_of_le hlt, Nat.zero_add, Nat.div_eq_of_lt (Nat.sub_lt hn Nat.one_pos), eq_comm]
      have hpos : 0 < (x :: b).length := Nat.succ_pos _
      exact Nat.div_eq_of_lt_le (by omega) (by omega)

/-- The blocks of the data, the last one filled up with zeros. -/
def zeroPadded (n : ℕ) (b : Bytes) : List (ByteArr n) :=
  (chunks n b).map fun c => ⟨(c ++ List.replicate n 0).take n, by simp⟩

theorem zeroPadded_length (n : ℕ) (b : Bytes) : (zeroPadded n b).length = (chunks n b).length := List.length_map _

theorem zeroPadded_flat {n : ℕ} (hn : 0 < n) (bs : List (ByteArr n)) : zeroPadded n (flat bs) = bs := by
  rw [zeroPadded, chunks_flat hn, List.map_map]
  refine (List.map_congr_left fun b _ => ?_).trans (List.map_id bs)
  apply ByteArr.ext
  exact List.take_left' b.size

/-! ### Loops over blocks -/

section Scan

variable {n : ℕ} {σ : Type}

/-- Each block replaced, with a value carried along. -/
def blockScan (g : σ → ByteArr n → ByteArr n × σ) : σ → List (ByteArr n) → List (ByteArr n)
  | _, [] => []
  | s, b :: bs => (g s b).1 :: blockScan g (g s b).2 bs

theorem blockScan_length (g : σ → ByteArr n → ByteArr n × σ) :
    ∀ (s : σ) (bs : List (ByteArr n)), (blockScan g s bs).length = bs.length
  | _, [] => rfl
  | s, b :: bs => by rw [blockScan, List.length_cons, blockScan_length g, List.length_cons]

/-- The value carried along, after the blocks. -/
def scanValue (g : σ → ByteArr n → ByteArr n × σ) (s : σ) (bs : List (ByteArr n)) : σ :=
  bs.foldl (fun s b => (g s b).2) s

theorem scanValue_append_singleton (g : σ → ByteArr n → ByteArr n × σ) (s : σ) (bs : List (ByteArr n)) (b : ByteArr n) :
    scanValue g s (bs ++ [b]) = (g (scanValue g s bs) b).2 := by rw [scanValue, List.foldl_append]; rfl

theorem blockScan_append_singleton (g : σ → ByteArr n → ByteArr n × σ) (b : ByteArr n) :
    ∀ (s : σ) (bs : List (ByteArr n)), blockScan g s (bs ++ [b]) = blockScan g s bs ++ [(g (scanValue g s bs) b).1]
  | _, [] => rfl
  | s, c :: bs => by
    rw [List.cons_append, blockScan, blockScan, blockScan_append_singleton g b, List.cons_append]
    rfl

theorem blockScan_map (f : ByteArr n → ByteArr n) : ∀ bs : List (ByteArr n),
    blockScan (fun (_ : Unit) b => (f b, ())) () bs = bs.map f
  | [] => rfl
  | b :: bs => by rw [blockScan, blockScan_map f bs, List.map_cons]

theorem blockScan_cbcEncrypt (E : ByteArr n → ByteArr n) : ∀ (iv : ByteArr n) (bs : List (ByteArr n)),
    blockScan (fun prev b => (E (xorArr b prev), E (xorArr b prev))) iv bs = cbcEncrypt E iv bs
  | _, [] => rfl
  | iv, b :: bs => by rw [blockScan, blockScan_cbcEncrypt E, cbcEncrypt]

theorem blockScan_cbcDecrypt (D : ByteArr n → ByteArr n) : ∀ (iv : ByteArr n) (bs : List (ByteArr n)),
    blockScan (fun prev c => (xorArr (D c) prev, c)) iv bs = cbcDecrypt D iv bs
  | _, [] => rfl
  | iv, c :: cs => by rw [blockScan, blockScan_cbcDecrypt D, cbcDecrypt]

end Scan

/-! ### Block ciphers -/

/-- Encryption and decryption of a block under a key. -/
structure BlockCipher (n : ℕ) where
  encrypt : Bytes → ByteArr n → ByteArr n
  decrypt : Bytes → ByteArr n → ByteArr n
  decrypt_encrypt : ∀ key b, decrypt key (encrypt key b) = b

namespace BlockCipher

variable {n : ℕ} (c : BlockCipher n)

theorem encrypt_decrypt (key : Bytes) (b : ByteArr n) : c.encrypt key (c.decrypt key b) = b :=
  undoes_of_undone (c.decrypt_encrypt key) b

/-- One block in either direction. -/
def block (encrypt : Bool) (key : Bytes) (b : ByteArr n) : ByteArr n :=
  if encrypt then c.encrypt key b else c.decrypt key b

theorem block_block (encrypt : Bool) (key : Bytes) (b : ByteArr n) :
    c.block (!encrypt) key (c.block encrypt key b) = b := by
  cases encrypt
  · exact c.encrypt_decrypt key b
  · exact c.decrypt_encrypt key b

end BlockCipher

inductive Chaining
  | ecb
  | cbc
deriving DecidableEq, Repr

namespace Chaining

variable {n : ℕ}

def run (c : BlockCipher n) (encrypt : Bool) (key : Bytes) (iv : ByteArr n) :
    Chaining → List (ByteArr n) → List (ByteArr n)
  | .ecb, bs => bs.map (c.block encrypt key)
  | .cbc, bs => if encrypt then cbcEncrypt (c.encrypt key) iv bs else cbcDecrypt (c.decrypt key) iv bs

theorem cbcDecrypt_length (D : ByteArr n → ByteArr n) : ∀ (iv : ByteArr n) (cs : List (ByteArr n)),
    (cbcDecrypt D iv cs).length = cs.length
  | _, [] => rfl
  | iv, c :: cs => by rw [cbcDecrypt, List.length_cons, cbcDecrypt_length D, List.length_cons]

theorem run_length (c : BlockCipher n) (encrypt : Bool) (key : Bytes) (iv : ByteArr n) (m : Chaining)
    (bs : List (ByteArr n)) : (m.run c encrypt key iv bs).length = bs.length := by
  cases m with
  | ecb => exact List.length_map _
  | cbc =>
    rw [run]
    split
    · exact cbcEncrypt_length _ iv bs
    · exact cbcDecrypt_length _ iv bs

/-- CBC encryption undoes CBC decryption, when the block functions do. -/
theorem cbcEncrypt_cbcDecrypt {E D : ByteArr n → ByteArr n} (h : ∀ b, E (D b) = b) :
    ∀ (iv : ByteArr n) (cs : List (ByteArr n)), cbcEncrypt E iv (cbcDecrypt D iv cs) = cs
  | _, [] => rfl
  | iv, c :: cs => by
    simp only [cbcDecrypt, cbcEncrypt, xorArr_cancel, h]
    rw [cbcEncrypt_cbcDecrypt h]

/-- The other direction restores the blocks. -/
theorem run_run (c : BlockCipher n) (encrypt : Bool) (key : Bytes) (iv : ByteArr n) (m : Chaining)
    (bs : List (ByteArr n)) : m.run c (!encrypt) key iv (m.run c encrypt key iv bs) = bs := by
  cases m with
  | ecb =>
    have hid : (c.block (!encrypt) key ∘ c.block encrypt key) = id := funext (c.block_block encrypt key)
    rw [run, run, List.map_map, hid, List.map_id]
  | cbc =>
    cases encrypt with
    | true => exact cbcDecrypt_cbcEncrypt (c.decrypt_encrypt key) iv bs
    | false => exact cbcEncrypt_cbcDecrypt (c.encrypt_decrypt key) iv bs

end Chaining

/-! ### Key streams -/

/-- The data under a key stream, given block by block. -/
def streamXor (ks : ℕ → Block) (data : Bytes) : Bytes :=
  data.mapIdx fun i x => x ^^^ (((ks (i / 16)).bytes[i % 16]?).getD 0)

@[simp] theorem streamXor_length (ks : ℕ → Block) (data : Bytes) : (streamXor ks data).length = data.length :=
  List.length_mapIdx

theorem streamXor_streamXor (ks : ℕ → Block) (data : Bytes) : streamXor ks (streamXor ks data) = data := by
  apply List.ext_getElem
  · rw [streamXor_length, streamXor_length]
  · intro i h1 h2
    simp only [streamXor, List.getElem_mapIdx, UInt8.xor_assoc, UInt8.xor_self, UInt8.xor_zero]

/-- Only the blocks that the data reaches count. -/
theorem streamXor_congr {ks ks' : ℕ → Block} {data : Bytes} (h : ∀ k, 16 * k < data.length → ks k = ks' k) :
    streamXor ks data = streamXor ks' data := by
  apply List.ext_getElem
  · rw [streamXor_length, streamXor_length]
  · intro i h1 h2
    rw [streamXor_length] at h1
    have hk : 16 * (i / 16) < data.length := by omega
    simp only [streamXor, List.getElem_mapIdx, h (i / 16) hk]

theorem toBe_ofBe_arr {n : ℕ} (b : ByteArr n) : toBe n (ofBe b.bytes) = b.bytes := by
  have h := toBe_ofBe b.bytes
  rwa [b.size] at h

/-- A block as a 128-bit number, `k` added to it. -/
def addBe (b : Block) (k : ℕ) : Block := ⟨toBe 16 (ofBe b.bytes + k), toBe_length 16 _⟩

theorem addBe_zero (b : Block) : addBe b 0 = b := ByteArr.ext (toBe_ofBe_arr b)

theorem addBe_addBe (b : Block) (j k : ℕ) : addBe (addBe b j) k = addBe b (j + k) := by
  apply ByteArr.ext
  show toBe 16 (ofBe (toBe 16 (ofBe b.bytes + j)) + k) = toBe 16 (ofBe b.bytes + (j + k))
  rw [ofBe_toBe, ← toBe_mod 16 (_ + k), Nat.mod_add_mod, toBe_mod, Nat.add_assoc]

/-- Counter mode over whole blocks, with a big-endian counter of 128 bits. -/
def ctrBlocks (E : Block → Block) (iv : Block) (bs : List Block) : List Block :=
  bs.mapIdx fun k b => xorArr b (E (addBe iv k))

theorem ctrBlocks_cons (E : Block → Block) (iv b : Block) (bs : List Block) :
    ctrBlocks E iv (b :: bs) = xorArr b (E iv) :: ctrBlocks E (addBe iv 1) bs := by
  have hnext : (fun k (b : Block) => xorArr b (E (addBe iv (k + 1)))) =
      fun k b => xorArr b (E (addBe (addBe iv 1) k)) := by
    funext k b
    rw [addBe_addBe, Nat.add_comm]
  rw [ctrBlocks, List.mapIdx_cons, addBe_zero, ctrBlocks]
  exact congrArg (fun f => xorArr b (E iv) :: bs.mapIdx f) hnext

theorem ctrBlocks_ctrBlocks (E : Block → Block) : ∀ (iv : Block) (bs : List Block),
    ctrBlocks E iv (ctrBlocks E iv bs) = bs
  | _, [] => rfl
  | iv, b :: bs => by rw [ctrBlocks_cons, ctrBlocks_cons, xorArr_cancel, ctrBlocks_ctrBlocks E]

/-- Counter mode with a big-endian counter of 128 bits. -/
def ctrStream (E : Block → Block) (iv : Block) (data : Bytes) : Bytes := streamXor (fun k => E (addBe iv k)) data

/-- The function GCTR of GCM, from the counter block after `j0`. -/
def gctrStream (E : Block → Block) (j0 : Block) (data : Bytes) : Bytes :=
  streamXor (fun k => E (Gcm.inc32^[k + 1] j0)) data

/-- A nonce of 12 bytes with a counter. -/
def nonceBlock (nonce : ByteArr 12) (k : ℕ) : Block :=
  ⟨nonce.bytes ++ toBe 4 k, by rw [List.length_append, nonce.size, toBe_length]⟩

theorem inc32_nonceBlock (nonce : ByteArr 12) (k : ℕ) :
    Gcm.inc32 (nonceBlock nonce k) = nonceBlock nonce (k + 1) := by
  apply ByteArr.ext
  show (nonce.bytes ++ toBe 4 k).take 12 ++ toBe 4 (ofBe ((nonce.bytes ++ toBe 4 k).drop 12) + 1) =
    nonce.bytes ++ toBe 4 (k + 1)
  rw [List.take_left' nonce.size, List.drop_left' nonce.size, ofBe_toBe, ← toBe_mod 4 (k % 256 ^ 4 + 1),
    Nat.mod_add_mod, toBe_mod]

theorem iterate_inc32_nonceBlock (nonce : ByteArr 12) (j : ℕ) : ∀ k : ℕ,
    Gcm.inc32^[k] (nonceBlock nonce j) = nonceBlock nonce (j + k)
  | 0 => rfl
  | k + 1 => by
    rw [Function.iterate_succ_apply', iterate_inc32_nonceBlock nonce j k, inc32_nonceBlock]
    rfl

theorem ofBe_append_bytes (a : Bytes) : ∀ b : Bytes, ofBe (a ++ b) = 256 ^ b.length * ofBe a + ofBe b := by
  intro b
  induction b using List.reverseRecOn with
  | nil => simp [ofBe]
  | append_singleton b x ih =>
    rw [← List.append_assoc, ofBe_append, ih, ofBe_append, List.length_append, List.length_singleton, Nat.pow_succ,
      Nat.add_mul, Nat.mul_right_comm, Nat.add_assoc]

/-- Without a carry out of the counter, counting 128 bits is counting 32. -/
theorem addBe_nonceBlock (nonce : ByteArr 12) {j k : ℕ} (h : j + k < 2 ^ 32) :
    addBe (nonceBlock nonce j) k = nonceBlock nonce (j + k) := by
  have hj : j % 256 ^ 4 = j := Nat.mod_eq_of_lt (by omega)
  have hjk : (j + k) % 256 ^ 4 = j + k := Nat.mod_eq_of_lt (by omega)
  have hsum : ofBe (nonceBlock nonce j).bytes + k = ofBe (nonceBlock nonce (j + k)).bytes := by
    show ofBe (nonce.bytes ++ toBe 4 j) + k = ofBe (nonce.bytes ++ toBe 4 (j + k))
    rw [ofBe_append_bytes, ofBe_append_bytes, toBe_length, toBe_length, ofBe_toBe, ofBe_toBe, hj, hjk, Nat.add_assoc]
  apply ByteArr.ext
  show toBe 16 (ofBe (nonceBlock nonce j).bytes + k) = (nonceBlock nonce (j + k)).bytes
  rw [hsum, toBe_ofBe_arr]

/-- Under a nonce of 96 bits the GCM stream is counter mode from the second counter block on. -/
theorem gctrStream_eq_ctrStream (E : Block → Block) (nonce : ByteArr 12) {data : Bytes} (h : data.length < 2 ^ 32) :
    gctrStream E (nonceBlock nonce 1) data = ctrStream E (nonceBlock nonce 2) data := by
  apply streamXor_congr
  intro k hk
  rw [iterate_inc32_nonceBlock, addBe_nonceBlock nonce (by omega)]
  congr 2
  omega

/-! ### The tag of byte strings -/

namespace Gcm

/-- The tag of AAD and of a ciphertext of any length. -/
def byteTag (E : Block → Block) (j0 : Block) (aad cipher : Bytes) : Block :=
  xorArr (ghash (E (zeroArr 16)) (zeroPadded 16 aad ++ zeroPadded 16 cipher ++
    [lengthBlock (8 * aad.length) (8 * cipher.length)])) (E j0)

end Gcm

end Simulators
