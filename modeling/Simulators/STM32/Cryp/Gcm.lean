/-
# STM32 CRYP: a GCM session computes GCM

The code multiplies blocks byte by byte and counts the lengths in 64-bit
words. Here its multiplication is that of `Lib/Gcm`, and a session after some
blocks of AAD and of payload holds the counter, the hash and the lengths of
these blocks.

Key theorems: `gf128Mul_eq_mul`, `Session.processPayload`, `Session.finalise`.
-/
import Simulators.Lib.Bits
import Simulators.STM32.Cryp.Engine

namespace Simulators
namespace STM32
namespace Cryp

/-! ### Multiplication -/

/-- 16 bytes as a bit string. -/
def bitsOf (b : Bytes) : BitVec 128 := BitVec.ofNat 128 (ofBe b)

theorem toNat_bitsOf {b : Bytes} (h : b.length = 16) : (bitsOf b).toNat = ofBe b := Gcm.toNat_toBits ⟨b, h⟩

theorem bitsOf_xor {a b : Bytes} (ha : a.length = 16) (hb : b.length = 16) :
    bitsOf (List.zipWith (· ^^^ ·) a b) = bitsOf a ^^^ bitsOf b := Gcm.toBits_xorArr ⟨a, ha⟩ ⟨b, hb⟩

/-- The bit that the loop takes is bit `i` from the left. -/
theorem bit_ne_zero_iff {x : Bytes} (hx : x.length = 16) {i : ℕ} (hi : i < 128) :
    ((x[i / 8]?).getD 0 >>> UInt8.ofNat (7 - i % 8)) &&& 1 ≠ 0 ↔ (bitsOf x).getMsbD i = true := by
  have hidx : x.length - 1 - (127 - i) / 8 = i / 8 := by omega
  have hmod : (127 - i) % 8 = 7 - i % 8 := by omega
  rw [shiftRight_and_one_ne_zero _ (by omega), BitVec.getMsbD, BitVec.getLsbD, toNat_bitsOf hx,
    show 128 - 1 - i = 127 - i by omega, testBit_ofBe x (by omega), hidx, hmod, decide_eq_true hi, Bool.true_and]

theorem lsb_ne_zero_iff {v : Bytes} (hv : v.length = 16) :
    (v[15]?).getD 0 &&& 1 ≠ 0 ↔ (bitsOf v).getLsbD 0 = true := by
  rw [and_one_ne_zero, BitVec.getLsbD, toNat_bitsOf hv, testBit_ofBe v (by omega), hv]

theorem toNat_shiftedByte (b prev : UInt8) :
    ((b >>> 1) ||| ((prev &&& 1) <<< 7)).toNat = 128 * (prev.toNat % 2) + b.toNat / 2 := by
  have hb := b.toNat_lt
  have hhi : ((prev &&& 1) <<< 7).toNat = 2 ^ 7 * (prev.toNat % 2) := by
    rw [UInt8.toNat_shiftLeft, UInt8.toNat_and, show (1 : UInt8).toNat = 1 from rfl,
      show (7 : UInt8).toNat = 7 from rfl, Nat.and_one_is_mod, Nat.shiftLeft_eq]
    simp only [Nat.reduceMod, Nat.reducePow]
    omega
  have hlo : (b >>> 1).toNat = b.toNat / 2 := toNat_shiftRight_byte b (k := 1) (by decide)
  rw [UInt8.toNat_or, hhi, hlo, Nat.lor_comm, ← Nat.two_pow_add_eq_or_of_lt (by omega)]

theorem ofBe_shiftBytes : ∀ (prev : UInt8) (bs : Bytes),
    ofBe (shiftBytes prev bs) = (256 ^ bs.length * (prev.toNat % 2) + ofBe bs) / 2
  | prev, [] => by simp [shiftBytes, ofBe]
  | prev, b :: bs => by
    have hb : b.toNat = 2 * (b.toNat / 2) + b.toNat % 2 := by omega
    have hval : 256 ^ (b :: bs).length * (prev.toNat % 2) + ofBe (b :: bs) =
        2 * (256 ^ bs.length * (128 * (prev.toNat % 2) + b.toNat / 2)) +
          (256 ^ bs.length * (b.toNat % 2) + ofBe bs) := by
      rw [ofBe_cons, List.length_cons, Nat.pow_succ, Nat.mul_add]
      nth_rewrite 1 [hb]
      rw [Nat.mul_add, Nat.mul_left_comm, Nat.mul_left_comm _ 128, Nat.mul_assoc, Nat.mul_left_comm _ 256]
      omega
    rw [hval, Nat.mul_add_div (by decide), shiftBytes, ofBe_cons, toNat_shiftedByte, shiftBytes_length,
      ofBe_shiftBytes b bs]

theorem bitsOf_shiftBytes {v : Bytes} (hv : v.length = 16) : bitsOf (shiftBytes 0 v) = bitsOf v >>> 1 := by
  have hs : (shiftBytes 0 v).length = 16 := (shiftBytes_length 0 v).trans hv
  apply BitVec.eq_of_toNat_eq
  rw [BitVec.toNat_ushiftRight, toNat_bitsOf hs, toNat_bitsOf hv, ofBe_shiftBytes, Nat.shiftRight_one]
  simp

theorem modify_zero_xor : ∀ {v : Bytes}, v.length = 16 →
    v.modify 0 (· ^^^ 0xE1) = List.zipWith (· ^^^ ·) v (0xE1 :: List.replicate 15 0)
  | x :: v, h => by
    have hv : v.length = 15 := Nat.succ.inj h
    have hzip : List.zipWith (· ^^^ ·) v (List.replicate 15 0) = v := by
      rw [← hv, ← List.map_const', List.zipWith_map_right]
      simp
    rw [List.modify_zero_cons, List.zipWith_cons_cons, hzip]

theorem bitsOf_reduce {v : Bytes} (hv : v.length = 16) :
    bitsOf (v.modify 0 (· ^^^ 0xE1)) = bitsOf v ^^^ Gcm.reduction := by
  rw [modify_zero_xor hv, bitsOf_xor hv (by decide)]
  rfl

theorem gf128Step_bits {x : Bytes} (hx : x.length = 16) {s : Bytes × Bytes} (hs : s.1.length = 16 ∧ s.2.length = 16)
    {i : ℕ} (hi : i < 128) :
    (bitsOf (gf128Step x s i).1, bitsOf (gf128Step x s i).2) = Gcm.mulStep (bitsOf x) (bitsOf s.1, bitsOf s.2) i := by
  have hshift : (shiftBytes 0 s.2).length = 16 := (shiftBytes_length 0 s.2).trans hs.2
  unfold gf128Step Gcm.mulStep
  refine Prod.ext ?_ ?_
  · dsimp only
    by_cases hbit : (bitsOf x).getMsbD i = true
    · rw [if_pos ((bit_ne_zero_iff hx hi).mpr hbit), if_pos hbit, bitsOf_xor hs.1 hs.2]
    · rw [if_neg (mt (bit_ne_zero_iff hx hi).mp hbit), if_neg hbit]
  · dsimp only
    by_cases hlsb : (bitsOf s.2).getLsbD 0 = true
    · rw [if_pos ((lsb_ne_zero_iff hs.2).mpr hlsb), if_pos hlsb, bitsOf_reduce hshift, bitsOf_shiftBytes hs.2]
    · rw [if_neg (mt (lsb_ne_zero_iff hs.2).mp hlsb), if_neg hlsb, bitsOf_shiftBytes hs.2]

theorem gf128_bits {x : Bytes} (hx : x.length = 16) : ∀ (is : List ℕ) (s : Bytes × Bytes),
    s.1.length = 16 ∧ s.2.length = 16 → (∀ i ∈ is, i < 128) →
    (bitsOf (is.foldl (gf128Step x) s).1, bitsOf (is.foldl (gf128Step x) s).2) =
      is.foldl (Gcm.mulStep (bitsOf x)) (bitsOf s.1, bitsOf s.2)
  | [], _, _, _ => rfl
  | i :: is, s, hs, his => by
    have htail := gf128_bits hx is (gf128Step x s i) (gf128Step_length hs i)
      (fun j hj => his j (List.mem_cons_of_mem _ hj))
    rw [List.foldl_cons, List.foldl_cons, htail, gf128Step_bits hx hs (his i List.mem_cons_self)]

/-- The multiplication of the code is that of GCM. -/
theorem gf128Mul_eq_mul (x y : Block) : gf128Mul x y = Gcm.mul x y := by
  have hfold := gf128_bits x.size (List.range 128) (List.replicate 16 0, y.bytes) ⟨rfl, y.size⟩
    (fun i hi => List.mem_range.mp hi)
  have hbits : Gcm.toBits (gf128Mul x y) = Gcm.mulBits (Gcm.toBits x) (Gcm.toBits y) := congrArg Prod.fst hfold
  rw [Gcm.mul, ← hbits, Gcm.ofBits_toBits]

/-! ### Counters and lengths -/

theorem ctr32Inc_eq_inc32 (counter : Block) : ctr32Inc counter = Gcm.inc32 counter := by
  have hword : (beWord (counter.bytes.drop 12) + 1).toNat = (ofBe (counter.bytes.drop 12) + 1) % 256 ^ 4 := by
    rw [beWord, UInt32.toNat_add, UInt32.toNat_ofNat', UInt32.toNat_one, Nat.mod_add_mod]
    rfl
  apply ByteArr.ext
  show counter.bytes.take 12 ++ toBe 4 (beWord (counter.bytes.drop 12) + 1).toNat = _
  rw [hword, toBe_mod]
  rfl

theorem toBe_length64 (n : ℕ) : toBe 8 (UInt64.ofNat n).toNat = toBe 8 n := by
  rw [UInt64.toNat_ofNat']
  exact toBe_mod 8 n

/-! ### Sessions -/

/-- The session after the blocks `aad` of AAD and the blocks `cipher` of
ciphertext, under the block cipher `E` and the first counter block `j0`. -/
structure Session (E : Block → Block) (j0 : Block) (aad cipher : List Block) (g : GcmSession) : Prop where
  h : g.h = E (zeroArr 16)
  tagMask : g.tagMask = E j0
  counter : g.counter = Gcm.inc32^[cipher.length + 1] j0
  y : g.y = Gcm.ghash (E (zeroArr 16)) (aad ++ cipher)
  aadBits : g.aadBits = UInt64.ofNat (128 * aad.length)
  textBits : g.textBits = UInt64.ofNat (128 * cipher.length)

theorem ghash_append_singleton (h : Block) (xs : List Block) (x : Block) :
    Gcm.ghash h (xs ++ [x]) = ghashUpdate (Gcm.ghash h xs) x h := by
  rw [Gcm.ghash, List.foldl_append, List.foldl_cons, List.foldl_nil, ghashUpdate, gf128Mul_eq_mul]
  rfl

theorem bits_add (n : ℕ) : UInt64.ofNat (128 * n) + 128 = UInt64.ofNat (128 * (n + 1)) := by
  rw [Nat.mul_succ, UInt64.ofNat_add]
  rfl

namespace Session

variable {E : Block → Block} {j0 : Block} {aad cipher : List Block} {g : GcmSession}

theorem init (A : Aes) (e : CrypEngine) : Session (e.aesEncryptBlock A) e.iv [] [] (.init A e) where
  h := rfl
  tagMask := rfl
  counter := ctr32Inc_eq_inc32 e.iv
  y := rfl
  aadBits := rfl
  textBits := rfl

theorem setPhase (hg : Session E j0 aad cipher g) (ph : GcmPhase) :
    Session E j0 aad cipher { g with phase := ph } := { hg with }

theorem ingestAad (hg : Session E j0 aad [] g) (block : Block) :
    Session E j0 (aad ++ [block]) [] (g.ingestAad block) where
  h := hg.h
  tagMask := hg.tagMask
  counter := hg.counter
  y := by
    have hy := hg.y
    rw [List.append_nil] at hy ⊢
    rw [GcmSession.ingestAad, ghash_append_singleton, hy, hg.h]
  aadBits := by rw [GcmSession.ingestAad, hg.aadBits, bits_add, List.length_append, List.length_singleton]
  textBits := hg.textBits

/-- The ciphertext block of an input block `x`, under the next counter block. -/
def cipherBlock (E : Block → Block) (j0 : Block) (dir : Direction) (n : ℕ) (x : Block) : Block :=
  match dir with
  | .encrypt => xorArr x (E (Gcm.inc32^[n + 1] j0))
  | .decrypt => x

theorem processPayload {A : Aes} {e : CrypEngine} (hg : Session (e.aesEncryptBlock A) j0 aad cipher g)
    (dir : Direction) (x : Block) :
    (g.processPayload A dir e x).1 = xorArr x (e.aesEncryptBlock A (Gcm.inc32^[cipher.length + 1] j0)) ∧
      Session (e.aesEncryptBlock A) j0 aad
        (cipher ++ [cipherBlock (e.aesEncryptBlock A) j0 dir cipher.length x]) (g.processPayload A dir e x).2 := by
  refine ⟨congrArg (fun b => xorArr x (e.aesEncryptBlock A b)) hg.counter, ?_⟩
  constructor
  case h => exact hg.h
  case tagMask => exact hg.tagMask
  case counter =>
    rw [List.length_append, List.length_singleton, Function.iterate_succ_apply', ← hg.counter]
    exact ctr32Inc_eq_inc32 g.counter
  case y =>
    rw [← List.append_assoc, ghash_append_singleton, ← hg.y, ← hg.h]
    cases dir with
    | encrypt =>
      rw [cipherBlock, ← hg.counter]
      rfl
    | decrypt => rfl
  case aadBits => exact hg.aadBits
  case textBits =>
    rw [List.length_append, List.length_singleton, ← bits_add, ← hg.textBits]
    rfl

/-- The FINAL phase gives the tag. -/
theorem finalise (hg : Session E j0 aad cipher g) : g.finalise.1 = Gcm.tag E j0 aad cipher := by
  have hlen : Gcm.lengthBlock (128 * aad.length) (128 * cipher.length) =
      ⟨toBe 8 g.aadBits.toNat ++ toBe 8 g.textBits.toNat, by
        rw [List.length_append, Simulators.toBe_length, Simulators.toBe_length]⟩ := by
    apply ByteArr.ext
    show toBe 8 (128 * aad.length) ++ toBe 8 (128 * cipher.length) = toBe 8 g.aadBits.toNat ++ toBe 8 g.textBits.toNat
    rw [hg.aadBits, hg.textBits, toBe_length64, toBe_length64]
  rw [Gcm.tag, hlen, ghash_append_singleton, ← hg.y, ← hg.h, ← hg.tagMask]
  rfl

end Session

end Cryp
end STM32
end Simulators
