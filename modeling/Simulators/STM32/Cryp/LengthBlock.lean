/-
# STM32 CRYP: the length block of the FINAL phase

The AAD of a message need not be whole blocks: the driver fills its last block
up with zeros, and says in the length block how many bits it really has. The
FINAL phase does not look at this block. It counts 128 bits for every block of
AAD, so the tag is that of GCM if the AAD is whole blocks after all. If it is
not, the two tags hash different length blocks after the same data, and since
blocks without zero have inverses they differ, unless the hash key is zero.

Key theorem: `tag_honours_length_iff`.
-/
import Simulators.Lib.GcmField
import Simulators.Lib.Modes
import Simulators.STM32.Cryp.Messages

namespace Simulators
namespace STM32
namespace Cryp

/-! ### Length blocks -/

theorem lengthBlock_eq_iff (a b c : ℕ) : Gcm.lengthBlock a c = Gcm.lengthBlock b c ↔ a % 2 ^ 64 = b % 2 ^ 64 := by
  have hmod (n : ℕ) : ofBe (toBe 8 n) = n % 2 ^ 64 := ofBe_toBe 8 n
  constructor
  · intro h
    have hbytes : toBe 8 a ++ toBe 8 c = toBe 8 b ++ toBe 8 c := congrArg ByteArr.bytes h
    rw [← hmod a, ← hmod b, List.append_cancel_right hbytes]
  · intro h
    apply ByteArr.ext
    show toBe 8 a ++ toBe 8 c = toBe 8 b ++ toBe 8 c
    rw [← toBe_mod 8 a, ← toBe_mod 8 b]
    exact congrArg (fun n => toBe 8 n ++ toBe 8 c) h

/-- The count of whole blocks is the length only of whole blocks; no wrap of
the 64-bit count hides a difference below 128. -/
theorem padded_bits_eq_iff (aad : Bytes) :
    128 * (zeroPadded 16 aad).length % 2 ^ 64 = 8 * aad.length % 2 ^ 64 ↔ 16 ∣ aad.length := by
  rw [zeroPadded_length, chunks_length (by decide) aad.length aad (Nat.le_refl _)]
  omega

/-- The tag of the padded blocks is that of the byte string only if the length
block is the same or does not count. -/
theorem tag_eq_byteTag_iff (E : Block → Block) (j0 : Block) (aad : Bytes) (cs : List Block) :
    Gcm.tag E j0 (zeroPadded 16 aad) cs = Gcm.byteTag E j0 aad (flat cs) ↔
      16 ∣ aad.length ∨ E (zeroArr 16) = zeroArr 16 := by
  have hbits : 8 * (flat cs).length = 128 * cs.length := by
    rw [flat_length]
    omega
  have hxor {a b m : Block} : xorArr a m = xorArr b m ↔ a = b :=
    ⟨fun h => by rw [← xorArr_cancel a m, h, xorArr_cancel], fun h => by rw [h]⟩
  have hghash (l : Block) : Gcm.ghash (E (zeroArr 16)) (zeroPadded 16 aad ++ cs ++ [l]) =
      Gcm.mul (xorArr (Gcm.ghash (E (zeroArr 16)) (zeroPadded 16 aad ++ cs)) l) (E (zeroArr 16)) := by
    rw [Gcm.ghash, List.foldl_append, List.foldl_cons, List.foldl_nil, Gcm.ghash]
  rw [Gcm.tag, Gcm.byteTag, zeroPadded_flat (by decide), hbits, hxor, hghash, hghash, Gcm.mul_xorArr_inj,
    lengthBlock_eq_iff, padded_bits_eq_iff]

/-! ### What the driver reads -/

/-- The words that a driver reads after those of the payload, when it pads the
AAD and writes its length and that of the payload in the FINAL phase. -/
def RegisterFile.tagWords (R : RegisterFile) (s : R.State) (cfg : Config) (key : Bytes) (j0 : Block) (ph : R.Phases cfg)
    (aad : Bytes) (xs : List Block) : List UInt32 :=
  (R.run s (R.message cfg key j0 ph (zeroPadded 16 aad) xs
    (Gcm.lengthBlock (8 * aad.length) (128 * xs.length)))).1.drop (4 * xs.length)

theorem Revision.tagWords_eq (A : Aes) (r : Revision) {s : (r.file A).State} (hoff : (r.file A).enabled s = false)
    {cfg : Config} (hmode : cfg.mode = .gcm) (key : ByteArr cfg.keySize.bytes) (j0 : Block) (ph : (r.file A).Phases cfg)
    (aad : Bytes) (xs : List Block) :
    (r.file A).tagWords s cfg key.bytes j0 ph aad xs = cfg.datatype.words (Gcm.tag (A.encrypt key.bytes) j0
      (zeroPadded 16 aad) (RegisterFile.cipherText (A.encrypt key.bytes) j0 cfg.direction xs)).bytes := by
  have hlen := cfg.datatype.flatMap_words_length (Gcm.gctr (A.encrypt key.bytes) j0 xs)
  rw [Gcm.gctr_length] at hlen
  rw [RegisterFile.tagWords, RegisterFile.run_message (r.lawful A) hoff cfg hmode key j0 ph, List.flatMap_append,
    List.drop_left' hlen, List.flatMap_singleton]

/-- **The length block is honoured for AAD of whole blocks only.** For every
register file, key, J0, direction and DATATYPE, every AAD and every payload of
whole blocks, with any writes to CR that lead through the phases, the tag read
is the tag of GCM if and only if the AAD is a whole number of blocks, or the
hash key is zero. -/
theorem tag_honours_length_iff (A : Aes) (r : Revision) (s : (r.file A).State) (hoff : (r.file A).enabled s = false)
    {size : KeySize} (key : ByteArr size.bytes) (j0 : Block) (dir : Direction) (dt : DataType)
    (ph : (r.file A).Phases ⟨size, .gcm, dir, dt⟩) (aad : Bytes) (xs : List Block) :
    (r.file A).tagWords s ⟨size, .gcm, dir, dt⟩ key.bytes j0 ph aad xs =
        dt.words (Gcm.byteTag (A.encrypt key.bytes) j0 aad
          (flat (RegisterFile.cipherText (A.encrypt key.bytes) j0 dir xs))).bytes ↔
      16 ∣ aad.length ∨ A.encrypt key.bytes (zeroArr 16) = zeroArr 16 := by
  rw [r.tagWords_eq A hoff rfl key j0 ph, ← tag_eq_byteTag_iff]
  exact ⟨fun h => dt.words_injective h, fun h => by rw [h]⟩

/-- The H7 encrypts with AES-128, one CR write a phase. -/
def CrypV1.wordPhases (A : Aes) : (Revision.v1.file A).Phases ⟨.k128, .gcm, .encrypt, .word⟩ :=
  .single (R := v1File A) (CrypV1.gcmCr .k128 .encrypt .word) (CrypV1.gcmCr_ok .k128 .encrypt .word)

/-- One block of AAD, of which every bit counts. -/
theorem whole_aad_tag : (Revision.v1.file zeroKeyAes).tagWords ({} : CrypV1) ⟨.k128, .gcm, .encrypt, .word⟩
      (zeroArr 16).bytes (blockOf 0 0 0 1) (CrypV1.wordPhases zeroKeyAes) (List.replicate 16 0) [] =
    DataType.word.words (Gcm.byteTag (zeroKeyAes.encrypt (zeroArr 16).bytes) (blockOf 0 0 0 1) (List.replicate 16 0)
      (flat (RegisterFile.cipherText (zeroKeyAes.encrypt (zeroArr 16).bytes) (blockOf 0 0 0 1) .encrypt []))).bytes :=
  (@tag_honours_length_iff zeroKeyAes .v1 ({} : CrypV1) rfl .k128 (zeroArr 16) (blockOf 0 0 0 1) .encrypt .word
    (CrypV1.wordPhases zeroKeyAes) (List.replicate 16 0) []).mpr (.inl (by decide))

/-- One byte of AAD is hashed as 128 bits. -/
theorem one_byte_aad_tag : (Revision.v1.file zeroKeyAes).tagWords ({} : CrypV1) ⟨.k128, .gcm, .encrypt, .word⟩
      (zeroArr 16).bytes (blockOf 0 0 0 1) (CrypV1.wordPhases zeroKeyAes) [0] [] ≠
    DataType.word.words (Gcm.byteTag (zeroKeyAes.encrypt (zeroArr 16).bytes) (blockOf 0 0 0 1) [0]
      (flat (RegisterFile.cipherText (zeroKeyAes.encrypt (zeroArr 16).bytes) (blockOf 0 0 0 1) .encrypt []))).bytes := by
  rw [@Revision.tagWords_eq zeroKeyAes .v1 ({} : CrypV1) rfl ⟨.k128, .gcm, .encrypt, .word⟩ rfl (zeroArr 16)
    (blockOf 0 0 0 1) (CrypV1.wordPhases zeroKeyAes)]
  intro h
  have hiff := (tag_eq_byteTag_iff (zeroKeyAes.encrypt (zeroArr 16).bytes) (blockOf 0 0 0 1) [0]
    (RegisterFile.cipherText (zeroKeyAes.encrypt (zeroArr 16).bytes) (blockOf 0 0 0 1) .encrypt [])).mp
    (DataType.word.words_injective h)
  exact absurd hiff (by decide)

end Cryp
end STM32
end Simulators
