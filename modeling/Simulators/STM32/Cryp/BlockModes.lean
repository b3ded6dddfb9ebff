/-
# STM32 CRYP: the block modes of the engine

In ECB, CBC and CTR mode the engine processes the blocks itself, one as soon
as its fourth word is in, and keeps the chaining value in its IV. Over a list
of blocks this is the standard mode, which the other direction undoes.

Key theorems: `blockScan_modeStep`, `modeBlocks_other`, `CrypEngine.pending_readDout`.
-/
import Simulators.Lib.Modes
import Simulators.STM32.Cryp.Engine

namespace Simulators
namespace STM32
namespace Cryp

/-! ### The counter -/

theorem ofBe_incBytes : ∀ bs : Bytes, ofBe (incBytes bs).reverse = (ofBe bs.reverse + 1) % 256 ^ bs.length
  | [] => rfl
  | b :: bs => by
    have hb := b.toNat_lt
    have hbs := ofBe_lt bs.reverse
    rw [List.length_reverse] at hbs
    rw [List.reverse_cons, ofBe_append, List.length_cons, Nat.pow_succ, incBytes]
    by_cases hcarry : b + 1 = 0
    · have h255 : b = 255 := by
        rw [← UInt8.add_sub_cancel (a := b) (b := 1), hcarry]
        rfl
      subst h255
      rw [if_neg (by decide), List.reverse_cons, ofBe_append, ofBe_incBytes bs]
      show (ofBe bs.reverse + 1) % 256 ^ bs.length * 256 + 0 = (ofBe bs.reverse * 256 + 255 + 1) % _
      rw [Nat.add_zero, ← Nat.mul_mod_mul_right, Nat.add_mul]
    · have hlt : b.toNat + 1 < 256 := by
        by_contra hge
        apply hcarry
        apply UInt8.toNat_inj.mp
        rw [UInt8.toNat_add, show (1 : UInt8).toNat = 1 from rfl, show b.toNat = 255 by omega]
        rfl
      have hsucc : (b + 1).toNat = b.toNat + 1 := by
        rw [UInt8.toNat_add]
        exact Nat.mod_eq_of_lt hlt
      rw [if_pos hcarry, List.reverse_cons, ofBe_append, hsucc, Nat.mod_eq_of_lt]
      · rw [Nat.add_assoc]
      · omega

theorem ctrInc_eq_addBe (iv : Block) : ctrInc iv = addBe iv 1 := by
  have hval := ofBe_incBytes iv.bytes.reverse
  rw [List.reverse_reverse, List.length_reverse, iv.size] at hval
  apply ByteArr.ext
  rw [← toBe_ofBe_arr (ctrInc iv)]
  show toBe 16 (ofBe (incBytes iv.bytes.reverse).reverse) = toBe 16 (ofBe iv.bytes + 1)
  rw [hval, toBe_mod]

/-! ### Modes -/

/-- The modes in which the engine itself processes the blocks. -/
def AesMode.streams : AesMode → Bool
  | .ecb | .cbc | .ctr => true
  | .gcm | .keyDerivation => false

def Direction.other : Direction → Direction
  | .encrypt => .decrypt
  | .decrypt => .encrypt

section Modes

variable (E D : Block → Block)

/-- What the mode makes of a list of blocks. -/
def modeBlocks : AesMode → Direction → Block → List Block → List Block
  | .ecb, .encrypt, _, bs => bs.map E
  | .ecb, .decrypt, _, bs => bs.map D
  | .cbc, .encrypt, iv, bs => cbcEncrypt E iv bs
  | .cbc, .decrypt, iv, bs => cbcDecrypt D iv bs
  | .ctr, _, iv, bs => ctrBlocks E iv bs
  | .gcm, _, _, _ => []
  | .keyDerivation, _, _, _ => []

/-- One block under a chaining value, and the next chaining value. -/
def modeStep : AesMode → Direction → Block → Block → Block × Block
  | .ecb, .encrypt, iv, b => (E b, iv)
  | .ecb, .decrypt, iv, b => (D b, iv)
  | .cbc, .encrypt, iv, b => (E (xorArr b iv), E (xorArr b iv))
  | .cbc, .decrypt, iv, b => (xorArr (D b) iv, b)
  | .ctr, _, iv, b => (xorArr b (E iv), ctrInc iv)
  | .gcm, _, iv, b => (b, iv)
  | .keyDerivation, _, iv, b => (b, iv)

variable {E D} {mode : AesMode}

theorem blockScan_ctr : ∀ (iv : Block) (bs : List Block),
    blockScan (fun iv b => (xorArr b (E iv), ctrInc iv)) iv bs = ctrBlocks E iv bs
  | _, [] => rfl
  | iv, b :: bs => by rw [blockScan, blockScan_ctr, ctrBlocks_cons, ctrInc_eq_addBe]

theorem blockScan_const (f : Block → Block) : ∀ (iv : Block) (bs : List Block),
    blockScan (fun iv b => (f b, iv)) iv bs = bs.map f
  | _, [] => rfl
  | iv, b :: bs => by rw [blockScan, blockScan_const f, List.map_cons]

/-- Block after block is the mode on the whole list. -/
theorem blockScan_modeStep (h : mode.streams = true) (dir : Direction) (iv : Block) (bs : List Block) :
    blockScan (modeStep E D mode dir) iv bs = modeBlocks E D mode dir iv bs := by
  cases mode with
  | ecb => cases dir <;> exact blockScan_const _ iv bs
  | cbc =>
    cases dir with
    | encrypt => exact blockScan_cbcEncrypt E iv bs
    | decrypt => exact blockScan_cbcDecrypt D iv bs
  | ctr => exact blockScan_ctr iv bs
  | gcm => cases h
  | keyDerivation => cases h

theorem modeBlocks_length (h : mode.streams = true) (dir : Direction) (iv : Block) (bs : List Block) :
    (modeBlocks E D mode dir iv bs).length = bs.length := by
  rw [← blockScan_modeStep h, blockScan_length]

theorem modeBlocks_append_singleton (h : mode.streams = true) (dir : Direction) (iv : Block) (bs : List Block)
    (b : Block) : modeBlocks E D mode dir iv (bs ++ [b]) =
      modeBlocks E D mode dir iv bs ++ [(modeStep E D mode dir (scanValue (modeStep E D mode dir) iv bs) b).1] := by
  rw [← blockScan_modeStep h, ← blockScan_modeStep h, blockScan_append_singleton]

/-- The other direction restores the blocks. -/
theorem modeBlocks_other (hinv : ∀ b, D (E b) = b) (h : mode.streams = true) (dir : Direction) (iv : Block)
    (bs : List Block) : modeBlocks E D mode dir.other iv (modeBlocks E D mode dir iv bs) = bs := by
  have hundo (b : Block) : E (D b) = b := undoes_of_undone hinv b
  cases mode with
  | ecb =>
    cases dir with
    | encrypt =>
      show (bs.map E).map D = bs
      rw [List.map_map, show D ∘ E = id from funext hinv, List.map_id]
    | decrypt =>
      show (bs.map D).map E = bs
      rw [List.map_map, show E ∘ D = id from funext hundo, List.map_id]
  | cbc =>
    cases dir with
    | encrypt => exact cbcDecrypt_cbcEncrypt hinv iv bs
    | decrypt => exact Chaining.cbcEncrypt_cbcDecrypt hundo iv bs
  | ctr => exact ctrBlocks_ctrBlocks E iv bs
  | gcm => cases h
  | keyDerivation => cases h

end Modes

/-! ### Words in and out of the engine -/

namespace CrypEngine

variable {A : Aes} {e : CrypEngine}

/-- The step of the engine's mode. -/
def blockStep (A : Aes) (e : CrypEngine) : Block → Block → Block × Block :=
  modeStep (e.aesEncryptBlock A) (e.aesDecryptBlock A) e.mode e.direction

/-- The step depends on the key, the mode and the direction. -/
theorem blockStep_eq {key : Bytes} {size : KeySize} {mode : AesMode} {direction : Direction} (hsize : e.keySize = size)
    (hkey : e.key.bytes.take size.bytes = key) (hmode : e.mode = mode) (hdir : e.direction = direction) :
    e.blockStep A = modeStep (A.encrypt key) (A.decrypt key) mode direction := by
  have hE : e.aesEncryptBlock A = A.encrypt key := by
    funext b
    rw [aesEncryptBlock, hsize, hkey]
  have hD : e.aesDecryptBlock A = A.decrypt key := by
    funext b
    rw [aesDecryptBlock, hsize, hkey]
  rw [blockStep, hE, hD, hmode, hdir]

theorem processBlock_streams (h : e.mode.streams = true) (b : Block) :
    e.processBlock A b =
      { e.stageOutput (e.blockStep A e.iv b).1 with inBuf := [], iv := (e.blockStep A e.iv b).2 } := by
  obtain ⟨key, iv, size, mode, dir, dt, enabled, inBuf, outBuf, outPos, outAvail⟩ := e
  cases mode with
  | ecb => cases dir <;> rfl
  | cbc => cases dir <;> rfl
  | ctr => rfl
  | gcm => cases h
  | keyDerivation => cases h

/-- The words that the output buffer still has. -/
def pending (e : CrypEngine) : List UInt32 := e.datatype.words ((e.outBuf.bytes.drop e.outPos).take e.outAvail)

/-- The output buffer is read from its start, by words. -/
def Fill (e : CrypEngine) : Prop := e.outAvail % 4 = 0 ∧ (e.outAvail = 0 ∨ e.outPos + e.outAvail = 16)

theorem pending_of_empty (h : e.outputEmpty = true) : e.pending = [] := by
  rw [pending, of_decide_eq_true h, List.take_zero]
  rfl

theorem words_cons (dt : DataType) {b : Bytes} (h : b ≠ []) :
    dt.words b = dt.word4 (b.take 4) :: dt.words (b.drop 4) := by
  rw [DataType.words, chunks_eq_cons (by decide) h, List.map_cons]
  rfl

theorem readDout_eq (hfill : e.Fill) (h : e.outputEmpty = false) : e.readDout =
    (e.datatype.word4 ((e.outBuf.bytes.drop e.outPos).take 4),
      { e with outPos := e.outPos + 4, outAvail := e.outAvail - 4 }) := by
  have hne := of_decide_eq_false h
  have hge : ¬ e.outAvail < 4 := by
    have := hfill.1
    omega
  rw [readDout, if_neg hge]
  rfl

/-- A read takes the first of the words that are left. -/
theorem pending_readDout (hfill : e.Fill) (h : e.outputEmpty = false) :
    e.pending = e.readDout.1 :: e.readDout.2.pending ∧ e.readDout.2.Fill := by
  have hne := of_decide_eq_false h
  obtain ⟨hmod, hzero | hsum⟩ := hfill
  · exact absurd hzero hne
  have hlen : (e.outBuf.bytes.drop e.outPos).length = e.outAvail := by
    rw [List.length_drop, e.outBuf.size]
    omega
  have hnil : e.outBuf.bytes.drop e.outPos ≠ [] := by
    intro hnil
    rw [hnil] at hlen
    exact hne hlen.symm
  have hrest : (e.outBuf.bytes.drop (e.outPos + 4)).take (e.outAvail - 4) = e.outBuf.bytes.drop (e.outPos + 4) := by
    apply List.take_of_length_le
    rw [List.length_drop, e.outBuf.size]
    omega
  rw [readDout_eq ⟨hmod, .inr hsum⟩ h]
  refine ⟨?_, ?_⟩
  · rw [pending, pending, hrest, List.take_of_length_le (Nat.le_of_eq hlen), words_cons _ hnil, List.drop_drop]
  · rw [Fill]
    dsimp only
    omega

theorem pending_stageOutput (e : CrypEngine) (out : Block) :
    (e.stageOutput out).pending = e.datatype.words out.bytes ∧ (e.stageOutput out).Fill := by
  refine ⟨?_, by simp [Fill, stageOutput]⟩
  show e.datatype.words ((out.bytes.drop 0).take 16) = _
  rw [List.drop_zero, List.take_of_length_le (Nat.le_of_eq out.size)]

/-- A word that does not complete a block. -/
theorem writeDin_part (hon : e.enabled = true) (h : e.inLen < 12) (value : UInt32) :
    e.writeDin A value = { e with inBuf := e.inBuf ++ e.datatype.bytes value } := by
  have hgo : ¬ (¬ e.enabled = true ∨ e.inLen ≥ 16) := by
    rintro (hoff | hfull)
    · exact hoff hon
    · omega
  have hshort : ¬ (e.inBuf ++ e.datatype.bytes value).length = 16 := by
    rw [List.length_append, DataType.bytes_length]
    rw [inLen] at h
    omega
  rw [writeDin, if_neg hgo]
  exact dif_neg hshort

/-- The word that completes a block. -/
theorem writeDin_full (hon : e.enabled = true) {value : UInt32} (b : Block)
    (h : e.inBuf ++ e.datatype.bytes value = b.bytes) : e.writeDin A value = e.processBlock A b := by
  have hlen : (e.inBuf ++ e.datatype.bytes value).length = 16 := h ▸ b.size
  have hgo : ¬ (¬ e.enabled = true ∨ e.inLen ≥ 16) := by
    rintro (hoff | hfull)
    · exact hoff hon
    · rw [List.length_append, DataType.bytes_length] at hlen
      rw [inLen] at hfull
      omega
  rw [writeDin, if_neg hgo, dif_pos hlen]
  exact congrArg (e.processBlock A) (ByteArr.ext h)

end CrypEngine

end Cryp
end STM32
end Simulators
