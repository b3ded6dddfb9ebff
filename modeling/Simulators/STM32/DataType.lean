/-
# STM32: register accesses and the order of data in them

CR.DATATYPE of the HASH and CRYP peripherals (`hash/mod.rs`, `cryp/mod.rs`):
the engine turns halfwords, bytes or bits of each word round before it takes
the word, most significant byte first, as four bytes of the stream.
-/
import Mathlib.Data.List.Basic
import Simulators.Lib.Blocks
import Simulators.Lib.Words

namespace Simulators
namespace STM32

/-- An access to a peripheral, of four bytes. -/
inductive Access
  | read (offset : UInt32)
  | write (offset value : UInt32)
deriving DecidableEq, Repr

inductive DataType
  | word
  | halfword
  | byte
  | bit
deriving DecidableEq, Repr

namespace DataType

def fromBits (bits : UInt32) : DataType :=
  match bits &&& 0x3 with
  | 0 => .word
  | 1 => .halfword
  | 2 => .byte
  | _ => .bit

/-- Byte `i` from the low end goes to place `i` from the high end, for bit
data with its own bits reversed. -/
def swap : DataType → UInt32 → UInt32
  | .word, v => v
  | .halfword, v => rotate16 v
  | .byte, v => beWord (beBytes v).reverse
  | .bit, v => beWord ((beBytes v).reverse.map reverseBits)

@[simp] theorem swap_swap (dt : DataType) (v : UInt32) : dt.swap (dt.swap v) = v := by
  cases dt with
  | word => rfl
  | halfword => exact rotate16_rotate16 v
  | byte =>
    have hlen : (beBytes v).reverse.length = 4 := by simp
    rw [swap, swap, beBytes_beWord hlen, List.reverse_reverse, beWord_beBytes]
  | bit =>
    have hlen : ((beBytes v).reverse.map reverseBits).length = 4 := by simp
    have hid : reverseBits ∘ reverseBits = id := funext reverseBits_reverseBits
    rw [swap, swap, beBytes_beWord hlen, ← List.map_reverse, List.reverse_reverse, List.map_map, hid, List.map_id,
      beWord_beBytes]

/-- The bytes that the engine takes from a register. -/
def bytes (dt : DataType) (w : UInt32) : Bytes := beBytes (dt.swap w)

/-- The word that carries four bytes. -/
def word4 (dt : DataType) (b : Bytes) : UInt32 := dt.swap (beWord b)

@[simp] theorem bytes_length (dt : DataType) (w : UInt32) : (dt.bytes w).length = 4 := beBytes_length _

theorem bytes_word4 (dt : DataType) {b : Bytes} (h : b.length = 4) : dt.bytes (dt.word4 b) = b := by
  rw [bytes, word4, swap_swap, beBytes_beWord h]

/-- The words that carry a byte string. -/
def words (dt : DataType) (b : Bytes) : List UInt32 := (chunks 4 b).map dt.word4

/-- A block of 16 bytes is carried by four words. -/
theorem words_block (dt : DataType) {b : Bytes} (h : b.length = 16) :
    ∃ b₀ b₁ b₂ b₃ : ByteArr 4, b = b₀.bytes ++ (b₁.bytes ++ (b₂.bytes ++ b₃.bytes)) ∧
      dt.words b = [dt.word4 b₀.bytes, dt.word4 b₁.bytes, dt.word4 b₂.bytes, dt.word4 b₃.bytes] := by
  obtain ⟨bs, rfl, hbs⟩ := exists_flat (n := 4) 4 b h
  obtain ⟨b₀, b₁, b₂, b₃, rfl⟩ := List.length_eq_four.mp hbs
  refine ⟨b₀, b₁, b₂, b₃, by simp, ?_⟩
  rw [words, chunks_flat (by decide)]
  rfl

theorem flatMap_bytes_length (dt : DataType) (ws : List UInt32) : (ws.flatMap dt.bytes).length = 4 * ws.length := by
  induction ws with
  | nil => rfl
  | cons w ws ih => rw [List.flatMap_cons, List.length_append, bytes_length, ih, List.length_cons, Nat.mul_succ, Nat.add_comm]

theorem words_injective (dt : DataType) {x y : ByteArr 16} (h : dt.words x.bytes = dt.words y.bytes) : x = y := by
  have hflat (z : ByteArr 16) : (dt.words z.bytes).flatMap dt.bytes = z.bytes := by
    obtain ⟨b₀, b₁, b₂, b₃, hz, hwords⟩ := dt.words_block z.size
    rw [hwords, hz]
    simp [bytes_word4, ByteArr.size]
  apply ByteArr.ext
  rw [← hflat x, h, hflat y]

theorem words_length (dt : DataType) (x : ByteArr 16) : (dt.words x.bytes).length = 4 := by
  obtain ⟨b₀, b₁, b₂, b₃, -, hwords⟩ := dt.words_block x.size
  rw [hwords]
  rfl

theorem flatMap_words_length (dt : DataType) (xs : List (ByteArr 16)) :
    (xs.flatMap fun x => dt.words x.bytes).length = 4 * xs.length := by
  induction xs with
  | nil => rfl
  | cons x xs ih =>
    rw [List.flatMap_cons, List.length_append, words_length, ih, List.length_cons, Nat.mul_succ, Nat.add_comm]

end DataType

end STM32
end Simulators
