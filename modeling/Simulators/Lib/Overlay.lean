/-
# Arrays written piece by piece

An array of bytes of a fixed size, all zero at first, into which pieces are
copied at offsets. The byte at a position is the one of the latest piece that
covers it (`byteAfter`); copying a piece into the array as it is gives the
array with one piece more (`splice_contents`).

Key definitions: `splice`, `byteAfter`, `contents`.
-/
import Simulators.Lib.Bytes

namespace Simulators

/-- `src` copied into `b` at an offset. -/
def splice (b : Bytes) (off : ℕ) (src : Bytes) : Bytes := b.take off ++ src ++ b.drop (off + src.length)

section Splice

variable {b src : Bytes} {off : ℕ}

theorem splice_getElem? (h : off + src.length ≤ b.length) (i : ℕ) :
    (splice b off src)[i]? = if off ≤ i ∧ i < off + src.length then src[i - off]? else b[i]? := by
  rw [splice, List.append_assoc]
  by_cases h1 : i < off
  · rw [List.getElem?_append_left (by simp; omega), List.getElem?_take_of_lt h1, if_neg (by omega)]
  · rw [List.getElem?_append_right (by simp; omega), List.length_take_of_le (by omega)]
    by_cases h2 : i < off + src.length
    · rw [List.getElem?_append_left (by omega), if_pos (by omega)]
    · rw [List.getElem?_append_right (by omega), List.getElem?_drop, if_neg (by omega)]
      congr 1
      omega

theorem splice_length (h : off + src.length ≤ b.length) : (splice b off src).length = b.length := by
  simp only [splice, List.length_append, List.length_take, List.length_drop]
  omega

theorem splice_slice_same (h : off + src.length ≤ b.length) : ((splice b off src).drop off).take src.length = src := by
  rw [splice, List.append_assoc, List.drop_left' (List.length_take_of_le (by omega)), List.take_left' rfl]

theorem splice_slice_apart {p n : ℕ} (h : off + src.length ≤ b.length) (ha : p + n ≤ off ∨ off + src.length ≤ p) :
    ((splice b off src).drop p).take n = (b.drop p).take n := by
  apply List.ext_getElem?
  intro i
  by_cases hi : i < n
  · rw [List.getElem?_take_of_lt hi, List.getElem?_take_of_lt hi, List.getElem?_drop, List.getElem?_drop,
      splice_getElem? h, if_neg (by omega)]
  · rw [List.getElem?_take_eq_none (by omega), List.getElem?_take_eq_none (by omega)]

end Splice

/-- The byte at a position after the pieces, the latest last. -/
def byteAfter (pieces : List (ℕ × Bytes)) (i : ℕ) : UInt8 :=
  pieces.foldl (fun old w => if w.1 ≤ i ∧ i < w.1 + w.2.length then w.2.getD (i - w.1) 0 else old) 0

/-- An all-zero array after the pieces. -/
def contents (size : ℕ) (pieces : List (ℕ × Bytes)) : Bytes := (List.range size).map (byteAfter pieces)

section Contents

variable {size : ℕ} {pieces : List (ℕ × Bytes)}

@[simp] theorem contents_length : (contents size pieces).length = size := by
  rw [contents, List.length_map, List.length_range]

theorem contents_nil (size : ℕ) : contents size [] = List.replicate size 0 := by
  rw [contents, List.eq_replicate_iff]
  refine ⟨by rw [List.length_map, List.length_range], ?_⟩
  intro b hb
  obtain ⟨i, -, rfl⟩ := List.mem_map.mp hb
  rfl

theorem contents_getElem? (i : ℕ) :
    (contents size pieces)[i]? = if i < size then some (byteAfter pieces i) else none := by
  rw [contents, List.getElem?_map]
  by_cases h : i < size
  · rw [List.getElem?_range h, if_pos h, Option.map_some]
  · rw [List.getElem?_eq_none (by rw [List.length_range]; omega), if_neg h, Option.map_none]

theorem byteAfter_concat (off : ℕ) (src : Bytes) (i : ℕ) : byteAfter (pieces ++ [(off, src)]) i =
    if off ≤ i ∧ i < off + src.length then src.getD (i - off) 0 else byteAfter pieces i := by
  rw [byteAfter, List.foldl_append]
  rfl

/-- One piece more. -/
theorem splice_contents {off : ℕ} {src : Bytes} (h : off + src.length ≤ size) :
    splice (contents size pieces) off src = contents size (pieces ++ [(off, src)]) := by
  apply List.ext_getElem?
  intro i
  rw [splice_getElem? (by rwa [contents_length]), contents_getElem?, contents_getElem?, byteAfter_concat]
  by_cases hin : off ≤ i ∧ i < off + src.length
  · rw [if_pos hin, if_pos hin, if_pos (by omega), List.getD_eq_getElem?_getD,
      List.getElem?_eq_getElem (by omega), Option.getD_some]
  · rw [if_neg hin, if_neg hin]

end Contents

end Simulators
