/-
# GCM

The block cipher mode of NIST SP 800-38D over an arbitrary function on blocks,
for whole blocks: multiplication of blocks (its section 6.3), GHASH, the
counter blocks and the tag. A block is 16 bytes; its bits are numbered from
the left.

Key theorem: `gctr_gctr`.
-/
import Mathlib.Logic.Function.Iterate
import Simulators.Lib.Words

namespace Simulators

abbrev Block := ByteArr 16

namespace Gcm

/-! ### Blocks as bit strings -/

def toBits (b : Block) : BitVec 128 := BitVec.ofNat 128 (ofBe b.bytes)

def ofBits (v : BitVec 128) : Block := ⟨toBe 16 v.toNat, toBe_length 16 _⟩

theorem toNat_toBits (b : Block) : (toBits b).toNat = ofBe b.bytes := by
  have hlt := ofBe_lt b.bytes
  rw [b.size] at hlt
  rw [toBits, BitVec.toNat_ofNat]
  exact Nat.mod_eq_of_lt (Nat.lt_of_lt_of_le hlt (by decide))

theorem toBits_xorArr (a b : Block) : toBits (xorArr a b) = toBits a ^^^ toBits b := by
  apply BitVec.eq_of_toNat_eq
  rw [BitVec.toNat_xor, toNat_toBits, toNat_toBits, toNat_toBits]
  exact ofBe_xor (a.size.trans b.size.symm)

@[simp] theorem ofBits_toBits (b : Block) : ofBits (toBits b) = b := by
  apply ByteArr.ext
  calc (ofBits (toBits b)).bytes
      = toBe 16 (ofBe b.bytes) := congrArg (toBe 16) (toNat_toBits b)
    _ = toBe b.bytes.length (ofBe b.bytes) := by rw [b.size]
    _ = b.bytes := toBe_ofBe b.bytes

/-- The block that starts with `11100001`. -/
def reduction : BitVec 128 := 0xE1#128 <<< 120

/-- Bit `i` of `x` taken, from the product and the shifted factor so far. -/
def mulStep (x : BitVec 128) (s : BitVec 128 × BitVec 128) (i : ℕ) : BitVec 128 × BitVec 128 :=
  (if x.getMsbD i then s.1 ^^^ s.2 else s.1, if s.2.getLsbD 0 then (s.2 >>> 1) ^^^ reduction else s.2 >>> 1)

def mulBits (x y : BitVec 128) : BitVec 128 := ((List.range 128).foldl (mulStep x) (0, y)).1

/-- The product of two blocks. -/
def mul (x y : Block) : Block := ofBits (mulBits (toBits x) (toBits y))

def ghash (h : Block) (xs : List Block) : Block := xs.foldl (fun y x => mul (xorArr y x) h) (zeroArr 16)

/-! ### Counter blocks and tags -/

/-- The last four bytes count, modulo `2 ^ 32`. -/
def inc32 (b : Block) : Block :=
  ⟨b.bytes.take 12 ++ toBe 4 (ofBe (b.bytes.drop 12) + 1), by
    rw [List.length_append, List.length_take, b.size, toBe_length]
    rfl⟩

/-- Two bit lengths, as 64-bit words. -/
def lengthBlock (a c : ℕ) : Block := ⟨toBe 8 a ++ toBe 8 c, by rw [List.length_append, toBe_length, toBe_length]⟩

/-- The blocks under the key stream that starts after `j0`. -/
def gctr (E : Block → Block) (j0 : Block) (xs : List Block) : List Block :=
  xs.mapIdx fun i x => xorArr x (E (inc32^[i + 1] j0))

/-- The tag of whole blocks. -/
def tag (E : Block → Block) (j0 : Block) (aad cipher : List Block) : Block :=
  xorArr (ghash (E (zeroArr 16)) (aad ++ cipher ++ [lengthBlock (128 * aad.length) (128 * cipher.length)])) (E j0)

@[simp] theorem gctr_gctr (E : Block → Block) (j0 : Block) (xs : List Block) :
    gctr E j0 (gctr E j0 xs) = xs := by
  apply List.ext_getElem?
  intro i
  simp only [gctr, List.getElem?_mapIdx, Option.map_map]
  have hid : ((fun x => xorArr x (E (inc32^[i + 1] j0))) ∘ fun x => xorArr x (E (inc32^[i + 1] j0))) = id := by
    funext x
    exact xorArr_cancel x _
  rw [hid, Option.map_id, id]

theorem gctr_append (E : Block → Block) (j0 : Block) (xs : List Block) (x : Block) :
    gctr E j0 (xs ++ [x]) = gctr E j0 xs ++ [xorArr x (E (inc32^[xs.length + 1] j0))] := List.mapIdx_concat

theorem gctr_length (E : Block → Block) (j0 : Block) (xs : List Block) : (gctr E j0 xs).length = xs.length := by
  rw [gctr, List.length_mapIdx]

end Gcm
end Simulators
