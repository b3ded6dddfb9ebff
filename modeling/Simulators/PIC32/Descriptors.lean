/-
# PIC32MZ crypto engine: descriptors in memory

`ce/bd.rs`. A buffer descriptor is eight words and a security association 29,
least significant byte first. The firmware writes them to RAM, the engine
reads them from there and writes a descriptor back to clear DESC_EN.

Key theorems: `BufferDescriptor.ofBytes_toBytes`, `BdCtrl.descEn_set`, `BdCtrl.descEn_clear`.
-/
import Simulators.Lib.Bits
import Simulators.Lib.Memory
import Simulators.Lib.Words

namespace Simulators
namespace PIC32

/-! ### BD_CTRL -/

/-- `bd_ctrl`: BUFLEN in the low half, then flags. -/
structure BdCtrl where
  word : UInt32
deriving DecidableEq, Repr

namespace BdCtrl

def descEnBit : UInt32 := 0x80000000

def buflen (c : BdCtrl) : ℕ := (c.word &&& 0xFFFF).toNat

/-- `(self.0 >> k) & 1 != 0`. -/
def flag (c : BdCtrl) (k : ℕ) : Bool := (c.word >>> UInt32.ofNat k) &&& 1 ≠ 0

def lifm (c : BdCtrl) : Bool := c.flag 18
def lastBd (c : BdCtrl) : Bool := c.flag 19
def saFetchEn (c : BdCtrl) : Bool := c.flag 22
def descEn (c : BdCtrl) : Bool := c.flag 31

/-- The descriptor handed to the engine, and handed back. -/
def set (c : BdCtrl) : BdCtrl := ⟨c.word ||| descEnBit⟩
def clear (c : BdCtrl) : BdCtrl := ⟨c.word &&& ~~~descEnBit⟩

theorem flag_eq (c : BdCtrl) {k : ℕ} (hk : k < 32) : c.flag k = c.word.toNat.testBit k := by
  rw [flag, Bool.eq_iff_iff, decide_eq_true_iff]
  exact shiftRight_and_one_ne_zero_word c.word hk

/-- The check of the tick callback is the flag. -/
theorem and_descEnBit (c : BdCtrl) : c.word &&& descEnBit ≠ 0 ↔ c.descEn = true := by
  rw [descEn, flag_eq c (by decide)]
  exact and_two_pow_ne_zero_word c.word (k := 31) (by decide)

theorem flag_set (c : BdCtrl) {k : ℕ} (hk : k < 31) : c.set.flag k = c.flag k := by
  have hbit : descEnBit.toNat.testBit k = false := by
    show (2 ^ 31).testBit k = false
    rw [Nat.testBit_two_pow, decide_eq_false]
    omega
  rw [flag_eq _ (by omega), flag_eq _ (by omega), set, UInt32.toNat_or, Nat.testBit_or, hbit, Bool.or_false]

theorem descEn_set (c : BdCtrl) : c.set.descEn = true := by
  have hbit : descEnBit.toNat.testBit 31 = true := by decide
  rw [descEn, flag_eq _ (by decide), set, UInt32.toNat_or, Nat.testBit_or, hbit, Bool.or_true]

theorem descEn_clear (c : BdCtrl) : c.clear.descEn = false := by
  have hbit : (~~~descEnBit).toNat.testBit 31 = false := by decide
  rw [descEn, flag_eq _ (by decide), clear, UInt32.toNat_and, Nat.testBit_and, hbit, Bool.and_false]

theorem buflen_set (c : BdCtrl) : c.set.buflen = c.buflen := by
  have hbit : descEnBit.toNat &&& (0xFFFF : UInt32).toNat = 0 := by decide
  rw [buflen, buflen, set, UInt32.toNat_and, UInt32.toNat_and, UInt32.toNat_or, Nat.and_or_distrib_right, hbit,
    Nat.or_zero]

end BdCtrl

/-! ### Buffer descriptors -/

structure BufferDescriptor where
  bdCtrl : BdCtrl
  saAddr : UInt32
  srcaddr : UInt32
  dstaddr : UInt32
  nxtptr : UInt32
  updptr : UInt32
  msglen : UInt32
  encoff : UInt32
deriving DecidableEq, Repr

namespace BufferDescriptor

def ofBytes (b : Bytes) : BufferDescriptor where
  bdCtrl := ⟨leWordAt b 0⟩
  saAddr := leWordAt b 1
  srcaddr := leWordAt b 2
  dstaddr := leWordAt b 3
  nxtptr := leWordAt b 4
  updptr := leWordAt b 5
  msglen := leWordAt b 6
  encoff := leWordAt b 7

/-- The words after BD_CTRL. -/
def rest (bd : BufferDescriptor) : Bytes :=
  leBytes bd.saAddr ++ (leBytes bd.srcaddr ++ (leBytes bd.dstaddr ++ (leBytes bd.nxtptr ++ (leBytes bd.updptr ++
    (leBytes bd.msglen ++ (leBytes bd.encoff ++ []))))))

def toBytes (bd : BufferDescriptor) : Bytes := leBytes bd.bdCtrl.word ++ bd.rest

@[simp] theorem rest_length (bd : BufferDescriptor) : bd.rest.length = 28 := by simp [rest]

@[simp] theorem toBytes_length (bd : BufferDescriptor) : bd.toBytes.length = 32 := by simp [toBytes]

@[simp] theorem ofBytes_toBytes (bd : BufferDescriptor) : ofBytes bd.toBytes = bd := by
  simp only [ofBytes, toBytes, rest, leWordAt_zero, leWordAt_succ]

def readPhys (mem : Memory) (paddr : ℕ) : Option BufferDescriptor := (mem.readPhys paddr 32).map ofBytes

def writePhys (bd : BufferDescriptor) (mem : Memory) (paddr : ℕ) : Option Memory := mem.writePhys paddr bd.toBytes

theorem load_store (mem : Memory) (paddr : ℕ) (bd : BufferDescriptor) :
    (mem.store paddr bd.toBytes).load paddr 32 = bd.toBytes := by
  have hsame := mem.load_store_same paddr bd.toBytes
  rwa [toBytes_length] at hsame

/-- BD_CTRL is the first word of the record. -/
theorem load_ctrl {mem : Memory} {paddr : ℕ} {bd : BufferDescriptor} (h : mem.load paddr 32 = bd.toBytes) :
    mem.load paddr 4 = leBytes bd.bdCtrl.word := by
  rw [← mem.load_take (n := 32) (by decide), h, toBytes, List.take_left' (leBytes_length _)]

/-- A store to BD_CTRL leaves the other words. -/
theorem load_store_ctrl {mem : Memory} {paddr : ℕ} {bd : BufferDescriptor} (h : mem.load paddr 32 = bd.toBytes)
    (ctrl : BdCtrl) :
    (mem.store paddr (leBytes ctrl.word)).load paddr 32 = { bd with bdCtrl := ctrl }.toBytes := by
  have hrest : mem.load (paddr + 4) 28 = bd.rest := by
    have hsplit := mem.load_append paddr 4 28
    rw [h, load_ctrl h, toBytes] at hsplit
    exact (List.append_cancel_left hsplit).symm
  have hfirst : (mem.store paddr (leBytes ctrl.word)).load paddr 4 = leBytes ctrl.word := by
    have hsame := mem.load_store_same paddr (leBytes ctrl.word)
    rwa [leBytes_length] at hsame
  have hap : Apart (paddr + 4) 28 paddr (leBytes ctrl.word).length := by
    rw [leBytes_length]
    exact .inr (Nat.le_refl _)
  show (mem.store paddr (leBytes ctrl.word)).load paddr 32 = leBytes ctrl.word ++ bd.rest
  calc (mem.store paddr (leBytes ctrl.word)).load paddr 32
      = (mem.store paddr (leBytes ctrl.word)).load paddr 4 ++
          (mem.store paddr (leBytes ctrl.word)).load (paddr + 4) 28 := Memory.load_append _ paddr 4 28
    _ = leBytes ctrl.word ++ bd.rest := by rw [hfirst, mem.load_store_disjoint hap, hrest]

def buflen (bd : BufferDescriptor) : ℕ := bd.bdCtrl.buflen
def saFetchEnabled (bd : BufferDescriptor) : Bool := bd.bdCtrl.saFetchEn
def descEnabled (bd : BufferDescriptor) : Bool := bd.bdCtrl.descEn
def lastBd (bd : BufferDescriptor) : Bool := bd.bdCtrl.lastBd
def lifm (bd : BufferDescriptor) : Bool := bd.bdCtrl.lifm

end BufferDescriptor

/-! ### Security associations -/

/-- The fields of `sa_ctrl`. -/
structure SaCtrl where
  cryptoalgo : UInt8
  multitask : UInt8
  keysize : UInt8
  enctype : UInt8
  algo : UInt8
  flags : UInt8
  fb : UInt8
  loadiv : UInt8
  lnc : UInt8
  irflag : UInt8
  icvonly : UInt8
  orEn : UInt8
  noRx : UInt8
  verify : UInt8
deriving DecidableEq, Repr

def SaCtrl.fromU32 (v : UInt32) : SaCtrl where
  cryptoalgo := (v &&& 0xF).toUInt8
  multitask := ((v >>> 4) &&& 0x7).toUInt8
  keysize := ((v >>> 7) &&& 0x3).toUInt8
  enctype := ((v >>> 9) &&& 0x1).toUInt8
  algo := ((v >>> 10) &&& 0x7F).toUInt8
  flags := ((v >>> 20) &&& 0x1).toUInt8
  fb := ((v >>> 21) &&& 0x1).toUInt8
  loadiv := ((v >>> 22) &&& 0x1).toUInt8
  lnc := ((v >>> 23) &&& 0x1).toUInt8
  irflag := ((v >>> 24) &&& 0x1).toUInt8
  icvonly := ((v >>> 25) &&& 0x1).toUInt8
  orEn := ((v >>> 26) &&& 0x1).toUInt8
  noRx := ((v >>> 27) &&& 0x1).toUInt8
  verify := ((v >>> 29) &&& 0x1).toUInt8

structure SecurityAssociation where
  ctrl : SaCtrl
  authkey : List UInt32
  enckey : List UInt32
  authiv : List UInt32
  enciv : List UInt32
deriving DecidableEq, Repr

namespace SecurityAssociation

def size : ℕ := 116

def ofBytes (b : Bytes) : SecurityAssociation where
  ctrl := .fromU32 (leWordAt b 0)
  authkey := (List.range 8).map fun i => leWordAt b (1 + i)
  enckey := (List.range 8).map fun i => leWordAt b (9 + i)
  authiv := (List.range 8).map fun i => leWordAt b (17 + i)
  enciv := (List.range 4).map fun i => leWordAt b (25 + i)

def readPhys (mem : Memory) (paddr : ℕ) : Option SecurityAssociation := (mem.readPhys paddr size).map ofBytes

end SecurityAssociation

end PIC32
end Simulators
