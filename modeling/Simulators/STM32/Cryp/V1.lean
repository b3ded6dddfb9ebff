/-
# STM32 CRYP: the register file of the H7

`cryp/v1.rs`. The key registers hold a key at their end, the first word of it
first. A CR write that sets CRYPEN commits the configuration; while CRYPEN
stays set, a write commits again when the mode was not GCM and one of the
configuration bits changes, and only moves the GCM phase when it was.
-/
import Simulators.Lib.Bits
import Simulators.STM32.Cryp.Engine

namespace Simulators
namespace STM32
namespace Cryp

structure CrypV1 where
  cr : UInt32 := 0
  keyRegs : Vector UInt32 8 := Vector.replicate 8 0
  ivRegs : Vector UInt32 4 := Vector.replicate 4 0
  dmacr : UInt32 := 0
  imscr : UInt32 := 0
  core : Core := {}
deriving DecidableEq

namespace CrypV1

def regCR : UInt32 := 0x00
def regSR : UInt32 := 0x04
def regDIN : UInt32 := 0x08
def regDOUT : UInt32 := 0x0C
def regDMACR : UInt32 := 0x10
def regIMSCR : UInt32 := 0x14
def keyBase : UInt32 := 0x20
def keyEnd : UInt32 := 0x3C
def ivBase : UInt32 := 0x40
def ivEnd : UInt32 := 0x4C

def crFFLUSH : UInt32 := 0x4000
def crCRYPEN : UInt32 := 0x8000
def crALGODIR : UInt32 := 0x4
def crAlgomodeLowMask : UInt32 := 0x38
def crAlgomodeHi : UInt32 := 0x80000
def crDatatypeMask : UInt32 := 0xC0
def crKeysizeMask : UInt32 := 0x300
def crGcmphMask : UInt32 := 0x30000

/-- The bits of CR that a commit reads, GCMPH apart. -/
def cfgMask : UInt32 := crAlgomodeLowMask ||| crAlgomodeHi ||| crALGODIR ||| crKeysizeMask ||| crDatatypeMask

def crypen (cr : UInt32) : Bool := cr &&& crCRYPEN ≠ 0

def gcmPhase (cr : UInt32) : GcmPhase := .fromBits ((cr &&& crGcmphMask) >>> 16)

def keySize (cr : UInt32) : KeySize :=
  match (cr &&& crKeysizeMask) >>> 8 with
  | 1 => .k192
  | 2 => .k256
  | _ => .k128

def algomode (cr : UInt32) : UInt32 :=
  ((cr &&& crAlgomodeLowMask) >>> 3) ||| if cr &&& crAlgomodeHi ≠ 0 then 0x8 else 0

/-- Codes that are not modelled run as ECB. -/
def mode (cr : UInt32) : AesMode :=
  match algomode cr with
  | 0b0100 => .ecb
  | 0b0101 => .cbc
  | 0b0110 => .ctr
  | 0b0111 => .keyDerivation
  | 0b1000 => .gcm
  | _ => .ecb

/-- What CR configures. -/
def config (cr : UInt32) : Config where
  keySize := keySize cr
  mode := mode cr
  direction := if cr &&& crALGODIR ≠ 0 then .decrypt else .encrypt
  datatype := .fromBits ((cr &&& crDatatypeMask) >>> 6)

/-- The first key register in use. -/
def keyStart : KeySize → ℕ
  | .k128 => 4
  | .k192 => 2
  | .k256 => 0

def expandKey (regs : Vector UInt32 8) (size : KeySize) : ByteArr 32 :=
  ⟨(regs.toList.drop (keyStart size)).flatMap beBytes ++ List.replicate (4 * keyStart size) 0, by
    rw [List.length_append, flatMap_beBytes_length, List.length_drop, Vector.length_toList, List.length_replicate]
    cases size <;> rfl⟩

def expandIv (regs : Vector UInt32 4) : Block :=
  ⟨regs.toList.flatMap beBytes, by rw [flatMap_beBytes_length, Vector.length_toList]⟩

def commitConfig (A : Aes) (p : CrypV1) : CrypV1 :=
  { p with core := p.core.commitConfig A (config p.cr) (expandKey p.keyRegs (keySize p.cr)) (expandIv p.ivRegs)
                     (gcmPhase p.cr) }

def writeCr (A : Aes) (p : CrypV1) (value : UInt32) : CrypV1 :=
  let wasEnabled := crypen p.cr
  let prevCr := p.cr
  let p := { p with cr := value &&& ~~~crFFLUSH }
  let p := if value &&& crFFLUSH ≠ 0 then { p with core := p.core.resetFifos } else p
  let nowEnabled := crypen p.cr
  if ¬ wasEnabled ∧ nowEnabled then
    let p := p.commitConfig A
    { p with core := p.core.setEnabled true }
  else if wasEnabled ∧ ¬ nowEnabled then { p with core := p.core.setEnabled false }
  else if nowEnabled then
    if p.core.engine.mode = .gcm then { p with core := p.core.changePhase A (gcmPhase p.cr) }
    else if (prevCr ^^^ p.cr) &&& cfgMask ≠ 0 then p.commitConfig A
    else p
  else p

/-- IFEM, IFNF, OFNE, OFFU and KEYVALID. -/
def computeSr (p : CrypV1) : UInt32 :=
  let e := p.core.engine
  (if e.inputEmpty then 0x1 else 0) ||| (if ¬ e.inputFull then 0x2 else 0) ||| (if ¬ e.outputEmpty then 0x4 else 0) |||
    (if e.outputFull then 0x8 else 0) ||| 0x80

def writeKey (p : CrypV1) (idx : ℕ) (value : UInt32) : CrypV1 :=
  let regs := p.keyRegs.setIfInBounds idx value
  let e := p.core.engine
  { p with
    keyRegs := regs
    core := if e.enabled then { p.core with engine := { e with key := expandKey regs e.keySize } } else p.core }

def writeIv (p : CrypV1) (idx : ℕ) (value : UInt32) : CrypV1 :=
  let regs := p.ivRegs.setIfInBounds idx value
  let e := p.core.engine
  { p with
    ivRegs := regs
    core := if e.enabled then { p.core with engine := { e with iv := expandIv regs } } else p.core }

def read (p : CrypV1) (offset : UInt32) : UInt32 × CrypV1 :=
  if offset = regCR then (p.cr, p)
  else if offset = regSR then (p.computeSr, p)
  else if offset = regDIN then (0, p)
  else if offset = regDOUT then
    let (word, core) := p.core.dout
    (word, { p with core := core })
  else if offset = regDMACR then (p.dmacr, p)
  else if offset = regIMSCR then (p.imscr, p)
  else if keyBase ≤ offset ∧ offset ≤ keyEnd then ((p.keyRegs[(offset - keyBase).toNat / 4]?).getD 0, p)
  else if ivBase ≤ offset ∧ offset ≤ ivEnd then ((p.ivRegs[(offset - ivBase).toNat / 4]?).getD 0, p)
  else (0, p)

def write (A : Aes) (p : CrypV1) (offset value : UInt32) : CrypV1 :=
  if offset = regCR then p.writeCr A value
  else if offset = regDIN then { p with core := p.core.din A value }
  else if offset = regDMACR then { p with dmacr := value }
  else if offset = regIMSCR then { p with imscr := value }
  else if keyBase ≤ offset ∧ offset ≤ keyEnd then p.writeKey ((offset - keyBase).toNat / 4) value
  else if ivBase ≤ offset ∧ offset ≤ ivEnd then p.writeIv ((offset - ivBase).toNat / 4) value
  else p

/-- One access on the bus: the word read, zero for a write. -/
def access (A : Aes) (p : CrypV1) : Access → UInt32 × CrypV1
  | .read offset => p.read offset
  | .write offset value => (0, p.write A offset value)

/-! ### Writes to CR -/

variable {A : Aes} {p : CrypV1} {v : UInt32}

/-- CR without FFLUSH has the fields of the value written. -/
theorem and_unflushed (v : UInt32) {m : UInt32} (h : ~~~crFFLUSH &&& m = m) : v &&& ~~~crFFLUSH &&& m = v &&& m := by
  rw [UInt32.and_assoc, h]

@[simp] theorem crypen_unflushed (v : UInt32) : crypen (v &&& ~~~crFFLUSH) = crypen v := by
  rw [crypen, crypen, and_unflushed v (by decide)]

@[simp] theorem gcmPhase_unflushed (v : UInt32) : gcmPhase (v &&& ~~~crFFLUSH) = gcmPhase v := by
  rw [gcmPhase, gcmPhase, and_unflushed v (by decide)]

@[simp] theorem config_unflushed (v : UInt32) : config (v &&& ~~~crFFLUSH) = config v := by
  rw [config, config, keySize, keySize, mode, mode, algomode, algomode, and_unflushed v (by decide),
    and_unflushed v (by decide), and_unflushed v (by decide), and_unflushed v (by decide), and_unflushed v (by decide)]

/-- The core after FFLUSH, if it is set. -/
def flushed (p : CrypV1) (v : UInt32) : Core := if v &&& crFFLUSH ≠ 0 then p.core.resetFifos else p.core

/-- The core after a commit of the value written. -/
def committed (A : Aes) (p : CrypV1) (v : UInt32) : Core :=
  p.core.commitConfig A (config v) (expandKey p.keyRegs (keySize v)) (expandIv p.ivRegs) (gcmPhase v)

theorem keySize_unflushed (v : UInt32) : keySize (v &&& ~~~crFFLUSH) = keySize v := by
  rw [keySize, keySize, and_unflushed v (by decide)]

theorem commitConfig_flushed :
    ({ p with cr := v &&& ~~~crFFLUSH, core := p.flushed v } : CrypV1).commitConfig A =
      { p with cr := v &&& ~~~crFFLUSH, core := p.committed A v } := by
  unfold commitConfig flushed committed
  dsimp only
  rw [config_unflushed, keySize_unflushed, gcmPhase_unflushed]
  split <;> rfl

theorem changePhase_flushed (ph : GcmPhase) : (p.flushed v).changePhase A ph = p.core.changePhase A ph := by
  unfold flushed
  split <;> rfl

theorem mode_flushed : (p.flushed v).engine.mode = p.core.engine.mode := by
  unfold flushed
  split <;> rfl

theorem writeCr_eq : p.writeCr A v =
    if ¬ crypen p.cr ∧ crypen v then { p with cr := v &&& ~~~crFFLUSH, core := (p.committed A v).setEnabled true }
    else if crypen p.cr ∧ ¬ crypen v then
      { p with cr := v &&& ~~~crFFLUSH, core := (p.flushed v).setEnabled false }
    else if crypen v then
      if p.core.engine.mode = .gcm then
        { p with cr := v &&& ~~~crFFLUSH, core := p.core.changePhase A (gcmPhase v) }
      else if (p.cr ^^^ v) &&& cfgMask ≠ 0 then { p with cr := v &&& ~~~crFFLUSH, core := p.committed A v }
      else { p with cr := v &&& ~~~crFFLUSH, core := p.flushed v }
    else { p with cr := v &&& ~~~crFFLUSH, core := p.flushed v } := by
  have hflush : (if v &&& crFFLUSH ≠ 0 then
        { ({ p with cr := v &&& ~~~crFFLUSH } : CrypV1) with core := p.core.resetFifos }
      else { p with cr := v &&& ~~~crFFLUSH }) = { p with cr := v &&& ~~~crFFLUSH, core := p.flushed v } := by
    unfold flushed
    split <;> rfl
  have hxor : (p.cr ^^^ (v &&& ~~~crFFLUSH)) &&& cfgMask = (p.cr ^^^ v) &&& cfgMask := by
    rw [xor_and_distrib, xor_and_distrib, and_unflushed v (by decide)]
  unfold writeCr
  dsimp only
  rw [hflush]
  simp only [crypen_unflushed, gcmPhase_unflushed, commitConfig_flushed, changePhase_flushed, mode_flushed, hxor]

end CrypV1

end Cryp
end STM32
end Simulators
