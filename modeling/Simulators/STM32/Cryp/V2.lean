/-
# STM32 CRYP: the register file of the U5

`cryp/v2.rs`. The key and IV registers go from the least significant word of
the key and of the IV up, and the IV registers always reach the engine. A CR
write that sets EN commits the configuration, and so does one that keeps EN
and changes a configuration bit; the GCM phase moves without a commit only
when none of them changes.
-/
import Simulators.STM32.Cryp.Engine

namespace Simulators
namespace STM32
namespace Cryp

structure CrypV2 where
  cr : UInt32 := 0
  keyLo : Vector UInt32 4 := Vector.replicate 4 0
  keyHi : Vector UInt32 4 := Vector.replicate 4 0
  ivRegs : Vector UInt32 4 := Vector.replicate 4 0
  ier : UInt32 := 0
  isr : UInt32 := 0
  core : Core := {}
  keyDerivationActive : Bool := false
deriving DecidableEq

namespace CrypV2

def regCR : UInt32 := 0x00
def regSR : UInt32 := 0x04
def regDINR : UInt32 := 0x08
def regDOUTR : UInt32 := 0x0C
def regKEYR0 : UInt32 := 0x10
def keyrLowEnd : UInt32 := 0x1C
def regIVR0 : UInt32 := 0x20
def ivrEnd : UInt32 := 0x2C
def regKEYR4 : UInt32 := 0x30
def keyrHighEnd : UInt32 := 0x3C
def regIER : UInt32 := 0x300
def regISR : UInt32 := 0x304
def regICR : UInt32 := 0x308

def crEN : UInt32 := 0x1
def crDatatypeMask : UInt32 := 0x6
def crModeMask : UInt32 := 0x18
def crChmodLowMask : UInt32 := 0x60
def crChmodHi : UInt32 := 0x10000
def crGcmphMask : UInt32 := 0x6000
def crKeysize256 : UInt32 := 0x40000

/-- The bits of CR that a commit reads, GCMPH apart. -/
def crAlgBits : UInt32 := crDatatypeMask ||| crModeMask ||| crChmodLowMask ||| crChmodHi ||| crKeysize256

def en (cr : UInt32) : Bool := cr &&& crEN ≠ 0

def gcmPhase (cr : UInt32) : GcmPhase := .fromBits ((cr &&& crGcmphMask) >>> 13)

def keySize (cr : UInt32) : KeySize := if cr &&& crKeysize256 ≠ 0 then .k256 else .k128

def modeBits (cr : UInt32) : UInt32 := (cr &&& crModeMask) >>> 3

def chmod (cr : UInt32) : UInt32 :=
  ((cr &&& crChmodLowMask) >>> 5) ||| ((if cr &&& crChmodHi ≠ 0 then (1 : UInt32) else 0) <<< 2)

/-- Codes that are not modelled run as ECB. -/
def mode (cr : UInt32) : AesMode :=
  match chmod cr with
  | 0b000 => .ecb
  | 0b001 => .cbc
  | 0b010 => .ctr
  | 0b011 => .gcm
  | _ => .ecb

/-- What CR configures; the key derivations prepare a decryption. -/
def config (cr : UInt32) : Config where
  keySize := keySize cr
  mode := mode cr
  direction := match modeBits cr with
    | 0 => .encrypt
    | 2 => .decrypt
    | _ => .decrypt
  datatype := .fromBits ((cr &&& crDatatypeMask) >>> 1)

/-- The words of the key from KEYR7 or KEYR3 down to KEYR0. -/
def expandKey (keyLo keyHi : Vector UInt32 4) : KeySize → ByteArr 32
  | .k128 | .k192 => ⟨keyLo.toList.reverse.flatMap beBytes ++ List.replicate 16 0, by
      rw [List.length_append, flatMap_beBytes_length, List.length_reverse, Vector.length_toList, List.length_replicate]⟩
  | .k256 => ⟨(keyHi.toList.reverse ++ keyLo.toList.reverse).flatMap beBytes, by
      rw [flatMap_beBytes_length, List.length_append, List.length_reverse, List.length_reverse, Vector.length_toList,
        Vector.length_toList]⟩

def expandIv (regs : Vector UInt32 4) : Block :=
  ⟨regs.toList.reverse.flatMap beBytes, by rw [flatMap_beBytes_length, List.length_reverse, Vector.length_toList]⟩

def commitConfig (A : Aes) (p : CrypV2) : CrypV2 :=
  { p with
    keyDerivationActive := modeBits p.cr = 1 ∨ modeBits p.cr = 3
    core := p.core.commitConfig A (config p.cr) (expandKey p.keyLo p.keyHi (keySize p.cr)) (expandIv p.ivRegs)
              (gcmPhase p.cr) }

def writeCr (A : Aes) (p : CrypV2) (value : UInt32) : CrypV2 :=
  let wasEnabled := en p.cr
  let prevAlgBits := p.cr &&& crAlgBits
  let p := { p with cr := value }
  let nowEnabled := en p.cr
  let algBitsChanged := p.cr &&& crAlgBits ≠ prevAlgBits
  if ¬ wasEnabled ∧ nowEnabled then
    let p := p.commitConfig A
    { p with core := p.core.setEnabled true }
  else if wasEnabled ∧ ¬ nowEnabled then { p with core := p.core.setEnabled false, keyDerivationActive := false }
  else if nowEnabled ∧ p.core.engine.mode = .gcm ∧ ¬ algBitsChanged then
    { p with core := p.core.changePhase A (gcmPhase p.cr) }
  else if nowEnabled ∧ algBitsChanged then
    let p := p.commitConfig A
    { p with core := p.core.setEnabled true }
  else p

/-- CCF, of SR and of ISR. -/
def computeSr (p : CrypV2) : UInt32 :=
  if ¬ p.core.engine.outputEmpty ∨ (p.core.engine.enabled ∧ p.keyDerivationActive) then 0x1 else 0

def computeIsr (p : CrypV2) : UInt32 := p.computeSr

/-- The key in the registers, to the engine if it is enabled. -/
def pushKey (p : CrypV2) : CrypV2 :=
  let e := p.core.engine
  if e.enabled then { p with core := { p.core with engine := { e with key := expandKey p.keyLo p.keyHi e.keySize } } }
  else p

def writeKeyLo (p : CrypV2) (idx : ℕ) (value : UInt32) : CrypV2 :=
  { p with keyLo := p.keyLo.setIfInBounds idx value }.pushKey

def writeKeyHi (p : CrypV2) (idx : ℕ) (value : UInt32) : CrypV2 :=
  { p with keyHi := p.keyHi.setIfInBounds idx value }.pushKey

def writeIv (p : CrypV2) (idx : ℕ) (value : UInt32) : CrypV2 :=
  let regs := p.ivRegs.setIfInBounds idx value
  { p with ivRegs := regs, core := { p.core with engine := { p.core.engine with iv := expandIv regs } } }

/-- The suspend registers read as zero, like all the rest. -/
def read (p : CrypV2) (offset : UInt32) : UInt32 × CrypV2 :=
  if offset = regCR then (p.cr, p)
  else if offset = regSR then (p.computeSr, p)
  else if offset = regDINR then (0, p)
  else if offset = regDOUTR then
    let (word, core) := p.core.dout
    (word, { p with core := core })
  else if regKEYR0 ≤ offset ∧ offset ≤ keyrLowEnd then ((p.keyLo[(offset - regKEYR0).toNat / 4]?).getD 0, p)
  else if regIVR0 ≤ offset ∧ offset ≤ ivrEnd then ((p.ivRegs[(offset - regIVR0).toNat / 4]?).getD 0, p)
  else if regKEYR4 ≤ offset ∧ offset ≤ keyrHighEnd then ((p.keyHi[(offset - regKEYR4).toNat / 4]?).getD 0, p)
  else if offset = regIER then (p.ier, p)
  else if offset = regISR then (p.computeIsr, p)
  else (0, p)

def write (A : Aes) (p : CrypV2) (offset value : UInt32) : CrypV2 :=
  if offset = regCR then p.writeCr A value
  else if offset = regDINR then { p with core := p.core.din A value }
  else if regKEYR0 ≤ offset ∧ offset ≤ keyrLowEnd then p.writeKeyLo ((offset - regKEYR0).toNat / 4) value
  else if regIVR0 ≤ offset ∧ offset ≤ ivrEnd then p.writeIv ((offset - regIVR0).toNat / 4) value
  else if regKEYR4 ≤ offset ∧ offset ≤ keyrHighEnd then p.writeKeyHi ((offset - regKEYR4).toNat / 4) value
  else if offset = regIER then { p with ier := value }
  else if offset = regICR then { p with isr := p.isr &&& ~~~value }
  else p

/-- One access on the bus: the word read, zero for a write. -/
def access (A : Aes) (p : CrypV2) : Access → UInt32 × CrypV2
  | .read offset => p.read offset
  | .write offset value => (0, p.write A offset value)

end CrypV2

end Cryp
end STM32
end Simulators
