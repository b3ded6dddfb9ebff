/-
# STM32 HASH: the register file

`hash/v1.rs`, for the layouts of the H7, U5 and MP13. A word written to DIN is
held back until the next one, so that STR.NBLW can cut the last word short.
Whether a CR write with INIT starts afresh or restores the snapshot is read
off the order of the writes to STR and CR.
-/
import Simulators.STM32.Hash.Engine

namespace Simulators
namespace STM32

namespace Hash

def regCR : UInt32 := 0x000
def regDIN : UInt32 := 0x004
def regSTR : UInt32 := 0x008
def hrLegacyBase : UInt32 := 0x00C
def hrLegacyEnd : UInt32 := 0x01C
def regIMR : UInt32 := 0x020
def regSR : UInt32 := 0x024
def regSHA3CFGR : UInt32 := 0x028
def csrBase : UInt32 := 0x0F8
def csrEnd : UInt32 := 0x1CC
def hrExtBase : UInt32 := 0x310
def hrExtEnd : UInt32 := 0x34C

def crINIT : UInt32 := 0x4
def crDatatypeMask : UInt32 := 0x30
def crModeHmac : UInt32 := 0x40
def strNblwMask : UInt32 := 0x1F
def strDCAL : UInt32 := 0x100
def srDINIS : UInt32 := 0x1
def srDCIS : UInt32 := 0x2

inductive AlgoLayout
  | h7
  | u5
  | mp13
deriving DecidableEq, Repr

def AlgoLayout.loBit : AlgoLayout → UInt32
  | .h7 => 7
  | .u5 => 17
  | .mp13 => 17

/-- `parse_algo`. -/
def AlgoLayout.parseAlgo (layout : AlgoLayout) (cr : UInt32) : Algo :=
  if layout = .mp13 then
    match (cr >>> 17) &&& 0xF with
    | 0 => .sha1
    | 1 => .md5
    | 2 => .sha224
    | 3 => .sha256
    | 4 => .sha3_224
    | 5 => .sha3_256
    | 6 => .sha3_384
    | 7 => .sha3_512
    | 8 | 10 => .shake128
    | 9 | 11 => .shake256
    | 12 => .sha384
    | 13 => .sha512_224
    | 14 => .sha512_256
    | 15 => .sha512
    | _ => .sha1
  else
    match decide (cr &&& ((1 : UInt32) <<< 18) ≠ 0), decide (cr &&& ((1 : UInt32) <<< layout.loBit) ≠ 0) with
    | false, false => .sha1
    | false, true => .md5
    | true, false => .sha224
    | true, true => .sha256

/-- `parse_datatype`. -/
def parseDatatype (cr : UInt32) : DataType := .fromBits ((cr &&& crDatatypeMask) >>> 4)

structure HashV1 (D : Hashers) where
  layout : AlgoLayout
  cr : UInt32 := 0
  strReg : UInt32 := 0
  imr : UInt32 := 0
  sr : UInt32 := srDINIS
  sha3cfgr : UInt32 := 0
  pending : Option UInt32 := none
  csr : List UInt32 := List.replicate 54 0
  savedPending : Option UInt32 := none
  strWrittenSinceCr : Bool := false
  engine : Engine D := {}

namespace HashV1

variable {D : Hashers}

def writeCr (p : HashV1 D) (value : UInt32) : HashV1 D :=
  let cr := value &&& ~~~crINIT
  if value &&& crINIT ≠ 0 then
    if p.strWrittenSinceCr ∧ p.engine.hasSnapshot then
      { p with cr := cr, engine := p.engine.restoreFromSnapshot, pending := p.savedPending, sr := srDINIS,
               strWrittenSinceCr := false }
    else
      { p with
        cr := cr
        engine := p.engine.initWithMode (p.layout.parseAlgo cr) (parseDatatype cr) (cr &&& crModeHmac ≠ 0)
        pending := none
        sr := srDINIS
        strWrittenSinceCr := false }
  else { p with cr := cr, strWrittenSinceCr := false }

def writeDin (p : HashV1 D) (value : UInt32) : HashV1 D :=
  match p.pending with
  | some prev => { p with engine := p.engine.feedWord prev 4, pending := some value }
  | none => { p with pending := some value }

/-- The bytes of the last word that count; NBLW is in bits, zero for all of them. -/
def validBytes (str : UInt32) : ℕ :=
  let nblw := (str &&& strNblwMask).toNat
  if nblw = 0 then 4 else min ((nblw + 7) / 8) 4

def writeStr (p : HashV1 D) (value : UInt32) : HashV1 D :=
  if p.strReg &&& strDCAL = 0 ∧ value &&& strDCAL ≠ 0 then
    let engine := match p.pending with
      | some last => p.engine.feedWord last (validBytes value)
      | none => p.engine
    { p with
      strReg := value &&& ~~~strDCAL
      engine := engine.finalize
      pending := none
      sr := srDCIS ||| srDINIS
      csr := List.replicate 54 0
      strWrittenSinceCr := false }
  else { p with strReg := value, strWrittenSinceCr := true }

def readHr (p : HashV1 D) (idx : ℕ) : UInt32 :=
  if p.engine.finalised then (p.engine.result[idx]?).getD 0 else 0

/-- A read of CSR[0] takes the snapshot. -/
def readCsr (p : HashV1 D) (idx : ℕ) : UInt32 × HashV1 D :=
  ((p.csr[idx]?).getD 0,
    if idx = 0 then { p with engine := p.engine.captureSnapshot, savedPending := p.pending } else p)

def read (p : HashV1 D) (offset : UInt32) : UInt32 × HashV1 D :=
  if offset = regCR then (p.cr, p)
  else if offset = regSTR then (p.strReg, p)
  else if offset = regIMR then (p.imr, p)
  else if offset = regSR then (p.sr, p)
  else if offset = regSHA3CFGR then (p.sha3cfgr, p)
  else if hrLegacyBase ≤ offset ∧ offset ≤ hrLegacyEnd then (p.readHr ((offset - hrLegacyBase).toNat / 4), p)
  else if hrExtBase ≤ offset ∧ offset ≤ hrExtEnd then (p.readHr ((offset - hrExtBase).toNat / 4), p)
  else if csrBase ≤ offset ∧ offset ≤ csrEnd then p.readCsr ((offset - csrBase).toNat / 4)
  else (0, p)

def write (p : HashV1 D) (offset value : UInt32) : HashV1 D :=
  if offset = regCR then p.writeCr value
  else if offset = regDIN then p.writeDin value
  else if offset = regSTR then p.writeStr value
  else if offset = regIMR then { p with imr := value }
  else if offset = regSR then { p with sr := p.sr &&& ~~~value }
  else if offset = regSHA3CFGR then { p with sha3cfgr := value }
  else if csrBase ≤ offset ∧ offset ≤ csrEnd then
    { p with csr := p.csr.set ((offset - csrBase).toNat / 4) value }
  else p

/-- One access on the bus: the word read, zero for a write. -/
def access (p : HashV1 D) : Access → UInt32 × HashV1 D
  | .read offset => p.read offset
  | .write offset value => (0, p.write offset value)

end HashV1

end Hash
end STM32
end Simulators
