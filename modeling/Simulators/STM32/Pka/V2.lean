/-
# STM32 PKA v2: the registers and the RAM

`pka/v2.rs`. The RAM starts at 0x400; an operand is at a word offset of it, its
lowest word first. Setting EN and START in CR runs the operation of CR.MODE on
the operands in the RAM and puts the result there.
-/
import Simulators.Lib.Overlay
import Simulators.STM32.DataType
import Simulators.STM32.Pka.Engine

namespace Simulators
namespace STM32
namespace Pka

def cr : UInt32 := 0x000
def sr : UInt32 := 0x004
def clrfr : UInt32 := 0x008
def ramBase : UInt32 := 0x400
/-- 7 KiB. -/
def ramSizeBytes : ℕ := 0x1C00

def crEn : UInt32 := (1 : UInt32) <<< 0
def crStart : UInt32 := (1 : UInt32) <<< 1
def crModeShift : UInt32 := 8
def crModeMask : UInt32 := (0x3F : UInt32) <<< crModeShift

def srBusy : UInt32 := (1 : UInt32) <<< 16
def srProcendf : UInt32 := (1 : UInt32) <<< 17
def srRamerr : UInt32 := (1 : UInt32) <<< 20

def modeModularExp : UInt32 := 0x00
def modeModularExpFast : UInt32 := 0x02
def modeModularExpProtect : UInt32 := 0x03
def modeArithmeticAdd : UInt32 := 0x09
def modeArithmeticSub : UInt32 := 0x0A
def modeArithmeticMul : UInt32 := 0x0B
def modeModularAdd : UInt32 := 0x0E
def modeModularSub : UInt32 := 0x0F
def modeMontgomeryMul : UInt32 := 0x10
def modeEccMul : UInt32 := 0x20
def modeEcdsaVerification : UInt32 := 0x26

def pkaNoError : UInt32 := 0xD60D

/-! ### Word offsets in the RAM -/

namespace Ram

def modexpInExpNbBits : ℕ := 0
def modexpInOpNbBits : ℕ := 2
def modexpInExponentBase : ℕ := 0x21A
def modexpInExponent : ℕ := 0x29E
def modexpInModulus : ℕ := 0x322
def modexpOutResult : ℕ := 0x10E
def modexpOutError : ℕ := 0x3A6

def modexpProtectInExponentBase : ℕ := 0x4B2
def modexpProtectInExponent : ℕ := 0x42E
def modexpProtectInModulus : ℕ := 0x10E

def eccmulInOpNbBits : ℕ := 2
def eccmulInModGf : ℕ := 0x322
def eccmulInK : ℕ := 0x3A8
def eccmulInInitialPointX : ℕ := 0x5E
def eccmulInInitialPointY : ℕ := 0x1C
def eccmulOutResultX : ℕ := 0x5E
def eccmulOutResultY : ℕ := 0x74
def eccmulOutError : ℕ := 0xA0

def arithInOpNbBits : ℕ := 2
def arithInOp1 : ℕ := 0x86
def arithInOp2 : ℕ := 0x10A
def arithOutResult : ℕ := 0x18E

def modOpInOpNbBits : ℕ := 2
def modOpInOp1 : ℕ := 0x86
def modOpInOp2 : ℕ := 0x10A
def modOpInModulus : ℕ := 0x322
def modOpOutResult : ℕ := 0x18E

def ecdsaverifInModNbBits : ℕ := 0x32
def ecdsaverifInPublicKeyPointX : ℕ := 0x3BE
def ecdsaverifInPublicKeyPointY : ℕ := 0x3D4
def ecdsaverifInSignatureR : ℕ := 0x338
def ecdsaverifInSignatureS : ℕ := 0x21A
def ecdsaverifInHashE : ℕ := 0x3EA
def ecdsaverifOutResult : ℕ := 0x74

end Ram

structure PkaV2 where
  cr : UInt32
  sr : UInt32
  ram : ByteArr ramSizeBytes
  engine : Engine
deriving DecidableEq

inductive ArithOp
  | add
  | sub
  | mul
deriving DecidableEq, Repr

namespace PkaV2

def new : PkaV2 := ⟨0, 0, zeroArr ramSizeBytes, .new⟩

def currentMode (s : PkaV2) : UInt32 := (s.cr &&& crModeMask) >>> crModeShift

/-- The word at a byte of the RAM, 0 past its end. -/
def ramRead (s : PkaV2) (byte : ℕ) : UInt32 :=
  if byte + 4 > ramSizeBytes then 0 else leWord ((s.ram.bytes.drop byte).take 4)

/-- Nothing is written past the end. -/
def ramWrite (s : PkaV2) (byte : ℕ) (value : UInt32) : PkaV2 :=
  if h : byte + 4 ≤ ramSizeBytes then
    { s with
      ram := ⟨splice s.ram.bytes byte (leBytes value), by
        rw [splice_length (by rw [s.ram.size, leBytes_length]; exact h), s.ram.size]⟩ }
  else s

def readWord (s : PkaV2) (wordIdx : ℕ) : UInt32 := s.ramRead (wordIdx * 4)

def writeWord (s : PkaV2) (wordIdx : ℕ) (value : UInt32) : PkaV2 := s.ramWrite (wordIdx * 4) value

def readOperandBe (s : PkaV2) (wordIdx nBytes : ℕ) : Bytes := unpack (fun k => s.readWord (wordIdx + k)) nBytes

def writeOperandBe (s : PkaV2) (wordIdx : ℕ) (data : Bytes) : PkaV2 :=
  let n := data.length
  let fullWords := n / 4
  let s := (List.range fullWords).foldl
    (fun s k => s.writeWord (wordIdx + k) (beWord ((data.drop (n - 4 - k * 4)).take 4))) s
  -- The high bytes of the last word.
  if n % 4 > 0 then s.writeWord (wordIdx + fullWords) (beWord (data.take (n % 4))) else s

def readNBits (s : PkaV2) (wordIdx : ℕ) : ℕ := (s.readWord wordIdx).toNat

def doModExp (s : PkaV2) (protect : Bool) : Bool × PkaV2 :=
  let opBits := s.readNBits Ram.modexpInOpNbBits
  let expBits := s.readNBits Ram.modexpInExpNbBits
  let opBytes := (opBits + 7) / 8
  let expBytes := (expBits + 7) / 8
  if opBytes = 0 ∨ opBytes > 1024 ∨ expBytes = 0 ∨ expBytes > 1024 then (false, s)
  else
    let baseOff := if protect then Ram.modexpProtectInExponentBase else Ram.modexpInExponentBase
    let expOff := if protect then Ram.modexpProtectInExponent else Ram.modexpInExponent
    let modOff := if protect then Ram.modexpProtectInModulus else Ram.modexpInModulus
    let base := s.readOperandBe baseOff opBytes
    let exp := s.readOperandBe expOff expBytes
    let modulus := s.readOperandBe modOff opBytes
    let result := Engine.modExp base exp modulus
    let s := { s with engine := result.2 }.writeOperandBe Ram.modexpOutResult result.1
    (true, s.writeWord Ram.modexpOutError pkaNoError)

def doArith (s : PkaV2) (op : ArithOp) : Bool × PkaV2 :=
  let bits := s.readNBits Ram.arithInOpNbBits
  let bytes := (bits + 7) / 8
  if bytes = 0 ∨ bytes > 1024 then (false, s)
  else
    let a := ofBe (s.readOperandBe Ram.arithInOp1 bytes)
    let b := ofBe (s.readOperandBe Ram.arithInOp2 bytes)
    let r := match op with
      | .add => a + b
      | .sub => if a ≥ b then a - b else 0
      | .mul => a * b
    let target := match op with
      | .mul => bytes * 2
      | _ => bytes + 1
    (true, s.writeOperandBe Ram.arithOutResult (padBe r target))

def doModOp (s : PkaV2) (op : ArithOp) : Bool × PkaV2 :=
  let bits := s.readNBits Ram.modOpInOpNbBits
  let bytes := (bits + 7) / 8
  if bytes = 0 ∨ bytes > 1024 then (false, s)
  else
    let a := s.readOperandBe Ram.modOpInOp1 bytes
    let b := s.readOperandBe Ram.modOpInOp2 bytes
    let modulus := s.readOperandBe Ram.modOpInModulus bytes
    let r := match op with
      | .add => Engine.modAdd a b modulus
      | .sub => Engine.modSub a b modulus
      | .mul => Engine.modMul a b modulus
    (true, { s with engine := r.2 }.writeOperandBe Ram.modOpOutResult r.1)

/-- The modulus is read and not compared. -/
def doEccMul (C : Crates) (s : PkaV2) : Bool × PkaV2 :=
  let bytes := (s.readNBits Ram.eccmulInOpNbBits + 7) / 8
  let curve := if bytes = 32 then some Curve.p256 else if bytes = 48 then some Curve.p384 else none
  match curve with
  | none => (false, s)
  | some curve =>
    let k := s.readOperandBe Ram.eccmulInK bytes
    let px := s.readOperandBe Ram.eccmulInInitialPointX bytes
    let py := s.readOperandBe Ram.eccmulInInitialPointY bytes
    let r := Engine.eccMul C curve k px py
    let s := { s with engine := r.2 }
    match r.1 with
    | none => (false, s.writeWord Ram.eccmulOutError 0xFFFFFFFF)
    | some point =>
      let s := (s.writeOperandBe Ram.eccmulOutResultX point.x).writeOperandBe Ram.eccmulOutResultY point.y
      (true, s.writeWord Ram.eccmulOutError pkaNoError)

def ecdsaVerify (C : Crates) (curve : Curve) (qx qy r s h : Bytes) : Bool :=
  if qx.length ≠ curve.byteLen ∨ qy.length ≠ curve.byteLen ∨ r.length ≠ curve.byteLen ∨ s.length ≠ curve.byteLen then
    false
  else C.verifyPrehash curve qx qy r s h

def doEcdsaVerify (C : Crates) (s : PkaV2) : Bool × PkaV2 :=
  let bytes := (s.readNBits Ram.ecdsaverifInModNbBits + 7) / 8
  let curve := if bytes = 32 then some Curve.p256 else if bytes = 48 then some Curve.p384 else none
  match curve with
  | none => (false, s)
  | some curve =>
    let qx := s.readOperandBe Ram.ecdsaverifInPublicKeyPointX bytes
    let qy := s.readOperandBe Ram.ecdsaverifInPublicKeyPointY bytes
    let r := s.readOperandBe Ram.ecdsaverifInSignatureR bytes
    let t := s.readOperandBe Ram.ecdsaverifInSignatureS bytes
    let h := s.readOperandBe Ram.ecdsaverifInHashE bytes
    (true, s.writeWord Ram.ecdsaverifOutResult (if ecdsaVerify C curve qx qy r t h then pkaNoError else 0))

/-- What CR.MODE selects. -/
def operation (C : Crates) (s : PkaV2) : Bool × PkaV2 :=
  let mode := s.currentMode
  if mode = modeModularExp ∨ mode = modeModularExpFast then s.doModExp false
  else if mode = modeModularExpProtect then s.doModExp true
  else if mode = modeArithmeticAdd then s.doArith .add
  else if mode = modeArithmeticSub then s.doArith .sub
  else if mode = modeArithmeticMul then s.doArith .mul
  else if mode = modeModularAdd then s.doModOp .add
  else if mode = modeModularSub then s.doModOp .sub
  else if mode = modeMontgomeryMul then s.doModOp .mul
  else if mode = modeEccMul then s.doEccMul C
  else if mode = modeEcdsaVerification then s.doEcdsaVerify C
  else (false, s)

def execute (C : Crates) (s : PkaV2) : PkaV2 :=
  let r := { s with sr := s.sr ||| srBusy }.operation C
  let s := { r.2 with sr := (r.2.sr &&& ~~~srBusy) ||| srProcendf }
  if r.1 then s else { s with sr := s.sr ||| srRamerr }

def read (s : PkaV2) (offset : UInt32) : UInt32 :=
  if offset = Pka.cr then s.cr
  else if offset = Pka.sr then s.sr
  else if ramBase ≤ offset ∧ offset < ramBase + UInt32.ofNat ramSizeBytes then s.ramRead (offset - ramBase).toNat
  else 0

def write (C : Crates) (s : PkaV2) (offset value : UInt32) : PkaV2 :=
  if offset = Pka.cr then
    let s := { s with cr := value }
    if value &&& crStart ≠ 0 ∧ value &&& crEn ≠ 0 then s.execute C else s
  else if offset = clrfr then { s with sr := s.sr &&& ~~~value }
  else if ramBase ≤ offset ∧ offset < ramBase + UInt32.ofNat ramSizeBytes then
    s.ramWrite (offset - ramBase).toNat value
  else s

/-- An access of the firmware. -/
def access (C : Crates) (s : PkaV2) : Access → PkaV2
  | .read _ => s
  | .write offset value => s.write C offset value

def run (C : Crates) (s : PkaV2) (accesses : List Access) : PkaV2 := accesses.foldl (access C) s

end PkaV2

end Pka
end STM32
end Simulators
