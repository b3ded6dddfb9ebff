/-
# STM32 CRYP: the AES engine and the GCM phases

`cryp/mod.rs` and `cryp/gcm.rs`. AES is a pair of functions of a key and a
block. An input buffer is the part of it that is filled.

The two register files have the same GCM buffer and the same handling of its
words and phases, which is in `Core`.
-/
import Simulators.Lib.Gcm
import Simulators.STM32.DataType

namespace Simulators
namespace STM32
namespace Cryp

/-- AES, for keys of 16, 24 and 32 bytes. -/
structure Aes where
  encrypt : Bytes → Block → Block
  decrypt : Bytes → Block → Block

inductive KeySize
  | k128
  | k192
  | k256
deriving DecidableEq, Repr

def KeySize.bytes : KeySize → ℕ
  | .k128 => 16
  | .k192 => 24
  | .k256 => 32

inductive AesMode
  | ecb
  | cbc
  | ctr
  | gcm
  | keyDerivation
deriving DecidableEq, Repr

inductive Direction
  | encrypt
  | decrypt
deriving DecidableEq, Repr

/-- What CR configures. -/
structure Config where
  keySize : KeySize
  mode : AesMode
  direction : Direction
  datatype : DataType
deriving DecidableEq, Repr

structure CrypEngine where
  key : ByteArr 32 := zeroArr 32
  iv : Block := zeroArr 16
  keySize : KeySize := .k128
  mode : AesMode := .ecb
  direction : Direction := .encrypt
  datatype : DataType := .word
  enabled : Bool := false
  inBuf : Bytes := []
  outBuf : Block := zeroArr 16
  outPos : ℕ := 0
  outAvail : ℕ := 0
deriving DecidableEq

/-- `ctr_inc`, from the last byte on. -/
def incBytes : Bytes → Bytes
  | [] => []
  | b :: bs => if b + 1 ≠ 0 then (b + 1) :: bs else 0 :: incBytes bs

theorem incBytes_length : ∀ bs : Bytes, (incBytes bs).length = bs.length
  | [] => rfl
  | b :: bs => by
    unfold incBytes
    split
    · rfl
    · rw [List.length_cons, List.length_cons, incBytes_length bs]

/-- The next counter block of AES-CTR. -/
def ctrInc (iv : Block) : Block :=
  ⟨(incBytes iv.bytes.reverse).reverse, by rw [List.length_reverse, incBytes_length, List.length_reverse, iv.size]⟩

namespace CrypEngine

def config (e : CrypEngine) : Config := ⟨e.keySize, e.mode, e.direction, e.datatype⟩

/-- How many bytes the input buffer has, and whether the buffers are full or empty. -/
def inLen (e : CrypEngine) : ℕ := e.inBuf.length

def inputFull (e : CrypEngine) : Bool := e.inLen = 16
def inputEmpty (e : CrypEngine) : Bool := e.inLen = 0
def outputEmpty (e : CrypEngine) : Bool := e.outAvail = 0
def outputFull (e : CrypEngine) : Bool := e.outAvail = 16

def resetFifos (e : CrypEngine) : CrypEngine :=
  { e with inBuf := [], outBuf := zeroArr 16, outPos := 0, outAvail := 0 }

def aesEncryptBlock (A : Aes) (e : CrypEngine) (block : Block) : Block :=
  A.encrypt (e.key.bytes.take e.keySize.bytes) block

def aesDecryptBlock (A : Aes) (e : CrypEngine) (block : Block) : Block :=
  A.decrypt (e.key.bytes.take e.keySize.bytes) block

def aesBlock (A : Aes) (e : CrypEngine) (block : Block) : Block :=
  match e.direction with
  | .encrypt => e.aesEncryptBlock A block
  | .decrypt => e.aesDecryptBlock A block

def stageOutput (e : CrypEngine) (bytes : Block) : CrypEngine := { e with outBuf := bytes, outPos := 0, outAvail := 16 }

/-- GCM and the key derivation give no output here. -/
def processBlock (A : Aes) (e : CrypEngine) (block : Block) : CrypEngine :=
  let e := { e with inBuf := [] }
  match e.mode with
  | .ecb => e.stageOutput (e.aesBlock A block)
  | .cbc =>
    match e.direction with
    | .encrypt =>
      let out := e.aesBlock A (xorArr block e.iv)
      { e.stageOutput out with iv := out }
    | .decrypt => { e.stageOutput (xorArr (e.aesBlock A block) e.iv) with iv := block }
  | .ctr => { e.stageOutput (xorArr block (e.aesEncryptBlock A e.iv)) with iv := ctrInc e.iv }
  | .gcm => e
  | .keyDerivation => e

/-- A word more in the buffer; a full buffer is processed. -/
def writeDin (A : Aes) (e : CrypEngine) (value : UInt32) : CrypEngine :=
  if ¬ e.enabled ∨ e.inLen ≥ 16 then e
  else
    let buf := e.inBuf ++ e.datatype.bytes value
    if h : buf.length = 16 then e.processBlock A ⟨buf, h⟩ else { e with inBuf := buf }

def readDout (e : CrypEngine) : UInt32 × CrypEngine :=
  if e.outAvail < 4 then (0, e)
  else
    (e.datatype.swap (beWord ((e.outBuf.bytes.drop e.outPos).take 4)),
      { e with outPos := e.outPos + 4, outAvail := e.outAvail - 4 })

end CrypEngine

/-! ### GCM -/

inductive GcmPhase
  | init
  | header
  | payload
  | final
deriving DecidableEq, Repr

def GcmPhase.fromBits (bits : UInt32) : GcmPhase :=
  match bits &&& 0x3 with
  | 0 => .init
  | 1 => .header
  | 2 => .payload
  | _ => .final

structure GcmSession where
  phase : GcmPhase := .init
  h : Block := zeroArr 16
  j0 : Block := zeroArr 16
  tagMask : Block := zeroArr 16
  counter : Block := zeroArr 16
  y : Block := zeroArr 16
  aadBits : UInt64 := 0
  textBits : UInt64 := 0
deriving DecidableEq

/-- The last word of the block as a counter. -/
def ctr32Inc (counter : Block) : Block :=
  ⟨counter.bytes.take 12 ++ beBytes (beWord (counter.bytes.drop 12) + 1), by
    rw [List.length_append, List.length_take, counter.size, beBytes_length]
    rfl⟩

/-- A shift by one bit to the right, into it the last bit of `prev`. -/
def shiftBytes (prev : UInt8) : Bytes → Bytes
  | [] => []
  | b :: bs => ((b >>> 1) ||| ((prev &&& 1) <<< 7)) :: shiftBytes b bs

/-- One turn of the loop, on the product and the shifted factor. -/
def gf128Step (x : Bytes) (s : Bytes × Bytes) (i : ℕ) : Bytes × Bytes :=
  let bit := ((x[i / 8]?).getD 0 >>> UInt8.ofNat (7 - i % 8)) &&& 1
  let z := if bit ≠ 0 then s.1.zipWith (· ^^^ ·) s.2 else s.1
  let lsb := (s.2[15]?).getD 0 &&& 1
  let v := shiftBytes 0 s.2
  (z, if lsb ≠ 0 then v.modify 0 (· ^^^ 0xE1) else v)

theorem shiftBytes_length : ∀ (prev : UInt8) (bs : Bytes), (shiftBytes prev bs).length = bs.length
  | _, [] => rfl
  | prev, b :: bs => by rw [shiftBytes, List.length_cons, List.length_cons, shiftBytes_length b bs]

theorem gf128Step_length {x : Bytes} {s : Bytes × Bytes} (h : s.1.length = 16 ∧ s.2.length = 16) (i : ℕ) :
    (gf128Step x s i).1.length = 16 ∧ (gf128Step x s i).2.length = 16 := by
  unfold gf128Step
  refine ⟨?_, ?_⟩
  · dsimp only
    split
    · rw [List.length_zipWith, h.1, h.2]
      rfl
    · exact h.1
  · dsimp only
    split
    · rw [List.length_modify, shiftBytes_length, h.2]
    · rw [shiftBytes_length, h.2]

theorem gf128_length {x : Bytes} : ∀ (is : List ℕ) {s : Bytes × Bytes}, s.1.length = 16 ∧ s.2.length = 16 →
    (is.foldl (gf128Step x) s).1.length = 16 ∧ (is.foldl (gf128Step x) s).2.length = 16
  | [], _, h => h
  | i :: is, _, h => gf128_length is (gf128Step_length h i)

def gf128Mul (x y : Block) : Block :=
  ⟨((List.range 128).foldl (gf128Step x.bytes) (List.replicate 16 0, y.bytes)).1,
    (gf128_length _ ⟨List.length_replicate, y.size⟩).1⟩

def ghashUpdate (y block h : Block) : Block := gf128Mul (xorArr y block) h

namespace GcmSession

def init (A : Aes) (engine : CrypEngine) : GcmSession where
  h := engine.aesEncryptBlock A (zeroArr 16)
  j0 := engine.iv
  tagMask := engine.aesEncryptBlock A engine.iv
  counter := ctr32Inc engine.iv

def ingestAad (g : GcmSession) (block : Block) : GcmSession :=
  { g with y := ghashUpdate g.y block g.h, aadBits := g.aadBits + 128 }

def processPayload (A : Aes) (g : GcmSession) (dir : Direction) (engine : CrypEngine) (block : Block) :
    Block × GcmSession :=
  let out := xorArr block (engine.aesEncryptBlock A g.counter)
  let ct := match dir with
    | .encrypt => out
    | .decrypt => block
  (out, { g with counter := ctr32Inc g.counter, y := ghashUpdate g.y ct g.h, textBits := g.textBits + 128 })

/-- The length block that was written is not looked at. -/
def finalise (g : GcmSession) : Block × GcmSession :=
  let lenBlock : Block := ⟨toBe 8 g.aadBits.toNat ++ toBe 8 g.textBits.toNat, by
    rw [List.length_append, toBe_length, toBe_length]⟩
  let y := ghashUpdate g.y lenBlock g.h
  (xorArr y g.tagMask, { g with y := y })

end GcmSession

/-! ### What the register files share -/

/-- The engine, and the GCM session with its own input buffer. -/
structure Core where
  engine : CrypEngine := {}
  gcm : GcmSession := {}
  gcmInBuf : Bytes := []
deriving DecidableEq

namespace Core

/-- A whole block in a GCM phase. -/
def gcmBlock (A : Aes) (c : Core) (block : Block) : Core :=
  match c.gcm.phase with
  | .init => c
  | .header => { c with gcm := c.gcm.ingestAad block }
  | .payload =>
    let (out, gcm) := c.gcm.processPayload A c.engine.direction c.engine block
    { c with gcm := gcm, engine := c.engine.stageOutput out }
  | .final =>
    let (tag, gcm) := c.gcm.finalise
    { c with gcm := gcm, engine := c.engine.stageOutput tag }

def gcmDin (A : Aes) (c : Core) (value : UInt32) : Core :=
  if ¬ c.engine.enabled ∨ c.engine.mode ≠ .gcm then c
  else
    let buf := c.gcmInBuf ++ c.engine.datatype.bytes value
    if h : buf.length = 16 then { c with gcmInBuf := [] }.gcmBlock A ⟨buf, h⟩
    else { c with gcmInBuf := buf }

/-- A write to DIN. -/
def din (A : Aes) (c : Core) (value : UInt32) : Core :=
  if c.engine.enabled ∧ c.engine.mode = .gcm then c.gcmDin A value
  else { c with engine := c.engine.writeDin A value }

/-- A read of DOUT. -/
def dout (c : Core) : UInt32 × Core :=
  let (word, engine) := c.engine.readDout
  (word, { c with engine := engine })

def setEnabled (c : Core) (enabled : Bool) : Core := { c with engine := { c.engine with enabled := enabled } }

def resetFifos (c : Core) : Core := { c with engine := c.engine.resetFifos }

/-- A new session in the INIT phase, the same session in the others. -/
def setPhase (A : Aes) (c : Core) (phase : GcmPhase) : Core :=
  { c with gcm := if phase = .init then .init A c.engine else { c.gcm with phase := phase } }

/-- The phase changes and the enable bit stays. -/
def changePhase (A : Aes) (c : Core) (phase : GcmPhase) : Core :=
  let c := c.setPhase A phase
  { c with gcmInBuf := [], engine := c.engine.resetFifos }

/-- `commit_config`, with what CR and the key and IV registers hold. -/
def commitConfig (A : Aes) (c : Core) (cfg : Config) (key : ByteArr 32) (iv : Block) (phase : GcmPhase) : Core :=
  let engine : CrypEngine := { c.engine with
    keySize := cfg.keySize, datatype := cfg.datatype, direction := cfg.direction, mode := cfg.mode, key := key, iv := iv }
  let c : Core := { c with engine := engine.resetFifos, gcmInBuf := [] }
  if cfg.mode = .gcm then c.setPhase A phase else c

end Core

end Cryp
end STM32
end Simulators
