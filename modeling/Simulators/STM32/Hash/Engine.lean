/-
# STM32 HASH: the digest engine

`hash/mod.rs`. The hashers of the crates are a structure of functions with the
laws of a streaming interface. The engine keeps a hasher, the three phases of
the hardware HMAC, and one snapshot of all of these.

The count of bytes fed and the capture flag, which nothing reads, are left out.
-/
import Simulators.Lib.Blocks
import Simulators.STM32.DataType

namespace Simulators
namespace STM32
namespace Hash

inductive Algo
  | sha1
  | md5
  | sha224
  | sha256
  | sha384
  | sha512
  | sha512_224
  | sha512_256
  | sha3_224
  | sha3_256
  | sha3_384
  | sha3_512
  | shake128
  | shake256
deriving DecidableEq, Repr

def Algo.outputWords : Algo → ℕ
  | .sha1 => 5
  | .md5 | .shake128 => 4
  | .sha224 | .sha3_224 | .sha512_224 => 7
  | .sha256 | .sha3_256 | .shake256 | .sha512_256 => 8
  | .sha384 | .sha3_384 => 12
  | .sha512 | .sha3_512 => 16

def Algo.blockSize : Algo → ℕ
  | .md5 | .sha1 | .sha224 | .sha256 => 64
  | .sha384 | .sha512 | .sha512_224 | .sha512_256 => 128
  | .sha3_224 => 144
  | .sha3_256 => 136
  | .sha3_384 => 104
  | .sha3_512 => 72
  | .shake128 => 168
  | .shake256 => 136

theorem Algo.output_le_block (a : Algo) : 4 * a.outputWords ≤ a.blockSize := by cases a <;> decide

/-- A digest fits the result registers. -/
theorem Algo.outputWords_le (a : Algo) : a.outputWords ≤ 16 := by cases a <;> decide

/-- The hashers: `fresh_hasher`, `update` and `finalize_reset` of a clone. -/
structure Hashers where
  State : Type
  new : Algo → State
  update : State → Bytes → State
  finalize : State → Bytes
  update_nil : ∀ s, update s [] = s
  update_append : ∀ s a b, update (update s a) b = update s (a ++ b)
  finalize_length : ∀ a m, (finalize (update (new a) m)).length = 4 * a.outputWords

/-- Digest of a whole message. -/
def Hashers.digest (D : Hashers) (a : Algo) (m : Bytes) : Bytes := D.finalize (D.update (D.new a) m)

inductive HmacPhase
  | off
  | key1
  | msg
  | key2
deriving DecidableEq, Repr

/-- `result` are the digest words, first to last. -/
structure Engine (D : Hashers) where
  algo : Algo := .sha256
  datatype : DataType := .byte
  hasher : Option D.State := none
  finalised : Bool := false
  result : List UInt32 := List.replicate 16 0
  hmacPhase : HmacPhase := .off
  hmacKeyBuf : Bytes := []
  hmacOuter : Option D.State := none
  savedHasher : Option D.State := none
  savedHmacPhase : HmacPhase := .off
  savedHmacKeyBuf : Bytes := []
  savedHmacOuter : Option D.State := none

/-- `resize(n, 0)`. -/
def resize (n : ℕ) (b : Bytes) : Bytes := b.take n ++ List.replicate (n - b.length) 0

namespace Engine

variable {D : Hashers}

def initWithMode (_ : Engine D) (algo : Algo) (datatype : DataType) (hmac : Bool) : Engine D where
  algo := algo
  datatype := datatype
  hasher := some (D.new algo)
  hmacPhase := if hmac then .key1 else .off

def captureSnapshot (e : Engine D) : Engine D :=
  match e.hasher with
  | some h =>
    { e with savedHasher := some h, savedHmacPhase := e.hmacPhase, savedHmacKeyBuf := e.hmacKeyBuf,
             savedHmacOuter := e.hmacOuter }
  | none => e

/-- The snapshot stays, for further restores. -/
def restoreFromSnapshot (e : Engine D) : Engine D :=
  match e.savedHasher with
  | some h =>
    { e with hasher := some h, finalised := false, result := List.replicate 16 0, hmacPhase := e.savedHmacPhase,
             hmacKeyBuf := e.savedHmacKeyBuf, hmacOuter := e.savedHmacOuter }
  | none => e

def hasSnapshot (e : Engine D) : Bool := e.savedHasher.isSome

/-- The bytes of a key are collected, the ones of its repetition dropped. -/
def feedWord (e : Engine D) (value : UInt32) (validBytes : ℕ) : Engine D :=
  if e.finalised then e
  else
    let bytes := (e.datatype.bytes value).take (min validBytes 4)
    match e.hmacPhase with
    | .key1 => { e with hmacKeyBuf := e.hmacKeyBuf ++ bytes }
    | .key2 => e
    | .off | .msg =>
      match e.hasher with
      | some h => { e with hasher := some (D.update h bytes) }
      | none => e

/-- The words of the digest over the result registers. -/
def stageDigest (e : Engine D) (digest : Bytes) : Engine D :=
  let words := ((chunks 4 digest).map fun chunk => beWord (resize 4 chunk)).take e.result.length
  { e with result := words ++ e.result.drop words.length }

def finalizePlain (e : Engine D) : Engine D :=
  match e.hasher with
  | some h => { e.stageDigest (D.finalize h) with finalised := true }
  | none => e

/-- A key longer than a block is hashed first, and then stays in the buffer. -/
def hmacFinishKey1 (e : Engine D) : Engine D :=
  let long := e.hmacKeyBuf.length > e.algo.blockSize
  let keyPad := resize e.algo.blockSize
    (if long then D.finalize (D.update (D.new e.algo) e.hmacKeyBuf) else e.hmacKeyBuf)
  { e with
    hmacKeyBuf := if long then e.hmacKeyBuf else []
    hasher := some (D.update (D.new e.algo) (keyPad.map (· ^^^ 0x36)))
    hmacOuter := some (D.update (D.new e.algo) (keyPad.map (· ^^^ 0x5c)))
    hmacPhase := .msg }

def hmacFinishMsg (e : Engine D) : Engine D :=
  match e.hasher, e.hmacOuter with
  | some h, some outer =>
    { e with hasher := some (D.update outer (D.finalize h)), hmacOuter := none, hmacPhase := .key2 }
  | _, _ => e

def hmacFinishKey2 (e : Engine D) : Engine D :=
  match e.hasher with
  | some h => { e.stageDigest (D.finalize h) with finalised := true, hmacPhase := .off }
  | none => e

def finalize (e : Engine D) : Engine D :=
  if e.finalised then e
  else
    match e.hmacPhase with
    | .off => e.finalizePlain
    | .key1 => e.hmacFinishKey1
    | .msg => e.hmacFinishMsg
    | .key2 => e.hmacFinishKey2

end Engine

end Hash
end STM32
end Simulators
