/-
# PIC32MZ crypto engine: one descriptor

`ce/algo.rs`, and the key and IV of `ce/bd.rs`. A descriptor is executed on the
bytes of its source buffer: a hash goes to UPDPTR, the output of a cipher to
DSTADDR. Nothing is written before the last step, so that a failed descriptor
leaves the memory as it is.

The loops over blocks run over a mutable buffer; reading a block outside of it
is a run-time check that fails.
-/
import Simulators.Lib.Modes
import Simulators.PIC32.Polling

namespace Simulators
namespace PIC32

/-- The cipher and digest crates. -/
structure Crates where
  aes : BlockCipher 16
  tdes : BlockCipher 8
  des : BlockCipher 8
  digests : Digests

/-- The errors of the engine. -/
inductive ChainError
  | readPhys (paddr len : ℕ)
  | writePhys (paddr len : ℕ)
  | unknownKeysize (keysize : UInt8)
  | aesCryptoalgo (cryptoalgo : UInt8)
  | aesCtrKeyLength (len : ℕ)
  | desKeyInit (len : ℕ)
  | desCryptoalgo (cryptoalgo : UInt8)
  | tdesKeyInit (len : ℕ)
  | tdesCryptoalgo (cryptoalgo : UInt8)
  | hashAlgo (algo : UInt8)
  | saAlgo (algo : UInt8)
  | descDisabled (bdAddr : ℕ) (bd : BufferDescriptor)
  | saFetchDisabled (bdAddr : ℕ)
deriving DecidableEq, Repr

def algoAes : UInt8 := 0x04
def algoTdes : UInt8 := 0x02
def algoDes : UInt8 := 0x01

def cryptoalgoAesGcm : UInt8 := 0xE
def cryptoalgoRctr : UInt8 := 0xD
def cryptoalgoRcbc : UInt8 := 0x9
def cryptoalgoRecb : UInt8 := 0x8
def cryptoalgoTcbc : UInt8 := 0x5
def cryptoalgoTecb : UInt8 := 0x4
def cryptoalgoCbc : UInt8 := 0x1
def cryptoalgoEcb : UInt8 := 0x0

def keysize128 : UInt8 := 0
def keysize192 : UInt8 := 1
def keysize256 : UInt8 := 2

namespace SecurityAssociation

/-- The last words of SA_ENCKEY, most significant byte first. -/
def cipherKey (sa : SecurityAssociation) (keyLenBytes : ℕ) : Bytes :=
  (sa.enckey.drop (sa.enckey.length - keyLenBytes / 4)).flatMap beBytes

/-- The last words of SA_ENCIV. -/
def cipherIv (sa : SecurityAssociation) (ivLenBytes : ℕ) : Bytes :=
  (sa.enciv.drop (sa.enciv.length - ivLenBytes / 4)).flatMap beBytes

end SecurityAssociation

/-! ### The loops over blocks -/

/-- `n` bytes of the buffer, by a slice or byte for byte; `oob` is the check that fails. -/
def blockAt (oob : Panic) (n : ℕ) (buf : Bytes) (off : ℕ) : Handler ChainError (ByteArr n) :=
  if h : ((buf.drop off).take n).length = n then .ok ⟨(buf.drop off).take n, h⟩ else .error (.panic oob)

/-- Blocks `i` up to `i + count` of the buffer replaced in turn. -/
def blockLoop {n : ℕ} {σ : Type} (oob : Panic) (g : σ → ByteArr n → Handler ChainError (ByteArr n × σ)) :
    ℕ → ℕ → σ → Bytes → Handler ChainError Bytes
  | 0, _, _, buf => .ok buf
  | count + 1, i, s, buf => do
    let block ← blockAt oob n buf (i * n)
    let (out, s) ← g s block
    let buf ← Handler.copyAt buf (i * n) out.bytes
    blockLoop oob g count (i + 1) s buf

def ecbLoop {n : ℕ} (f : ByteArr n → Handler ChainError (ByteArr n)) (buf : Bytes) (blockCount : ℕ) :
    Handler ChainError Bytes :=
  blockLoop .slice (fun _ block => do let out ← f block; return (out, ())) blockCount 0 () buf

/-- The block is read byte for byte, under the last block of output. -/
def cbcEncryptLoop {n : ℕ} (f : ByteArr n → Handler ChainError (ByteArr n)) (iv : ByteArr n) (buf : Bytes)
    (blockCount : ℕ) : Handler ChainError Bytes :=
  blockLoop .index (fun prev block => do let out ← f (xorArr block prev); return (out, out)) blockCount 0 iv buf

def cbcDecryptLoop {n : ℕ} (f : ByteArr n → Handler ChainError (ByteArr n)) (iv : ByteArr n) (buf : Bytes)
    (blockCount : ℕ) : Handler ChainError Bytes :=
  blockLoop .slice (fun prev ct => do let pt ← f ct; return (xorArr pt prev, ct)) blockCount 0 iv buf

/-! ### AES -/

def aesEcbBlock (C : Crates) (key : Bytes) (block : Block) (encrypt : Bool) : Handler ChainError Block :=
  if key.length = 16 ∨ key.length = 24 ∨ key.length = 32 then .ok (C.aes.block encrypt key block)
  else .error (.panic .unreachable)

def aesCbc (C : Crates) (key iv buf : Bytes) (msgLen : ℕ) (encrypt : Bool) : Handler ChainError Bytes := do
  let blockCount := msgLen / 16
  let prev ← Handler.array 16 (← Handler.slice iv 0 16)
  if encrypt then cbcEncryptLoop (aesEcbBlock C key · true) prev buf blockCount
  else cbcDecryptLoop (aesEcbBlock C key · false) prev buf blockCount

/-- The cipher `Ctr128BE` on the first bytes of the buffer. -/
def aesCtrRun (C : Crates) (key iv buf : Bytes) (msgLen : ℕ) : Handler ChainError Bytes := do
  let iv ← Handler.array 16 (← Handler.slice iv 0 16)
  if key.length = 16 ∨ key.length = 24 ∨ key.length = 32 then
    let data ← Handler.slice buf 0 msgLen
    return ctrStream (C.aes.encrypt key) iv data ++ buf.drop msgLen
  else Handler.refuse (.aesCtrKeyLength key.length)

/-- Counter mode from the second counter block of the IV. -/
def aesGcmStream (C : Crates) (key iv buf : Bytes) (msgLen : ℕ) : Handler ChainError Bytes := do
  let nonce ← Handler.array 12 (← Handler.slice iv 0 12)
  aesCtrRun C key (nonce.bytes ++ [0, 0, 0, 2]) buf msgLen

def aesRun (C : Crates) (cryptoalgo : UInt8) (key iv buf : Bytes) (msgLen : ℕ) (encrypt : Bool) :
    Handler ChainError Bytes :=
  if cryptoalgo = cryptoalgoRecb then ecbLoop (aesEcbBlock C key · encrypt) buf (msgLen / 16)
  else if cryptoalgo = cryptoalgoRcbc then aesCbc C key iv buf msgLen encrypt
  else if cryptoalgo = cryptoalgoRctr then aesCtrRun C key iv buf msgLen
  else if cryptoalgo = cryptoalgoAesGcm then aesGcmStream C key iv buf msgLen
  else Handler.refuse (.aesCryptoalgo cryptoalgo)

/-! ### DES and 3DES -/

/-- The body of `des_run` and `tdes_run`, after the key schedule. -/
def desModes (c : BlockCipher 8) (ecb cbc : UInt8) (unsupported : UInt8 → ChainError) (cryptoalgo : UInt8)
    (key iv buf : Bytes) (msgLen : ℕ) (encrypt : Bool) : Handler ChainError Bytes :=
  let blockCount := msgLen / 8
  if cryptoalgo = ecb then ecbLoop (fun block => .ok (c.block encrypt key block)) buf blockCount
  else if cryptoalgo = cbc then do
    let prev ← Handler.array 8 (← Handler.slice iv 0 8)
    if encrypt then cbcEncryptLoop (fun block => .ok (c.block true key block)) prev buf blockCount
    else cbcDecryptLoop (fun block => .ok (c.block false key block)) prev buf blockCount
  else Handler.refuse (unsupported cryptoalgo)

def desRun (C : Crates) (cryptoalgo : UInt8) (key iv buf : Bytes) (msgLen : ℕ) (encrypt : Bool) :
    Handler ChainError Bytes :=
  if key.length = 8 then
    desModes C.des cryptoalgoEcb cryptoalgoCbc .desCryptoalgo cryptoalgo key iv buf msgLen encrypt
  else Handler.refuse (.desKeyInit key.length)

def tdesRun (C : Crates) (cryptoalgo : UInt8) (key iv buf : Bytes) (msgLen : ℕ) (encrypt : Bool) :
    Handler ChainError Bytes :=
  if key.length = 24 then
    desModes C.tdes cryptoalgoTecb cryptoalgoTcbc .tdesCryptoalgo cryptoalgo key iv buf msgLen encrypt
  else Handler.refuse (.tdesKeyInit key.length)

/-! ### The descriptor -/

def hash (C : Crates) (algo : UInt8) (input : Bytes) : Handler ChainError Bytes :=
  if algo &&& algoSha256 ≠ 0 then .ok (C.digests.hash .sha256 input)
  else if algo &&& algoSha1 ≠ 0 then .ok (C.digests.hash .sha1 input)
  else if algo &&& algoMd5 ≠ 0 then .ok (C.digests.hash .md5 input)
  else Handler.refuse (.hashAlgo algo)

/-- `mem.read_phys`. -/
def readInto (mem : Memory) (paddr len : ℕ) : Handler ChainError Bytes :=
  Handler.orRefuse (.readPhys paddr len) (mem.readPhys paddr len)

/-- The result, with its words turned round unless OUT_SWAP is set, to RAM. -/
def writeOut (mem : Memory) (paddr : ℕ) (outSwap : Bool) (out : Bytes) : Handler ChainError Memory :=
  let out := if ¬ outSwap then byteSwapWords out else out
  Handler.orRefuse (.writePhys paddr out.length) (mem.writePhys paddr out)

def loadIv (sa : SecurityAssociation) (ivLen : ℕ) : Bytes :=
  if sa.ctrl.loadiv ≠ 0 then sa.cipherIv ivLen else List.replicate ivLen 0

def aesKeyLen (keysize : UInt8) : Handler ChainError ℕ :=
  if keysize = keysize128 then .ok 16
  else if keysize = keysize192 then .ok 24
  else if keysize = keysize256 then .ok 32
  else Handler.refuse (.unknownKeysize keysize)

/-- The source buffer, which is not read if it is empty. -/
def sourceBytes (bd : BufferDescriptor) (mem : Memory) : Handler ChainError Bytes :=
  if bd.buflen = 0 then .ok [] else readInto mem bd.srcaddr.toNat bd.buflen

def execute (C : Crates) (sa : SecurityAssociation) (bd : BufferDescriptor) (outSwap : Bool) (mem : Memory) :
    Handler ChainError Memory := do
  let input ← sourceBytes bd mem
  let msgLen := bd.msglen.toNat
  let algo := sa.ctrl.algo
  let encrypt : Bool := sa.ctrl.enctype = 1
  if algo &&& (algoSha256 ||| algoSha1 ||| algoMd5 ||| algoHmac1) ≠ 0 then
    let digest ← hash C algo (input.take (min msgLen input.length))
    writeOut mem bd.updptr.toNat outSwap digest
  else if algo &&& algoAes ≠ 0 then
    let keyLen ← aesKeyLen sa.ctrl.keysize
    let buf ← aesRun C sa.ctrl.cryptoalgo (sa.cipherKey keyLen) (loadIv sa 16) input msgLen encrypt
    writeOut mem bd.dstaddr.toNat outSwap buf
  else if algo &&& algoTdes ≠ 0 then
    let buf ← tdesRun C sa.ctrl.cryptoalgo (sa.cipherKey 24) (loadIv sa 8) input msgLen encrypt
    writeOut mem bd.dstaddr.toNat outSwap buf
  else if algo &&& algoDes ≠ 0 then
    let buf ← desRun C sa.ctrl.cryptoalgo (sa.cipherKey 8) (loadIv sa 8) input msgLen encrypt
    writeOut mem bd.dstaddr.toNat outSwap buf
  else Handler.refuse (.saAlgo algo)

end PIC32
end Simulators
