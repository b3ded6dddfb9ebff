/-
# PIC32MZ crypto engine: what a descriptor asks for

A security association selects a task: a digest of the message, or a pass of a
cipher over it. `Suite.output` says what a pass leaves in the buffer, by the
modes of operation, and `Task.reach` how many bytes of the buffer it goes over.
`perform` is the descriptor as a whole, without loops and without run-time
checks: a task that reaches past its buffer overruns.

Key theorem: `verdict_execute`.
-/
import Simulators.PIC32.Algo

namespace Simulators
namespace PIC32

inductive AesKeySize
  | k128
  | k192
  | k256
deriving DecidableEq, Repr

def AesKeySize.bytes : AesKeySize → ℕ
  | .k128 => 16
  | .k192 => 24
  | .k256 => 32

inductive AesMode
  | blocks (m : Chaining)
  | ctr
  | gcm
deriving DecidableEq, Repr

/-- A cipher with its mode. -/
inductive Suite
  | aes (k : AesKeySize) (m : AesMode)
  | tdes (m : Chaining)
  | des (m : Chaining)
deriving DecidableEq, Repr

/-- The first bytes as an array, zeros if there are not enough. -/
def firstBytes (n : ℕ) (b : Bytes) : ByteArr n := (toArr n (b.take n)).getD (zeroArr n)

namespace Suite

def keyLen : Suite → ℕ
  | .aes k _ => k.bytes
  | .tdes _ => 24
  | .des _ => 8

def ivLen : Suite → ℕ
  | .aes _ _ => 16
  | .tdes _ => 8
  | .des _ => 8

/-- The bytes of the buffer that a pass over a message goes over. -/
def reach : Suite → ℕ → ℕ
  | .aes _ (.blocks _), msgLen => 16 * (msgLen / 16)
  | .aes _ .ctr, msgLen => msgLen
  | .aes _ .gcm, msgLen => msgLen
  | .tdes _, msgLen => 8 * (msgLen / 8)
  | .des _, msgLen => 8 * (msgLen / 8)

/-- The mode over data; the nonce of GCM is the first 12 bytes of the IV. -/
def pass (C : Crates) (encrypt : Bool) (key iv data : Bytes) : Suite → Bytes
  | .aes _ (.blocks m) => flat (m.run C.aes encrypt key (firstBytes 16 iv) (wholeBlocks 16 data))
  | .aes _ .ctr => ctrStream (C.aes.encrypt key) (firstBytes 16 iv) data
  | .aes _ .gcm => gctrStream (C.aes.encrypt key) (nonceBlock (firstBytes 12 iv) 1) data
  | .tdes m => flat (m.run C.tdes encrypt key (firstBytes 8 iv) (wholeBlocks 8 data))
  | .des m => flat (m.run C.des encrypt key (firstBytes 8 iv) (wholeBlocks 8 data))

/-- The buffer after a pass over a message of `msgLen` bytes at its start. -/
def output (C : Crates) (encrypt : Bool) (key iv : Bytes) (msgLen : ℕ) (input : Bytes) (s : Suite) : Bytes :=
  s.pass C encrypt key iv (input.take (s.reach msgLen)) ++ input.drop (s.reach msgLen)

theorem reach_le (s : Suite) (msgLen : ℕ) : s.reach msgLen ≤ msgLen := by
  rcases s with ⟨_, (_ | _ | _)⟩ | _ | _
  · exact Nat.mul_div_le msgLen 16
  · exact Nat.le_refl msgLen
  · exact Nat.le_refl msgLen
  · exact Nat.mul_div_le msgLen 8
  · exact Nat.mul_div_le msgLen 8

end Suite

inductive Task
  | digest (a : HashAlgo)
  | cipher (s : Suite)
deriving DecidableEq, Repr

/-- The hash bits of ALGO, by priority. -/
def hashTask (algo : UInt8) : Option HashAlgo :=
  if algo &&& algoSha256 ≠ 0 then some .sha256
  else if algo &&& algoSha1 ≠ 0 then some .sha1
  else if algo &&& algoMd5 ≠ 0 then some .md5
  else none

def aesKeySize (keysize : UInt8) : Option AesKeySize :=
  if keysize = keysize128 then some .k128
  else if keysize = keysize192 then some .k192
  else if keysize = keysize256 then some .k256
  else none

def aesMode (cryptoalgo : UInt8) : Option AesMode :=
  if cryptoalgo = cryptoalgoRecb then some (.blocks .ecb)
  else if cryptoalgo = cryptoalgoRcbc then some (.blocks .cbc)
  else if cryptoalgo = cryptoalgoRctr then some .ctr
  else if cryptoalgo = cryptoalgoAesGcm then some .gcm
  else none

def chaining (ecb cbc cryptoalgo : UInt8) : Option Chaining :=
  if cryptoalgo = ecb then some .ecb
  else if cryptoalgo = cbc then some .cbc
  else none

/-- What `sa_ctrl` selects: a hash bit goes first, then AES, 3DES and DES. -/
def task (c : SaCtrl) : Option Task :=
  if c.algo &&& (algoSha256 ||| algoSha1 ||| algoMd5 ||| algoHmac1) ≠ 0 then (hashTask c.algo).map .digest
  else if c.algo &&& algoAes ≠ 0 then
    (aesKeySize c.keysize).bind fun k => (aesMode c.cryptoalgo).map fun m => .cipher (.aes k m)
  else if c.algo &&& algoTdes ≠ 0 then
    (chaining cryptoalgoTecb cryptoalgoTcbc c.cryptoalgo).map fun m => .cipher (.tdes m)
  else if c.algo &&& algoDes ≠ 0 then
    (chaining cryptoalgoEcb cryptoalgoCbc c.cryptoalgo).map fun m => .cipher (.des m)
  else none

namespace Task

def reach : Task → ℕ → ℕ
  | .digest _, _ => 0
  | .cipher s, msgLen => s.reach msgLen

/-- Where the result goes. -/
def target (bd : BufferDescriptor) : Task → UInt32
  | .digest _ => bd.updptr
  | .cipher _ => bd.dstaddr

def output (C : Crates) (sa : SecurityAssociation) (msgLen : ℕ) (input : Bytes) : Task → Bytes
  | .digest a => C.digests.hash a (input.take msgLen)
  | .cipher s => s.output C (sa.ctrl.enctype = 1) (sa.cipherKey s.keyLen) (loadIv sa s.ivLen) msgLen input

end Task

/-- How a descriptor ends. -/
inductive Verdict
  | refused
  | overrun
  | done (mem : Memory)

/-- The words of a result as they are written. -/
def wordOrder (outSwap : Bool) (out : Bytes) : Bytes := if outSwap then out else byteSwapWords out

/-- A task on the bytes of the buffer. -/
def performOn (C : Crates) (sa : SecurityAssociation) (bd : BufferDescriptor) (outSwap : Bool) (mem : Memory)
    (input : Bytes) : Option Task → Verdict
  | none => .refused
  | some t =>
    if bd.buflen < t.reach bd.msglen.toNat then .overrun
    else
      match mem.writePhys (t.target bd).toNat (wordOrder outSwap (t.output C sa bd.msglen.toNat input)) with
      | some mem => .done mem
      | none => .refused

def perform (C : Crates) (sa : SecurityAssociation) (bd : BufferDescriptor) (outSwap : Bool) (mem : Memory) : Verdict :=
  match mem.readPhys bd.srcaddr.toNat bd.buflen with
  | none => .refused
  | some input => performOn C sa bd outSwap mem input (task sa.ctrl)

/-- How an execution ended. -/
def verdict : Handler ChainError Memory → Verdict
  | .ok mem => .done mem
  | .error (.refuse _) => .refused
  | .error (.panic _) => .overrun

/-! ### The loops over blocks -/

section Loop

variable {n : ℕ} {σ : Type} {p : Panic} {g : σ → ByteArr n → Handler ChainError (ByteArr n × σ)}
  {r : σ → ByteArr n → ByteArr n × σ}

theorem blockAt_of_le (p : Panic) (buf : Bytes) (off : ℕ) (h : off + n ≤ buf.length) :
    ∃ b : ByteArr n, blockAt p n buf off = .ok b ∧ b.bytes = (buf.drop off).take n := by
  have hlen : ((buf.drop off).take n).length = n := by
    rw [List.length_take, List.length_drop]
    omega
  exact ⟨⟨(buf.drop off).take n, hlen⟩, dif_pos hlen, rfl⟩

theorem blockAt_of_lt (p : Panic) (buf : Bytes) (off : ℕ) (hoff : off ≤ buf.length) (h : buf.length < off + n) :
    blockAt p n buf off = .error (.panic p) := by
  apply dif_neg
  rw [List.length_take, List.length_drop]
  omega

/-- The loop within the buffer replaces its blocks. -/
theorem blockLoop_flat (hg : ∀ s b, g s b = .ok (r s b)) : ∀ (bs : List (ByteArr n)) (i : ℕ) (s : σ)
    (front rest : Bytes), front.length = i * n →
      blockLoop p g bs.length i s (front ++ (flat bs ++ rest)) =
        .ok (front ++ (flat (blockScan r s bs) ++ rest))
  | [], _, _, _, _, _ => rfl
  | b :: bs, i, s, front, rest, hfront => by
    have hout := (r s b).1.size
    have hdrop : (front ++ (flat (b :: bs) ++ rest)).drop (i * n) = flat (b :: bs) ++ rest := List.drop_left' hfront
    have hread : blockAt p n (front ++ (flat (b :: bs) ++ rest)) (i * n) = .ok b := by
      obtain ⟨block, hblock, hbytes⟩ := blockAt_of_le (n := n) p (front ++ (flat (b :: bs) ++ rest))
        (i * n) (by rw [List.length_append, hfront, flat_cons, List.append_assoc, List.length_append, b.size]; omega)
      rw [hblock]
      congr 1
      apply ByteArr.ext
      rw [hbytes, hdrop, flat_cons, List.append_assoc, List.take_left' b.size]
    have hcopy : (Handler.copyAt (front ++ (flat (b :: bs) ++ rest)) (i * n) (r s b).1.bytes : Handler ChainError _) =
        .ok ((front ++ (r s b).1.bytes) ++ (flat bs ++ rest)) := by
      have hrest : (front ++ (flat (b :: bs) ++ rest)).drop (i * n + n) = flat bs ++ rest := by
        rw [← List.drop_drop, hdrop, flat_cons, List.append_assoc, List.drop_left' b.size]
      rw [Handler.copyAt, hout, if_pos, List.take_left' hfront, hrest]
      rw [List.length_append, hfront, flat_cons, List.append_assoc, List.length_append, b.size]
      omega
    have hnext : (front ++ (r s b).1.bytes).length = (i + 1) * n := by
      rw [List.length_append, hfront, hout, Nat.succ_mul]
    rw [List.length_cons, blockLoop, hread, Handler.ok_bind, hg, Handler.ok_bind]
    dsimp only
    rw [hcopy, Handler.ok_bind, blockLoop_flat hg bs (i + 1) _ _ rest hnext, blockScan, flat_cons]
    simp only [List.append_assoc]

/-- A loop that goes past the buffer fails. -/
theorem blockLoop_overrun (hg : ∀ s b, g s b = .ok (r s b)) : ∀ (count i : ℕ) (s : σ) (buf : Bytes),
    i * n ≤ buf.length → buf.length < (i + count) * n → blockLoop p g count i s buf = .error (.panic p)
  | 0, i, _, buf, hle, hlt => by
    rw [Nat.add_zero] at hlt
    omega
  | count + 1, i, s, buf, hle, hlt => by
    rw [blockLoop]
    by_cases hin : i * n + n ≤ buf.length
    · obtain ⟨b, hread, -⟩ := blockAt_of_le (n := n) p buf (i * n) hin
      have hout := (r s b).1.size
      have hcopy : (Handler.copyAt buf (i * n) (r s b).1.bytes : Handler ChainError _) =
          .ok (buf.take (i * n) ++ (r s b).1.bytes ++ buf.drop (i * n + n)) := by
        rw [Handler.copyAt, hout, if_pos hin]
      have hlen : (buf.take (i * n) ++ (r s b).1.bytes ++ buf.drop (i * n + n)).length = buf.length := by
        rw [List.length_append, List.length_append, List.length_take, List.length_drop, hout]
        omega
      have hsucc : i + 1 + count = i + (count + 1) := by omega
      rw [hread, Handler.ok_bind, hg, Handler.ok_bind]
      dsimp only
      rw [hcopy, Handler.ok_bind]
      apply blockLoop_overrun hg count (i + 1) _ _
      · rw [hlen, Nat.succ_mul]
        exact hin
      · rw [hlen, hsucc]
        exact hlt
    · rw [blockAt_of_lt p buf (i * n) hle (by omega), Handler.error_bind]

/-- The loop over the first `count` blocks of a buffer. -/
theorem blockLoop_eq (p : Panic) (r : σ → ByteArr n → ByteArr n × σ) (hn : 0 < n) (hg : ∀ s b, g s b = .ok (r s b))
    (count : ℕ) (s : σ) (buf : Bytes) :
    blockLoop p g count 0 s buf =
      if buf.length < n * count then .error (.panic p)
      else .ok (flat (blockScan r s (wholeBlocks n (buf.take (n * count)))) ++ buf.drop (n * count)) := by
  split
  · rename_i h
    apply blockLoop_overrun hg count 0 s buf
    · rw [Nat.zero_mul]
      exact Nat.zero_le _
    · rwa [Nat.zero_add, Nat.mul_comm]
  · rename_i h
    have hlen : (buf.take (n * count)).length = n * count := by
      rw [List.length_take]
      omega
    obtain ⟨bs, hbs, hcount⟩ := exists_flat count _ hlen
    have hloop := blockLoop_flat (p := p) hg bs 0 s [] (buf.drop (n * count)) (Nat.zero_mul n).symm
    rw [List.nil_append, hbs, List.take_append_drop, hcount, List.nil_append] at hloop
    rw [hloop, ← hbs, wholeBlocks_flat hn]

end Loop

/-! ### Passes -/

/-- The handler leaves `out` if the buffer is long enough, and fails a run-time check otherwise. -/
structure Passes (reach : ℕ) (out buf : Bytes) (x : Handler ChainError Bytes) : Prop where
  fits : reach ≤ buf.length → x = .ok out
  overruns : buf.length < reach → ∃ p, x = .error (.panic p)

section Passes

variable {C : Crates} {key iv buf : Bytes} {msgLen : ℕ} {encrypt : Bool}

theorem Passes.of_ite {p : Panic} {reach : ℕ} {out : Bytes} {x : Handler ChainError Bytes}
    (h : x = if buf.length < reach then .error (.panic p) else .ok out) : Passes reach out buf x where
  fits := fun hle => by rw [h, if_neg (Nat.not_lt.mpr hle)]
  overruns := fun hlt => ⟨p, by rw [h, if_pos hlt]⟩

/-- The loops of a chaining mode. -/
theorem chainingLoops {n : ℕ} (hn : 0 < n) (c : BlockCipher n) (encrypt : Bool) (key buf : Bytes) (prev : ByteArr n)
    (count : ℕ) {f : Bool → ByteArr n → Handler ChainError (ByteArr n)} (hf : ∀ enc b, f enc b = .ok (c.block enc key b)) :
    Passes (n * count)
        (flat (Chaining.ecb.run c encrypt key prev (wholeBlocks n (buf.take (n * count)))) ++ buf.drop (n * count)) buf
        (ecbLoop (f encrypt) buf count) ∧
      Passes (n * count)
        (flat (Chaining.cbc.run c encrypt key prev (wholeBlocks n (buf.take (n * count)))) ++ buf.drop (n * count)) buf
        (if encrypt then cbcEncryptLoop (f true) prev buf count else cbcDecryptLoop (f false) prev buf count) := by
  constructor
  · have hloop := blockLoop_eq (g := fun (_ : Unit) b => do let out ← f encrypt b; return (out, ())) .slice
      (fun _ b => (c.block encrypt key b, ())) hn (fun _ b => by rw [hf]; rfl) count () buf
    rw [blockScan_map] at hloop
    exact .of_ite hloop
  · cases encrypt with
    | true =>
      have hloop := blockLoop_eq (g := fun prev b => do let out ← f true (xorArr b prev); return (out, out)) .index
        (fun prev b => (c.block true key (xorArr b prev), c.block true key (xorArr b prev))) hn
        (fun _ b => by rw [hf]; rfl) count prev buf
      rw [blockScan_cbcEncrypt] at hloop
      exact .of_ite hloop
    | false =>
      have hloop := blockLoop_eq (g := fun prev ct => do let pt ← f false ct; return (xorArr pt prev, ct)) .slice
        (fun prev ct => (xorArr (c.block false key ct) prev, ct)) hn (fun _ b => by rw [hf]; rfl) count prev buf
      rw [blockScan_cbcDecrypt] at hloop
      exact .of_ite hloop

theorem firstBytes_eq {n : ℕ} (h : n ≤ iv.length) :
    (do Handler.array n (← Handler.slice iv 0 n) : Handler ChainError (ByteArr n)) = .ok (firstBytes n iv) := by
  have hlen : (iv.take n).length = n := by
    rw [List.length_take]
    omega
  have hslice : (Handler.slice iv 0 n : Handler ChainError Bytes) = .ok (iv.take n) := by
    rw [Handler.slice, if_pos ⟨Nat.zero_le _, h⟩, List.drop_zero, Nat.sub_zero]
  rw [hslice, Handler.ok_bind, firstBytes, toArr, dif_pos hlen]
  exact Handler.array_bytes ⟨iv.take n, hlen⟩

theorem aesEcbBlock_eq (k : AesKeySize) (hkey : key.length = k.bytes) (enc : Bool) (b : Block) :
    aesEcbBlock C key b enc = .ok (C.aes.block enc key b) := by
  apply if_pos
  rw [hkey]
  cases k <;> decide

/-- The stream cipher goes over the message. -/
theorem aesCtrRun_passes (k : AesKeySize) (hkey : key.length = k.bytes) (hiv : 16 ≤ iv.length) :
    Passes msgLen (ctrStream (C.aes.encrypt key) (firstBytes 16 iv) (buf.take msgLen) ++ buf.drop msgLen) buf
      (aesCtrRun C key iv buf msgLen) := by
  have hlen : key.length = 16 ∨ key.length = 24 ∨ key.length = 32 := by
    rw [hkey]
    cases k <;> decide
  have hfirst := firstBytes_eq hiv
  rw [Handler.bind_eq_ok] at hfirst
  obtain ⟨b, hslice, harray⟩ := hfirst
  apply Passes.of_ite (p := .slice)
  rw [aesCtrRun, hslice, Handler.ok_bind, harray, Handler.ok_bind, if_pos hlen, Handler.slice]
  by_cases h : msgLen ≤ buf.length
  · rw [if_pos ⟨Nat.zero_le _, h⟩, if_neg (Nat.not_lt.mpr h)]
    rfl
  · rw [if_neg (fun hc => h hc.2), if_pos (Nat.lt_of_not_le h)]
    rfl

theorem aesRun_passes {k : AesKeySize} {m : AesMode} {cryptoalgo : UInt8} (hm : aesMode cryptoalgo = some m)
    (hkey : key.length = k.bytes) (hiv : 16 ≤ iv.length) (hbuf : buf.length < 2 ^ 32) :
    Passes ((Suite.aes k m).reach msgLen) ((Suite.aes k m).output C encrypt key iv msgLen buf) buf
      (aesRun C cryptoalgo key iv buf msgLen encrypt) := by
  have hloops := chainingLoops (by decide : 0 < 16) C.aes encrypt key buf (firstBytes 16 iv) (msgLen / 16)
    (f := fun enc b => aesEcbBlock C key b enc) (aesEcbBlock_eq k hkey)
  unfold aesMode at hm
  unfold aesRun
  split_ifs at hm ⊢ with hecb hcbc hctr hgcm <;> cases hm
  · exact hloops.1
  · have hfirst := firstBytes_eq hiv
    rw [Handler.bind_eq_ok] at hfirst
    obtain ⟨b, hslice, harray⟩ := hfirst
    rw [aesCbc, hslice, Handler.ok_bind, harray, Handler.ok_bind]
    exact hloops.2
  · exact aesCtrRun_passes k hkey hiv
  · have hfirst := firstBytes_eq (show 12 ≤ iv.length by omega)
    rw [Handler.bind_eq_ok] at hfirst
    obtain ⟨b, hslice, harray⟩ := hfirst
    have hcounter : (firstBytes 12 iv).bytes ++ [0, 0, 0, 2] = (nonceBlock (firstBytes 12 iv) 2).bytes := rfl
    have hblock : firstBytes 16 ((firstBytes 12 iv).bytes ++ [0, 0, 0, 2]) = nonceBlock (firstBytes 12 iv) 2 := by
      rw [hcounter, firstBytes, List.take_of_length_le (Nat.le_of_eq (nonceBlock _ 2).size), toArr_bytes]
      rfl
    have hlen : ((firstBytes 12 iv).bytes ++ [0, 0, 0, 2]).length = 16 := by
      rw [hcounter]
      exact (nonceBlock _ 2).size
    have hctr : Passes msgLen _ buf (aesCtrRun C key ((firstBytes 12 iv).bytes ++ [0, 0, 0, 2]) buf msgLen) :=
      aesCtrRun_passes k hkey (Nat.le_of_eq hlen.symm)
    have hshort : (buf.take msgLen).length < 2 ^ 32 :=
      Nat.lt_of_le_of_lt (List.length_take_le' msgLen buf) hbuf
    rw [hblock, ← gctrStream_eq_ctrStream _ _ hshort] at hctr
    rw [aesGcmStream, hslice, Handler.ok_bind, harray, Handler.ok_bind]
    exact hctr

theorem aesRun_unsupported {cryptoalgo : UInt8} (hm : aesMode cryptoalgo = none) :
    aesRun C cryptoalgo key iv buf msgLen encrypt = Handler.refuse (.aesCryptoalgo cryptoalgo) := by
  unfold aesMode at hm
  unfold aesRun
  split_ifs at hm ⊢
  rfl

/-- Both ciphers of 8-byte blocks. -/
theorem desModes_passes {c : BlockCipher 8} {ecb cbc : UInt8} {unsupported : UInt8 → ChainError} {cryptoalgo : UInt8}
    {m : Chaining} (hm : chaining ecb cbc cryptoalgo = some m) (hiv : 8 ≤ iv.length) :
    Passes (8 * (msgLen / 8))
      (flat (m.run c encrypt key (firstBytes 8 iv) (wholeBlocks 8 (buf.take (8 * (msgLen / 8))))) ++
        buf.drop (8 * (msgLen / 8))) buf
      (desModes c ecb cbc unsupported cryptoalgo key iv buf msgLen encrypt) := by
  have hloops := chainingLoops (by decide : 0 < 8) c encrypt key buf (firstBytes 8 iv) (msgLen / 8)
    (f := fun enc b => .ok (c.block enc key b)) (fun _ _ => rfl)
  have hfirst := firstBytes_eq hiv
  rw [Handler.bind_eq_ok] at hfirst
  obtain ⟨b, hslice, harray⟩ := hfirst
  rw [desModes]
  by_cases hecb : cryptoalgo = ecb
  · rw [chaining, if_pos hecb, Option.some.injEq] at hm
    rw [if_pos hecb, ← hm]
    exact hloops.1
  · by_cases hcbc : cryptoalgo = cbc
    · rw [chaining, if_neg hecb, if_pos hcbc, Option.some.injEq] at hm
      rw [if_neg hecb, if_pos hcbc, hslice, Handler.ok_bind, harray, Handler.ok_bind, ← hm]
      exact hloops.2
    · rw [chaining, if_neg hecb, if_neg hcbc] at hm
      cases hm

theorem desModes_unsupported {c : BlockCipher 8} {ecb cbc : UInt8} {unsupported : UInt8 → ChainError}
    {cryptoalgo : UInt8} (hm : chaining ecb cbc cryptoalgo = none) :
    desModes c ecb cbc unsupported cryptoalgo key iv buf msgLen encrypt = Handler.refuse (unsupported cryptoalgo) := by
  unfold chaining at hm
  unfold desModes
  split_ifs at hm ⊢
  rfl

end Passes

/-! ### Descriptors -/

namespace SecurityAssociation

/-- The key and IV fields have their lengths. -/
structure Sized (sa : SecurityAssociation) : Prop where
  enckey : sa.enckey.length = 8
  enciv : sa.enciv.length = 4

theorem sized_of_readPhys {mem : Memory} {paddr : ℕ} {sa : SecurityAssociation} (h : readPhys mem paddr = some sa) :
    sa.Sized := by
  rw [readPhys, Option.map_eq_some_iff] at h
  obtain ⟨b, -, rfl⟩ := h
  exact ⟨by simp [ofBytes], by simp [ofBytes]⟩

namespace Sized

variable {sa : SecurityAssociation} (h : sa.Sized)
include h

theorem cipherKey_length (s : Suite) : (sa.cipherKey s.keyLen).length = s.keyLen := by
  rw [cipherKey, flatMap_beBytes_length, List.length_drop, h.enckey]
  rcases s with ⟨(_ | _ | _), _⟩ | _ | _ <;> simp [Suite.keyLen, AesKeySize.bytes]

theorem loadIv_length (s : Suite) : (loadIv sa s.ivLen).length = s.ivLen := by
  rw [loadIv]
  split
  · rw [cipherIv, flatMap_beBytes_length, List.length_drop, h.enciv]
    rcases s with _ | _ | _ <;> simp [Suite.ivLen]
  · exact List.length_replicate

end Sized

end SecurityAssociation

section Perform

variable {C : Crates} {sa : SecurityAssociation} {bd : BufferDescriptor} {outSwap : Bool} {mem : Memory} {input : Bytes}

theorem buflen_lt (bd : BufferDescriptor) : bd.buflen < 2 ^ 16 := by
  have hle : bd.buflen ≤ (0xFFFF : UInt32).toNat := by
    rw [BufferDescriptor.buflen, BdCtrl.buflen, UInt32.toNat_and]
    exact Nat.and_le_right
  exact Nat.lt_of_le_of_lt hle (by decide)

/-- An empty buffer reads as no bytes. -/
theorem sourceBytes_eq : sourceBytes bd mem = readInto mem bd.srcaddr.toNat bd.buflen := by
  rw [sourceBytes]
  split
  · rename_i h
    rw [h]
    rfl
  · rfl

theorem length_of_readPhys {paddr n : ℕ} {b : Bytes} (h : mem.readPhys paddr n = some b) : b.length = n := by
  rw [Memory.readPhys] at h
  split at h
  · rw [← Option.some.inj h, Memory.load_length]
  · cases h

theorem verdict_writeOut (paddr : ℕ) (out : Bytes) : verdict (writeOut mem paddr outSwap out) =
    match mem.writePhys paddr (wordOrder outSwap out) with
    | some mem => .done mem
    | none => .refused := by
  have hswap : (if ¬ outSwap = true then byteSwapWords out else out) = wordOrder outSwap out := by
    cases outSwap <;> rfl
  rw [writeOut, hswap]
  cases mem.writePhys paddr (wordOrder outSwap out) <;> rfl

/-- A pass of a cipher and its write. -/
theorem verdict_cipher {s : Suite} {x : Handler ChainError Bytes} (hlen : input.length = bd.buflen)
    (hx : Passes (s.reach bd.msglen.toNat) ((Task.cipher s).output C sa bd.msglen.toNat input) input x) :
    verdict (x >>= fun buf => writeOut mem bd.dstaddr.toNat outSwap buf) =
      performOn C sa bd outSwap mem input (some (.cipher s)) := by
  rw [performOn]
  by_cases h : bd.buflen < (Task.cipher s).reach bd.msglen.toNat
  · obtain ⟨p, hp⟩ := hx.overruns (hlen ▸ h)
    rw [if_pos h, hp]
    rfl
  · rw [if_neg h, hx.fits (hlen ▸ Nat.le_of_not_lt h), Handler.ok_bind]
    exact verdict_writeOut _ _

theorem verdict_hash :
    verdict (do
      let digest ← hash C sa.ctrl.algo (input.take (min bd.msglen.toNat input.length))
      writeOut mem bd.updptr.toNat outSwap digest) =
      performOn C sa bd outSwap mem input ((hashTask sa.ctrl.algo).map .digest) := by
  have htake : input.take (min bd.msglen.toNat input.length) = input.take bd.msglen.toNat := by
    rw [List.take_eq_take_iff, Nat.min_assoc, Nat.min_self]
  rw [hash, hashTask, htake]
  split_ifs
  · exact verdict_writeOut _ _
  · exact verdict_writeOut _ _
  · exact verdict_writeOut _ _
  · rfl

theorem verdict_aes (hsa : sa.Sized) (hlen : input.length = bd.buflen) :
    verdict (do
      let keyLen ← aesKeyLen sa.ctrl.keysize
      let buf ← aesRun C sa.ctrl.cryptoalgo (sa.cipherKey keyLen) (loadIv sa 16) input bd.msglen.toNat
        (sa.ctrl.enctype = 1)
      writeOut mem bd.dstaddr.toNat outSwap buf) =
      performOn C sa bd outSwap mem input
        ((aesKeySize sa.ctrl.keysize).bind fun k => (aesMode sa.ctrl.cryptoalgo).map fun m => .cipher (.aes k m)) := by
  have hkeys : aesKeyLen sa.ctrl.keysize =
      Handler.orRefuse (.unknownKeysize sa.ctrl.keysize) ((aesKeySize sa.ctrl.keysize).map AesKeySize.bytes) := by
    rw [aesKeyLen, aesKeySize]
    split_ifs <;> rfl
  have hshort : input.length < 2 ^ 32 := hlen ▸ Nat.lt_trans (buflen_lt bd) (by decide)
  rw [hkeys]
  cases aesKeySize sa.ctrl.keysize with
  | none => rfl
  | some k =>
    cases hm : aesMode sa.ctrl.cryptoalgo with
    | none =>
      rw [Option.map_some, Handler.orRefuse, Handler.ok_bind, aesRun_unsupported hm]
      rfl
    | some m =>
      have hkey := hsa.cipherKey_length (.aes k m)
      have hiv := Nat.le_of_eq (hsa.loadIv_length (.aes k m)).symm
      exact verdict_cipher hlen (aesRun_passes hm hkey hiv hshort)

/-- A descriptor is executed as it asks. -/
theorem verdict_execute (C : Crates) (bd : BufferDescriptor) (outSwap : Bool) (mem : Memory) (hsa : sa.Sized) :
    verdict (execute C sa bd outSwap mem) = perform C sa bd outSwap mem := by
  rw [execute, sourceBytes_eq, perform, readInto]
  cases hread : mem.readPhys bd.srcaddr.toNat bd.buflen with
  | none => rfl
  | some input =>
    have hlen := length_of_readPhys hread
    rw [Handler.orRefuse, Handler.ok_bind]
    dsimp only
    rw [task]
    split_ifs with hhash haes htdes hdes
    · exact verdict_hash
    · exact verdict_aes hsa hlen
    · have hkey : (sa.cipherKey 24).length = 24 := hsa.cipherKey_length (.tdes .ecb)
      rw [tdesRun, if_pos hkey]
      cases hm : chaining cryptoalgoTecb cryptoalgoTcbc sa.ctrl.cryptoalgo with
      | none =>
        rw [desModes_unsupported hm]
        rfl
      | some m => exact verdict_cipher hlen (desModes_passes hm (Nat.le_of_eq (hsa.loadIv_length (.tdes m)).symm))
    · have hkey : (sa.cipherKey 8).length = 8 := hsa.cipherKey_length (.des .ecb)
      rw [desRun, if_pos hkey]
      cases hm : chaining cryptoalgoEcb cryptoalgoCbc sa.ctrl.cryptoalgo with
      | none =>
        rw [desModes_unsupported hm]
        rfl
      | some m => exact verdict_cipher hlen (desModes_passes hm (Nat.le_of_eq (hsa.loadIv_length (.des m)).symm))
    · rfl

end Perform

end PIC32
end Simulators
