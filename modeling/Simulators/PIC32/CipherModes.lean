/-
# PIC32MZ crypto engine: cipher descriptors

A descriptor for a cipher, as the firmware stages it: the fields of SA_CTRL,
the key and the IV at the end of their fields with the bytes of each word
turned round, and a message that fits into its buffer. The engine leaves the
output of the mode at DSTADDR and changes no other byte, and the descriptor
for the opposite direction restores the buffer.

Key theorem: `cipher_descriptor`.
-/
import Simulators.PIC32.OneShot

namespace Simulators

/-! ### Words of a record -/

theorem byteSwapWords_append {a : Bytes} (ha : a.length = 4) (b : Bytes) :
    PIC32.byteSwapWords (a ++ b) = a.reverse ++ PIC32.byteSwapWords b := by
  rw [PIC32.byteSwapWords, chunks_append (by decide) a b ha, List.flatMap_cons, if_pos ha]
  rfl

theorem beBytes_leWord {b : Bytes} (h : b.length = 4) : beBytes (leWord b) = b.reverse := by
  rw [leWord, beBytes_beWord (by rw [List.length_reverse, h])]

/-- Words read with the least significant byte first and written with the most significant byte first. -/
theorem beBytes_leWordAt : ∀ (n k : ℕ) {b : Bytes}, 4 * (k + n) ≤ b.length →
    ((List.range' k n).map (leWordAt b)).flatMap beBytes = PIC32.byteSwapWords ((b.drop (4 * k)).take (4 * n))
  | 0, k, b, _ => by
    rw [List.range'_zero, List.map_nil, List.flatMap_nil, Nat.mul_zero, List.take_zero]
    rfl
  | n + 1, k, b, h => by
    have hword : ((b.drop (4 * k)).take 4).length = 4 := by
      rw [List.length_take, List.length_drop]
      omega
    have hsplit : (b.drop (4 * k)).take (4 * (n + 1)) =
        (b.drop (4 * k)).take 4 ++ (b.drop (4 * (k + 1))).take (4 * n) := by
      rw [Nat.mul_succ, Nat.add_comm, List.take_add, List.drop_drop, Nat.mul_succ]
    rw [List.range'_succ, List.map_cons, List.flatMap_cons, beBytes_leWordAt n (k + 1) (by omega), hsplit,
      byteSwapWords_append hword, leWordAt, beBytes_leWord hword]

namespace Memory

theorem load_drop_take (m : Memory) (p : ℕ) {n k j : ℕ} (h : k + j ≤ n) :
    ((m.load p n).drop k).take j = m.load (p + k) j := by
  obtain ⟨d, rfl⟩ := Nat.exists_eq_add_of_le h
  rw [Nat.add_assoc, load_append, List.drop_left' (m.load_length p k), load_append, List.take_left' (m.load_length _ j)]

theorem bytes_store_of_not_mem (m : Memory) {p a : ℕ} {b : Bytes} (h : ¬ (p ≤ a ∧ a < p + b.length)) :
    (m.store p b).bytes a = m.bytes a := if_neg h

end Memory

namespace PIC32

/-! ### The output of a pass -/

namespace Suite

variable {C : Crates} {key iv : Bytes}

theorem chaining_pass {n : ℕ} (hn : 0 < n) (c : BlockCipher n) (m : Chaining) (first : ByteArr n) (encrypt : Bool)
    {data : Bytes} (h : n ∣ data.length) :
    (flat (m.run c encrypt key first (wholeBlocks n data))).length = data.length ∧
      flat (m.run c (!encrypt) key first (wholeBlocks n (flat (m.run c encrypt key first (wholeBlocks n data))))) =
        data := by
  obtain ⟨k, hk⟩ := h
  obtain ⟨bs, rfl, -⟩ := exists_flat k data hk
  rw [wholeBlocks_flat hn, wholeBlocks_flat hn, Chaining.run_run, flat_length, flat_length, Chaining.run_length]
  exact ⟨rfl, rfl⟩

/-- A pass keeps the length, and the pass in the opposite direction undoes it. -/
theorem pass_pass (s : Suite) (encrypt : Bool) (msgLen : ℕ) {data : Bytes} (h : data.length = s.reach msgLen) :
    (s.pass C encrypt key iv data).length = data.length ∧
      s.pass C (!encrypt) key iv (s.pass C encrypt key iv data) = data := by
  rcases s with ⟨k, (m | _ | _)⟩ | m | m
  · exact chaining_pass (by decide) C.aes m _ encrypt ⟨_, h⟩
  · simp only [pass, ctrStream, streamXor_length, streamXor_streamXor, and_self]
  · simp only [pass, gctrStream, streamXor_length, streamXor_streamXor, and_self]
  · exact chaining_pass (by decide) C.tdes m _ encrypt ⟨_, h⟩
  · exact chaining_pass (by decide) C.des m _ encrypt ⟨_, h⟩

theorem output_output (s : Suite) (encrypt : Bool) {msgLen : ℕ} {input : Bytes} (h : msgLen ≤ input.length) :
    (s.output C encrypt key iv msgLen input).length = input.length ∧
      s.output C (!encrypt) key iv msgLen (s.output C encrypt key iv msgLen input) = input := by
  have htake : (input.take (s.reach msgLen)).length = s.reach msgLen := by
    rw [List.length_take]
    exact Nat.min_eq_left (Nat.le_trans (s.reach_le msgLen) h)
  have hpass : (s.pass C encrypt key iv (input.take (s.reach msgLen))).length = _ ∧ _ :=
    s.pass_pass encrypt msgLen htake
  obtain ⟨hlen, hback⟩ := hpass
  rw [htake] at hlen
  constructor
  · rw [output, List.length_append, hlen, List.length_drop]
    have hle := s.reach_le msgLen
    omega
  · rw [output, output, List.take_left' hlen, List.drop_left' hlen, hback, List.take_append_drop]

end Suite

/-! ### A staged descriptor -/

/-- A field of a word. -/
def field (w : UInt32) (pos width : ℕ) : ℕ := w.toNat / 2 ^ pos % 2 ^ width

def AesKeySize.code : AesKeySize → ℕ
  | .k128 => 0
  | .k192 => 1
  | .k256 => 2

def AesMode.code : AesMode → ℕ
  | .blocks .ecb => 0x8
  | .blocks .cbc => 0x9
  | .ctr => 0xD
  | .gcm => 0xE

def chainingCode (ecb cbc : ℕ) : Chaining → ℕ
  | .ecb => ecb
  | .cbc => cbc

/-- ALGO, KEYSIZE and CRYPTOALGO of SA_CTRL. The highest bit of ALGO that is set selects the cipher. -/
def Suite.Selected (w : UInt32) : Suite → Prop
  | .aes k m => field w 12 5 = 1 ∧ field w 7 2 = k.code ∧ field w 0 4 = m.code
  | .tdes m => field w 11 6 = 1 ∧ field w 0 4 = chainingCode 0x4 0x5 m
  | .des m => field w 10 7 = 1 ∧ field w 0 4 = chainingCode 0x0 0x1 m

/-- The only descriptor of a chain, for the cipher `s` in one direction. -/
structure CipherDescriptor (s : Suite) (encrypt : Bool) (key iv : Bytes) (mem : Memory) (bdAddr : ℕ)
    (bd : BufferDescriptor) : Prop where
  readBd : BufferDescriptor.readPhys mem bdAddr = some bd
  descEnabled : bd.descEnabled = true
  saFetchEnabled : bd.saFetchEnabled = true
  ends : bd.Ends bdAddr
  sa : mem.backed bd.saAddr.toNat SecurityAssociation.size = true
  selected : s.Selected (leWord (mem.load bd.saAddr.toNat 4))
  enctype : field (leWord (mem.load bd.saAddr.toNat 4)) 9 1 = encrypt.toNat
  loadiv : field (leWord (mem.load bd.saAddr.toNat 4)) 22 1 = 1
  keyLen : key.length = s.keyLen
  ivLen : iv.length = s.ivLen
  key : mem.load (bd.saAddr.toNat + (68 - s.keyLen)) s.keyLen = byteSwapWords key
  iv : mem.load (bd.saAddr.toNat + (116 - s.ivLen)) s.ivLen = byteSwapWords iv
  msglen : bd.msglen.toNat ≤ bd.buflen
  source : mem.backed bd.srcaddr.toNat bd.buflen = true
  dest : mem.backed bd.dstaddr.toNat bd.buflen = true

theorem toUInt8_field {w x mask : UInt32} {pos width : ℕ} (hx : x.toNat = w.toNat / 2 ^ pos)
    (hmask : mask.toNat = 2 ^ width - 1) (hwidth : width ≤ 8) : (x &&& mask).toUInt8.toNat = field w pos width := by
  have hle : 2 ^ width ≤ 2 ^ 8 := Nat.pow_le_pow_right (by decide) hwidth
  have hlt := Nat.mod_lt (w.toNat / 2 ^ pos) (Nat.pow_pos (n := width) (by decide : 0 < 2))
  rw [UInt32.toNat_toUInt8, UInt32.toNat_and, hx, hmask, Nat.and_two_pow_sub_one_eq_mod, field]
  exact Nat.mod_eq_of_lt (by omega)

theorem toNat_shiftRight_lit (w k : UInt32) (hk : k.toNat < 32) : (w >>> k).toNat = w.toNat / 2 ^ k.toNat := by
  rw [UInt32.toNat_shiftRight, Nat.mod_eq_of_lt hk, Nat.shiftRight_eq_div_pow]

/-- The fields of SA_CTRL that the engine uses. -/
theorem fromU32_toNat (w : UInt32) :
    (SaCtrl.fromU32 w).cryptoalgo.toNat = field w 0 4 ∧ (SaCtrl.fromU32 w).keysize.toNat = field w 7 2 ∧
      (SaCtrl.fromU32 w).enctype.toNat = field w 9 1 ∧ (SaCtrl.fromU32 w).algo.toNat = field w 10 7 ∧
      (SaCtrl.fromU32 w).loadiv.toNat = field w 22 1 := by
  refine ⟨?_, ?_, ?_, ?_, ?_⟩
  · exact toUInt8_field (Nat.div_one _).symm rfl (by decide)
  · exact toUInt8_field (toNat_shiftRight_lit w 7 (by decide)) rfl (by decide)
  · exact toUInt8_field (toNat_shiftRight_lit w 9 (by decide)) rfl (by decide)
  · exact toUInt8_field (toNat_shiftRight_lit w 10 (by decide)) rfl (by decide)
  · exact toUInt8_field (toNat_shiftRight_lit w 22 (by decide)) rfl (by decide)

/-- The highest bit of ALGO that is set, over the bits of the ciphers. -/
theorem algo_bits (a : UInt8) (h : a.toNat < 128) :
    (a.toNat / 4 = 1 → a &&& (algoSha256 ||| algoSha1 ||| algoMd5 ||| algoHmac1) = 0 ∧ a &&& algoAes ≠ 0) ∧
    (a.toNat / 2 = 1 → a &&& (algoSha256 ||| algoSha1 ||| algoMd5 ||| algoHmac1) = 0 ∧ a &&& algoAes = 0 ∧
      a &&& algoTdes ≠ 0) ∧
    (a.toNat = 1 → a &&& (algoSha256 ||| algoSha1 ||| algoMd5 ||| algoHmac1) = 0 ∧ a &&& algoAes = 0 ∧
      a &&& algoTdes = 0 ∧ a &&& algoDes ≠ 0) := by
  have hall : ∀ n < 128,
      (n / 4 = 1 → UInt8.ofNat n &&& (algoSha256 ||| algoSha1 ||| algoMd5 ||| algoHmac1) = 0 ∧
        UInt8.ofNat n &&& algoAes ≠ 0) ∧
      (n / 2 = 1 → UInt8.ofNat n &&& (algoSha256 ||| algoSha1 ||| algoMd5 ||| algoHmac1) = 0 ∧
        UInt8.ofNat n &&& algoAes = 0 ∧ UInt8.ofNat n &&& algoTdes ≠ 0) ∧
      (n = 1 → UInt8.ofNat n &&& (algoSha256 ||| algoSha1 ||| algoMd5 ||| algoHmac1) = 0 ∧
        UInt8.ofNat n &&& algoAes = 0 ∧ UInt8.ofNat n &&& algoTdes = 0 ∧ UInt8.ofNat n &&& algoDes ≠ 0) := by
    decide +kernel
  have ha := hall a.toNat h
  rwa [UInt8.ofNat_toNat] at ha

theorem field_split (w : UInt32) (pos i j : ℕ) : field w pos (i + j) / 2 ^ i = field w (pos + i) j := by
  rw [field, field, Nat.pow_add, Nat.mod_mul_right_div_self, Nat.div_div_eq_div_mul, Nat.pow_add]

theorem aesKeySize_of {x : UInt8} {k : AesKeySize} (h : x.toNat = k.code) : aesKeySize x = some k := by
  cases k with
  | k128 =>
    rw [UInt8.toNat_inj.mp (h.trans (show AesKeySize.code .k128 = keysize128.toNat from rfl))]
    rfl
  | k192 =>
    rw [UInt8.toNat_inj.mp (h.trans (show AesKeySize.code .k192 = keysize192.toNat from rfl))]
    rfl
  | k256 =>
    rw [UInt8.toNat_inj.mp (h.trans (show AesKeySize.code .k256 = keysize256.toNat from rfl))]
    rfl

theorem aesMode_of {x : UInt8} {m : AesMode} (h : x.toNat = m.code) : aesMode x = some m := by
  rcases m with (_ | _) | _ | _
  · rw [UInt8.toNat_inj.mp (h.trans (show AesMode.code (.blocks .ecb) = cryptoalgoRecb.toNat from rfl))]
    rfl
  · rw [UInt8.toNat_inj.mp (h.trans (show AesMode.code (.blocks .cbc) = cryptoalgoRcbc.toNat from rfl))]
    rfl
  · rw [UInt8.toNat_inj.mp (h.trans (show AesMode.code .ctr = cryptoalgoRctr.toNat from rfl))]
    rfl
  · rw [UInt8.toNat_inj.mp (h.trans (show AesMode.code .gcm = cryptoalgoAesGcm.toNat from rfl))]
    rfl

theorem chaining_of (ecb cbc : UInt8) {x : UInt8} (hne : cbc ≠ ecb) {m : Chaining}
    (h : x.toNat = chainingCode ecb.toNat cbc.toNat m) :
    chaining ecb cbc x = some m := by
  cases m with
  | ecb => exact if_pos (UInt8.toNat_inj.mp h)
  | cbc =>
    have hx : x = cbc := UInt8.toNat_inj.mp h
    rw [hx, chaining, if_neg hne, if_pos rfl]

/-- What is selected is what the engine takes up. -/
theorem Suite.Selected.task_eq {w : UInt32} {s : Suite} (h : s.Selected w) : task (.fromU32 w) = some (.cipher s) := by
  obtain ⟨hcrypto, hkeysize, -, halgo, -⟩ := fromU32_toNat w
  have hlt : (SaCtrl.fromU32 w).algo.toNat < 128 := by
    rw [halgo]
    exact Nat.mod_lt _ (by decide)
  obtain ⟨haes, htdes, hdes⟩ := algo_bits _ hlt
  rw [halgo] at haes htdes hdes
  rw [show field w 10 7 / 4 = field w 12 5 from field_split w 10 2 5] at haes
  rw [show field w 10 7 / 2 = field w 11 6 from field_split w 10 1 6] at htdes
  rcases s with ⟨k, m⟩ | m | m
  · obtain ⟨hhash, hbit⟩ := haes h.1
    rw [task, if_neg (not_not.mpr hhash), if_pos hbit, aesKeySize_of (hkeysize.trans h.2.1),
      aesMode_of (hcrypto.trans h.2.2)]
    rfl
  · obtain ⟨hhash, hnaes, hbit⟩ := htdes h.1
    rw [task, if_neg (not_not.mpr hhash), if_neg (not_not.mpr hnaes), if_pos hbit,
      chaining_of cryptoalgoTecb cryptoalgoTcbc (by decide) (hcrypto.trans h.2)]
    rfl
  · obtain ⟨hhash, hnaes, hntdes, hbit⟩ := hdes h.1
    rw [task, if_neg (not_not.mpr hhash), if_neg (not_not.mpr hnaes), if_neg (not_not.mpr hntdes), if_pos hbit,
      chaining_of cryptoalgoEcb cryptoalgoCbc (by decide) (hcrypto.trans h.2)]
    rfl

namespace CipherDescriptor

variable {s : Suite} {encrypt : Bool} {key iv : Bytes} {mem : Memory} {bdAddr : ℕ} {bd : BufferDescriptor}

/-- The security association as the engine reads it. -/
def association (mem : Memory) (bd : BufferDescriptor) : SecurityAssociation :=
  .ofBytes (mem.load bd.saAddr.toNat SecurityAssociation.size)

theorem ctrl_eq (mem : Memory) (bd : BufferDescriptor) :
    (association mem bd).ctrl = .fromU32 (leWord (mem.load bd.saAddr.toNat 4)) := by
  show SaCtrl.fromU32 (leWord _) = _
  rw [Nat.mul_zero, List.drop_zero, mem.load_take (by decide)]

/-- The last words of a field of SA, as bytes. -/
theorem words_eq (mem : Memory) (bd : BufferDescriptor) (start n : ℕ) {len : ℕ} {x : Bytes} (hlen : 4 * (len / 4) = len)
    (hle : len ≤ 4 * n) (hsize : 4 * (start + n) ≤ SecurityAssociation.size)
    (h : mem.load (bd.saAddr.toNat + (4 * (start + n) - len)) len = byteSwapWords x) :
    ((((List.range n).map fun i => leWordAt (mem.load bd.saAddr.toNat SecurityAssociation.size) (start + i)).drop
      (n - len / 4)).flatMap beBytes) = x := by
  have hrange : ((List.range n).map fun i => leWordAt (mem.load bd.saAddr.toNat SecurityAssociation.size) (start + i)) =
      (List.range' start n).map (leWordAt (mem.load bd.saAddr.toNat SecurityAssociation.size)) := by
    rw [List.range'_eq_map_range, List.map_map]
    rfl
  have hoff : 4 * (start + (n - len / 4)) = 4 * (start + n) - len := by omega
  have hcount : n - (n - len / 4) = len / 4 := by omega
  rw [hrange, ← List.map_drop, List.drop_range', Nat.mul_one, hcount, beBytes_leWordAt, hoff, hlen,
    mem.load_drop_take _ (by omega), h, byteSwapWords_byteSwapWords]
  rw [Memory.load_length]
  omega

theorem cipherKey_eq (h : CipherDescriptor s encrypt key iv mem bdAddr bd) :
    (association mem bd).cipherKey s.keyLen = key := by
  have hlen : 4 * (s.keyLen / 4) = s.keyLen ∧ s.keyLen ≤ 32 := by
    rcases s with ⟨(_ | _ | _), _⟩ | _ | _ <;> simp [Suite.keyLen, AesKeySize.bytes]
  have hwords := words_eq mem bd 9 8 hlen.1 hlen.2 (by decide) h.key
  have hcount : (association mem bd).enckey.length = 8 := rfl
  rw [SecurityAssociation.cipherKey, hcount]
  exact hwords

theorem cipherIv_eq (h : CipherDescriptor s encrypt key iv mem bdAddr bd) :
    (association mem bd).cipherIv s.ivLen = iv := by
  have hlen : 4 * (s.ivLen / 4) = s.ivLen ∧ s.ivLen ≤ 16 := by
    rcases s with _ | _ | _ <;> simp [Suite.ivLen]
  have hwords := words_eq mem bd 25 4 hlen.1 hlen.2 (by decide) h.iv
  have hcount : (association mem bd).enciv.length = 4 := rfl
  rw [SecurityAssociation.cipherIv, hcount]
  exact hwords

variable {C : Crates} {outSwap : Bool}

/-- The output of the mode on the bytes of the buffer. -/
def result (C : Crates) (s : Suite) (encrypt : Bool) (key iv : Bytes) (mem : Memory) (bd : BufferDescriptor) : Bytes :=
  s.output C encrypt key iv bd.msglen.toNat (mem.load bd.srcaddr.toNat bd.buflen)

theorem result_length (h : CipherDescriptor s encrypt key iv mem bdAddr bd) :
    (result C s encrypt key iv mem bd).length = bd.buflen := by
  have hmsg : bd.msglen.toNat ≤ (mem.load bd.srcaddr.toNat bd.buflen).length := by
    rw [Memory.load_length]
    exact h.msglen
  have hlen : (result C s encrypt key iv mem bd).length = _ := (s.output_output encrypt hmsg).1
  rwa [Memory.load_length] at hlen

theorem task_output_eq (h : CipherDescriptor s encrypt key iv mem bdAddr bd) :
    (Task.cipher s).output C (association mem bd) bd.msglen.toNat (mem.load bd.srcaddr.toNat bd.buflen) =
      result C s encrypt key iv mem bd := by
  obtain ⟨-, -, henc, -, hload⟩ := fromU32_toNat (leWord (mem.load bd.saAddr.toNat 4))
  rw [h.enctype] at henc
  rw [h.loadiv] at hload
  have hdir : decide ((SaCtrl.fromU32 (leWord (mem.load bd.saAddr.toNat 4))).enctype = 1) = encrypt := by
    cases encrypt with
    | true => exact decide_eq_true (UInt8.toNat_inj.mp henc)
    | false =>
      have h0 : (SaCtrl.fromU32 (leWord (mem.load bd.saAddr.toNat 4))).enctype = 0 := UInt8.toNat_inj.mp henc
      rw [h0]
      rfl
  have hne : (SaCtrl.fromU32 (leWord (mem.load bd.saAddr.toNat 4))).loadiv ≠ 0 := by
    rw [UInt8.toNat_inj.mp (hload.trans (show 1 = (1 : UInt8).toNat from rfl))]
    decide
  rw [Task.output, h.cipherKey_eq, loadIv, ctrl_eq, hdir, if_pos hne, h.cipherIv_eq]
  rfl

theorem executed_eq (h : CipherDescriptor s encrypt key iv mem bdAddr bd) : executed C outSwap mem bdAddr =
    some (bd, mem.store bd.dstaddr.toNat (wordOrder outSwap (result C s encrypt key iv mem bd))) := by
  have hfetched : fetched mem bdAddr = some (bd, association mem bd) := by
    rw [fetched, h.readBd, Option.bind_some, if_pos ⟨h.descEnabled, h.saFetchEnabled⟩, SecurityAssociation.readPhys,
      Memory.readPhys, if_pos h.sa]
    rfl
  have hread : mem.readPhys bd.srcaddr.toNat bd.buflen = some (mem.load bd.srcaddr.toNat bd.buflen) := if_pos h.source
  have htask : task (association mem bd).ctrl = some (.cipher s) := by
    rw [ctrl_eq]
    exact h.selected.task_eq
  have hfits : ¬ bd.buflen < (Task.cipher s).reach bd.msglen.toNat :=
    Nat.not_lt.mpr (Nat.le_trans (s.reach_le _) h.msglen)
  have hwrite : mem.writePhys bd.dstaddr.toNat (wordOrder outSwap (result C s encrypt key iv mem bd)) =
      some (mem.store bd.dstaddr.toNat (wordOrder outSwap (result C s encrypt key iv mem bd))) := by
    apply if_pos
    rw [wordOrder_length, h.result_length]
    exact h.dest
  rw [executed, hfetched]
  dsimp only
  rw [perform, hread]
  dsimp only
  rw [htask, performOn, if_neg hfits, h.task_output_eq]
  dsimp only [Task.target]
  rw [hwrite]

/-- The chain is this one descriptor. -/
theorem runChain_eq {e : CryptoEngine} (h : CipherDescriptor s encrypt key iv mem e.cebdpaddr.toNat bd) :
    e.runChain C outSwap mem =
      .ok (.ok (), mem.store bd.dstaddr.toNat (wordOrder outSwap (result C s encrypt key iv mem bd))) := by
  have hfinal : final C outSwap (e.cebdpaddr.toNat, mem) =
      some (mem.store bd.dstaddr.toNat (wordOrder outSwap (result C s encrypt key iv mem bd))) := by
    rw [final, h.executed_eq, Option.bind_some, if_pos h.ends]
  exact (runFrom_eq_ok_iff _ maxBdChain _ mem).mpr (.inl ⟨0, by decide, _, rfl, hfinal⟩)

/-- The memory after a store to CECON that runs the descriptor. -/
theorem write_eq (C : Crates) {e : CryptoEngine} {offset value : UInt32} (reg : Registry C.digests)
    (h : CipherDescriptor s encrypt key iv mem e.cebdpaddr.toNat bd) (hstart : e.StartsChain offset value) :
    ∃ e', e.write C offset value mem reg = .ok (e', mem.store bd.dstaddr.toNat
        (wordOrder (e.stored offset value).outSwap (result C s encrypt key iv mem bd)), reg) ∧
      e'.errop = e.errop ∧ e'.ceintsrc &&& ceintsrcPktif ≠ 0 := by
  have hrun : (e.stored offset value).runChain C (e.stored offset value).outSwap mem = _ :=
    runChain_eq (e := e.stored offset value) h
  rw [CryptoEngine.write_of_startsChain hstart, hrun]
  exact ⟨_, rfl, rfl, CryptoEngine.pktif_set _⟩

theorem load_result (h : CipherDescriptor s encrypt key iv mem bdAddr bd) (C : Crates) (outSwap : Bool) :
    (mem.store bd.dstaddr.toNat (wordOrder outSwap (result C s encrypt key iv mem bd))).load bd.dstaddr.toNat bd.buflen =
      wordOrder outSwap (result C s encrypt key iv mem bd) := by
  have hsame := mem.load_store_same bd.dstaddr.toNat (wordOrder outSwap (result C s encrypt key iv mem bd))
  rwa [wordOrder_length, h.result_length] at hsame

end CipherDescriptor

/-- A cipher descriptor leaves the output of the mode at DSTADDR, word for word turned round without OUT_SWAP,
and no other byte changes. With OUT_SWAP the descriptor for the opposite direction restores the buffer from it. -/
theorem cipher_descriptor (C : Crates) (s : Suite) (encrypt : Bool) (key iv : Bytes) (e : CryptoEngine)
    (offset value : UInt32) (mem : Memory) (reg : Registry C.digests) (bd : BufferDescriptor)
    (h : CipherDescriptor s encrypt key iv mem e.cebdpaddr.toNat bd) (hstart : e.StartsChain offset value) :
    ∃ e' mem', e.write C offset value mem reg = .ok (e', mem', reg) ∧ e'.errop = e.errop ∧
      e'.ceintsrc &&& ceintsrcPktif ≠ 0 ∧
      mem'.load bd.dstaddr.toNat bd.buflen = wordOrder (e.stored offset value).outSwap
        (s.output C encrypt key iv bd.msglen.toNat (mem.load bd.srcaddr.toNat bd.buflen)) ∧
      (∀ a, ¬ (bd.dstaddr.toNat ≤ a ∧ a < bd.dstaddr.toNat + bd.buflen) → mem'.bytes a = mem.bytes a) ∧
      ((e.stored offset value).outSwap = true → ∀ (e₂ : CryptoEngine) (offset₂ value₂ : UInt32) (mem₂ : Memory)
        (reg₂ : Registry C.digests) (bd₂ : BufferDescriptor),
        CipherDescriptor s (!encrypt) key iv mem₂ e₂.cebdpaddr.toNat bd₂ → e₂.StartsChain offset₂ value₂ →
        (e₂.stored offset₂ value₂).outSwap = true → bd₂.buflen = bd.buflen → bd₂.msglen = bd.msglen →
        mem₂.load bd₂.srcaddr.toNat bd.buflen = mem'.load bd.dstaddr.toNat bd.buflen →
        ∃ e₂' mem₂', e₂.write C offset₂ value₂ mem₂ reg₂ = .ok (e₂', mem₂', reg₂) ∧
          mem₂'.load bd₂.dstaddr.toNat bd.buflen = mem.load bd.srcaddr.toNat bd.buflen) := by
  obtain ⟨e', hwrite, herr, hpkt⟩ := h.write_eq C reg hstart
  have hload := h.load_result C (e.stored offset value).outSwap
  refine ⟨e', _, hwrite, herr, hpkt, hload, fun a ha => ?_, ?_⟩
  · apply mem.bytes_store_of_not_mem
    rwa [wordOrder_length, h.result_length]
  · intro hswap e₂ offset₂ value₂ mem₂ reg₂ bd₂ h₂ hstart₂ hswap₂ hbuf hmsg hsource
    obtain ⟨e₂', hwrite₂, -, -⟩ := h₂.write_eq C reg₂ hstart₂
    refine ⟨e₂', _, hwrite₂, ?_⟩
    have hload₂ := h₂.load_result C (e₂.stored offset₂ value₂).outSwap
    have hfits : bd.msglen.toNat ≤ (mem.load bd.srcaddr.toNat bd.buflen).length := by
      rw [Memory.load_length]
      exact h.msglen
    rw [← hbuf, hload₂, hswap₂, CipherDescriptor.result, hmsg, hbuf, hsource, hload, hswap]
    exact (s.output_output encrypt hfits).2

/-! ### One block of AES-128 -/

/-- Two blocks exchanged under one key. -/
def exchange {n : ℕ} (key : Bytes) (pt ct : ByteArr n) : BlockCipher n where
  encrypt k b := if k = key then (if b = pt then ct else if b = ct then pt else b) else b
  decrypt k b := if k = key then (if b = pt then ct else if b = ct then pt else b) else b
  decrypt_encrypt k b := by
    by_cases hk : k = key
    · by_cases hpt : b = pt
      · by_cases hct : ct = pt
        · simp [hk, hpt, hct]
        · simp [hk, hpt, hct]
      · by_cases hct : b = ct
        · simp [hk, hct]
        · simp [hk, hpt, hct]
    · simp [hk]

def fipsKey : Bytes :=
  [0x2B, 0x7E, 0x15, 0x16, 0x28, 0xAE, 0xD2, 0xA6, 0xAB, 0xF7, 0x15, 0x88, 0x09, 0xCF, 0x4F, 0x3C]

def fipsPlain : Block :=
  ⟨[0x6B, 0xC1, 0xBE, 0xE2, 0x2E, 0x40, 0x9F, 0x96, 0xE9, 0x3D, 0x7E, 0x11, 0x73, 0x93, 0x17, 0x2A], rfl⟩

def fipsCipher : Block :=
  ⟨[0x3A, 0xD7, 0x7B, 0xB4, 0x0D, 0x7A, 0x36, 0x60, 0xA8, 0x9E, 0xCA, 0xF3, 0x24, 0x66, 0xEF, 0x97], rfl⟩

def fipsCrates : Crates := ⟨exchange fipsKey fipsPlain fipsCipher, identityCipher 8, identityCipher 8, md5Digests⟩

/-- A descriptor at 32 for the block at 180, with AES-128 in ECB mode in the security association at 64. -/
def fipsMem (ctrl : UInt32) (data : List UInt32) : Memory :=
  wordsMem (List.replicate 8 0 ++ [0x80480010, 64, 180, 200, 0, 0, 16, 0] ++ [ctrl] ++ List.replicate 12 0 ++
    [0x2B7E1516, 0x28AED2A6, 0xABF71588, 0x09CF4F3C] ++ List.replicate 12 0 ++ data)

def plainMem : Memory := fipsMem 0x00401208 [0xE2BEC16B, 0x969F402E, 0x117E3DE9, 0x2A179373]

def cipherMem : Memory := fipsMem 0x00401008 [0xB47BD73A, 0x60367A0D, 0xF3CA9EA8, 0x97EF6624]

theorem plainMem_descriptor : CipherDescriptor (.aes .k128 (.blocks .ecb)) true fipsKey
    (List.replicate 16 0) plainMem 32
    (.ofBytes (plainMem.load 32 32)) := by
  constructor
  case selected => exact ⟨by decide +kernel, by decide +kernel, by decide +kernel⟩
  all_goals decide +kernel

theorem cipherMem_descriptor : CipherDescriptor (.aes .k128 (.blocks .ecb)) false fipsKey
    (List.replicate 16 0) cipherMem
    32 (.ofBytes (cipherMem.load 32 32)) := by
  constructor
  case selected => exact ⟨by decide +kernel, by decide +kernel, by decide +kernel⟩
  all_goals decide +kernel

/-- The block is encrypted, and decrypted again. -/
theorem fips_block : ∃ e mem' e₂ mem₂', ({ cebdpaddr := 32 } : CryptoEngine).write fipsCrates 0 0xA5 plainMem [] =
      .ok (e, mem', []) ∧ mem'.load 200 16 = fipsCipher.bytes ∧
    ({ cebdpaddr := 32 } : CryptoEngine).write fipsCrates 0 0xA5 cipherMem [] = .ok (e₂, mem₂', []) ∧
      mem₂'.load 200 16 = fipsPlain.bytes := by
  obtain ⟨e, mem', hwrite, -, -, hload, -, hback⟩ :=
    cipher_descriptor fipsCrates (.aes .k128 (.blocks .ecb)) true fipsKey
    (List.replicate 16 0) { cebdpaddr := 32 } 0 0xA5 plainMem [] _ plainMem_descriptor (by decide)
  have hcipher : mem'.load 200 16 = fipsCipher.bytes := hload.trans (by decide +kernel)
  obtain ⟨e₂, mem₂', hwrite₂, hload₂⟩ := hback rfl { cebdpaddr := 32 } 0 0xA5 cipherMem [] _ cipherMem_descriptor
    (by decide) rfl (by decide +kernel) (by decide +kernel)
    ((show cipherMem.load 180 16 = fipsCipher.bytes by decide +kernel).trans hcipher.symm)
  have hplain : mem₂'.load 200 16 = plainMem.load 180 16 := hload₂
  exact ⟨e, mem', e₂, mem₂', hwrite, hcipher, hwrite₂, hplain.trans (by decide +kernel)⟩

end PIC32
end Simulators
