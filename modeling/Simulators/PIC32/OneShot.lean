/-
# PIC32MZ crypto engine: a hash at once and a hash by polling

A single hash descriptor can be executed by a store to CECON or, in polling
mode, by a tick. Both digest the first MSGLEN bytes of the buffer, as far as it
goes, and write the digest to UPDPTR. They part at MSGLEN zero: for the store
this is the empty message, for the tick the whole buffer is the message.

Key theorem: `polling_agrees_iff`.
-/
import Simulators.PIC32.Chain

namespace Simulators
namespace PIC32

/-! ### Words turned round -/

theorem byteSwapWords_flat_append (bs : List (ByteArr 4)) {rest : Bytes} (h : rest.length < 4) :
    byteSwapWords (flat bs ++ rest) = flat (bs.map fun b => ⟨b.bytes.reverse, by rw [List.length_reverse, b.size]⟩) ++ rest := by
  have hrest : (chunks 4 rest).flatMap (fun c => if c.length = 4 then c.reverse else c) = rest := by
    cases rest with
    | nil => rfl
    | cons x rest =>
      have hdrop : (x :: rest).drop 4 = [] := List.drop_of_length_le (Nat.le_of_lt h)
      have htake : (x :: rest).take 4 = x :: rest := List.take_of_length_le (Nat.le_of_lt h)
      rw [chunks_eq_cons (by decide) (List.cons_ne_nil x rest), hdrop, htake, chunks_nil, List.flatMap_singleton,
        if_neg (Nat.ne_of_lt h)]
  rw [byteSwapWords, chunks_flat_append (by decide), List.flatMap_append, hrest, List.flatMap_map, flat,
    List.flatMap_map]
  congr 1
  refine List.flatMap_congr fun b _ => ?_
  rw [if_pos b.size]

/-- Bytes as words and a shorter rest. -/
theorem exists_words (b : Bytes) : ∃ (bs : List (ByteArr 4)) (rest : Bytes), b = flat bs ++ rest ∧ rest.length < 4 := by
  have hlen : (b.take (4 * (b.length / 4))).length = 4 * (b.length / 4) := by
    rw [List.length_take]
    omega
  obtain ⟨bs, hbs, -⟩ := exists_flat (b.length / 4) _ hlen
  refine ⟨bs, b.drop (4 * (b.length / 4)), ?_, ?_⟩
  · rw [hbs, List.take_append_drop]
  · rw [List.length_drop]
    omega

theorem byteSwapWords_byteSwapWords (b : Bytes) : byteSwapWords (byteSwapWords b) = b := by
  obtain ⟨bs, rest, rfl, hrest⟩ := exists_words b
  rw [byteSwapWords_flat_append bs hrest, byteSwapWords_flat_append _ hrest, List.map_map]
  congr 2
  have hid : (fun b : ByteArr 4 => (⟨b.bytes.reverse, by rw [List.length_reverse, b.size]⟩ : ByteArr 4)) ∘
      (fun b : ByteArr 4 => ⟨b.bytes.reverse, by rw [List.length_reverse, b.size]⟩) = id := by
    funext b
    apply ByteArr.ext
    exact List.reverse_reverse b.bytes
  rw [hid, List.map_id]

theorem wordOrder_inj (outSwap : Bool) {b c : Bytes} : wordOrder outSwap b = wordOrder outSwap c ↔ b = c := by
  cases outSwap with
  | true => exact Iff.rfl
  | false =>
    constructor
    · intro h
      rw [← byteSwapWords_byteSwapWords b, show byteSwapWords b = byteSwapWords c from h, byteSwapWords_byteSwapWords]
    · rintro rfl
      rfl

theorem wordOrder_length (outSwap : Bool) (b : Bytes) : (wordOrder outSwap b).length = b.length := by
  cases outSwap
  · exact byteSwapWords_length b
  · rfl

/-! ### A hash descriptor -/

/-- ALGO for a hash alone. -/
def HashAlgo.bits : HashAlgo → UInt8
  | .md5 => algoMd5
  | .sha1 => algoSha1
  | .sha256 => algoSha256

/-- A descriptor with DESC_EN, SA_FETCH_EN, LAST_BD and LIFM that hashes the bytes `source` of its buffer. -/
structure HashDescriptor (a : HashAlgo) (mem : Memory) (bdAddr : ℕ) (bd : BufferDescriptor) (sa : SecurityAssociation)
    (source : Bytes) : Prop where
  readBd : BufferDescriptor.readPhys mem bdAddr = some bd
  descEnabled : bd.descEnabled = true
  saFetchEnabled : bd.saFetchEnabled = true
  lastBd : bd.lastBd = true
  lifm : bd.lifm = true
  readSa : SecurityAssociation.readPhys mem bd.saAddr.toNat = some sa
  algo : sa.ctrl.algo = a.bits
  readSource : mem.readPhys bd.srcaddr.toNat bd.buflen = some source
  updptr : mem.backed bd.updptr.toNat a.size = true

namespace HashDescriptor

variable {C : Crates} {a : HashAlgo} {mem : Memory} {bdAddr : ℕ} {bd : BufferDescriptor} {sa : SecurityAssociation}
  {source : Bytes} {outSwap : Bool} {st : State C.digests}

theorem writePhys_digest (h : HashDescriptor a mem bdAddr bd sa source) (C : Crates) (outSwap : Bool) (mem' : Memory)
    (hback : ∀ p n, mem'.backed p n = mem.backed p n) (m : Bytes) :
    mem'.writePhys bd.updptr.toNat (wordOrder outSwap (C.digests.hash a m)) =
      some (mem'.store bd.updptr.toNat (wordOrder outSwap (C.digests.hash a m))) := by
  apply if_pos
  rw [wordOrder_length, C.digests.hash_length, hback]
  exact h.updptr

theorem load_store_digest (C : Crates) (a : HashAlgo) (outSwap : Bool) (mem : Memory) (paddr : ℕ) (m : Bytes) :
    (mem.store paddr (wordOrder outSwap (C.digests.hash a m))).load paddr a.size =
      wordOrder outSwap (C.digests.hash a m) := by
  have hsame := mem.load_store_same paddr (wordOrder outSwap (C.digests.hash a m))
  rwa [wordOrder_length, C.digests.hash_length] at hsame

/-! #### At once -/

theorem task_eq (h : HashDescriptor a mem bdAddr bd sa source) : task sa.ctrl = some (.digest a) := by
  rw [task, h.algo]
  cases a <;> rfl

theorem executed_eq (h : HashDescriptor a mem bdAddr bd sa source) : executed C outSwap mem bdAddr =
    some (bd, mem.store bd.updptr.toNat
      (wordOrder outSwap (C.digests.hash a (source.take bd.msglen.toNat)))) := by
  have hfetched : fetched mem bdAddr = some (bd, sa) := by
    rw [fetched, h.readBd, Option.bind_some, if_pos ⟨h.descEnabled, h.saFetchEnabled⟩, h.readSa]
    rfl
  rw [executed, hfetched]
  dsimp only
  rw [perform, h.readSource]
  dsimp only
  have hreach : ¬ bd.buflen < (Task.digest a).reach bd.msglen.toNat := Nat.not_lt_zero _
  rw [h.task_eq, performOn, if_neg hreach]
  dsimp only [Task.output, Task.target]
  rw [h.writePhys_digest C outSwap mem fun _ _ => rfl]

theorem runFrom_eq (h : HashDescriptor a mem bdAddr bd sa source) : runFrom C outSwap maxBdChain bdAddr mem =
    .ok (.ok (), mem.store bd.updptr.toNat
      (wordOrder outSwap (C.digests.hash a (source.take bd.msglen.toNat)))) := by
  have hfinal : final C outSwap (bdAddr, mem) = some (mem.store bd.updptr.toNat
      (wordOrder outSwap (C.digests.hash a (source.take bd.msglen.toNat)))) := by
    rw [final, h.executed_eq, Option.bind_some, if_pos (.inl h.lastBd)]
  exact (runFrom_eq_ok_iff _ maxBdChain bdAddr mem).mpr (.inl ⟨0, by decide, _, rfl, hfinal⟩)

/-! #### By polling -/

/-- A new hash that the tick takes up. -/
structure Fresh (st : State C.digests) : Prop where
  ctx : st.ctx = none
  bytesFed : st.bytesFed = 0
  completed : st.completed = false

theorem takeLen_le (st : State C.digests) (bd : BufferDescriptor) : takeLen st bd ≤ bd.buflen := by
  rw [takeLen]
  split
  · exact Nat.min_le_left _ _
  · exact Nat.le_refl _

/-- The bytes of the buffer that count. -/
def polled (bd : BufferDescriptor) (source : Bytes) : Bytes :=
  if bd.msglen ≠ 0 then source.take bd.msglen.toNat else source

theorem take_takeLen (h : HashDescriptor a mem bdAddr bd sa source) (hst : st.bytesFed = 0) :
    source.take (takeLen st bd) = polled bd source := by
  have hlen := length_of_readPhys h.readSource
  rw [takeLen, polled, hst, Nat.sub_zero]
  split
  · rw [List.take_eq_take_iff, hlen]
    omega
  · exact List.take_of_length_le (Nat.le_of_eq hlen)

theorem feed_eq (h : HashDescriptor a mem bdAddr bd sa source) (st : State C.digests) {ctx : C.digests.State}
    (hctx : st.ctx = some ctx)
    (hfed : st.bytesFed = 0) :
    ∃ n, feed st bd mem = some { st with ctx := some (C.digests.update ctx (polled bd source)), bytesFed := n } := by
  have hsource := h.readSource
  rw [Memory.readPhys] at hsource
  split at hsource
  · rename_i hback
    cases hsource
    rw [← h.take_takeLen hfed, feed]
    by_cases hpos : 0 < takeLen st bd
    · have hread : mem.readPhys bd.srcaddr.toNat (takeLen st bd) =
          some ((mem.load bd.srcaddr.toNat bd.buflen).take (takeLen st bd)) := by
        rw [Memory.readPhys, if_pos (mem.backed_prefix hback (takeLen_le st bd)), mem.load_take (takeLen_le st bd)]
      rw [if_pos hpos, hread, hctx]
      exact ⟨_, rfl⟩
    · have hzero : takeLen st bd = 0 := Nat.eq_zero_of_not_pos hpos
      rw [if_neg hpos, hzero, List.take_zero, C.digests.update_nil, ← hctx]
      exact ⟨st.bytesFed, rfl⟩
  · cases hsource

/-- The tick's view of the descriptor. -/
theorem processBd_eq (h : HashDescriptor a mem bdAddr bd sa source) (hst : Fresh st) :
    ∃ st' mem', processBd st bdAddr mem = (true, st', mem') ∧ st'.completed = true ∧
      mem'.load bd.updptr.toNat a.size = wordOrder st.outSwap (C.digests.hash a (polled bd source)) := by
  have halgo : HashAlgo.fromAlgo sa.ctrl.algo = some a := by
    rw [h.algo]
    cases a <;> rfl
  have hopen : openCtx st bd mem =
      (true, { st with algo := sa.ctrl.algo, ctx := some (C.digests.new a) }) := by
    rw [openCtx, hst.ctx, if_pos Option.isNone_none, if_neg (not_not.mpr h.saFetchEnabled), h.readSa]
    dsimp only
    rw [halgo]
  obtain ⟨n, hfeed⟩ := h.feed_eq { st with algo := sa.ctrl.algo, ctx := some (C.digests.new a) } rfl hst.bytesFed
  have hback : mem.backed bdAddr 32 = true := by
    have hbd := h.readBd
    rw [BufferDescriptor.readPhys, Option.map_eq_some_iff] at hbd
    obtain ⟨b, hread, -⟩ := hbd
    rw [Memory.readPhys] at hread
    split at hread
    · assumption
    · cases hread
  have hclear : { bd with bdCtrl := bd.bdCtrl.clear }.writePhys mem bdAddr =
      some (mem.store bdAddr { bd with bdCtrl := bd.bdCtrl.clear }.toBytes) := by
    apply if_pos
    rw [BufferDescriptor.toBytes_length]
    exact hback
  have hwrite := h.writePhys_digest C st.outSwap (mem.store bdAddr { bd with bdCtrl := bd.bdCtrl.clear }.toBytes)
    (fun _ _ => rfl) (polled bd source)
  have hdigest : C.digests.finalize (C.digests.update (C.digests.new a) (polled bd source)) =
      C.digests.hash a (polled bd source) := by
    have hpieces := C.digests.finalize_updates a [polled bd source]
    rwa [List.flatten_singleton] at hpieces
  have hswap : (if ¬ st.outSwap = true then byteSwapWords (C.digests.hash a (polled bd source))
      else C.digests.hash a (polled bd source)) = wordOrder st.outSwap (C.digests.hash a (polled bd source)) := by
    cases st.outSwap <;> rfl
  rw [processBd, h.readBd]
  dsimp only
  rw [if_neg (not_not.mpr h.descEnabled), hopen]
  dsimp only
  rw [hfeed]
  dsimp only
  rw [hclear]
  dsimp only
  rw [if_pos ⟨h.lastBd, h.lifm⟩, commit]
  dsimp only
  rw [hdigest, hswap, hwrite]
  exact ⟨_, _, rfl, rfl, load_store_digest C a st.outSwap _ bd.updptr.toNat (polled bd source)⟩

/-- The first descriptor of a ring is the one that completes the hash. -/
theorem scan_eq (h : HashDescriptor a mem bdAddr bd sa source) (hst : Fresh st) (rest : List ℕ) :
    (scan (bdAddr :: rest) st mem).2.load bd.updptr.toNat a.size =
      wordOrder st.outSwap (C.digests.hash a (polled bd source)) := by
  obtain ⟨st', mem', hproc, hdone, hload⟩ := h.processBd_eq hst
  have hread := h.readBd
  rw [BufferDescriptor.readPhys, Option.map_eq_some_iff] at hread
  obtain ⟨b, hb, rfl⟩ := hread
  rw [Memory.readPhys] at hb
  split at hb
  · rename_i hback
    cases hb
    have hctrl : mem.readPhys bdAddr 4 = some (mem.load bdAddr 4) := if_pos (mem.backed_prefix hback (by decide))
    have hword : leWord (mem.load bdAddr 4) = (BufferDescriptor.ofBytes (mem.load bdAddr 32)).bdCtrl.word := by
      rw [← mem.load_take (n := 32) (by decide)]
      rfl
    have hon : ¬ leWord (mem.load bdAddr 4) &&& BdCtrl.descEnBit = 0 := by
      rw [hword]
      exact (BdCtrl.and_descEnBit _).mpr h.descEnabled
    rw [scan, hctrl]
    dsimp only
    rw [if_neg hon, hproc]
    dsimp only
    rw [if_pos hdone]
    exact hload
  · cases hb

theorem collectFrom_prefix : ∀ {fuel cur : ℕ} {addrs r : List ℕ}, collectFrom mem fuel cur addrs = some r →
    ∃ rest, r = addrs ++ rest
  | 0, _, addrs, _, h => ⟨[], by rw [← Option.some.inj h, List.append_nil]⟩
  | fuel + 1, cur, addrs, r, h => by
    rw [collectFrom] at h
    split_ifs at h
    · exact ⟨[], by rw [← Option.some.inj h, List.append_nil]⟩
    · exact ⟨[], by rw [← Option.some.inj h, List.append_nil]⟩
    · split at h
      · cases h
      · dsimp only at h
        split_ifs at h
        · exact ⟨[cur], (Option.some.inj h).symm⟩
        · obtain ⟨rest, rfl⟩ := collectFrom_prefix h
          exact ⟨cur :: rest, by rw [List.append_assoc, List.singleton_append]⟩

theorem collectChain_head {cur : ℕ} {addrs : List ℕ} (hcur : cur ≠ 0) (h : collectChain mem cur = some addrs) :
    ∃ rest, addrs = cur :: rest := by
  have hfrom : collectFrom mem 8 cur [] = some addrs := by
    rw [collectChain] at h
    split at h
    · cases h
    · cases h
    · rename_i hr
      rw [hr]
      exact h
  rw [collectFrom, if_neg hcur, if_neg List.not_mem_nil] at hfrom
  split at hfrom
  · cases hfrom
  · dsimp only at hfrom
    rw [List.nil_append] at hfrom
    split_ifs at hfrom
    · exact ⟨[], (Option.some.inj hfrom).symm⟩
    · exact collectFrom_prefix hfrom

/-- What arming takes down: the ring begins with CEBDPADDR. -/
theorem arm_eq {cebdpaddr : UInt32} {reg reg' : Registry C.digests} {idx : ℕ}
    (h : arm cebdpaddr outSwap mem reg = some (idx, reg')) :
    ∃ rest, reg' = reg ++ [some { outSwap := outSwap, bdAddrs := cebdpaddr.toNat :: rest }] := by
  rw [arm] at h
  split at h
  · cases h
  · rename_i hne
    split at h
    · cases h
    · rename_i addrs hchain
      have hpos : cebdpaddr.toNat ≠ 0 := fun h0 => hne (UInt32.toNat_inj.mp h0)
      obtain ⟨rest, rfl⟩ := collectChain_head hpos hchain
      cases h
      exact ⟨rest, rfl⟩

/-- What the first tick leaves at UPDPTR. -/
theorem load_tick {cebdpaddr : UInt32} {reg reg' : Registry C.digests} {idx : ℕ}
    (h : HashDescriptor a mem cebdpaddr.toNat bd sa source) (hidle : reg.Idle)
    (harm : arm cebdpaddr outSwap mem reg = some (idx, reg')) :
    (dispatchPollingTick reg' mem).2.load bd.updptr.toNat a.size =
      wordOrder outSwap (C.digests.hash a (polled bd source)) := by
  obtain ⟨rest, rfl⟩ := arm_eq harm
  have htick : tick ({ outSwap := outSwap, bdAddrs := cebdpaddr.toNat :: rest } : State C.digests) mem =
      scan (cebdpaddr.toNat :: rest) { outSwap := outSwap, bdAddrs := cebdpaddr.toNat :: rest } mem := rfl
  rw [dispatchPollingTick_idle hidle, htick]
  exact h.scan_eq ⟨rfl, rfl, rfl⟩ rest

/-- The digest of a single descriptor is at UPDPTR either way, and the two are the same exactly if MSGLEN is
not zero or the buffer has the digest of the empty message. -/
theorem polling_agrees_iff (C : Crates) (a : HashAlgo) (e : CryptoEngine) (mem : Memory) (bd : BufferDescriptor)
    (sa : SecurityAssociation) (source : Bytes) (outSwap : Bool) (reg reg' : Registry C.digests) (idx : ℕ)
    (hbd : HashDescriptor a mem e.cebdpaddr.toNat bd sa source) (hidle : reg.Idle)
    (harm : arm e.cebdpaddr outSwap mem reg = some (idx, reg')) :
    ∃ mem', e.runChain C outSwap mem = .ok (.ok (), mem') ∧
      (mem'.load bd.updptr.toNat a.size = (dispatchPollingTick reg' mem).2.load bd.updptr.toNat a.size ↔
        bd.msglen ≠ 0 ∨ C.digests.hash a source = C.digests.hash a []) := by
  refine ⟨_, hbd.runFrom_eq, ?_⟩
  rw [load_store_digest, hbd.load_tick hidle harm, wordOrder_inj, polled]
  by_cases hmsg : bd.msglen = 0
  · rw [hmsg, if_neg (not_not.mpr rfl), UInt32.toNat_zero, List.take_zero]
    exact ⟨fun h => .inr h.symm, fun h => (h.resolve_left (not_not.mpr rfl)).symm⟩
  · rw [if_pos hmsg]
    exact iff_of_true rfl (.inl hmsg)

end HashDescriptor

/-! ### A buffer with three bytes -/

/-- MD5 of the empty message, and of the messages of `md5OrZero`. -/
def md5EmptyOrZero (a : HashAlgo) (m : Bytes) : Bytes :=
  if a = .md5 ∧ m = [] then
    [0xD4, 0x1D, 0x8C, 0xD9, 0x8F, 0x00, 0xB2, 0x04, 0xE9, 0x80, 0x09, 0x98, 0xEC, 0xF8, 0x42, 0x7E]
  else md5OrZero a m

theorem md5EmptyOrZero_length (a : HashAlgo) (m : Bytes) : (md5EmptyOrZero a m).length = a.size := by
  rw [md5EmptyOrZero]
  split
  · rename_i h
    rw [h.1]
    rfl
  · exact md5Digests.hash_length a m

def md5EmptyDigests : Digests where
  State := HashAlgo × Bytes
  new a := (a, [])
  update s b := (s.1, s.2 ++ b)
  finalize s := md5EmptyOrZero s.1 s.2
  hash := md5EmptyOrZero
  update_nil s := md5Digests.update_nil s
  finalize_updates a pieces := by
    rw [foldl_append_pieces]
    rfl
  hash_length := md5EmptyOrZero_length

def md5Crates : Crates := ⟨identityCipher 16, identityCipher 8, identityCipher 8, md5EmptyDigests⟩

/-- A descriptor at 32 for the three bytes at 180, with ALGO MD5 in the security association at 64. -/
def abcMem (msglen : UInt32) : Memory :=
  wordsMem (List.replicate 8 0 ++ [0x804C0003, 64, 180, 0, 0, 512, msglen, 0] ++ [0x2000] ++ List.replicate 28 0 ++
    [0x00636261])

theorem abcMem_hash (msglen : UInt32) (h : msglen = 0 ∨ msglen = 3) :
    HashDescriptor .md5 (abcMem msglen) 32 (.ofBytes ((abcMem msglen).load 32 32))
      (.ofBytes ((abcMem msglen).load 64 SecurityAssociation.size)) [0x61, 0x62, 0x63] := by
  rcases h with rfl | rfl
  · constructor <;> decide +kernel
  · constructor <;> decide +kernel

theorem abcMem_arm (msglen : UInt32) (h : msglen = 0 ∨ msglen = 3) :
    arm 32 false (abcMem msglen) ([] : Registry md5EmptyDigests) =
      some (0, [some { outSwap := false, bdAddrs := [32] }]) := by
  have hchain : collectChain (abcMem msglen) 32 = some [32] := by
    rcases h with rfl | rfl
    · decide +kernel
    · decide +kernel
  rw [arm, if_neg (by decide), show (32 : UInt32).toNat = 32 from rfl, hchain]
  rfl

theorem nil_idle_of (D : Digests) : Registry.Idle ([] : Registry D) := fun _ hst => absurd hst List.not_mem_nil

/-- MSGLEN is zero: the store digests nothing, the tick digests the buffer. -/
theorem zero_msglen_disagrees : ∃ (e : CryptoEngine) (bd : BufferDescriptor) (sa : SecurityAssociation) (mem' : Memory)
    (idx : ℕ) (reg' : Registry md5EmptyDigests), bd.msglen = 0 ∧ bd.buflen = 3 ∧
      HashDescriptor .md5 (abcMem 0) e.cebdpaddr.toNat bd sa [0x61, 0x62, 0x63] ∧
      arm e.cebdpaddr false (abcMem 0) [] = some (idx, reg') ∧
      e.runChain md5Crates false (abcMem 0) = .ok (.ok (), mem') ∧
      mem'.load bd.updptr.toNat 16 ≠ (dispatchPollingTick reg' (abcMem 0)).2.load bd.updptr.toNat 16 := by
  have hbd := abcMem_hash 0 (.inl rfl)
  refine ⟨{ cebdpaddr := 32 }, _, _, _, _, _, by decide +kernel, by decide +kernel, hbd, abcMem_arm 0 (.inl rfl),
    hbd.runFrom_eq (C := md5Crates), ?_⟩
  have htick := hbd.load_tick (C := md5Crates) (nil_idle_of _) (abcMem_arm 0 (.inl rfl))
  have honce := HashDescriptor.load_store_digest md5Crates .md5 false (abcMem 0) 512 []
  have hdiff : wordOrder false (md5EmptyOrZero .md5 []) ≠ wordOrder false (md5EmptyOrZero .md5 [0x61, 0x62, 0x63]) := by
    decide +kernel
  intro h
  exact hdiff (honce.symm.trans (h.trans htick))

/-- MSGLEN is the length of the buffer: the digests agree. -/
theorem abc_agrees : ∃ mem',
    ({ cebdpaddr := 32 } : CryptoEngine).runChain md5Crates false (abcMem 3) = .ok (.ok (), mem') ∧
    mem'.load 512 16 = (dispatchPollingTick (D := md5EmptyDigests)
      [some { outSwap := false, bdAddrs := [32] }] (abcMem 3)).2.load 512 16 := by
  obtain ⟨mem', hrun, hiff⟩ := HashDescriptor.polling_agrees_iff md5Crates .md5 { cebdpaddr := 32 }
    (abcMem 3) _ _ _ false
    [] _ _ (abcMem_hash 3 (.inr rfl)) (nil_idle_of _) (abcMem_arm 3 (.inr rfl))
  exact ⟨mem', hrun, hiff.mpr (.inl (by decide +kernel))⟩

end PIC32
end Simulators
