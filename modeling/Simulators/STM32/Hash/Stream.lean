/-
# STM32 HASH: what the engine stands for

A context is a message on its way (`Cursor`): its algorithm and data type, the
stage of the hash or of the three-phase HMAC, and the words written to DIN in
that stage. `HashV1.At` says that the peripheral stands at a cursor,
`HashV1.SavedAt` that its snapshot does; one lemma for each kind of access says
where the peripheral stands after it.

Key theorems: `writeDin_at`, `writeStr_at`, `readCsr_savedAt`, `writeCr_restores`, `writeCr_starts`.
-/
import Simulators.Lib.Run
import Simulators.STM32.Hash.V1

namespace Simulators
namespace STM32
namespace Hash

variable {D : Hashers}

/-! ### Digests and HMAC of byte strings -/

/-- The key as a block: hashed first if it is longer than one, then filled with zeros. -/
def Hashers.keyBlock (D : Hashers) (a : Algo) (key : Bytes) : Bytes :=
  let k := if key.length > a.blockSize then D.digest a key else key
  k ++ List.replicate (a.blockSize - k.length) 0

def Hashers.ipad (D : Hashers) (a : Algo) (key : Bytes) : Bytes := (D.keyBlock a key).map (· ^^^ 0x36)

def Hashers.opad (D : Hashers) (a : Algo) (key : Bytes) : Bytes := (D.keyBlock a key).map (· ^^^ 0x5c)

def Hashers.hmac (D : Hashers) (a : Algo) (key m : Bytes) : Bytes :=
  D.digest a (D.opad a key ++ D.digest a (D.ipad a key ++ m))

theorem Hashers.digest_length (D : Hashers) (a : Algo) (m : Bytes) : (D.digest a m).length = 4 * a.outputWords :=
  D.finalize_length a m

/-- The words of a digest, most significant byte first. -/
def digestWords (d : Bytes) : List UInt32 := (chunks 4 d).map beWord

/-! ### Cursors -/

inductive Stage
  | plain
  | key
  | msg (key : Bytes)
  | key2 (key msg : Bytes)

/-- The words are those of the current stage. -/
structure Cursor where
  algo : Algo
  datatype : DataType
  stage : Stage
  words : List UInt32 := []

namespace Cursor

def push (k : Cursor) (w : UInt32) : Cursor := { k with words := k.words ++ [w] }

/-- The bytes that the engine has taken; the last word is still pending. -/
def fed (k : Cursor) : Bytes := k.words.dropLast.flatMap k.datatype.bytes

/-- The bytes of the stage if it ends here, with `valid` bytes of its last word. -/
def stream (k : Cursor) (valid : ℕ) : Bytes :=
  k.fed ++ (k.words.getLast?.elim [] fun w => (k.datatype.bytes w).take (min valid 4))

theorem stream_four (k : Cursor) : k.stream 4 = k.words.flatMap k.datatype.bytes := by
  rcases List.eq_nil_or_concat k.words with h | ⟨init, w, h⟩
  · simp [stream, fed, h]
  · simp [stream, fed, h, List.take_of_length_le]

theorem fed_push (k : Cursor) (w : UInt32) : (k.push w).fed = k.stream 4 := by
  rw [stream_four, fed, push, List.dropLast_concat]

/-- A context as CR selects it, without INIT. -/
def start (layout : AlgoLayout) (cr : UInt32) : Cursor where
  algo := layout.parseAlgo cr
  datatype := parseDatatype cr
  stage := if cr &&& crModeHmac ≠ 0 then .key else .plain

/-- What DCAL makes of a stage with its data: the next stage, or the digest. -/
def finish (D : Hashers) (a : Algo) (dt : DataType) : Stage → Bytes → Cursor ⊕ Bytes
  | .plain, data => .inr (D.digest a data)
  | .key, data => .inl { algo := a, datatype := dt, stage := .msg data }
  | .msg key, data => .inl { algo := a, datatype := dt, stage := .key2 key data }
  | .key2 key m, _ => .inr (D.hmac a key m)

/-- DCAL with `valid` bytes of the last word. -/
def dcal (D : Hashers) (k : Cursor) (valid : ℕ) : Cursor ⊕ Bytes :=
  finish D k.algo k.datatype k.stage (k.stream valid)

end Cursor

/-- The engine's fields at a stage with the given bytes taken. -/
def Holds (D : Hashers) (a : Algo) : Stage → Bytes → Option D.State → HmacPhase → Bytes → Option D.State → Prop
  | .plain, fed, hasher, phase, _, _ => phase = .off ∧ hasher = some (D.update (D.new a) fed)
  | .key, fed, hasher, phase, keyBuf, _ => phase = .key1 ∧ hasher.isSome = true ∧ keyBuf = fed
  | .msg key, fed, hasher, phase, _, outer => phase = .msg ∧
      hasher = some (D.update (D.new a) (D.ipad a key ++ fed)) ∧ outer = some (D.update (D.new a) (D.opad a key))
  | .key2 key m, _, hasher, phase, _, _ => phase = .key2 ∧
      hasher = some (D.update (D.new a) (D.opad a key ++ D.digest a (D.ipad a key ++ m)))

theorem Holds.isSome {a : Algo} {stage : Stage} {fed keyBuf : Bytes} {hasher outer : Option D.State} {phase : HmacPhase}
    (h : Holds D a stage fed hasher phase keyBuf outer) : hasher.isSome = true := by
  cases stage with
  | plain => rw [h.2]; rfl
  | key => exact h.2.1
  | msg key => rw [h.2.1]; rfl
  | key2 key m => rw [h.2]; rfl

namespace Engine

/-- The engine stands at a stage with the given bytes taken. -/
structure Has (e : Engine D) (a : Algo) (dt : DataType) (stage : Stage) (fed : Bytes) : Prop where
  algo : e.algo = a
  datatype : e.datatype = dt
  running : e.finalised = false
  cleared : e.result = List.replicate 16 0
  holds : Holds D a stage fed e.hasher e.hmacPhase e.hmacKeyBuf e.hmacOuter

/-- The engine has a digest to read. -/
structure Done (e : Engine D) (d : Bytes) : Prop where
  finalised : e.finalised = true
  result : ∀ i < 16, (e.result[i]?).getD 0 = ((digestWords d)[i]?).getD 0

variable {e : Engine D} {a : Algo} {dt : DataType} {stage : Stage} {fed : Bytes}

/-- Bytes go to where the stage collects them. -/
theorem feedWord_has (h : e.Has a dt stage fed) (w : UInt32) (n : ℕ) :
    (e.feedWord w n).Has a dt stage (fed ++ (dt.bytes w).take (min n 4)) := by
  obtain ⟨ha, hdt, hrun, hres, hh⟩ := h
  have hnot : ¬ e.finalised = true := by simp [hrun]
  unfold feedWord
  rw [if_neg hnot, hdt]
  cases stage with
  | plain =>
    obtain ⟨hp, hs⟩ := hh
    simp only [hp, hs]
    exact ⟨ha, rfl, hrun, hres, rfl, by rw [D.update_append]⟩
  | key =>
    obtain ⟨hp, hs, hk⟩ := hh
    simp only [hp]
    exact ⟨ha, rfl, hrun, hres, rfl, hs, by rw [hk]⟩
  | msg key =>
    obtain ⟨hp, hs, ho⟩ := hh
    simp only [hp, hs]
    exact ⟨ha, rfl, hrun, hres, rfl, by rw [D.update_append, List.append_assoc], ho⟩
  | key2 key m =>
    obtain ⟨hp, hs⟩ := hh
    simp only [hp]
    exact ⟨ha, hdt, hrun, hres, hp, hs⟩

/-! ### The end of a stage -/

theorem resize_four {b : Bytes} (h : b.length = 4) : resize 4 b = b := by
  rw [resize, h, Nat.sub_self, List.replicate_zero, List.append_nil, List.take_of_length_le (by omega)]

theorem chunks_four {d : Bytes} {n : ℕ} (h : d.length = 4 * n) :
    (chunks 4 d).length = n ∧ ∀ chunk ∈ chunks 4 d, chunk.length = 4 := by
  obtain ⟨bs, rfl, hbs⟩ := exists_flat n d h
  rw [chunks_flat (by decide)]
  refine ⟨by simpa using hbs, fun chunk hchunk => ?_⟩
  obtain ⟨b, -, rfl⟩ := List.mem_map.mp hchunk
  exact b.size

theorem stageDigest_done {d : Bytes} {n : ℕ} (hres : e.result = List.replicate 16 0) (hd : d.length = 4 * n)
    (hn : n ≤ 16) : ∀ i < 16, ((e.stageDigest d).result[i]?).getD 0 = ((digestWords d)[i]?).getD 0 := by
  obtain ⟨hlen, hfour⟩ := chunks_four hd
  have hwords : (chunks 4 d).map (fun chunk => beWord (resize 4 chunk)) = digestWords d := by
    refine List.map_congr_left fun chunk hchunk => ?_
    rw [resize_four (hfour chunk hchunk)]
  have hwlen : (digestWords d).length = n := by rw [digestWords, List.length_map, hlen]
  intro i hi
  simp only [stageDigest, hwords, hres, List.length_replicate,
    List.take_of_length_le (by omega : (digestWords d).length ≤ 16)]
  by_cases hlt : i < n
  · rw [List.getElem?_append_left (by omega)]
  · rw [List.getElem?_append_right (by omega), List.drop_replicate, List.getElem?_replicate, if_pos (by omega),
      List.getElem?_eq_none (by omega : (digestWords d).length ≤ i), Option.getD_some, Option.getD_none]

theorem finalize_plain (h : e.Has a dt .plain fed) : e.finalize.Done (D.digest a fed) := by
  obtain ⟨ha, hdt, hrun, hres, hp, hs⟩ := h
  have hnot : ¬ e.finalised = true := by simp [hrun]
  simp only [finalize, if_neg hnot, hp, finalizePlain, hs]
  exact ⟨rfl, stageDigest_done hres (D.digest_length a fed) a.outputWords_le⟩

/-- What HMAC pads is what `resize` makes of the key. -/
theorem resize_key (a : Algo) (key : Bytes) : resize a.blockSize
    (if key.length > a.blockSize then D.finalize (D.update (D.new a) key) else key) = D.keyBlock a key := by
  have hle : (if key.length > a.blockSize then D.digest a key else key).length ≤ a.blockSize := by
    split
    · rw [D.digest_length]
      exact a.output_le_block
    · omega
  rw [resize, Hashers.keyBlock]
  simp only [Hashers.digest] at hle ⊢
  rw [List.take_of_length_le hle]

theorem finalize_key (h : e.Has a dt .key fed) : e.finalize.Has a dt (.msg fed) [] := by
  obtain ⟨ha, hdt, hrun, hres, hp, hs, hk⟩ := h
  have hnot : ¬ e.finalised = true := by simp [hrun]
  simp only [finalize, if_neg hnot, hp, hmacFinishKey1, ha, hk, resize_key]
  exact ⟨rfl, hdt, hrun, hres, rfl, by rw [List.append_nil]; rfl, rfl⟩

theorem finalize_msg {key : Bytes} (h : e.Has a dt (.msg key) fed) : e.finalize.Has a dt (.key2 key fed) [] := by
  obtain ⟨ha, hdt, hrun, hres, hp, hs, ho⟩ := h
  have hnot : ¬ e.finalised = true := by simp [hrun]
  simp only [finalize, if_neg hnot, hp, hmacFinishMsg, hs, ho, D.update_append]
  exact ⟨ha, hdt, hrun, hres, rfl, rfl⟩

theorem finalize_key2 {key m : Bytes} (h : e.Has a dt (.key2 key m) fed) : e.finalize.Done (D.hmac a key m) := by
  obtain ⟨ha, hdt, hrun, hres, hp, hs⟩ := h
  have hnot : ¬ e.finalised = true := by simp [hrun]
  simp only [finalize, if_neg hnot, hp, hmacFinishKey2, hs]
  exact ⟨rfl, stageDigest_done hres (D.digest_length a _) a.outputWords_le⟩

/-- What only INIT and a save change. -/
def kept (e : Engine D) : Algo × DataType × Option D.State × HmacPhase × Bytes × Option D.State :=
  (e.algo, e.datatype, e.savedHasher, e.savedHmacPhase, e.savedHmacKeyBuf, e.savedHmacOuter)

@[simp] theorem feedWord_kept (e : Engine D) (w : UInt32) (n : ℕ) : (e.feedWord w n).kept = e.kept := by
  unfold feedWord
  split
  · rfl
  · dsimp only
    split
    · rfl
    · rfl
    · split <;> rfl
    · split <;> rfl

@[simp] theorem finalize_kept (e : Engine D) : e.finalize.kept = e.kept := by
  unfold finalize finalizePlain hmacFinishKey1 hmacFinishMsg hmacFinishKey2
  split
  · rfl
  · split
    · split <;> rfl
    · rfl
    · split <;> rfl
    · split <;> rfl

end Engine

/-! ### The peripheral at a cursor -/

namespace HashV1

variable {p : HashV1 D} {k : Cursor}

structure At (p : HashV1 D) (k : Cursor) : Prop where
  has : p.engine.Has k.algo k.datatype k.stage k.fed
  pending : p.pending = k.words.getLast?

/-- The snapshot stands at a cursor. -/
structure SavedAt (p : HashV1 D) (k : Cursor) : Prop where
  algo : p.engine.algo = k.algo
  datatype : p.engine.datatype = k.datatype
  holds : Holds D k.algo k.stage k.fed p.engine.savedHasher p.engine.savedHmacPhase p.engine.savedHmacKeyBuf
    p.engine.savedHmacOuter
  pending : p.savedPending = k.words.getLast?

/-- A stage that goes on, or a digest to read. -/
def Stands (p : HashV1 D) : Cursor ⊕ Bytes → Prop
  | .inl k => p.At k
  | .inr d => p.engine.Done d

/-- DCAL clears itself. -/
def Quiet (p : HashV1 D) : Prop := p.strReg &&& strDCAL = 0

theorem writeDin_at (h : p.At k) (w : UInt32) : (p.writeDin w).At (k.push w) := by
  obtain ⟨hh, hp⟩ := h
  have hpush : (k.push w).words.getLast? = some w := List.getLast?_concat
  unfold writeDin
  rcases hl : k.words.getLast? with _ | prev
  · rw [hp, hl]
    refine ⟨?_, hpush.symm⟩
    rw [k.fed_push, Cursor.stream, hl, Option.elim_none, List.append_nil]
    exact hh
  · rw [hp, hl]
    refine ⟨?_, hpush.symm⟩
    rw [k.fed_push, Cursor.stream, hl]
    exact Engine.feedWord_has hh prev 4

theorem writeStr_at (h : p.At k) (hq : p.Quiet) {value : UInt32} (hv : value &&& strDCAL ≠ 0) :
    (p.writeStr value).Stands (k.dcal D (validBytes value)) := by
  obtain ⟨hh, hp⟩ := h
  obtain ⟨e, he, heq⟩ : ∃ e : Engine D, e.Has k.algo k.datatype k.stage (k.stream (validBytes value)) ∧
      (p.writeStr value).engine = e.finalize ∧ (p.writeStr value).pending = none := by
    rw [writeStr, if_pos ⟨hq, hv⟩, hp]
    rcases hl : k.words.getLast? with _ | last
    · refine ⟨p.engine, ?_, rfl, rfl⟩
      rw [Cursor.stream, hl, Option.elim_none, List.append_nil]
      exact hh
    · refine ⟨p.engine.feedWord last (validBytes value), ?_, rfl, rfl⟩
      rw [Cursor.stream, hl]
      exact Engine.feedWord_has hh last _
  obtain ⟨heng, hpend⟩ := heq
  rw [Cursor.dcal]
  rcases hs : k.stage with _ | _ | key | ⟨key, m⟩
  · rw [hs] at he
    show (p.writeStr value).engine.Done _
    rw [heng]
    exact Engine.finalize_plain he
  · rw [hs] at he
    exact ⟨heng ▸ Engine.finalize_key he, hpend⟩
  · rw [hs] at he
    exact ⟨heng ▸ Engine.finalize_msg he, hpend⟩
  · rw [hs] at he
    show (p.writeStr value).engine.Done _
    rw [heng]
    exact Engine.finalize_key2 he

/-- A snapshot is where the peripheral stands. -/
theorem readCsr_savedAt (h : p.At k) : (p.readCsr 0).2.At k ∧ (p.readCsr 0).2.SavedAt k := by
  obtain ⟨hh, hp⟩ := h
  have hcap : p.engine.captureSnapshot =
      { p.engine with savedHasher := p.engine.hasher, savedHmacPhase := p.engine.hmacPhase,
                      savedHmacKeyBuf := p.engine.hmacKeyBuf, savedHmacOuter := p.engine.hmacOuter } := by
    obtain ⟨st, hst⟩ := Option.isSome_iff_exists.mp hh.holds.isSome
    simp only [Engine.captureSnapshot, hst]
  rw [readCsr, if_pos rfl, hcap]
  exact ⟨⟨⟨hh.algo, hh.datatype, hh.running, hh.cleared, hh.holds⟩, hp⟩, ⟨hh.algo, hh.datatype, hh.holds, hp⟩⟩

/-- STR and then CR with INIT bring the snapshot back. -/
theorem writeCr_restores (h : p.SavedAt k) (hstr : p.strWrittenSinceCr = true) {value : UInt32}
    (hv : value &&& crINIT ≠ 0) : (p.writeCr value).At k ∧ (p.writeCr value).SavedAt k := by
  obtain ⟨ha, hdt, hh, hp⟩ := h
  obtain ⟨st, hst⟩ := Option.isSome_iff_exists.mp hh.isSome
  have hsnap : p.strWrittenSinceCr = true ∧ p.engine.hasSnapshot = true := ⟨hstr, by rw [Engine.hasSnapshot, hst]; rfl⟩
  have hres : p.engine.restoreFromSnapshot =
      { p.engine with hasher := p.engine.savedHasher, finalised := false, result := List.replicate 16 0,
                      hmacPhase := p.engine.savedHmacPhase, hmacKeyBuf := p.engine.savedHmacKeyBuf,
                      hmacOuter := p.engine.savedHmacOuter } := by
    simp only [Engine.restoreFromSnapshot, hst]
  rw [writeCr, if_pos hv, if_pos hsnap, hres]
  exact ⟨⟨⟨ha, hdt, rfl, rfl, hh⟩, hp⟩, ⟨ha, hdt, hh, hp⟩⟩

/-- CR with INIT starts afresh if STR was not written since the last CR write, or there is no snapshot. -/
theorem writeCr_starts (h : p.strWrittenSinceCr = false ∨ p.engine.savedHasher = none) {value : UInt32}
    (hv : value &&& crINIT ≠ 0) :
    (p.writeCr value).At (Cursor.start p.layout (value &&& ~~~crINIT)) ∧
      (p.writeCr value).engine.savedHasher = none := by
  have hno : ¬ (p.strWrittenSinceCr = true ∧ p.engine.hasSnapshot = true) := by
    rintro ⟨hstr, hsnap⟩
    rcases h with h | h
    · rw [h] at hstr
      cases hstr
    · rw [Engine.hasSnapshot, h] at hsnap
      cases hsnap
  rw [writeCr, if_pos hv, if_neg hno]
  refine ⟨⟨⟨rfl, rfl, rfl, rfl, ?_⟩, rfl⟩, rfl⟩
  simp only [Cursor.start, Engine.initWithMode]
  by_cases hmode : value &&& ~~~crINIT &&& crModeHmac ≠ 0
  · rw [if_pos hmode, if_pos (decide_eq_true hmode)]
    exact ⟨rfl, rfl, rfl⟩
  · rw [if_neg hmode, if_neg (by simpa using hmode)]
    exact ⟨rfl, congrArg some (D.update_nil _).symm⟩

/-! ### Other accesses -/

/-- The peripherals differ in registers that the engine does not see. -/
structure Same (p p' : HashV1 D) : Prop where
  engine : p'.engine = p.engine
  pending : p'.pending = p.pending
  savedPending : p'.savedPending = p.savedPending
  layout : p'.layout = p.layout

variable {p' : HashV1 D}

theorem At.of_same (h : p.At k) (hs : Same p p') : p'.At k :=
  ⟨by rw [hs.engine]; exact h.has, by rw [hs.pending]; exact h.pending⟩

theorem SavedAt.of_same (h : p.SavedAt k) (hs : Same p p') : p'.SavedAt k := by
  refine ⟨?_, ?_, ?_, ?_⟩
  · rw [hs.engine, h.algo]
  · rw [hs.engine, h.datatype]
  · rw [hs.engine]
    exact h.holds
  · rw [hs.savedPending, h.pending]

/-- Not a read of CSR[0]. -/
def NoSave (offset : UInt32) : Prop := ¬ (csrBase ≤ offset ∧ offset ≤ csrEnd ∧ (offset - csrBase).toNat / 4 = 0)

/-- Only a read of CSR[0] changes the peripheral. -/
theorem read_eq_self {offset : UInt32} (h : NoSave offset) : (p.read offset).2 = p := by
  have hcsr : csrBase ≤ offset ∧ offset ≤ csrEnd → (p.readCsr ((offset - csrBase).toNat / 4)).2 = p := by
    intro hin
    rw [readCsr]
    exact if_neg fun h0 => h ⟨hin.1, hin.2, h0⟩
  unfold read
  iterate 7 refine iteInduction (motive := fun x : UInt32 × HashV1 D => x.2 = p) (fun _ => rfl) fun _ => ?_
  exact iteInduction (motive := fun x : UInt32 × HashV1 D => x.2 = p) hcsr fun _ => rfl

/-- A read changes the snapshot at most. -/
theorem read_kept {α : Type} (f : HashV1 D → α)
    (hf : f { p with engine := p.engine.captureSnapshot, savedPending := p.pending } = f p) (offset : UInt32) :
    f (p.read offset).2 = f p := by
  have hcsr : ∀ idx, f (p.readCsr idx).2 = f p := by
    intro idx
    rw [readCsr]
    exact iteInduction (motive := fun q : HashV1 D => f q = f p) (fun _ => hf) fun _ => rfl
  unfold read
  iterate 7 refine iteInduction (motive := fun x : UInt32 × HashV1 D => f x.2 = f p) (fun _ => rfl) fun _ => ?_
  exact iteInduction (motive := fun x : UInt32 × HashV1 D => f x.2 = f p) (fun _ => hcsr _) fun _ => rfl

/-- What a write does. -/
inductive Wrote (p : HashV1 D) (offset value : UInt32) : HashV1 D → Prop
  | cr (h : offset = regCR) : Wrote p offset value (p.writeCr value)
  | din (h : offset = regDIN) : Wrote p offset value (p.writeDin value)
  | str (h : offset = regSTR) : Wrote p offset value (p.writeStr value)
  | other {p' : HashV1 D} (hc : offset ≠ regCR) (hd : offset ≠ regDIN) (hs : offset ≠ regSTR) (h : Same p p')
      (hstr : p'.strReg = p.strReg) (hw : p'.strWrittenSinceCr = p.strWrittenSinceCr) : Wrote p offset value p'

theorem write_wrote (p : HashV1 D) (offset value : UInt32) : Wrote p offset value (p.write offset value) := by
  unfold write
  refine iteInduction (motive := Wrote p offset value) .cr fun hc => ?_
  refine iteInduction (motive := Wrote p offset value) .din fun hd => ?_
  refine iteInduction (motive := Wrote p offset value) .str fun hs => ?_
  iterate 4
    refine iteInduction (motive := Wrote p offset value)
      (fun _ => .other hc hd hs ⟨rfl, rfl, rfl, rfl⟩ rfl rfl) fun _ => ?_
  exact .other hc hd hs ⟨rfl, rfl, rfl, rfl⟩ rfl rfl

theorem writeStr_quiet (hq : p.Quiet) (value : UInt32) : (p.writeStr value).Quiet := by
  unfold writeStr Quiet
  split
  · show value &&& ~~~strDCAL &&& strDCAL = 0
    rw [UInt32.and_assoc]
    simp
  · rename_i h
    by_contra hv
    exact h ⟨hq, hv⟩

/-- DCAL reads as zero, whatever was accessed. -/
theorem access_quiet (hq : p.Quiet) (a : Access) : (p.access a).2.Quiet := by
  cases a with
  | read offset =>
    show (p.read offset).2.strReg &&& strDCAL = 0
    rw [read_kept (fun q => q.strReg) rfl]
    exact hq
  | write offset value =>
    have hw := write_wrote p offset value
    rw [access]
    generalize p.write offset value = q at hw
    cases hw with
    | cr h =>
      have hstr : (p.writeCr value).strReg = p.strReg := by
        unfold writeCr
        dsimp only
        split
        · split <;> rfl
        · rfl
      rw [Quiet, hstr]
      exact hq
    | din h =>
      have hstr : (p.writeDin value).strReg = p.strReg := by
        unfold writeDin
        split <;> rfl
      rw [Quiet, hstr]
      exact hq
    | str h => exact writeStr_quiet hq value
    | other _ _ _ _ hstr _ =>
      rw [Quiet, hstr]
      exact hq

/-- An access that is not part of the protocol: nothing starts, ends, is saved or restored. -/
def Idle : Access → Prop
  | .read offset => NoSave offset
  | .write offset value => offset ≠ regCR ∧ offset ≠ regDIN ∧ (offset = regSTR → value &&& strDCAL = 0)

theorem access_layout (p : HashV1 D) (a : Access) : (p.access a).2.layout = p.layout := by
  cases a with
  | read offset => exact read_kept (fun q => q.layout) rfl offset
  | write offset value =>
    have hw := write_wrote p offset value
    rw [access]
    generalize p.write offset value = q at hw
    cases hw with
    | cr _ =>
      unfold writeCr
      dsimp only
      split
      · split <;> rfl
      · rfl
    | din _ =>
      unfold writeDin
      split <;> rfl
    | str _ =>
      unfold writeStr
      split <;> rfl
    | other _ _ _ hs _ _ => exact hs.layout

theorem access_idle {a : Access} (h : Idle a) :
    Same p (p.access a).2 ∧ (p.strWrittenSinceCr = true → (p.access a).2.strWrittenSinceCr = true) := by
  cases a with
  | read offset =>
    have heq : (p.access (.read offset)).2 = p := read_eq_self h
    rw [heq]
    exact ⟨⟨rfl, rfl, rfl, rfl⟩, id⟩
  | write offset value =>
    obtain ⟨hc, hd, hs⟩ := h
    have hw := write_wrote p offset value
    rw [access]
    generalize p.write offset value = q at hw
    cases hw with
    | cr h => exact absurd h hc
    | din h => exact absurd h hd
    | str h =>
      rw [writeStr, if_neg fun hboth => hboth.2 (hs h)]
      exact ⟨⟨rfl, rfl, rfl, rfl⟩, fun _ => rfl⟩
    | other _ _ _ h _ hw => exact ⟨h, fun hp => by rw [hw, hp]⟩

/-- No context is started, saved or restored. -/
def Excursion : Access → Prop
  | .read offset => NoSave offset
  | .write offset _ => offset ≠ regCR

theorem SavedAt.of_kept (h : p.SavedAt k) (he : p'.engine.kept = p.engine.kept)
    (hp : p'.savedPending = p.savedPending) : p'.SavedAt k := by
  simp only [Engine.kept, Prod.mk.injEq] at he
  obtain ⟨ha, hdt, hh, hph, hk, ho⟩ := he
  refine ⟨ha.trans h.algo, hdt.trans h.datatype, ?_, hp.trans h.pending⟩
  rw [hh, hph, hk, ho]
  exact h.holds

/-- The snapshot outlives data, digests and further stages. -/
theorem access_savedAt {a : Access} (ha : Excursion a) (h : p.SavedAt k) : (p.access a).2.SavedAt k := by
  cases a with
  | read offset =>
    have heq : (p.access (.read offset)).2 = p := read_eq_self ha
    rwa [heq]
  | write offset value =>
    have hw := write_wrote p offset value
    rw [access]
    generalize p.write offset value = q at hw
    cases hw with
    | cr hc => exact absurd hc ha
    | din _ =>
      unfold writeDin
      split
      · exact h.of_kept (Engine.feedWord_kept _ _ _) rfl
      · exact h.of_kept rfl rfl
    | str _ =>
      unfold writeStr
      split
      · refine h.of_kept ?_ rfl
        dsimp only
        rw [Engine.finalize_kept]
        split
        · exact Engine.feedWord_kept _ _ _
        · rfl
      · exact h.of_kept rfl rfl
    | other _ _ _ hs _ _ => exact h.of_same hs

/-! ### Runs of accesses -/

/-- The peripheral after some accesses. -/
def run (p : HashV1 D) (as : List Access) : HashV1 D := as.foldl (fun p a => (p.access a).2) p

@[simp] theorem run_nil (p : HashV1 D) : p.run [] = p := rfl

@[simp] theorem run_cons (p : HashV1 D) (a : Access) (as : List Access) : p.run (a :: as) = (p.access a).2.run as := rfl

@[simp] theorem run_append (p : HashV1 D) (as bs : List Access) : p.run (as ++ bs) = (p.run as).run bs :=
  List.foldl_append

/-- What each access of a run keeps. -/
theorem run_induction {P : HashV1 D → Prop} {as : List Access} (h : P p)
    (hstep : ∀ p, P p → ∀ a ∈ as, P (p.access a).2) : P (p.run as) := by
  induction as generalizing p with
  | nil => exact h
  | cons a as ih =>
    exact ih (hstep p h a List.mem_cons_self) fun p hp b hb => hstep p hp b (List.mem_cons_of_mem a hb)

theorem run_quiet (hq : p.Quiet) (as : List Access) : (p.run as).Quiet :=
  run_induction hq fun _ hp a _ => access_quiet hp a

end HashV1

end Hash
end STM32
end Simulators
