/-
# STM32 CRYP: what the two register files have in common

A driver uses either register file in the same way: it loads the key and the
IV, writes CR, writes DIN and reads DOUT. `RegisterFile` is what this needs of
a register file, `RegisterFile.Lawful` what the accesses do to the engine and
the GCM session behind it, and both files are lawful.

Key theorems: `v1_lawful`, `v2_lawful`.
-/
import Mathlib.Tactic.IntervalCases
import Simulators.STM32.Cryp.Gcm
import Simulators.STM32.Cryp.V1
import Simulators.STM32.Cryp.V2

namespace Simulators
namespace STM32
namespace Cryp

/-! ### Blocks through the core -/

namespace Core

variable {A : Aes} {c : Core}

/-- The engine runs this configuration, and no block has begun. -/
structure Ready (cfg : Config) (key : ByteArr 32) (iv : Block) (c : Core) : Prop where
  enabled : c.engine.enabled = true
  config : c.engine.config = cfg
  key : c.engine.key = key
  iv : c.engine.iv = iv
  gcmInBuf : c.gcmInBuf = []

/-- The session that a phase starts or goes on with, from `g`. -/
def enterPhase (A : Aes) (e : CrypEngine) (g : GcmSession) (ph : GcmPhase) : GcmSession :=
  if ph = .init then .init A e else { g with phase := ph }

theorem ready_commit {cfg : Config} (hmode : cfg.mode = .gcm) (key : ByteArr 32) (iv : Block) (ph : GcmPhase) :
    ((c.commitConfig A cfg key iv ph).setEnabled true).Ready cfg key iv ∧
      ((c.commitConfig A cfg key iv ph).setEnabled true).gcm =
        enterPhase A ((c.commitConfig A cfg key iv ph).setEnabled true).engine c.gcm ph := by
  simp only [commitConfig, if_pos hmode]
  exact ⟨⟨rfl, rfl, rfl, rfl, rfl⟩, rfl⟩

theorem ready_changePhase {cfg : Config} {key : ByteArr 32} {iv : Block} (h : c.Ready cfg key iv) (ph : GcmPhase) :
    (c.changePhase A ph).Ready cfg key iv ∧
      (c.changePhase A ph).gcm = enterPhase A (c.changePhase A ph).engine c.gcm ph :=
  ⟨⟨h.enabled, h.config, h.key, h.iv, rfl⟩, rfl⟩

/-- The core with the first bytes of a block. -/
def begun (c : Core) (buf : Bytes) : Core := { c with gcmInBuf := buf }

theorem begun_nil (h : c.gcmInBuf = []) : c.begun [] = c := by
  obtain ⟨_, _, _⟩ := c
  cases h
  rfl

theorem begun_din (hon : c.engine.enabled = true) (hmode : c.engine.mode = .gcm) (buf : Bytes) (value : UInt32) :
    (c.begun buf).din A value =
      if h : (buf ++ c.engine.datatype.bytes value).length = 16 then
        (c.begun []).gcmBlock A ⟨buf ++ c.engine.datatype.bytes value, h⟩
      else c.begun (buf ++ c.engine.datatype.bytes value) := by
  have hgcm : (c.begun buf).engine.enabled = true ∧ (c.begun buf).engine.mode = .gcm := ⟨hon, hmode⟩
  rw [din, if_pos hgcm, gcmDin, if_neg (by rw [hgcm.1, hgcm.2]; simp)]
  rfl

theorem begun_din_word4 (hon : c.engine.enabled = true) (hmode : c.engine.mode = .gcm) {buf : Bytes} {b : ByteArr 4}
    (hlen : buf.length < 12) :
    (c.begun buf).din A (c.engine.datatype.word4 b.bytes) = c.begun (buf ++ b.bytes) := by
  have hshort : ¬ (buf ++ b.bytes).length = 16 := by
    rw [List.length_append, b.size]
    omega
  rw [begun_din hon hmode, dif_neg]
  · rw [DataType.bytes_word4 _ b.size]
  · rwa [DataType.bytes_word4 _ b.size]

/-- The four words of a block. -/
theorem din_block (hon : c.engine.enabled = true) (hmode : c.engine.mode = .gcm) (hbuf : c.gcmInBuf = [])
    (x : Block) : (c.engine.datatype.words x.bytes).foldl (din A) c = c.gcmBlock A x := by
  obtain ⟨b₀, b₁, b₂, b₃, hx, hwords⟩ := c.engine.datatype.words_block x.size
  have hlast : [] ++ b₀.bytes ++ b₁.bytes ++ b₂.bytes ++ c.engine.datatype.bytes (c.engine.datatype.word4 b₃.bytes) =
      x.bytes := by rw [DataType.bytes_word4 _ b₃.size, hx, List.nil_append, List.append_assoc, List.append_assoc]
  have hlen : ([] ++ b₀.bytes ++ b₁.bytes ++ b₂.bytes ++
      c.engine.datatype.bytes (c.engine.datatype.word4 b₃.bytes)).length = 16 := hlast ▸ x.size
  calc (c.engine.datatype.words x.bytes).foldl (din A) c
      = ((((c.begun []).din A (c.engine.datatype.word4 b₀.bytes)).din A (c.engine.datatype.word4 b₁.bytes)).din A
          (c.engine.datatype.word4 b₂.bytes)).din A (c.engine.datatype.word4 b₃.bytes) := by
        rw [hwords, begun_nil hbuf]
        rfl
    _ = (c.begun ([] ++ b₀.bytes ++ b₁.bytes ++ b₂.bytes)).din A (c.engine.datatype.word4 b₃.bytes) := by
        rw [begun_din_word4 hon hmode (by simp), begun_din_word4 hon hmode (by simp [b₀.size]),
          begun_din_word4 hon hmode (by simp [b₀.size, b₁.size])]
    _ = (c.begun []).gcmBlock A ⟨_, hlen⟩ := by rw [begun_din hon hmode, dif_pos hlen]
    _ = c.gcmBlock A x := by
        rw [begun_nil hbuf]
        exact congrArg (c.gcmBlock A) (ByteArr.ext hlast)

/-- The core with `n` bytes of its output read. -/
def drained (c : Core) (out : Block) (n : ℕ) : Core :=
  { c with engine := { c.engine with outBuf := out, outPos := n, outAvail := 16 - n } }

theorem dout_drained (out : Block) {n : ℕ} (h : n ≤ 12) :
    (c.drained out n).dout = (c.engine.datatype.word4 ((out.bytes.drop n).take 4), c.drained out (n + 4)) := by
  have hav : ¬ 16 - n < 4 := by omega
  have hsub : 16 - n - 4 = 16 - (n + 4) := by omega
  simp only [dout, drained, CrypEngine.readDout, hav, if_false, hsub]
  rfl

/-! What a whole block does in each phase, its output staged. -/

theorem gcmBlock_header (h : c.gcm.phase = .header) (x : Block) :
    c.gcmBlock A x = { c with gcm := c.gcm.ingestAad x } := by rw [gcmBlock, h]

theorem gcmBlock_payload (h : c.gcm.phase = .payload) (x : Block) :
    c.gcmBlock A x = drained { c with gcm := (c.gcm.processPayload A c.engine.direction c.engine x).2 }
      (c.gcm.processPayload A c.engine.direction c.engine x).1 0 := by
  rw [gcmBlock, h]
  rfl

theorem gcmBlock_final (h : c.gcm.phase = .final) (x : Block) :
    c.gcmBlock A x = drained { c with gcm := c.gcm.finalise.2 } c.gcm.finalise.1 0 := by
  rw [gcmBlock, h]
  rfl

/-- The four words of an output block. -/
def drain (c : Core) : List UInt32 × Core :=
  let (w₀, c) := c.dout
  let (w₁, c) := c.dout
  let (w₂, c) := c.dout
  let (w₃, c) := c.dout
  ([w₀, w₁, w₂, w₃], c)

theorem drain_staged (out : Block) :
    (c.drained out 0).drain = (c.engine.datatype.words out.bytes, c.drained out 16) := by
  obtain ⟨b₀, b₁, b₂, b₃, hx, hwords⟩ := c.engine.datatype.words_block out.size
  have h0 : (out.bytes.drop 0).take 4 = b₀.bytes := by
    rw [List.drop_zero, hx, List.take_left' b₀.size]
  have h1 : (out.bytes.drop 4).take 4 = b₁.bytes := by
    rw [hx, List.drop_left' b₀.size, List.take_left' b₁.size]
  have h2 : (out.bytes.drop 8).take 4 = b₂.bytes := by
    rw [hx, ← List.append_assoc, List.drop_left' (by simp [b₀.size, b₁.size]), List.take_left' b₂.size]
  have h3 : (out.bytes.drop 12).take 4 = b₃.bytes := by
    rw [hx, ← List.append_assoc, ← List.append_assoc, List.drop_left' (by simp [b₀.size, b₁.size, b₂.size]),
      List.take_of_length_le (by rw [b₃.size])]
  simp (disch := decide) only [drain, dout_drained, Nat.reduceAdd, hwords, h0, h1, h2, h3]

end Core
/-! ### The interface -/

/-- What the registers hold: CR, the key of each size, and the IV. -/
structure Held where
  cr : UInt32
  key : KeySize → ByteArr 32
  iv : Block

/-- A register file, with what its CR encodes, and the writes that load a key and an IV. -/
structure RegisterFile where
  State : Type
  access : State → Access → UInt32 × State
  held : State → Held
  core : State → Core
  regCR : UInt32
  regDIN : UInt32
  regDOUT : UInt32
  enables : UInt32 → Bool
  config : UInt32 → Config
  gcmPhase : UInt32 → GcmPhase
  keySizes : List KeySize
  load : KeySize → Bytes → Block → List Access

namespace RegisterFile

variable (R : RegisterFile)

def write (s : R.State) (offset value : UInt32) : R.State := (R.access s (.write offset value)).2

/-- The words that the reads of a list of accesses return, and the last state. -/
def run : R.State → List Access → List UInt32 × R.State
  | s, [] => ([], s)
  | s, .read offset :: as => ((R.access s (.read offset)).1 :: (run (R.access s (.read offset)).2 as).1,
      (run (R.access s (.read offset)).2 as).2)
  | s, .write offset value :: as => run (R.write s offset value) as

theorem run_append : ∀ (s : R.State) (as bs : List Access),
    R.run s (as ++ bs) = ((R.run s as).1 ++ (R.run (R.run s as).2 bs).1, (R.run (R.run s as).2 bs).2)
  | _, [], _ => rfl
  | s, .read offset :: as, bs => by
    rw [List.cons_append, run, run, run_append]
    rfl
  | s, .write offset value :: as, bs => by rw [List.cons_append, run, run, run_append]

/-- The enable bit of CR. -/
def enabled (s : R.State) : Bool := R.enables (R.held s).cr

/-- What the accesses of a driver do. -/
structure Lawful (A : Aes) : Prop where
  config_keySize : ∀ v, (R.config v).keySize ∈ R.keySizes
  din : ∀ s v, R.held (R.write s R.regDIN v) = R.held s ∧ R.core (R.write s R.regDIN v) = (R.core s).din A v
  dout : ∀ s, R.held (R.access s (.read R.regDOUT)).2 = R.held s ∧
    ((R.access s (.read R.regDOUT)).1, R.core (R.access s (.read R.regDOUT)).2) = (R.core s).dout
  cr : ∀ s v, R.enabled (R.write s R.regCR v) = R.enables v ∧
    (R.held (R.write s R.regCR v)).key = (R.held s).key ∧ (R.held (R.write s R.regCR v)).iv = (R.held s).iv
  cr_off : ∀ s v, R.enables v = false → (R.core (R.write s R.regCR v)).gcm = (R.core s).gcm
  /-- From a state that is off, or that runs the configuration of the value written. -/
  cr_on : ∀ s v key iv, R.enables v = true → (R.config v).mode = .gcm →
    (R.held s).key (R.config v).keySize = key → (R.held s).iv = iv →
    (R.enabled s = true → (R.core s).Ready (R.config v) key iv) →
    (R.core (R.write s R.regCR v)).Ready (R.config v) key iv ∧
      (R.core (R.write s R.regCR v)).gcm =
        Core.enterPhase A (R.core (R.write s R.regCR v)).engine (R.core s).gcm (R.gcmPhase v)
  load : ∀ s size (key : ByteArr size.bytes) iv, size ∈ R.keySizes → R.enabled s = false →
    (R.run s (R.load size key.bytes iv)).1 = [] ∧ R.enabled (R.run s (R.load size key.bytes iv)).2 = false ∧
      ((R.held (R.run s (R.load size key.bytes iv)).2).key size).bytes.take size.bytes = key.bytes ∧
      (R.held (R.run s (R.load size key.bytes iv)).2).iv = iv

end RegisterFile

/-- Writes to registers that follow each other. -/
def writesFrom : ℕ → List UInt32 → List Access
  | _, [] => []
  | offset, w :: ws => .write (UInt32.ofNat offset) w :: writesFrom (offset + 4) ws

section Load

variable {R : RegisterFile} {b n : ℕ}

theorem run_writesFrom_reads : ∀ (ws : List UInt32) (offset : ℕ) (s : R.State), (R.run s (writesFrom offset ws)).1 = []
  | [], _, _ => rfl
  | _ :: ws, offset, _ => run_writesFrom_reads ws (offset + 4) _

theorem run_writesFrom_append (ws : List UInt32) (offset : ℕ) (as : List Access) (s : R.State) :
    R.run s (writesFrom offset ws ++ as) = R.run (R.run s (writesFrom offset ws)).2 as := by
  rw [R.run_append, run_writesFrom_reads, List.nil_append]

/-- What no write to the `n` registers from `b` on changes. -/
theorem run_writesFrom_frame {α : Type} {g : R.State → α}
    (hg : ∀ s i v, i < n → g (R.write s (UInt32.ofNat (b + 4 * i)) v) = g s) :
    ∀ (ws : List UInt32) (k : ℕ) (s : R.State), k + ws.length ≤ n →
      g (R.run s (writesFrom (b + 4 * k) ws)).2 = g s
  | [], _, _, _ => rfl
  | w :: ws, k, s, h => by
    rw [List.length_cons] at h
    have htail := run_writesFrom_frame hg ws (k + 1) (R.write s (UInt32.ofNat (b + 4 * k)) w) (by omega)
    exact htail.trans (hg s k w (by omega))

/-- The words end up in the registers. -/
theorem run_writesFrom_bank {f : R.State → List UInt32}
    (hf : ∀ s i v, i < n → f (R.write s (UInt32.ofNat (b + 4 * i)) v) = (f s).set i v) :
    ∀ (ws old pre : List UInt32) (s : R.State), f s = pre ++ old → old.length = ws.length → pre.length + ws.length ≤ n →
      f (R.run s (writesFrom (b + 4 * pre.length) ws)).2 = pre ++ ws
  | [], old, pre, s, hs, hlen, _ => by
    rw [List.eq_nil_of_length_eq_zero hlen] at hs
    exact hs
  | w :: ws, o :: old, pre, s, hs, hlen, h => by
    rw [List.length_cons] at h
    have hset : f (R.write s (UInt32.ofNat (b + 4 * pre.length)) w) = (pre ++ [w]) ++ old := by
      rw [hf s pre.length w (by omega), hs, List.set_append_right _ _ (Nat.le_refl _), Nat.sub_self, List.set_cons_zero,
        List.append_assoc, List.singleton_append]
    have htail := run_writesFrom_bank hf ws old (pre ++ [w]) _ hset (Nat.succ.inj hlen)
      (by rw [List.length_append, List.length_singleton]; omega)
    rw [List.length_append, List.length_singleton, List.append_assoc, List.singleton_append] at htail
    exact htail
  | _ :: _, [], _, _, _, hlen, _ => absurd hlen (by simp)

end Load

def v1File (A : Aes) : RegisterFile where
  State := CrypV1
  access := CrypV1.access A
  held p := ⟨p.cr, CrypV1.expandKey p.keyRegs, CrypV1.expandIv p.ivRegs⟩
  core p := p.core
  regCR := CrypV1.regCR
  regDIN := CrypV1.regDIN
  regDOUT := CrypV1.regDOUT
  enables := CrypV1.crypen
  config := CrypV1.config
  gcmPhase := CrypV1.gcmPhase
  keySizes := [.k128, .k192, .k256]
  load size key iv := writesFrom (0x20 + 4 * CrypV1.keyStart size) ((chunks 4 key).map beWord) ++
    writesFrom 0x40 ((chunks 4 iv.bytes).map beWord)

/-- The least significant words go first. -/
def v2File (A : Aes) : RegisterFile where
  State := CrypV2
  access := CrypV2.access A
  held p := ⟨p.cr, CrypV2.expandKey p.keyLo p.keyHi, CrypV2.expandIv p.ivRegs⟩
  core p := p.core
  regCR := CrypV2.regCR
  regDIN := CrypV2.regDINR
  regDOUT := CrypV2.regDOUTR
  enables := CrypV2.en
  config := CrypV2.config
  gcmPhase := CrypV2.gcmPhase
  keySizes := [.k128, .k256]
  load _ key iv := writesFrom 0x10 (((chunks 4 key).map beWord).reverse.take 4) ++
    (writesFrom 0x30 (((chunks 4 key).map beWord).reverse.drop 4) ++
      writesFrom 0x20 ((chunks 4 iv.bytes).map beWord).reverse)

/-! ### The register file of the H7 -/

namespace CrypV1

variable {A : Aes} (p : CrypV1)

theorem write_key {i : ℕ} (hi : i < 8) (v : UInt32) :
    p.write A (UInt32.ofNat (0x20 + 4 * i)) v = p.writeKey i v := by
  interval_cases i <;> rfl

theorem write_iv {i : ℕ} (hi : i < 4) (v : UInt32) :
    p.write A (UInt32.ofNat (0x40 + 4 * i)) v = p.writeIv i v := by
  interval_cases i <;> rfl

theorem writeCr_registers (v : UInt32) : (p.writeCr A v).cr = v &&& ~~~crFFLUSH ∧
    (p.writeCr A v).keyRegs = p.keyRegs ∧ (p.writeCr A v).ivRegs = p.ivRegs := by
  rw [writeCr_eq]
  split_ifs <;> exact ⟨rfl, rfl, rfl⟩

theorem flushed_gcm (v : UInt32) : (p.flushed v).gcm = p.core.gcm := by
  unfold flushed
  split <;> rfl

theorem writeCr_off {v : UInt32} (hoff : crypen v = false) : (p.writeCr A v).core.gcm = p.core.gcm := by
  rw [writeCr_eq, if_neg (by simp [hoff])]
  by_cases hwas : crypen p.cr = true
  · rw [if_pos (by simp [hwas, hoff])]
    exact p.flushed_gcm v
  · rw [if_neg (by simp [hwas]), if_neg (by simp [hoff])]
    exact p.flushed_gcm v

theorem writeCr_on {v : UInt32} {key : ByteArr 32} {iv : Block} (hon : crypen v = true)
    (hmode : (config v).mode = .gcm) (hkey : expandKey p.keyRegs (config v).keySize = key)
    (hiv : expandIv p.ivRegs = iv) (hs : crypen p.cr = true → p.core.Ready (config v) key iv) :
    (p.writeCr A v).core.Ready (config v) key iv ∧
      (p.writeCr A v).core.gcm = Core.enterPhase A (p.writeCr A v).core.engine p.core.gcm (gcmPhase v) := by
  subst hkey hiv
  rw [writeCr_eq]
  by_cases hwas : crypen p.cr = true
  · have hgcm : p.core.engine.mode = .gcm := (congrArg Config.mode (hs hwas).config).trans hmode
    rw [if_neg (by simp [hwas]), if_neg (by simp [hon]), if_pos hon, if_pos hgcm]
    exact Core.ready_changePhase (hs hwas) (gcmPhase v)
  · rw [if_pos ⟨hwas, hon⟩]
    exact Core.ready_commit hmode _ _ _

variable (s : CrypV1)

theorem keyRegs_loaded {size : KeySize} {ws : List UInt32} (hlen : keyStart size + ws.length = 8) :
    ((v1File A).run s (writesFrom (0x20 + 4 * keyStart size) ws)).2.keyRegs.toList.drop (keyStart size) = ws := by
  have hpre : (s.keyRegs.toList.take (keyStart size)).length = keyStart size := by
    rw [List.length_take, Vector.length_toList]
    omega
  have hbank := run_writesFrom_bank (R := v1File A) (n := 8) (b := 0x20) (f := fun p : CrypV1 => p.keyRegs.toList)
    (fun p i v hi => by
      show (CrypV1.write A p _ v).keyRegs.toList = _
      rw [write_key p hi]
      exact Vector.toList_setIfInBounds)
    ws (s.keyRegs.toList.drop (keyStart size)) (s.keyRegs.toList.take (keyStart size)) s
    (List.take_append_drop _ _).symm (by rw [List.length_drop, Vector.length_toList]; omega) (by omega)
  rw [hpre] at hbank
  rw [hbank, List.drop_left' hpre]

theorem keyRegs_frame {α : Type} {g : CrypV1 → α} (hg : ∀ p i v, g (writeKey p i v) = g p) {size : KeySize}
    {ws : List UInt32} (hlen : keyStart size + ws.length = 8) :
    g ((v1File A).run s (writesFrom (0x20 + 4 * keyStart size) ws)).2 = g s :=
  run_writesFrom_frame (R := v1File A) (n := 8) (b := 0x20) (g := g)
    (fun p i v hi => (congrArg g (write_key p hi v)).trans (hg p i v)) ws (keyStart size) s (by omega)

theorem ivRegs_loaded {ws : List UInt32} (hlen : ws.length = 4) :
    ((v1File A).run s (writesFrom 0x40 ws)).2.ivRegs.toList = ws :=
  run_writesFrom_bank (R := v1File A) (n := 4) (b := 0x40) (f := fun p : CrypV1 => p.ivRegs.toList)
    (fun p i v hi => by
      show (CrypV1.write A p _ v).ivRegs.toList = _
      rw [write_iv p hi]
      exact Vector.toList_setIfInBounds)
    ws s.ivRegs.toList [] s rfl (by rw [Vector.length_toList, hlen]) (by simp [hlen])

theorem ivRegs_frame {α : Type} {g : CrypV1 → α} (hg : ∀ p i v, g (writeIv p i v) = g p) {ws : List UInt32}
    (hlen : ws.length = 4) : g ((v1File A).run s (writesFrom 0x40 ws)).2 = g s :=
  run_writesFrom_frame (R := v1File A) (n := 4) (b := 0x40) (g := g)
    (fun p i v hi => (congrArg g (write_iv p hi v)).trans (hg p i v)) ws 0 s (by omega)

theorem expandKey_take {regs : Vector UInt32 8} {size : KeySize} {key : ByteArr size.bytes}
    (h : (regs.toList.drop (keyStart size)).flatMap beBytes = key.bytes) :
    (expandKey regs size).bytes.take size.bytes = key.bytes := by
  show List.take size.bytes (_ ++ _) = _
  rw [h, List.take_left' key.size]

/-- The key registers after the words of a key. -/
theorem key_loaded {size : KeySize} (key : ByteArr size.bytes) :
    ((v1File A).run s (writesFrom (0x20 + 4 * keyStart size) ((chunks 4 key.bytes).map beWord))).2.cr = s.cr ∧
      (expandKey ((v1File A).run s (writesFrom (0x20 + 4 * keyStart size)
        ((chunks 4 key.bytes).map beWord))).2.keyRegs size).bytes.take size.bytes = key.bytes := by
  have hsize : size.bytes = 4 * (8 - keyStart size) := by cases size <;> rfl
  have hstart : keyStart size ≤ 8 := by cases size <;> decide
  obtain ⟨hklen, hkey⟩ := beWords_chunks (key.size.trans hsize)
  have hk : keyStart size + ((chunks 4 key.bytes).map beWord).length = 8 := by omega
  refine ⟨keyRegs_frame (A := A) s (g := (·.cr)) (fun _ _ _ => rfl) hk, expandKey_take ?_⟩
  rw [keyRegs_loaded (A := A) s hk, hkey]

/-- The IV registers after the words of an IV. -/
theorem iv_loaded (iv : Block) :
    expandIv ((v1File A).run s (writesFrom 0x40 ((chunks 4 iv.bytes).map beWord))).2.ivRegs = iv := by
  obtain ⟨hvlen, hiv⟩ := beWords_chunks (n := 4) iv.size
  apply ByteArr.ext
  exact (congrArg (List.flatMap beBytes) (ivRegs_loaded (A := A) s hvlen)).trans hiv

theorem load_lawful (size : KeySize) (key : ByteArr size.bytes) (iv : Block) (hoff : crypen s.cr = false) :
    ((v1File A).run s ((v1File A).load size key.bytes iv)).1 = [] ∧
      crypen ((v1File A).run s ((v1File A).load size key.bytes iv)).2.cr = false ∧
      (expandKey ((v1File A).run s ((v1File A).load size key.bytes iv)).2.keyRegs size).bytes.take size.bytes =
        key.bytes ∧
      expandIv ((v1File A).run s ((v1File A).load size key.bytes iv)).2.ivRegs = iv := by
  obtain ⟨hvlen, -⟩ := beWords_chunks (n := 4) iv.size
  obtain ⟨hcr, hkey⟩ := key_loaded (A := A) s key
  have hrun : (v1File A).run s ((v1File A).load size key.bytes iv) = (v1File A).run ((v1File A).run s
      (writesFrom (0x20 + 4 * keyStart size) ((chunks 4 key.bytes).map beWord))).2
      (writesFrom 0x40 ((chunks 4 iv.bytes).map beWord)) := run_writesFrom_append _ _ _ _
  rw [hrun]
  generalize ((v1File A).run s (writesFrom (0x20 + 4 * keyStart size) ((chunks 4 key.bytes).map beWord))).2 = t
    at hcr hkey ⊢
  refine ⟨run_writesFrom_reads _ _ _, ?_, ?_, iv_loaded t iv⟩
  · have hcr' := ivRegs_frame (A := A) t (g := (·.cr)) (fun _ _ _ => rfl) hvlen
    exact (congrArg crypen (hcr'.trans hcr)).trans hoff
  · have hregs' := ivRegs_frame (A := A) t (g := (·.keyRegs)) (fun _ _ _ => rfl) hvlen
    rw [hregs', hkey]

end CrypV1

theorem v1_lawful (A : Aes) : (v1File A).Lawful A where
  config_keySize v := by
    show CrypV1.keySize v ∈ [KeySize.k128, .k192, .k256]
    cases CrypV1.keySize v <;> simp
  din _ _ := ⟨rfl, rfl⟩
  dout _ := ⟨rfl, rfl⟩
  cr s v := by
    obtain ⟨hcr, hkey, hiv⟩ := CrypV1.writeCr_registers (A := A) s v
    refine ⟨?_, congrArg CrypV1.expandKey hkey, congrArg CrypV1.expandIv hiv⟩
    exact (congrArg CrypV1.crypen hcr).trans (CrypV1.crypen_unflushed v)
  cr_off s _ hoff := CrypV1.writeCr_off s hoff
  cr_on s _ _ _ hon hmode hkey hiv hs := CrypV1.writeCr_on s hon hmode hkey hiv hs
  load s size key iv _ hoff := CrypV1.load_lawful s size key iv hoff

/-! ### The register file of the U5 -/

namespace CrypV2

variable {A : Aes} (p : CrypV2)

theorem write_keyLo {i : ℕ} (hi : i < 4) (v : UInt32) :
    p.write A (UInt32.ofNat (0x10 + 4 * i)) v = p.writeKeyLo i v := by
  interval_cases i <;> rfl

theorem write_keyHi {i : ℕ} (hi : i < 4) (v : UInt32) :
    p.write A (UInt32.ofNat (0x30 + 4 * i)) v = p.writeKeyHi i v := by
  interval_cases i <;> rfl

theorem write_iv {i : ℕ} (hi : i < 4) (v : UInt32) :
    p.write A (UInt32.ofNat (0x20 + 4 * i)) v = p.writeIv i v := by
  interval_cases i <;> rfl

theorem writeCr_registers (v : UInt32) : (p.writeCr A v).cr = v ∧ (p.writeCr A v).keyLo = p.keyLo ∧
    (p.writeCr A v).keyHi = p.keyHi ∧ (p.writeCr A v).ivRegs = p.ivRegs := by
  unfold writeCr
  dsimp only
  split_ifs <;> exact ⟨rfl, rfl, rfl, rfl⟩

theorem writeCr_off {v : UInt32} (hoff : en v = false) : (p.writeCr A v).core.gcm = p.core.gcm := by
  unfold writeCr
  dsimp only
  rw [if_neg (by simp [hoff])]
  by_cases hwas : en p.cr = true
  · rw [if_pos (by simp [hwas, hoff])]
    rfl
  · rw [if_neg (by simp [hwas]), if_neg (by simp [hoff]), if_neg (by simp [hoff])]

theorem writeCr_on {v : UInt32} {key : ByteArr 32} {iv : Block} (hon : en v = true) (hmode : (config v).mode = .gcm)
    (hkey : expandKey p.keyLo p.keyHi (config v).keySize = key) (hiv : expandIv p.ivRegs = iv)
    (hs : en p.cr = true → p.core.Ready (config v) key iv) :
    (p.writeCr A v).core.Ready (config v) key iv ∧
      (p.writeCr A v).core.gcm = Core.enterPhase A (p.writeCr A v).core.engine p.core.gcm (gcmPhase v) := by
  subst hkey hiv
  unfold writeCr
  dsimp only
  by_cases hwas : en p.cr = true
  · have hgcm : p.core.engine.mode = .gcm := (congrArg Config.mode (hs hwas).config).trans hmode
    rw [if_neg (by simp [hwas]), if_neg (by simp [hon])]
    by_cases hbits : v &&& crAlgBits = p.cr &&& crAlgBits
    · rw [if_pos ⟨hon, hgcm, by simp [hbits]⟩]
      exact Core.ready_changePhase (hs hwas) (gcmPhase v)
    · rw [if_neg (by simp [hbits]), if_pos ⟨hon, hbits⟩]
      exact Core.ready_commit hmode _ _ _
  · rw [if_pos ⟨hwas, hon⟩]
    exact Core.ready_commit hmode _ _ _

/-- The key goes to the engine and nowhere else. -/
theorem pushKey_registers : p.pushKey.cr = p.cr ∧ p.pushKey.keyLo = p.keyLo ∧ p.pushKey.keyHi = p.keyHi ∧
    p.pushKey.ivRegs = p.ivRegs := by
  unfold pushKey
  dsimp only
  split_ifs <;> exact ⟨rfl, rfl, rfl, rfl⟩

variable (s : CrypV2)

theorem keyLo_loaded {ws : List UInt32} (hlen : ws.length = 4) :
    ((v2File A).run s (writesFrom 0x10 ws)).2.keyLo.toList = ws ∧
      ((v2File A).run s (writesFrom 0x10 ws)).2.cr = s.cr := by
  refine ⟨?_, ?_⟩
  · refine run_writesFrom_bank (R := v2File A) (n := 4) (b := 0x10) (f := fun p : CrypV2 => p.keyLo.toList) ?_
      ws s.keyLo.toList [] s rfl (by rw [Vector.length_toList, hlen]) (by simp [hlen])
    intro p i v hi
    have hregs := pushKey_registers { p with keyLo := p.keyLo.setIfInBounds i v }
    refine (congrArg (fun q : CrypV2 => q.keyLo.toList) (write_keyLo p hi v)).trans ?_
    exact (congrArg Vector.toList hregs.2.1).trans Vector.toList_setIfInBounds
  · refine run_writesFrom_frame (R := v2File A) (n := 4) (b := 0x10) (g := fun p : CrypV2 => p.cr) ?_ ws 0 s (by omega)
    intro p i v hi
    exact (congrArg CrypV2.cr (write_keyLo p hi v)).trans (pushKey_registers _).1

theorem keyHi_loaded {ws : List UInt32} (hlen : ws.length ≤ 4) :
    (ws.length = 4 → ((v2File A).run s (writesFrom 0x30 ws)).2.keyHi.toList = ws) ∧
      ((v2File A).run s (writesFrom 0x30 ws)).2.cr = s.cr ∧
      ((v2File A).run s (writesFrom 0x30 ws)).2.keyLo = s.keyLo := by
  refine ⟨fun hfour => ?_, ?_, ?_⟩
  · refine run_writesFrom_bank (R := v2File A) (n := 4) (b := 0x30) (f := fun p : CrypV2 => p.keyHi.toList) ?_
      ws s.keyHi.toList [] s rfl (by rw [Vector.length_toList, hfour]) (by simp [hlen])
    intro p i v hi
    have hregs := pushKey_registers { p with keyHi := p.keyHi.setIfInBounds i v }
    refine (congrArg (fun q : CrypV2 => q.keyHi.toList) (write_keyHi p hi v)).trans ?_
    exact (congrArg Vector.toList hregs.2.2.1).trans Vector.toList_setIfInBounds
  · refine run_writesFrom_frame (R := v2File A) (n := 4) (b := 0x30) (g := fun p : CrypV2 => p.cr) ?_ ws 0 s (by omega)
    intro p i v hi
    exact (congrArg CrypV2.cr (write_keyHi p hi v)).trans (pushKey_registers _).1
  · refine run_writesFrom_frame (R := v2File A) (n := 4) (b := 0x30) (g := fun p : CrypV2 => p.keyLo) ?_ ws 0 s
      (by omega)
    intro p i v hi
    exact (congrArg CrypV2.keyLo (write_keyHi p hi v)).trans (pushKey_registers _).2.1

theorem ivRegs_loaded {ws : List UInt32} (hlen : ws.length = 4) :
    ((v2File A).run s (writesFrom 0x20 ws)).2.ivRegs.toList = ws ∧
      ((v2File A).run s (writesFrom 0x20 ws)).2.cr = s.cr ∧
      ((v2File A).run s (writesFrom 0x20 ws)).2.keyLo = s.keyLo ∧
      ((v2File A).run s (writesFrom 0x20 ws)).2.keyHi = s.keyHi := by
  have hframe {α : Type} {g : CrypV2 → α} (hg : ∀ p i v, g (writeIv p i v) = g p) :
      g ((v2File A).run s (writesFrom 0x20 ws)).2 = g s :=
    run_writesFrom_frame (R := v2File A) (n := 4) (b := 0x20) (g := g)
      (fun p i v hi => (congrArg g (write_iv p hi v)).trans (hg p i v)) ws 0 s (by omega)
  refine ⟨?_, hframe fun _ _ _ => rfl, hframe fun _ _ _ => rfl, hframe fun _ _ _ => rfl⟩
  refine run_writesFrom_bank (R := v2File A) (n := 4) (b := 0x20) (f := fun p : CrypV2 => p.ivRegs.toList) ?_
    ws s.ivRegs.toList [] s rfl (by rw [Vector.length_toList, hlen]) (by simp [hlen])
  intro p i v hi
  exact (congrArg (fun q : CrypV2 => q.ivRegs.toList) (write_iv p hi v)).trans Vector.toList_setIfInBounds

/-- The least significant four words in `lo`, the rest in `hi`. -/
theorem expandKey_take {lo hi : Vector UInt32 4} {size : KeySize} {key : ByteArr size.bytes} {ws : List UInt32}
    (hsize : size ∈ [KeySize.k128, .k256]) (hws : 4 * ws.length = size.bytes) (hkey : ws.flatMap beBytes = key.bytes)
    (hlo : lo.toList = ws.reverse.take 4) (hhi : size = .k256 → hi.toList = ws.reverse.drop 4) :
    (expandKey lo hi size).bytes.take size.bytes = key.bytes := by
  cases size with
  | k128 =>
    have hlen : ws.reverse.length ≤ 4 := by
      rw [List.length_reverse]
      exact Nat.le_of_mul_le_mul_left (Nat.le_of_eq hws) (by decide)
    show List.take KeySize.k128.bytes (lo.toList.reverse.flatMap beBytes ++ List.replicate 16 0) = _
    rw [hlo, List.take_of_length_le hlen, List.reverse_reverse, hkey, List.take_left' key.size]
  | k192 => simp at hsize
  | k256 =>
    show List.take KeySize.k256.bytes ((hi.toList.reverse ++ lo.toList.reverse).flatMap beBytes) = _
    rw [hhi rfl, hlo, ← List.reverse_append, List.take_append_drop, List.reverse_reverse, hkey,
      List.take_of_length_le (Nat.le_of_eq key.size)]

/-- The key registers after the words of a key, first those of KEYR0 to KEYR3. -/
theorem key_loaded {size : KeySize} (hsize : size ∈ [KeySize.k128, .k256]) (key : ByteArr size.bytes) {t u : CrypV2}
    (ht : ((v2File A).run s (writesFrom 0x10 (((chunks 4 key.bytes).map beWord).reverse.take 4))).2 = t)
    (hu : ((v2File A).run t (writesFrom 0x30 (((chunks 4 key.bytes).map beWord).reverse.drop 4))).2 = u) :
    u.cr = s.cr ∧ (expandKey u.keyLo u.keyHi size).bytes.take size.bytes = key.bytes := by
  have hfour : size.bytes = 4 * (size.bytes / 4) := by cases size <;> rfl
  have hbound : 16 ≤ size.bytes ∧ size.bytes ≤ 32 := by cases size <;> decide
  obtain ⟨hklen, hkey⟩ := beWords_chunks (key.size.trans hfour)
  generalize (chunks 4 key.bytes).map beWord = ws at hklen hkey ht hu
  have hlolen : (ws.reverse.take 4).length = 4 := by
    rw [List.length_take, List.length_reverse, hklen]
    omega
  have hhilen : (ws.reverse.drop 4).length ≤ 4 := by
    rw [List.length_drop, List.length_reverse, hklen]
    omega
  obtain ⟨hlo, hcr⟩ := keyLo_loaded (A := A) s hlolen
  obtain ⟨hhi, hcr', hlo'⟩ := keyHi_loaded (A := A) t hhilen
  rw [ht] at hlo hcr
  rw [hu] at hhi hcr' hlo'
  refine ⟨hcr'.trans hcr, expandKey_take hsize (by omega) hkey (hlo' ▸ hlo) fun h256 => hhi ?_⟩
  subst h256
  rw [List.length_drop, List.length_reverse, hklen]
  rfl

/-- The IV registers after the words of an IV. -/
theorem iv_loaded (iv : Block) :
    expandIv ((v2File A).run s (writesFrom 0x20 ((chunks 4 iv.bytes).map beWord).reverse)).2.ivRegs = iv := by
  obtain ⟨hvlen, hiv⟩ := beWords_chunks (n := 4) iv.size
  apply ByteArr.ext
  show (List.reverse _).flatMap beBytes = _
  rw [(ivRegs_loaded (A := A) s ((List.length_reverse).trans hvlen)).1, List.reverse_reverse, hiv]

theorem load_lawful {size : KeySize} (hsize : size ∈ [KeySize.k128, .k256]) (key : ByteArr size.bytes) (iv : Block)
    (hoff : en s.cr = false) :
    ((v2File A).run s ((v2File A).load size key.bytes iv)).1 = [] ∧
      en ((v2File A).run s ((v2File A).load size key.bytes iv)).2.cr = false ∧
      (expandKey ((v2File A).run s ((v2File A).load size key.bytes iv)).2.keyLo
        ((v2File A).run s ((v2File A).load size key.bytes iv)).2.keyHi size).bytes.take size.bytes = key.bytes ∧
      expandIv ((v2File A).run s ((v2File A).load size key.bytes iv)).2.ivRegs = iv := by
  obtain ⟨hvlen, -⟩ := beWords_chunks (n := 4) iv.size
  have hrun := (run_writesFrom_append (R := v2File A) (((chunks 4 key.bytes).map beWord).reverse.take 4) 0x10
    (writesFrom 0x30 (((chunks 4 key.bytes).map beWord).reverse.drop 4) ++
      writesFrom 0x20 ((chunks 4 iv.bytes).map beWord).reverse) s).trans (run_writesFrom_append _ _ _ _)
  rw [show (v2File A).run s ((v2File A).load size key.bytes iv) = _ from hrun]
  clear hrun
  generalize ht : ((v2File A).run s (writesFrom 0x10 (((chunks 4 key.bytes).map beWord).reverse.take 4))).2 = t
  generalize hu : ((v2File A).run t (writesFrom 0x30 (((chunks 4 key.bytes).map beWord).reverse.drop 4))).2 = u
  obtain ⟨hcr, hkey⟩ := key_loaded (A := A) s hsize key ht hu
  obtain ⟨-, hcr', hlo, hhi⟩ := ivRegs_loaded (A := A) u ((List.length_reverse).trans hvlen)
  refine ⟨run_writesFrom_reads _ _ _, ?_, ?_, iv_loaded u iv⟩
  · rw [hcr', hcr, hoff]
  · rw [hlo, hhi, hkey]

end CrypV2

theorem v2_lawful (A : Aes) : (v2File A).Lawful A where
  config_keySize v := by
    show CrypV2.keySize v ∈ [KeySize.k128, .k256]
    unfold CrypV2.keySize
    split <;> simp
  din _ _ := ⟨rfl, rfl⟩
  dout _ := ⟨rfl, rfl⟩
  cr s v := by
    obtain ⟨hcr, hlo, hhi, hiv⟩ := CrypV2.writeCr_registers (A := A) s v
    exact ⟨congrArg CrypV2.en hcr, congrArg₂ CrypV2.expandKey hlo hhi, congrArg CrypV2.expandIv hiv⟩
  cr_off s _ hoff := CrypV2.writeCr_off s hoff
  cr_on s _ _ _ hon hmode hkey hiv hs := CrypV2.writeCr_on s hon hmode hkey hiv hs
  load s _ key iv hsize hoff := CrypV2.load_lawful s hsize key iv hoff

end Cryp
end STM32
end Simulators
