/-
# STM32 CRYP: a mode on either register file

A driver of ECB, CBC or CTR loads the key, the IV and CR, each file in its own
order of registers and with its own bits of CR, and then takes the data block
by block. Before a decryption it may have the engine prepare the key, which is
the AES_KEY mode on the H7 and MODE = 01 on the U5, and go on to the real mode
with the enable bit kept; the IV may come before, between or after these
writes.

On both files the last of these writes leaves the engine `Fresh`, with the
configuration of CR and the key and the IV of the registers, and from there
the blocks read are those of the mode.

Key theorem: `block_modes_agree`.
-/
import Simulators.STM32.Cryp.BlockModes
import Simulators.STM32.Cryp.Coherence

namespace Simulators
namespace STM32
namespace Cryp

/-! ### Blocks in and out -/

/-- The engine between two blocks: its configuration, its key and the chaining value. -/
structure Fresh (cfg : Config) (key : Bytes) (iv : Block) (e : CrypEngine) : Prop where
  enabled : e.enabled = true
  config : e.config = cfg
  key : e.key.bytes.take cfg.keySize.bytes = key
  iv : e.iv = iv
  inBuf : e.inBuf = []

namespace Fresh

variable {A : Aes} {cfg : Config} {key : Bytes} {iv : Block} {e : CrypEngine}

theorem mode (h : Fresh cfg key iv e) : e.mode = cfg.mode := congrArg Config.mode h.config

theorem datatype (h : Fresh cfg key iv e) : e.datatype = cfg.datatype := congrArg Config.datatype h.config

theorem blockStep (h : Fresh cfg key iv e) :
    e.blockStep A = modeStep (A.encrypt key) (A.decrypt key) cfg.mode cfg.direction := by
  have hsize : e.keySize = cfg.keySize := congrArg Config.keySize h.config
  have hdir : e.direction = cfg.direction := congrArg Config.direction h.config
  exact CrypEngine.blockStep_eq hsize h.key h.mode hdir

end Fresh

namespace CrypEngine

variable {A : Aes} {e : CrypEngine}

/-- The engine with the first bytes of a block. -/
def filled (e : CrypEngine) (buf : Bytes) : CrypEngine := { e with inBuf := buf }

theorem filled_nil (h : e.inBuf = []) : e.filled [] = e := by
  obtain ⟨_, _, _, _, _, _, _, _, _, _, _⟩ := e
  cases h
  rfl

theorem writeDin_filled (hon : e.enabled = true) {buf : Bytes} (h : buf.length < 12) (b : ByteArr 4) :
    (e.filled buf).writeDin A (e.datatype.word4 b.bytes) = e.filled (buf ++ b.bytes) := by
  have hpart := writeDin_part (A := A) (e := e.filled buf) hon h (e.datatype.word4 b.bytes)
  rw [show (e.filled buf).datatype = e.datatype from rfl, DataType.bytes_word4 _ b.size] at hpart
  exact hpart

/-- The four words of a block. -/
theorem writeDin_block (hon : e.enabled = true) (hbuf : e.inBuf = []) (x : Block) :
    (e.datatype.words x.bytes).foldl (writeDin A) e = e.processBlock A x := by
  obtain ⟨b₀, b₁, b₂, b₃, hx, hwords⟩ := e.datatype.words_block x.size
  have hlast : (e.filled ([] ++ b₀.bytes ++ b₁.bytes ++ b₂.bytes)).writeDin A (e.datatype.word4 b₃.bytes) =
      (e.filled ([] ++ b₀.bytes ++ b₁.bytes ++ b₂.bytes)).processBlock A x := by
    refine writeDin_full (e := e.filled ([] ++ b₀.bytes ++ b₁.bytes ++ b₂.bytes)) hon x ?_
    show [] ++ b₀.bytes ++ b₁.bytes ++ b₂.bytes ++ e.datatype.bytes _ = _
    rw [DataType.bytes_word4 _ b₃.size, hx, List.nil_append, List.append_assoc, List.append_assoc]
  calc (e.datatype.words x.bytes).foldl (writeDin A) e
      = ((((e.filled []).writeDin A (e.datatype.word4 b₀.bytes)).writeDin A (e.datatype.word4 b₁.bytes)).writeDin A
          (e.datatype.word4 b₂.bytes)).writeDin A (e.datatype.word4 b₃.bytes) := by
        rw [hwords, filled_nil hbuf]
        rfl
    _ = (e.filled ([] ++ b₀.bytes ++ b₁.bytes ++ b₂.bytes)).writeDin A (e.datatype.word4 b₃.bytes) := by
        rw [writeDin_filled hon (by simp), writeDin_filled hon (by simp [b₀.size]),
          writeDin_filled hon (by simp [b₀.size, b₁.size])]
    _ = e.processBlock A x := by
        rw [hlast]
        rfl

end CrypEngine

namespace RegisterFile

variable {R : RegisterFile} {A : Aes} {s : R.State}

theorem foldl_din_engine : ∀ (ws : List UInt32) {c : Core}, c.engine.mode.streams = true →
    ws.foldl (Core.din A) c = { c with engine := ws.foldl (CrypEngine.writeDin A) c.engine }
  | [], _, _ => rfl
  | w :: ws, c, h => by
    have hmode : ¬ (c.engine.enabled = true ∧ c.engine.mode = .gcm) := by
      rintro ⟨-, hgcm⟩
      rw [hgcm] at h
      cases h
    have hstep : c.din A w = { c with engine := c.engine.writeDin A w } := by rw [Core.din, if_neg hmode]
    have hkeep : (c.engine.writeDin A w).mode = c.engine.mode := by
      have hset := (Core.writeDin_step (A := A) (c := c) w).settings
      exact congrArg (fun t : Bool × Config × ByteArr 32 => t.2.1.mode) hset
    rw [List.foldl_cons, hstep, foldl_din_engine ws (by rw [hkeep, h]), List.foldl_cons]

/-- A block in, and its four words out. -/
theorem run_block (hR : R.Lawful A) {cfg : Config} {key : Bytes} {iv : Block} (hmode : cfg.mode.streams = true)
    (h : Fresh cfg key iv (R.core s).engine) (x : Block) :
    ∃ t, R.run s (R.push cfg.datatype x ++ R.drain) =
        (cfg.datatype.words (modeStep (A.encrypt key) (A.decrypt key) cfg.mode cfg.direction iv x).1.bytes, t) ∧
      Fresh cfg key (modeStep (A.encrypt key) (A.decrypt key) cfg.mode cfg.direction iv x).2 (R.core t).engine := by
  have hstreams : (R.core s).engine.mode.streams = true := by rw [h.mode, hmode]
  have hstep : (R.core s).engine.blockStep A (R.core s).engine.iv = modeStep (A.encrypt key) (A.decrypt key) cfg.mode
      cfg.direction iv := by rw [h.blockStep, h.iv]
  obtain ⟨-, hcore⟩ := foldl_din hR (cfg.datatype.words x.bytes) s
  rw [foldl_din_engine _ hstreams, ← h.datatype, CrypEngine.writeDin_block h.enabled h.inBuf,
    CrypEngine.processBlock_streams hstreams, hstep] at hcore
  obtain ⟨t, hrun, -, hnext⟩ := run_drain hR (c := { R.core s with engine := { (R.core s).engine with
    inBuf := [], iv := (modeStep (A.encrypt key) (A.decrypt key) cfg.mode cfg.direction iv x).2 } }) hcore
  rw [← h.datatype]
  refine ⟨t, ?_, ?_⟩
  · rw [R.run_append, push, run_writes, hrun]
    rfl
  · rw [hnext]
    exact ⟨h.enabled, h.config, h.key, rfl, rfl⟩

/-- Block after block. -/
theorem run_blocks (hR : R.Lawful A) {cfg : Config} {key : Bytes} (hmode : cfg.mode.streams = true) :
    ∀ (bs : List Block) {s : R.State} {iv : Block}, Fresh cfg key iv (R.core s).engine →
      (R.run s (R.payloadAccesses cfg.datatype bs)).1 =
        (blockScan (modeStep (A.encrypt key) (A.decrypt key) cfg.mode cfg.direction) iv bs).flatMap fun y =>
          cfg.datatype.words y.bytes
  | [], _, _, _ => rfl
  | b :: bs, s, iv, h => by
    obtain ⟨t, hrun, ht⟩ := run_block hR hmode h b
    rw [payloadAccesses, List.flatMap_cons, R.run_append, hrun, blockScan, List.flatMap_cons,
      ← run_blocks hR hmode bs ht]
    rfl

/-- A message from a fresh engine. -/
theorem run_fresh (hR : R.Lawful A) {cfg : Config} {key : Bytes} {iv : Block} (hmode : cfg.mode.streams = true)
    (h : Fresh cfg key iv (R.core s).engine) (bs : List Block) :
    (R.run s (R.payloadAccesses cfg.datatype bs)).1 =
      (modeBlocks (A.encrypt key) (A.decrypt key) cfg.mode cfg.direction iv bs).flatMap fun y =>
        cfg.datatype.words y.bytes := by
  rw [run_blocks hR hmode bs h, blockScan_modeStep hmode]

end RegisterFile

/-! ### The accesses of a program -/

/-- Where the driver writes the IV: before the preparation of the key, before
the real mode, or after it. -/
inductive IvPlace
  | first
  | between
  | last
deriving DecidableEq, Repr

namespace Revision

/-- CR asks for the preparation of a decryption key. -/
def prepares : Revision → UInt32 → Bool
  | .v1, cr => CrypV1.mode cr = .keyDerivation
  | .v2, cr => CrypV2.modeBits cr = 1

def keyAccesses : Revision → KeySize → Bytes → List Access
  | .v1, size, key => writesFrom (0x20 + 4 * CrypV1.keyStart size) ((chunks 4 key).map beWord)
  | .v2, _, key => writesFrom 0x10 (((chunks 4 key).map beWord).reverse.take 4) ++
      writesFrom 0x30 (((chunks 4 key).map beWord).reverse.drop 4)

def ivAccesses : Revision → Block → List Access
  | .v1, iv => writesFrom 0x40 ((chunks 4 iv.bytes).map beWord)
  | .v2, iv => writesFrom 0x20 ((chunks 4 iv.bytes).map beWord).reverse

/-- The values of CR, and the place of the IV among them. -/
structure Program (A : Aes) (r : Revision) (cfg : Config) where
  prelude : Option UInt32
  cr : UInt32
  place : IvPlace
  prelude_ok : ∀ v ∈ prelude, (r.file A).enables v = true ∧ r.prepares v = true
  cr_ok : (r.file A).enables cr = true ∧ (r.file A).config cr = cfg ∧ r.prepares cr = false

/-- The writes of the IV, if this is their place. -/
def ivAt (r : Revision) (here place : IvPlace) (iv : Block) : List Access :=
  if here = place then r.ivAccesses iv else []

def Program.accesses {A : Aes} {r : Revision} {cfg : Config} (prog : r.Program A cfg) (key : Bytes) (iv : Block) :
    List Access :=
  r.keyAccesses cfg.keySize key ++ (r.ivAt .first prog.place iv ++
    (prog.prelude.toList.map (.write (r.file A).regCR) ++ (r.ivAt .between prog.place iv ++
      (.write (r.file A).regCR prog.cr :: r.ivAt .last prog.place iv))))

end Revision

/-! ### Writes to registers in turn -/

/-- What each write to the `n` registers from `b` on makes true. -/
theorem run_writesFrom_last {R : RegisterFile} {b n : ℕ} {P : R.State → Prop}
    (hP : ∀ s i v, i < n → P (R.write s (UInt32.ofNat (b + 4 * i)) v)) :
    ∀ (ws : List UInt32) (k : ℕ) (s : R.State), ws ≠ [] → k + ws.length ≤ n → P (R.run s (writesFrom (b + 4 * k) ws)).2
  | [], _, _, hne, _ => absurd rfl hne
  | [w], k, s, _, h => hP s k w (by rw [List.length_singleton] at h; omega)
  | w :: w' :: ws, k, s, _, h => by
    rw [List.length_cons] at h
    exact run_writesFrom_last hP (w' :: ws) (k + 1) (R.write s (UInt32.ofNat (b + 4 * k)) w) (List.cons_ne_nil _ _)
      (by omega)

theorem CrypEngine.eq_setIv {e e' : CrypEngine} {iv : Block} (h : { e' with iv := iv } = { e with iv := iv }) :
    e' = { e with iv := e'.iv } := by
  obtain ⟨_, _, _, _, _, _, _, _, _, _, _⟩ := e'
  obtain ⟨_, _, _, _, _, _, _, _, _, _, _⟩ := e
  simp only [CrypEngine.mk.injEq] at h ⊢
  exact ⟨h.1, trivial, h.2.2⟩

/-! ### Commits -/

/-- A commit that finds or leaves the engine on. -/
theorem Core.fresh_commit {A : Aes} {c : Core} (cfg : Config) (key : ByteArr 32) (iv : Block) (ph : GcmPhase) :
    Fresh cfg (key.bytes.take cfg.keySize.bytes) iv ((c.commitConfig A cfg key iv ph).setEnabled true).engine ∧
      (c.engine.enabled = true →
        Fresh cfg (key.bytes.take cfg.keySize.bytes) iv (c.commitConfig A cfg key iv ph).engine) := by
  by_cases hgcm : cfg.mode = .gcm
  · rw [commitConfig, if_pos hgcm]
    exact ⟨⟨rfl, rfl, rfl, rfl, rfl⟩, fun hon => ⟨hon, rfl, rfl, rfl, rfl⟩⟩
  · rw [commitConfig, if_neg hgcm]
    exact ⟨⟨rfl, rfl, rfl, rfl, rfl⟩, fun hon => ⟨hon, rfl, rfl, rfl, rfl⟩⟩

/-- An engine with another IV. -/
theorem Fresh.setIv {cfg : Config} {key : Bytes} {iv : Block} {e : CrypEngine} (h : Fresh cfg key iv e) (iv' : Block) :
    Fresh cfg key iv' { e with iv := iv' } := ⟨h.enabled, h.config, h.key, rfl, h.inBuf⟩

/-! ### The register file of the H7 -/

namespace CrypV1

variable {A : Aes} {p : CrypV1} {v : UInt32}

/-- On, in the AES_KEY mode. -/
structure Prepared (p : CrypV1) : Prop where
  on : crypen p.cr = true
  mode : mode p.cr = .keyDerivation
  enabled : p.core.engine.enabled = true
  engineMode : p.core.engine.mode = .keyDerivation

theorem mode_unflushed (v : UInt32) : mode (v &&& ~~~crFFLUSH) = mode v := congrArg Config.mode (config_unflushed v)

theorem writeCr_prepares (hoff : crypen p.cr = false) (hon : crypen v = true) (hmode : mode v = .keyDerivation) :
    (p.writeCr A v).Prepared := by
  rw [writeCr_eq, if_pos ⟨by simp [hoff], hon⟩]
  have hfresh := (Core.fresh_commit (A := A) (c := p.core) (config v) (expandKey p.keyRegs (keySize v))
    (expandIv p.ivRegs) (gcmPhase v)).1
  exact ⟨(crypen_unflushed v).trans hon, (mode_unflushed v).trans hmode, hfresh.enabled, hfresh.mode.trans hmode⟩

/-- The write of the real mode, from an engine that is off or prepared. -/
theorem writeCr_fresh (h : crypen p.cr = false ∨ p.Prepared) (hon : crypen v = true) (hmode : mode v ≠ .keyDerivation) :
    Fresh (config v) ((expandKey p.keyRegs (keySize v)).bytes.take (config v).keySize.bytes) (expandIv p.ivRegs)
      (p.writeCr A v).core.engine := by
  have hfresh := Core.fresh_commit (A := A) (c := p.core) (config v) (expandKey p.keyRegs (keySize v))
    (expandIv p.ivRegs) (gcmPhase v)
  rw [writeCr_eq]
  rcases h with hoff | h
  · rw [if_pos ⟨by simp [hoff], hon⟩]
    exact hfresh.1
  · have hbits : (p.cr ^^^ v) &&& cfgMask ≠ 0 := by
      intro hsame
      apply hmode
      rw [← h.mode]
      exact congrArg Config.mode (config_of_cfgMask hsame)
    rw [if_neg (by simp [h.on]), if_neg (by simp [hon]), if_pos hon, if_neg (by simp [h.engineMode]), if_pos hbits]
    exact hfresh.2 h.enabled

theorem keyAccesses_spec (s : CrypV1) {size : KeySize} (key : ByteArr size.bytes) :
    ∃ t, (v1File A).run s (Revision.v1.keyAccesses size key.bytes) = ([], t) ∧ t.cr = s.cr ∧
      (expandKey t.keyRegs size).bytes.take size.bytes = key.bytes := by
  obtain ⟨hcr, hkey⟩ := key_loaded (A := A) s key
  exact ⟨_, Prod.ext (run_writesFrom_reads _ _ _) rfl, hcr, hkey⟩

theorem writeIv_iv (p : CrypV1) (i : ℕ) (v : UInt32) : (p.writeIv i v).core.engine.enabled = true →
    (p.writeIv i v).core.engine.iv = expandIv (p.writeIv i v).ivRegs := by
  unfold writeIv
  dsimp only
  split
  · exact fun _ => rfl
  · rename_i hoff
    exact fun hon => absurd hon hoff

/-- Only the IV registers, and the IV of an engine that is on. -/
theorem ivAccesses_spec (s : CrypV1) (iv : Block) :
    ∃ t, (v1File A).run s (Revision.v1.ivAccesses iv) = ([], t) ∧ t.cr = s.cr ∧ t.keyRegs = s.keyRegs ∧
      expandIv t.ivRegs = iv ∧ t.core.engine = { s.core.engine with iv := t.core.engine.iv } ∧
      (s.core.engine.enabled = true → t.core.engine.iv = iv) := by
  obtain ⟨hvlen, -⟩ := beWords_chunks (n := 4) iv.size
  have hcr := ivRegs_frame (A := A) s (g := (·.cr)) (fun _ _ _ => rfl) hvlen
  have hkey := ivRegs_frame (A := A) s (g := (·.keyRegs)) (fun _ _ _ => rfl) hvlen
  have hloaded : expandIv ((v1File A).run s (Revision.v1.ivAccesses iv)).2.ivRegs = iv := iv_loaded s iv
  have hengine := ivRegs_frame (A := A) s (g := fun p : CrypV1 => { p.core.engine with iv := zeroArr 16 })
    (fun p i v => by
      unfold writeIv
      dsimp only
      split <;> rfl) hvlen
  have hlast := run_writesFrom_last (R := v1File A) (n := 4) (b := 0x40)
    (P := fun p : CrypV1 => p.core.engine.enabled = true → p.core.engine.iv = expandIv p.ivRegs)
    (fun p i v hi => by
      show (p.write A (UInt32.ofNat (0x40 + 4 * i)) v).core.engine.enabled = true → _
      rw [show (v1File A).write p (UInt32.ofNat (0x40 + 4 * i)) v = p.writeIv i v from write_iv p hi v, write_iv p hi v]
      exact writeIv_iv p i v) ((chunks 4 iv.bytes).map beWord) 0 s
    (by intro h; rw [h] at hvlen; cases hvlen) (by omega)
  refine ⟨_, Prod.ext (run_writesFrom_reads _ _ _) rfl, hcr, hkey, hloaded, CrypEngine.eq_setIv hengine, ?_⟩
  intro hon
  refine (hlast ?_).trans hloaded
  exact (congrArg CrypEngine.enabled hengine).trans hon

end CrypV1

/-! ### The register file of the U5 -/

namespace CrypV2

variable {A : Aes} {p : CrypV2} {v : UInt32}

/-- On, in a mode that prepares a decryption key. -/
structure Prepared (p : CrypV2) : Prop where
  on : en p.cr = true
  mode : modeBits p.cr = 1
  enabled : p.core.engine.enabled = true

theorem writeCr_prepares (hoff : en p.cr = false) (hon : en v = true) (hmode : modeBits v = 1) :
    (p.writeCr A v).Prepared := by
  unfold writeCr
  dsimp only
  rw [if_pos ⟨by simp [hoff], hon⟩]
  exact ⟨hon, hmode, rfl⟩

/-- The write of the real mode, from an engine that is off or prepared. -/
theorem writeCr_fresh (h : en p.cr = false ∨ p.Prepared) (hon : en v = true) (hmode : modeBits v ≠ 1) :
    Fresh (config v) ((expandKey p.keyLo p.keyHi (keySize v)).bytes.take (config v).keySize.bytes) (expandIv p.ivRegs)
      (p.writeCr A v).core.engine := by
  have hfresh := (Core.fresh_commit (A := A) (c := p.core) (config v) (expandKey p.keyLo p.keyHi (keySize v))
    (expandIv p.ivRegs) (gcmPhase v)).1
  unfold writeCr
  dsimp only
  rcases h with hoff | h
  · rw [if_pos ⟨by simp [hoff], hon⟩]
    exact hfresh
  · have hbits : v &&& crAlgBits ≠ p.cr &&& crAlgBits := by
      intro hsame
      have hmask {cr : UInt32} : modeBits (cr &&& crAlgBits) = modeBits cr := by
        rw [modeBits, modeBits, UInt32.and_assoc, show crAlgBits &&& crModeMask = crModeMask by decide]
      apply hmode
      rw [← h.mode, ← hmask, hsame, hmask]
    rw [if_neg (by simp [h.on]), if_neg (by simp [hon]), if_neg (by simp [hbits]), if_pos ⟨hon, hbits⟩]
    exact hfresh

theorem keyAccesses_spec (s : CrypV2) {size : KeySize} (hsize : size ∈ [KeySize.k128, .k256])
    (key : ByteArr size.bytes) :
    ∃ t, (v2File A).run s (Revision.v2.keyAccesses size key.bytes) = ([], t) ∧ t.cr = s.cr ∧
      (expandKey t.keyLo t.keyHi size).bytes.take size.bytes = key.bytes := by
  obtain ⟨hcr, hkey⟩ := key_loaded (A := A) s hsize key rfl rfl
  have hrun := run_writesFrom_append (R := v2File A) (((chunks 4 key.bytes).map beWord).reverse.take 4) 0x10
    (writesFrom 0x30 (((chunks 4 key.bytes).map beWord).reverse.drop 4)) s
  exact ⟨_, hrun.trans (Prod.ext (run_writesFrom_reads _ _ _) rfl), hcr, hkey⟩

/-- Only the IV registers, and the IV of the engine. -/
theorem ivAccesses_spec (s : CrypV2) (iv : Block) :
    ∃ t, (v2File A).run s (Revision.v2.ivAccesses iv) = ([], t) ∧ t.cr = s.cr ∧ t.keyLo = s.keyLo ∧ t.keyHi = s.keyHi ∧
      expandIv t.ivRegs = iv ∧ t.core.engine = { s.core.engine with iv := t.core.engine.iv } ∧ t.core.engine.iv = iv := by
  obtain ⟨hvlen, -⟩ := beWords_chunks (n := 4) iv.size
  have hlen : ((chunks 4 iv.bytes).map beWord).reverse.length = 4 := (List.length_reverse).trans hvlen
  obtain ⟨-, hcr, hlo, hhi⟩ := ivRegs_loaded (A := A) s hlen
  have hloaded : expandIv ((v2File A).run s (Revision.v2.ivAccesses iv)).2.ivRegs = iv := iv_loaded s iv
  have hengine := run_writesFrom_frame (R := v2File A) (n := 4) (b := 0x20)
    (g := fun p : CrypV2 => { p.core.engine with iv := zeroArr 16 })
    (fun p i v hi => by
      rw [show (v2File A).write p (UInt32.ofNat (0x20 + 4 * i)) v = p.writeIv i v from write_iv p hi v]
      rfl) ((chunks 4 iv.bytes).map beWord).reverse 0 s (by omega)
  have hlast := run_writesFrom_last (R := v2File A) (n := 4) (b := 0x20)
    (P := fun p : CrypV2 => p.core.engine.iv = expandIv p.ivRegs)
    (fun p i v hi => by
      rw [show (v2File A).write p (UInt32.ofNat (0x20 + 4 * i)) v = p.writeIv i v from write_iv p hi v]
      rfl) ((chunks 4 iv.bytes).map beWord).reverse 0 s (by intro h; rw [h] at hlen; cases hlen) (by omega)
  exact ⟨_, Prod.ext (run_writesFrom_reads _ _ _) rfl, hcr, hlo, hhi, hloaded, CrypEngine.eq_setIv hengine,
    hlast.trans hloaded⟩

end CrypV2

/-! ### Both register files -/

namespace Revision

variable {A : Aes} {r : Revision}

/-- Off, or on in the mode that prepares a key. -/
def Open (A : Aes) : (r : Revision) → (r.file A).State → Prop
  | .v1, s => CrypV1.crypen (CrypV1.cr s) = false ∨ CrypV1.Prepared s
  | .v2, s => CrypV2.en (CrypV2.cr s) = false ∨ CrypV2.Prepared s

theorem open_of_off : ∀ {r : Revision} {s : (r.file A).State}, (r.file A).enabled s = false → r.Open A s
  | .v1, _, h => .inl h
  | .v2, _, h => .inl h

theorem open_prelude : ∀ {r : Revision} {s : (r.file A).State} {v : UInt32}, (r.file A).enabled s = false →
    (r.file A).enables v = true → r.prepares v = true → r.Open A ((r.file A).write s (r.file A).regCR v)
  | .v1, _, _, hoff, hon, hmode => .inr (CrypV1.writeCr_prepares hoff hon (of_decide_eq_true hmode))
  | .v2, _, _, hoff, hon, hmode => .inr (CrypV2.writeCr_prepares hoff hon (of_decide_eq_true hmode))

theorem fresh_cr : ∀ {r : Revision} {s : (r.file A).State} {v : UInt32}, r.Open A s → (r.file A).enables v = true →
    r.prepares v = false →
    Fresh ((r.file A).config v)
      ((((r.file A).held s).key ((r.file A).config v).keySize).bytes.take ((r.file A).config v).keySize.bytes)
      ((r.file A).held s).iv ((r.file A).core ((r.file A).write s (r.file A).regCR v)).engine
  | .v1, _, _, h, hon, hmode => CrypV1.writeCr_fresh h hon (of_decide_eq_false hmode)
  | .v2, _, _, h, hon, hmode => CrypV2.writeCr_fresh h hon (of_decide_eq_false hmode)

theorem run_key : ∀ {r : Revision} (s : (r.file A).State) {size : KeySize}, size ∈ (r.file A).keySizes →
    (r.file A).enabled s = false → ∀ key : ByteArr size.bytes,
    ∃ t, (r.file A).run s (r.keyAccesses size key.bytes) = ([], t) ∧ (r.file A).enabled t = false ∧
      (((r.file A).held t).key size).bytes.take size.bytes = key.bytes
  | .v1, s, size, _, hoff, key => by
    obtain ⟨t, hrun, hcr, hkey⟩ := CrypV1.keyAccesses_spec (A := A) s key
    exact ⟨t, hrun, (congrArg CrypV1.crypen hcr).trans hoff, hkey⟩
  | .v2, s, size, hsize, hoff, key => by
    obtain ⟨t, hrun, hcr, hkey⟩ := CrypV2.keyAccesses_spec (A := A) s hsize key
    exact ⟨t, hrun, (congrArg CrypV2.en hcr).trans hoff, hkey⟩

/-- What the writes to the IV registers leave, and what they set. -/
structure IvWritten (A : Aes) (r : Revision) (iv : Block) (s t : (r.file A).State) : Prop where
  enabled : (r.file A).enabled t = (r.file A).enabled s
  holdsKey : ((r.file A).held t).key = ((r.file A).held s).key
  holdsIv : ((r.file A).held t).iv = iv
  opens : r.Open A s → r.Open A t
  fresh : ∀ {cfg key iv'}, Fresh cfg key iv' ((r.file A).core s).engine → Fresh cfg key iv ((r.file A).core t).engine

theorem run_iv (iv : Block) : ∀ {r : Revision} (s : (r.file A).State),
    ∃ t, (r.file A).run s (r.ivAccesses iv) = ([], t) ∧ IvWritten A r iv s t
  | .v1, s => by
    obtain ⟨t, hrun, hcr, hkey, hiv, hengine, hset⟩ := CrypV1.ivAccesses_spec (A := A) s iv
    refine ⟨t, hrun, congrArg CrypV1.crypen hcr, congrArg CrypV1.expandKey hkey, hiv, ?_, ?_⟩
    · rintro (hoff | h)
      · exact .inl ((congrArg CrypV1.crypen hcr).trans hoff)
      · refine .inr ⟨hcr ▸ h.on, hcr ▸ h.mode, ?_, ?_⟩
        · exact (congrArg CrypEngine.enabled hengine).trans h.enabled
        · exact (congrArg CrypEngine.mode hengine).trans h.engineMode
    · intro cfg key iv' h
      have hnew := h.setIv iv
      rw [← hset h.enabled] at hnew ⊢
      exact hengine ▸ hnew
  | .v2, s => by
    obtain ⟨t, hrun, hcr, hlo, hhi, hiv, hengine, hset⟩ := CrypV2.ivAccesses_spec (A := A) s iv
    refine ⟨t, hrun, congrArg CrypV2.en hcr, congrArg₂ CrypV2.expandKey hlo hhi, hiv, ?_, ?_⟩
    · rintro (hoff | h)
      · exact .inl ((congrArg CrypV2.en hcr).trans hoff)
      · refine .inr ⟨hcr ▸ h.on, hcr ▸ h.mode, ?_⟩
        exact (congrArg CrypEngine.enabled hengine).trans h.enabled
    · intro cfg key iv' h
      have hnew := h.setIv iv
      rw [← hset] at hnew ⊢
      exact hengine ▸ hnew

namespace Program

variable {cfg : Config} {s : (r.file A).State}

theorem run_prelude (prog : r.Program A cfg) (hoff : (r.file A).enabled s = false) :
    ∃ t, (r.file A).run s (prog.prelude.toList.map (.write (r.file A).regCR)) = ([], t) ∧ r.Open A t ∧
      ((r.file A).held t).key = ((r.file A).held s).key ∧ ((r.file A).held t).iv = ((r.file A).held s).iv := by
  obtain ⟨prelude, cr, place, prelude_ok, cr_ok⟩ := prog
  cases prelude with
  | none => exact ⟨s, rfl, open_of_off hoff, rfl, rfl⟩
  | some v =>
    obtain ⟨hon, hmode⟩ := prelude_ok v rfl
    obtain ⟨-, hkey, hiv⟩ := (r.lawful A).cr s v
    exact ⟨_, rfl, open_prelude hoff hon hmode, hkey, hiv⟩

theorem fresh_cr (prog : r.Program A cfg) (key : ByteArr cfg.keySize.bytes) (hopen : r.Open A s)
    (hkey : (((r.file A).held s).key cfg.keySize).bytes.take cfg.keySize.bytes = key.bytes) :
    Fresh cfg key.bytes ((r.file A).held s).iv
      ((r.file A).core ((r.file A).write s (r.file A).regCR prog.cr)).engine := by
  obtain ⟨hon, hcfg, hmode⟩ := prog.cr_ok
  have hfresh := Revision.fresh_cr hopen hon hmode
  rwa [hcfg, hkey] at hfresh

/-- A program leaves a fresh engine. -/
theorem run_accesses (prog : r.Program A cfg) (hoff : (r.file A).enabled s = false) (key : ByteArr cfg.keySize.bytes)
    (iv : Block) :
    ∃ t, (r.file A).run s (prog.accesses key.bytes iv) = ([], t) ∧
      Fresh cfg key.bytes iv ((r.file A).core t).engine := by
  have hsize : cfg.keySize ∈ (r.file A).keySizes := by
    have := (r.lawful A).config_keySize prog.cr
    rwa [prog.cr_ok.2.1] at this
  obtain ⟨t₁, hrun₁, hoff₁, hkey₁⟩ := run_key s hsize hoff key
  cases hplace : prog.place with
  | first =>
    obtain ⟨t₂, hrun₂, h₂⟩ := run_iv iv t₁
    obtain ⟨t₃, hrun₃, hopen, hkey₃, hiv₃⟩ := prog.run_prelude (h₂.enabled.trans hoff₁)
    have hfresh := prog.fresh_cr key hopen (by rw [hkey₃, h₂.holdsKey, hkey₁])
    rw [hiv₃, h₂.holdsIv] at hfresh
    refine ⟨_, ?_, hfresh⟩
    simp only [accesses, hplace, ivAt, if_pos, reduceCtorEq, if_false, RegisterFile.run_append, hrun₁, hrun₂, hrun₃,
      List.nil_append, RegisterFile.run]
  | between =>
    obtain ⟨t₂, hrun₂, hopen, hkey₂, -⟩ := prog.run_prelude hoff₁
    obtain ⟨t₃, hrun₃, h₃⟩ := run_iv iv t₂
    have hfresh := prog.fresh_cr key (h₃.opens hopen) (by rw [h₃.holdsKey, hkey₂, hkey₁])
    rw [h₃.holdsIv] at hfresh
    refine ⟨_, ?_, hfresh⟩
    simp only [accesses, hplace, ivAt, if_pos, reduceCtorEq, if_false, RegisterFile.run_append, hrun₁, hrun₂, hrun₃,
      List.nil_append, RegisterFile.run]
  | last =>
    obtain ⟨t₂, hrun₂, hopen, hkey₂, -⟩ := prog.run_prelude hoff₁
    have hfresh := prog.fresh_cr key hopen (by rw [hkey₂, hkey₁])
    obtain ⟨t₃, hrun₃, h₃⟩ := run_iv iv ((r.file A).write t₂ (r.file A).regCR prog.cr)
    refine ⟨t₃, ?_, h₃.fresh hfresh⟩
    simp only [accesses, hplace, ivAt, if_pos, reduceCtorEq, if_false, RegisterFile.run_append, hrun₁, hrun₂, hrun₃,
      List.nil_append, RegisterFile.run]

end Program

/-- CR of the H7 in a mode, enabled. -/
def streamCrV1 (size : KeySize) (algomode : UInt32) (dir : Direction) (dt : DataType) : UInt32 :=
  (0x8000 : UInt32) ||| (directionBits dir <<< 2) ||| (algomode <<< 3) ||| (dataTypeBits dt <<< 6) |||
    (keySizeBits size <<< 8)

/-- CR of the U5 in a mode, enabled. -/
def streamCrV2 (size : KeySize) (chmod modeBits : UInt32) (dt : DataType) : UInt32 :=
  (0x1 : UInt32) ||| (dataTypeBits dt <<< 1) ||| (modeBits <<< 3) ||| (chmod <<< 5) ||| (keySizeBits size <<< 17)

def algomodeBits : AesMode → UInt32
  | .ecb => 4
  | .cbc => 5
  | .ctr => 6
  | .gcm => 8
  | .keyDerivation => 7

def chmodBits : AesMode → UInt32
  | .ecb => 0
  | .cbc => 1
  | .ctr => 2
  | .gcm => 3
  | .keyDerivation => 0

/-- There is a program with the IV in any place, and with the preparation of the key or without. -/
theorem exists_program {size : KeySize} {mode : AesMode} (hmode : mode.streams = true) (dir : Direction)
    (dt : DataType) (prepared : Bool) (place : IvPlace) : ∀ {r : Revision}, size ∈ (r.file A).keySizes →
    ∃ prog : r.Program A ⟨size, mode, dir, dt⟩, prog.prelude.isSome = prepared ∧ prog.place = place
  | .v1, _ => by
    have hprepare : CrypV1.crypen (streamCrV1 size 7 dir dt) = true ∧
        CrypV1.mode (streamCrV1 size 7 dir dt) = .keyDerivation := by
      cases size <;> cases dir <;> cases dt <;> decide
    have hreal : CrypV1.crypen (streamCrV1 size (algomodeBits mode) dir dt) = true ∧
        CrypV1.config (streamCrV1 size (algomodeBits mode) dir dt) = ⟨size, mode, dir, dt⟩ := by
      cases mode with
      | ecb => cases size <;> cases dir <;> cases dt <;> decide
      | cbc => cases size <;> cases dir <;> cases dt <;> decide
      | ctr => cases size <;> cases dir <;> cases dt <;> decide
      | gcm => cases hmode
      | keyDerivation => cases hmode
    have hnot : prepares .v1 (streamCrV1 size (algomodeBits mode) dir dt) = false := by
      have hm := congrArg Config.mode hreal.2
      refine decide_eq_false fun h => ?_
      rw [show mode = .keyDerivation from hm.symm.trans h] at hmode
      cases hmode
    refine ⟨⟨if prepared then some (streamCrV1 size 7 dir dt) else none, streamCrV1 size (algomodeBits mode) dir dt, place,
      ?_, hreal.1, hreal.2, hnot⟩, by cases prepared <;> rfl, rfl⟩
    intro v hv
    cases prepared with
    | true =>
      cases hv
      exact ⟨hprepare.1, decide_eq_true hprepare.2⟩
    | false => cases hv
  | .v2, hsize => by
    have hprepare : CrypV2.en (streamCrV2 size (chmodBits mode) 1 dt) = true ∧
        CrypV2.modeBits (streamCrV2 size (chmodBits mode) 1 dt) = 1 := by
      cases size <;> cases mode <;> cases dt <;> decide
    have hreal : CrypV2.en (streamCrV2 size (chmodBits mode) (2 * directionBits dir) dt) = true ∧
        CrypV2.config (streamCrV2 size (chmodBits mode) (2 * directionBits dir) dt) = ⟨size, mode, dir, dt⟩ ∧
        CrypV2.modeBits (streamCrV2 size (chmodBits mode) (2 * directionBits dir) dt) ≠ 1 := by
      cases size with
      | k192 => exact absurd (show KeySize.k192 ∈ [KeySize.k128, .k256] from hsize) (by decide)
      | k128 =>
        cases mode with
        | ecb => cases dir <;> cases dt <;> decide
        | cbc => cases dir <;> cases dt <;> decide
        | ctr => cases dir <;> cases dt <;> decide
        | gcm => cases hmode
        | keyDerivation => cases hmode
      | k256 =>
        cases mode with
        | ecb => cases dir <;> cases dt <;> decide
        | cbc => cases dir <;> cases dt <;> decide
        | ctr => cases dir <;> cases dt <;> decide
        | gcm => cases hmode
        | keyDerivation => cases hmode
    refine ⟨⟨if prepared then some (streamCrV2 size (chmodBits mode) 1 dt) else none,
      streamCrV2 size (chmodBits mode) (2 * directionBits dir) dt, place, ?_, hreal.1, hreal.2.1,
      decide_eq_false hreal.2.2⟩, by cases prepared <;> rfl, rfl⟩
    intro v hv
    cases prepared with
    | true =>
      cases hv
      exact ⟨hprepare.1, decide_eq_true hprepare.2⟩
    | false => cases hv

/-- A program and the blocks of a message. -/
theorem run_message {s : (r.file A).State} (hoff : (r.file A).enabled s = false) {cfg : Config}
    (hmode : cfg.mode.streams = true) (prog : r.Program A cfg) (key : ByteArr cfg.keySize.bytes) (iv : Block)
    (bs : List Block) :
    ((r.file A).run s (prog.accesses key.bytes iv ++ (r.file A).payloadAccesses cfg.datatype bs)).1 =
      (modeBlocks (A.encrypt key.bytes) (A.decrypt key.bytes) cfg.mode cfg.direction iv bs).flatMap fun y =>
        cfg.datatype.words y.bytes := by
  obtain ⟨t, hrun, hfresh⟩ := prog.run_accesses hoff key iv
  rw [RegisterFile.run_append, hrun, RegisterFile.run_fresh (r.lawful A) hmode hfresh, List.nil_append]

end Revision

/-- **Both register files compute ECB, CBC and CTR.** For every key size that
the file has, direction and DATATYPE there are programs, with the preparation
of the key or without and the IV in any place; whatever the values of CR in
them, the words read for a list of blocks are those of the mode; and a program
of the other direction, on either file, restores the blocks from what was read. -/
theorem block_modes_agree (A : Aes) (hinv : ∀ key b, A.decrypt key (A.encrypt key b) = b) {size : KeySize}
    (key : ByteArr size.bytes) (iv : Block) {mode : AesMode} (hmode : mode.streams = true) (dir : Direction)
    (bs : List Block) :
    (∀ r : Revision, size ∈ (r.file A).keySizes → ∀ dt prepared place,
      ∃ prog : r.Program A ⟨size, mode, dir, dt⟩, prog.prelude.isSome = prepared ∧ prog.place = place) ∧
    (∀ (r : Revision) (s : (r.file A).State), (r.file A).enabled s = false →
      ∀ dt (prog : r.Program A ⟨size, mode, dir, dt⟩),
      ((r.file A).run s (prog.accesses key.bytes iv ++ (r.file A).payloadAccesses dt bs)).1 =
        (modeBlocks (A.encrypt key.bytes) (A.decrypt key.bytes) mode dir iv bs).flatMap fun y => dt.words y.bytes) ∧
    (∀ (r : Revision) (s : (r.file A).State), (r.file A).enabled s = false →
      ∀ dt (prog : r.Program A ⟨size, mode, dir.other, dt⟩),
      ((r.file A).run s (prog.accesses key.bytes iv ++ (r.file A).payloadAccesses dt
        (modeBlocks (A.encrypt key.bytes) (A.decrypt key.bytes) mode dir iv bs))).1 =
        bs.flatMap fun y => dt.words y.bytes) := by
  refine ⟨?_, ?_, ?_⟩
  · intro r hsize dt prepared place
    exact Revision.exists_program hmode dir dt prepared place hsize
  · intro r s hoff dt prog
    exact Revision.run_message hoff hmode prog key iv bs
  · intro r s hoff dt prog
    have hrun := Revision.run_message hoff hmode prog key iv
      (modeBlocks (A.encrypt key.bytes) (A.decrypt key.bytes) mode dir iv bs)
    rw [modeBlocks_other (hinv key.bytes) hmode dir iv bs] at hrun
    exact hrun

/-- AES under the zero key on the zero block, as a permutation. -/
def swapAes : Aes where
  encrypt key b :=
    if key = List.replicate 16 0 then
      Equiv.swap (blockOf 0 0 0 0) (blockOf 0x66e94bd4 0xef8a2c3b 0x884cfa59 0xca342b2e) b
    else b
  decrypt key b :=
    if key = List.replicate 16 0 then
      Equiv.swap (blockOf 0 0 0 0) (blockOf 0x66e94bd4 0xef8a2c3b 0x884cfa59 0xca342b2e) b
    else b

theorem swapAes_inverse (key : Bytes) (b : Block) : swapAes.decrypt key (swapAes.encrypt key b) = b := by
  by_cases hkey : key = List.replicate 16 0
  · simp only [swapAes, if_pos hkey]
    exact Equiv.swap_apply_self _ _ b
  · simp only [swapAes, if_neg hkey]

/-- The U5 prepares the key, and decrypts the known answer for the zero block. -/
theorem ecb_known_answer : ∃ prog : Revision.v2.Program swapAes ⟨.k128, .ecb, .decrypt, .word⟩,
    prog.prelude.isSome = true ∧ prog.place = .between ∧
      ((v2File swapAes).run ({} : CrypV2) (prog.accesses (zeroArr 16).bytes (zeroArr 16) ++
        (v2File swapAes).payloadAccesses .word [blockOf 0x66e94bd4 0xef8a2c3b 0x884cfa59 0xca342b2e])).1 =
        [0, 0, 0, 0] := by
  obtain ⟨-, -, hback⟩ := @block_modes_agree swapAes swapAes_inverse .k128 (zeroArr 16) (zeroArr 16) .ecb rfl .encrypt
    [zeroArr 16]
  obtain ⟨prog, hprelude, hplace⟩ :=
    (@block_modes_agree swapAes swapAes_inverse .k128 (zeroArr 16) (zeroArr 16) .ecb rfl
    .decrypt []).1 .v2 (by decide) .word true .between
  exact ⟨prog, hprelude, hplace, hback .v2 ({} : CrypV2) rfl .word prog⟩

end Cryp
end STM32
end Simulators
