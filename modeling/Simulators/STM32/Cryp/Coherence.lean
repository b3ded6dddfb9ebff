/-
# STM32 CRYP: CR and the engine

A driver sees CR and the key registers, the engine runs its own copy of what
they say. The two agree after every access to the register file of the U5. On
the H7 they agree as long as no write to CR, while the engine is enabled in
GCM, keeps CRYPEN and changes the configuration: such a write moves the GCM
phase and commits nothing, so the engine goes on with the old mode, direction,
key size and data type.

Key theorem: `coherent_while_gcm_config_kept`.
-/
import Simulators.STM32.Cryp.Messages

namespace Simulators
namespace STM32
namespace Cryp

/-! ### The core -/

namespace Core

variable {A : Aes} {c : Core}

/-- A whole number of words, less than a block. -/
def Partial (n : ℕ) : Prop := n ∈ [0, 4, 8, 12]

/-- The fill of the buffers. -/
structure Buffers (c : Core) : Prop where
  inLen : Partial c.engine.inLen
  gcmInLen : Partial c.gcmInBuf.length
  out : c.engine.outAvail = 0 ∨ c.engine.outPos + c.engine.outAvail = 16

/-- What a commit takes from CR and the key registers. -/
def settings (c : Core) : Bool × Config × ByteArr 32 := (c.engine.enabled, c.engine.config, c.engine.key)

theorem partial_add {n : ℕ} (h : Partial n) (hne : n + 4 ≠ 16) : Partial (n + 4) := by
  simp only [Partial, List.mem_cons, List.not_mem_nil, or_false] at h ⊢
  omega

theorem partial_zero : Partial 0 := List.mem_cons_self

/-! ### Words in and out -/

/-- A block that the engine processes by itself leaves the input buffer empty
and the output buffer full or as it was. -/
theorem processBlock_spec (e : CrypEngine) (block : Block) :
    ((e.processBlock A block).enabled, (e.processBlock A block).config, (e.processBlock A block).key) =
        (e.enabled, e.config, e.key) ∧
      (e.processBlock A block).inBuf = [] ∧
      ((e.processBlock A block).outPos + (e.processBlock A block).outAvail = 16 ∨
        ((e.processBlock A block).outPos, (e.processBlock A block).outAvail) = (e.outPos, e.outAvail)) := by
  obtain ⟨key, iv, size, mode, dir, dt, enabled, inBuf, outBuf, outPos, outAvail⟩ := e
  cases mode with
  | ecb => exact ⟨rfl, rfl, .inl rfl⟩
  | cbc => cases dir <;> exact ⟨rfl, rfl, .inl rfl⟩
  | ctr => exact ⟨rfl, rfl, .inl rfl⟩
  | gcm => exact ⟨rfl, rfl, .inr rfl⟩
  | keyDerivation => exact ⟨rfl, rfl, .inr rfl⟩

/-- What a step of the data path leaves alone and what it keeps. -/
structure DataStep (c c' : Core) : Prop where
  settings : c'.settings = c.settings
  buffers : c.Buffers → c'.Buffers

theorem writeDin_step (value : UInt32) : DataStep c { c with engine := c.engine.writeDin A value } := by
  by_cases hskip : ¬ c.engine.enabled ∨ c.engine.inLen ≥ 16
  · rw [CrypEngine.writeDin, if_pos hskip]
    exact ⟨rfl, id⟩
  · rw [CrypEngine.writeDin, if_neg hskip]
    dsimp only
    split
    · rename_i hfull
      obtain ⟨hset, hin, hout⟩ := processBlock_spec (A := A) c.engine ⟨_, hfull⟩
      refine ⟨hset, fun h => ⟨?_, h.gcmInLen, ?_⟩⟩
      · rw [CrypEngine.inLen, hin]
        exact partial_zero
      · rcases hout with hout | hout
        · exact .inr hout
        · obtain ⟨hpos, hav⟩ := Prod.mk.inj hout
          show (c.engine.processBlock A _).outAvail = 0 ∨ _
          rw [hpos, hav]
          exact h.out
    · rename_i hpart
      rw [List.length_append, DataType.bytes_length] at hpart
      refine ⟨rfl, fun h => ⟨?_, h.gcmInLen, h.out⟩⟩
      show Partial (c.engine.inBuf ++ _).length
      rw [List.length_append, DataType.bytes_length]
      exact partial_add h.inLen hpart

theorem gcmBlock_step (block : Block) : DataStep c (c.gcmBlock A block) := by
  unfold gcmBlock
  split
  · exact ⟨rfl, id⟩
  · exact ⟨rfl, fun h => ⟨h.inLen, h.gcmInLen, h.out⟩⟩
  · exact ⟨rfl, fun h => ⟨h.inLen, h.gcmInLen, .inr rfl⟩⟩
  · exact ⟨rfl, fun h => ⟨h.inLen, h.gcmInLen, .inr rfl⟩⟩

theorem gcmDin_step (value : UInt32) : DataStep c (c.gcmDin A value) := by
  by_cases hskip : ¬ c.engine.enabled ∨ c.engine.mode ≠ .gcm
  · rw [gcmDin, if_pos hskip]
    exact ⟨rfl, id⟩
  · rw [gcmDin, if_neg hskip]
    dsimp only
    split
    · obtain ⟨hset, hbuf⟩ := gcmBlock_step (A := A) (c := { c with gcmInBuf := [] }) ⟨_, ‹_›⟩
      exact ⟨hset, fun h => hbuf ⟨h.inLen, partial_zero, h.out⟩⟩
    · rename_i hpart
      rw [List.length_append, DataType.bytes_length] at hpart
      refine ⟨rfl, fun h => ⟨h.inLen, ?_, h.out⟩⟩
      rw [List.length_append, DataType.bytes_length]
      exact partial_add h.gcmInLen hpart

theorem din_step (value : UInt32) : DataStep c (c.din A value) := by
  unfold din
  split
  · exact gcmDin_step value
  · exact writeDin_step value

theorem dout_step : DataStep c c.dout.2 := by
  by_cases hav : c.engine.outAvail < 4
  · simp only [dout, CrypEngine.readDout, if_pos hav]
    exact ⟨rfl, id⟩
  · simp only [dout, CrypEngine.readDout, if_neg hav]
    refine ⟨rfl, fun h => ⟨h.inLen, h.gcmInLen, ?_⟩⟩
    have hout := h.out
    dsimp only
    omega

/-! ### Commits and phases -/

theorem commitConfig_spec (cfg : Config) (key : ByteArr 32) (iv : Block) (ph : GcmPhase) :
    (c.commitConfig A cfg key iv ph).settings = (c.engine.enabled, cfg, key) ∧
      (c.commitConfig A cfg key iv ph).Buffers := by
  unfold commitConfig
  dsimp only
  split <;> exact ⟨rfl, partial_zero, partial_zero, .inl rfl⟩

theorem changePhase_spec (ph : GcmPhase) :
    (c.changePhase A ph).settings = c.settings ∧ (c.changePhase A ph).Buffers :=
  ⟨rfl, partial_zero, partial_zero, .inl rfl⟩

end Core

/-! ### Register files -/

/-- The engine is enabled as CR says, and enabled it runs the configuration of
CR under the key of the key registers, with its buffers filled by words. -/
structure RegisterFile.Coherent (R : RegisterFile) (s : R.State) : Prop where
  enabled : (R.core s).engine.enabled = R.enabled s
  config : R.enabled s = true → (R.core s).engine.config = R.config (R.held s).cr
  key : R.enabled s = true → (R.core s).engine.key = (R.held s).key (R.config (R.held s).cr).keySize
  buffers : R.enabled s = true → (R.core s).Buffers

namespace RegisterFile

variable {R : RegisterFile} {s t : R.State}

/-- A step of the data path, with the registers left alone. -/
theorem Coherent.frame (h : R.Coherent s) (hheld : R.held t = R.held s) (hstep : (R.core s).DataStep (R.core t)) :
    R.Coherent t := by
  obtain ⟨henabled, hrest⟩ := Prod.mk.inj hstep.settings
  obtain ⟨hconfig, hkey⟩ := Prod.mk.inj hrest
  have hen : R.enabled t = R.enabled s := congrArg (fun held : Held => R.enables held.cr) hheld
  refine ⟨henabled.trans (h.enabled.trans hen.symm), ?_, ?_, ?_⟩
  · intro hon
    rw [hconfig, hheld]
    exact h.config (hen ▸ hon)
  · intro hon
    rw [hkey, hheld]
    exact h.key (hen ▸ hon)
  · intro hon
    exact hstep.buffers (h.buffers (hen ▸ hon))

theorem Coherent.of_off (hoff : R.enabled s = false) (h : (R.core s).engine.enabled = false) : R.Coherent s where
  enabled := h.trans hoff.symm
  config hon := absurd (hoff.symm.trans hon) Bool.false_ne_true
  key hon := absurd (hoff.symm.trans hon) Bool.false_ne_true
  buffers hon := absurd (hoff.symm.trans hon) Bool.false_ne_true

/-- An enabled engine with these settings. -/
theorem Coherent.of_settings (hon : R.enabled s = true)
    (hset : (R.core s).settings =
      (true, R.config (R.held s).cr, (R.held s).key (R.config (R.held s).cr).keySize))
    (hbuf : (R.core s).Buffers) : R.Coherent s := by
  obtain ⟨henabled, hrest⟩ := Prod.mk.inj hset
  obtain ⟨hconfig, hkey⟩ := Prod.mk.inj hrest
  exact ⟨henabled.trans hon.symm, fun _ => hconfig, fun _ => hkey, fun _ => hbuf⟩

theorem Coherent.settings (h : R.Coherent s) (hon : R.enabled s = true) : (R.core s).settings =
    (true, R.config (R.held s).cr, (R.held s).key (R.config (R.held s).cr).keySize) := by
  rw [Core.settings, h.enabled, h.config hon, h.key hon, hon]

end RegisterFile

/-! ### The register file of the U5 -/

namespace CrypV2

variable {A : Aes} {p : CrypV2}

theorem config_of_algBits {cr v : UInt32} (h : v &&& crAlgBits = cr &&& crAlgBits) : config v = config cr := by
  have hmask {m : UInt32} (hm : crAlgBits &&& m = m) : v &&& m = cr &&& m := by
    rw [← hm, ← UInt32.and_assoc, h, UInt32.and_assoc]
  rw [config, config, keySize, keySize, mode, mode, chmod, chmod, modeBits, modeBits, hmask (by decide),
    hmask (by decide), hmask (by decide), hmask (by decide), hmask (by decide)]

theorem read_cases (p : CrypV2) (offset : UInt32) :
    (p.read offset).2 = p ∨ (p.read offset).2 = { p with core := p.core.dout.2 } := by
  let Q (r : UInt32 × CrypV2) : Prop := r.2 = p ∨ r.2 = { p with core := p.core.dout.2 }
  have hsame : ∀ {word : UInt32}, Q (word, p) := .inl rfl
  show Q (p.read offset)
  unfold read
  refine iteInduction (fun _ => hsame) fun _ => iteInduction (fun _ => hsame) fun _ => ?_
  refine iteInduction (fun _ => hsame) fun _ => iteInduction (fun _ => .inr rfl) fun _ => ?_
  refine iteInduction (fun _ => hsame) fun _ => iteInduction (fun _ => hsame) fun _ => ?_
  exact iteInduction (fun _ => hsame) fun _ => iteInduction (fun _ => hsame) fun _ =>
    iteInduction (fun _ => hsame) fun _ => hsame

theorem write_cases (p : CrypV2) (offset v : UInt32) :
    p.write A offset v = p.writeCr A v ∨ p.write A offset v = { p with core := p.core.din A v } ∨
      (∃ lo hi, p.write A offset v = { p with keyLo := lo, keyHi := hi }.pushKey) ∨
      (∃ i, p.write A offset v = p.writeIv i v) ∨
      ∃ ier isr, p.write A offset v = { p with ier := ier, isr := isr } := by
  let Q (q : CrypV2) : Prop := q = p.writeCr A v ∨ q = { p with core := p.core.din A v } ∨
    (∃ lo hi, q = { p with keyLo := lo, keyHi := hi }.pushKey) ∨ (∃ i, q = p.writeIv i v) ∨
    ∃ ier isr, q = { p with ier := ier, isr := isr }
  have hkey : ∀ {lo hi : Vector UInt32 4}, Q { p with keyLo := lo, keyHi := hi }.pushKey :=
    .inr (.inr (.inl ⟨_, _, rfl⟩))
  have hregs : ∀ {ier isr : UInt32}, Q { p with ier := ier, isr := isr } := .inr (.inr (.inr (.inr ⟨_, _, rfl⟩)))
  show Q (p.write A offset v)
  unfold write
  refine iteInduction (fun _ => .inl rfl) fun _ => iteInduction (fun _ => .inr (.inl rfl)) fun _ => ?_
  refine iteInduction (fun _ => hkey) fun _ => ?_
  refine iteInduction (fun _ => .inr (.inr (.inr (.inl ⟨_, rfl⟩)))) fun _ => ?_
  refine iteInduction (fun _ => hkey) fun _ => ?_
  exact iteInduction (fun _ => hregs) fun _ => iteInduction (fun _ => hregs) fun _ => hregs

/-- A write to CR that sets EN, or keeps it and changes a configuration bit. -/
theorem writeCr_commit {v : UInt32} (hon : en v = true)
    (h : en p.cr = true → v &&& crAlgBits ≠ p.cr &&& crAlgBits) : (v2File A).Coherent (p.writeCr A v) := by
  have heq : p.writeCr A v = { ({ p with cr := v } : CrypV2).commitConfig A with
      core := (({ p with cr := v } : CrypV2).commitConfig A).core.setEnabled true } := by
    by_cases hwas : en p.cr = true
    · simp [writeCr, hon, hwas, h hwas]
    · simp [writeCr, hon, hwas]
  have hspec := Core.commitConfig_spec (A := A) (c := p.core) (config v) (expandKey p.keyLo p.keyHi (keySize v))
    (expandIv p.ivRegs) (gcmPhase v)
  rw [heq]
  refine .of_settings hon ?_ ⟨hspec.2.inLen, hspec.2.gcmInLen, hspec.2.out⟩
  exact Prod.ext rfl (Prod.mk.inj hspec.1).2

/-- A write that keeps EN and all configuration bits. -/
theorem writeCr_keep (h : (v2File A).Coherent p) {v : UInt32} (hon : en v = true) (hwas : en p.cr = true)
    (hbits : v &&& crAlgBits = p.cr &&& crAlgBits) : (v2File A).Coherent (p.writeCr A v) := by
  have hset : p.core.settings = (true, config v, expandKey p.keyLo p.keyHi (config v).keySize) := by
    rw [config_of_algBits hbits]
    exact h.settings hwas
  by_cases hgcm : p.core.engine.mode = .gcm
  · have heq : p.writeCr A v = { p with cr := v, core := p.core.changePhase A (gcmPhase v) } := by
      simp [writeCr, hon, hwas, hbits, hgcm]
    have hspec := Core.changePhase_spec (A := A) (c := p.core) (gcmPhase v)
    rw [heq]
    exact .of_settings hon (hspec.1.trans hset) hspec.2
  · have heq : p.writeCr A v = { p with cr := v } := by simp [writeCr, hon, hwas, hbits, hgcm]
    rw [heq]
    exact .of_settings hon hset (h.buffers hwas)

/-- A write with EN clear. -/
theorem writeCr_clear (h : (v2File A).Coherent p) {v : UInt32} (hoff : en v = false) :
    (v2File A).Coherent (p.writeCr A v) := by
  have hcr : (v2File A).enabled (p.writeCr A v) = false :=
    (congrArg en (writeCr_registers (A := A) p v).1).trans hoff
  refine .of_off hcr ?_
  by_cases hwas : en p.cr = true
  · have heq : p.writeCr A v = { p with cr := v, core := p.core.setEnabled false, keyDerivationActive := false } := by
      simp [writeCr, hoff, hwas]
    rw [heq]
    rfl
  · have heq : p.writeCr A v = { p with cr := v } := by simp [writeCr, hoff, hwas]
    rw [heq]
    exact h.enabled.trans (Bool.eq_false_iff.mpr hwas)

theorem writeCr_coherent (h : (v2File A).Coherent p) (v : UInt32) : (v2File A).Coherent (p.writeCr A v) := by
  by_cases hon : en v = true
  · by_cases hkept : en p.cr = true ∧ v &&& crAlgBits = p.cr &&& crAlgBits
    · exact writeCr_keep h hon hkept.1 hkept.2
    · exact writeCr_commit hon fun hwas hbits => hkept ⟨hwas, hbits⟩
  · exact writeCr_clear h (Bool.eq_false_iff.mpr hon)

/-- New words in the key registers reach an enabled engine. -/
theorem pushKey_coherent (h : (v2File A).Coherent p) (lo hi : Vector UInt32 4) :
    (v2File A).Coherent ({ p with keyLo := lo, keyHi := hi } : CrypV2).pushKey := by
  unfold pushKey
  by_cases hon : p.core.engine.enabled = true
  · have hwas : en p.cr = true := h.enabled.symm.trans hon
    have hsize : p.core.engine.keySize = (config p.cr).keySize := congrArg Config.keySize (h.config hwas)
    rw [if_pos hon]
    have hbuf := h.buffers hwas
    refine .of_settings hwas ?_ ⟨hbuf.inLen, hbuf.gcmInLen, hbuf.out⟩
    refine Prod.ext hon (Prod.ext (h.config hwas) ?_)
    exact congrArg (expandKey lo hi) hsize
  · rw [if_neg hon]
    exact .of_off (h.enabled.symm.trans (Bool.eq_false_iff.mpr hon)) (Bool.eq_false_iff.mpr hon)

theorem access_coherent (h : (v2File A).Coherent p) (a : Access) : (v2File A).Coherent (p.access A a).2 := by
  cases a with
  | read offset =>
    rcases read_cases p offset with heq | heq
    · exact (congrArg (v2File A).Coherent heq).mpr h
    · exact (congrArg (v2File A).Coherent heq).mpr (h.frame rfl Core.dout_step)
  | write offset v =>
    rcases write_cases (A := A) p offset v with heq | heq | ⟨lo, hi, heq⟩ | ⟨i, heq⟩ | ⟨ier, isr, heq⟩
    · exact (congrArg (v2File A).Coherent heq).mpr (writeCr_coherent h v)
    · exact (congrArg (v2File A).Coherent heq).mpr (h.frame rfl (Core.din_step v))
    · exact (congrArg (v2File A).Coherent heq).mpr (pushKey_coherent h lo hi)
    · refine (congrArg (v2File A).Coherent heq).mpr ?_
      refine ⟨h.enabled, h.config, h.key, fun hon => ?_⟩
      exact ⟨(h.buffers hon).inLen, (h.buffers hon).gcmInLen, (h.buffers hon).out⟩
    · exact (congrArg (v2File A).Coherent heq).mpr (h.frame rfl ⟨rfl, id⟩)

end CrypV2

/-! ### The register file of the H7 -/

namespace CrypV1

variable {A : Aes} {p : CrypV1} {v : UInt32}

theorem config_of_cfgMask {cr : UInt32} (h : (cr ^^^ v) &&& cfgMask = 0) : config v = config cr := by
  have hbits : cr &&& cfgMask = v &&& cfgMask := by
    rw [xor_and_distrib] at h
    exact UInt32.xor_eq_zero_iff.mp h
  have hmask {m : UInt32} (hm : cfgMask &&& m = m) : v &&& m = cr &&& m := by
    rw [← hm, ← UInt32.and_assoc, ← hbits, UInt32.and_assoc]
  rw [config, config, keySize, keySize, mode, mode, algomode, algomode, hmask (by decide), hmask (by decide),
    hmask (by decide), hmask (by decide), hmask (by decide)]

theorem read_cases (p : CrypV1) (offset : UInt32) :
    (p.read offset).2 = p ∨ (p.read offset).2 = { p with core := p.core.dout.2 } := by
  let Q (r : UInt32 × CrypV1) : Prop := r.2 = p ∨ r.2 = { p with core := p.core.dout.2 }
  have hsame : ∀ {word : UInt32}, Q (word, p) := .inl rfl
  show Q (p.read offset)
  unfold read
  refine iteInduction (fun _ => hsame) fun _ => iteInduction (fun _ => hsame) fun _ => ?_
  refine iteInduction (fun _ => hsame) fun _ => iteInduction (fun _ => .inr rfl) fun _ => ?_
  refine iteInduction (fun _ => hsame) fun _ => iteInduction (fun _ => hsame) fun _ => ?_
  exact iteInduction (fun _ => hsame) fun _ => iteInduction (fun _ => hsame) fun _ => hsame

theorem write_cases (p : CrypV1) {offset : UInt32} (hne : offset ≠ regCR) (v : UInt32) :
    p.write A offset v = { p with core := p.core.din A v } ∨ (∃ i, p.write A offset v = p.writeKey i v) ∨
      (∃ i, p.write A offset v = p.writeIv i v) ∨
      ∃ dmacr imscr, p.write A offset v = { p with dmacr := dmacr, imscr := imscr } := by
  let Q (q : CrypV1) : Prop := q = { p with core := p.core.din A v } ∨ (∃ i, q = p.writeKey i v) ∨
    (∃ i, q = p.writeIv i v) ∨ ∃ dmacr imscr, q = { p with dmacr := dmacr, imscr := imscr }
  have hregs : ∀ {dmacr imscr : UInt32}, Q { p with dmacr := dmacr, imscr := imscr } :=
    .inr (.inr (.inr ⟨_, _, rfl⟩))
  show Q (p.write A offset v)
  unfold write
  rw [if_neg hne]
  refine iteInduction (fun _ => .inl rfl) fun _ => ?_
  refine iteInduction (fun _ => hregs) fun _ => iteInduction (fun _ => hregs) fun _ => ?_
  refine iteInduction (fun _ => .inr (.inl ⟨_, rfl⟩)) fun _ => ?_
  exact iteInduction (fun _ => .inr (.inr (.inl ⟨_, rfl⟩))) fun _ => hregs

/-- An access that does not, in GCM and with CRYPEN kept, write another configuration to CR. -/
def KeepsGcmConfig (p : CrypV1) : Access → Prop
  | .read _ => True
  | .write offset v => offset = regCR → crypen p.cr = true → crypen v = true → (config p.cr).mode = .gcm →
      config v = config p.cr

theorem flushed_step (v : UInt32) : p.core.DataStep (p.flushed v) := by
  unfold flushed
  split
  · exact ⟨rfl, fun h => ⟨Core.partial_zero, h.gcmInLen, .inl rfl⟩⟩
  · exact ⟨rfl, id⟩

/-- An enabled engine with the settings of the value written. -/
theorem coherent_of_written {q : CrypV1} (hcr : q.cr = v &&& ~~~crFFLUSH) (hon : crypen v = true)
    (hset : q.core.settings = (true, config v, expandKey q.keyRegs (config v).keySize)) (hbuf : q.core.Buffers) :
    (v1File A).Coherent q := by
  have hen : crypen q.cr = true := by rw [hcr, crypen_unflushed, hon]
  refine .of_settings hen ?_ hbuf
  show q.core.settings = (true, config q.cr, expandKey q.keyRegs (config q.cr).keySize)
  rw [hcr, config_unflushed]
  exact hset

/-- A write to CR that sets CRYPEN. -/
theorem writeCr_enable (hwas : crypen p.cr = false) (hon : crypen v = true) :
    (v1File A).Coherent (p.writeCr A v) := by
  have hspec := Core.commitConfig_spec (A := A) (c := p.core) (config v) (expandKey p.keyRegs (keySize v))
    (expandIv p.ivRegs) (gcmPhase v)
  rw [writeCr_eq, if_pos ⟨by simp [hwas], hon⟩]
  refine coherent_of_written rfl hon ?_ ⟨hspec.2.inLen, hspec.2.gcmInLen, hspec.2.out⟩
  exact Prod.ext rfl (Prod.mk.inj hspec.1).2

/-- A write with CRYPEN clear. -/
theorem writeCr_clear (h : (v1File A).Coherent p) (hoff : crypen v = false) : (v1File A).Coherent (p.writeCr A v) := by
  have hcr : (v1File A).enabled (p.writeCr A v) = false := by
    show crypen (p.writeCr A v).cr = false
    rw [(writeCr_registers p v).1, crypen_unflushed, hoff]
  refine .of_off hcr ?_
  show (p.writeCr A v).core.engine.enabled = false
  rw [writeCr_eq, if_neg (by simp [hoff])]
  by_cases hwas : crypen p.cr = true
  · rw [if_pos (by simp [hwas, hoff])]
    rfl
  · rw [if_neg (by simp [hwas]), if_neg (by simp [hoff])]
    have hset := (Prod.mk.inj (flushed_step (p := p) v).settings).1
    exact hset.trans (h.enabled.trans (Bool.eq_false_iff.mpr hwas))

/-- A write that keeps CRYPEN, in a mode other than GCM. -/
theorem writeCr_recommit (h : (v1File A).Coherent p) (hwas : crypen p.cr = true) (hon : crypen v = true)
    (hmode : (config p.cr).mode ≠ .gcm) : (v1File A).Coherent (p.writeCr A v) := by
  have hset : p.core.settings = (true, config p.cr, expandKey p.keyRegs (config p.cr).keySize) := h.settings hwas
  have hgcm : p.core.engine.mode ≠ .gcm := by
    have hcfg : p.core.engine.config = config p.cr := h.config hwas
    rw [show p.core.engine.mode = p.core.engine.config.mode from rfl, hcfg]
    exact hmode
  rw [writeCr_eq, if_neg (by simp [hwas]), if_neg (by simp [hon]), if_pos hon, if_neg hgcm]
  by_cases hbits : (p.cr ^^^ v) &&& cfgMask = 0
  · rw [if_neg (by simp [hbits])]
    refine coherent_of_written rfl hon ?_ ((flushed_step v).buffers (h.buffers hwas))
    rw [config_of_cfgMask hbits]
    exact (flushed_step v).settings.trans hset
  · have hspec := Core.commitConfig_spec (A := A) (c := p.core) (config v) (expandKey p.keyRegs (keySize v))
      (expandIv p.ivRegs) (gcmPhase v)
    rw [if_pos hbits]
    refine coherent_of_written rfl hon (hspec.1.trans ?_) hspec.2
    exact Prod.ext (Prod.mk.inj hset).1 rfl

/-- A write that keeps CRYPEN in GCM moves the phase and commits nothing. -/
theorem writeCr_gcm_iff (h : (v1File A).Coherent p) (hwas : crypen p.cr = true) (hon : crypen v = true)
    (hmode : (config p.cr).mode = .gcm) : (v1File A).Coherent (p.writeCr A v) ↔ config v = config p.cr := by
  have hset : p.core.settings = (true, config p.cr, expandKey p.keyRegs (config p.cr).keySize) := h.settings hwas
  have hcfg : p.core.engine.config = config p.cr := h.config hwas
  have hgcm : p.core.engine.mode = .gcm := (congrArg Config.mode hcfg).trans hmode
  have heq : p.writeCr A v = { p with cr := v &&& ~~~crFFLUSH, core := p.core.changePhase A (gcmPhase v) } := by
    rw [writeCr_eq, if_neg (by simp [hwas]), if_neg (by simp [hon]), if_pos hon, if_pos hgcm]
  have hspec := Core.changePhase_spec (A := A) (c := p.core) (gcmPhase v)
  rw [heq]
  constructor
  · intro hcoh
    have hnew : p.core.engine.config = config (v &&& ~~~crFFLUSH) := hcoh.config ((crypen_unflushed v).trans hon)
    rw [config_unflushed] at hnew
    exact hnew.symm.trans hcfg
  · intro hsame
    refine coherent_of_written rfl hon (hspec.1.trans ?_) hspec.2
    rw [hsame]
    exact hset

theorem writeKey_coherent (h : (v1File A).Coherent p) (i : ℕ) (v : UInt32) :
    (v1File A).Coherent (p.writeKey i v) := by
  by_cases hon : p.core.engine.enabled = true
  · have hwas : crypen p.cr = true := h.enabled.symm.trans hon
    have hsize : p.core.engine.keySize = (config p.cr).keySize := congrArg Config.keySize (h.config hwas)
    have hbuf := h.buffers hwas
    rw [writeKey, if_pos hon]
    refine .of_settings hwas ?_ ⟨hbuf.inLen, hbuf.gcmInLen, hbuf.out⟩
    refine Prod.ext hon (Prod.ext (h.config hwas) ?_)
    exact congrArg (expandKey (p.keyRegs.setIfInBounds i v)) hsize
  · rw [writeKey, if_neg hon]
    exact .of_off (h.enabled.symm.trans (Bool.eq_false_iff.mpr hon)) (Bool.eq_false_iff.mpr hon)

theorem writeIv_coherent (h : (v1File A).Coherent p) (i : ℕ) (v : UInt32) : (v1File A).Coherent (p.writeIv i v) := by
  unfold writeIv
  dsimp only
  split
  · exact ⟨h.enabled, h.config, h.key,
      fun hon => ⟨(h.buffers hon).inLen, (h.buffers hon).gcmInLen, (h.buffers hon).out⟩⟩
  · exact ⟨h.enabled, h.config, h.key, h.buffers⟩

/-- From a coherent state, an access keeps coherence exactly if it keeps the configuration of GCM. -/
theorem access_coherent_iff (h : (v1File A).Coherent p) (a : Access) :
    (v1File A).Coherent (p.access A a).2 ↔ p.KeepsGcmConfig a := by
  cases a with
  | read offset =>
    refine iff_of_true ?_ trivial
    rcases read_cases p offset with heq | heq
    · exact (congrArg (v1File A).Coherent heq).mpr h
    · exact (congrArg (v1File A).Coherent heq).mpr (h.frame rfl Core.dout_step)
  | write offset v =>
    by_cases hcr : offset = regCR
    · have heq : p.write A offset v = p.writeCr A v := by rw [write, if_pos hcr]
      refine (congrArg (v1File A).Coherent heq).to_iff.trans ?_
      by_cases hon : crypen v = true
      · by_cases hwas : crypen p.cr = true
        · by_cases hmode : (config p.cr).mode = .gcm
          · refine (writeCr_gcm_iff h hwas hon hmode).trans ?_
            exact ⟨fun hcfg _ _ _ _ => hcfg, fun hkeeps => hkeeps hcr hwas hon hmode⟩
          · exact iff_of_true (writeCr_recommit h hwas hon hmode) fun _ _ _ hgcm => absurd hgcm hmode
        · exact iff_of_true (writeCr_enable (Bool.eq_false_iff.mpr hwas) hon) fun _ hen => absurd hen hwas
      · exact iff_of_true (writeCr_clear h (Bool.eq_false_iff.mpr hon)) fun _ _ hen => absurd hen hon
    · refine iff_of_true ?_ fun heq => absurd heq hcr
      rcases write_cases (A := A) p hcr v with heq | ⟨i, heq⟩ | ⟨i, heq⟩ | ⟨dmacr, imscr, heq⟩
      · exact (congrArg (v1File A).Coherent heq).mpr (h.frame rfl (Core.din_step v))
      · exact (congrArg (v1File A).Coherent heq).mpr (writeKey_coherent h i v)
      · exact (congrArg (v1File A).Coherent heq).mpr (writeIv_coherent h i v)
      · exact (congrArg (v1File A).Coherent heq).mpr (h.frame rfl ⟨rfl, id⟩)

end CrypV1

/-! ### Runs -/

namespace RegisterFile

variable {R : RegisterFile} {s : R.State}

theorem run_concat (as : List Access) (a : Access) : (R.run s (as ++ [a])).2 = (R.access (R.run s as).2 a).2 := by
  rw [R.run_append]
  cases a <;> rfl

/-- An invariant that a step keeps exactly if `P` holds of it holds in all
states of a run exactly if `P` holds of all its steps. -/
theorem run_invariant_iff {I : R.State → Prop} {P : R.State → Access → Prop}
    (hstep : ∀ s a, I s → (I (R.access s a).2 ↔ P s a)) (hs : I s) (as : List Access) :
    (∀ pre post, as = pre ++ post → I (R.run s pre).2) ↔
      ∀ pre a post, as = pre ++ a :: post → P (R.run s pre).2 a := by
  constructor
  · intro h pre a post has
    have hnext := h (pre ++ [a]) post (by rw [has, List.append_assoc, List.singleton_append])
    rw [run_concat] at hnext
    exact (hstep _ a (h pre (a :: post) has)).mp hnext
  · intro h pre
    induction pre using List.reverseRecOn with
    | nil => exact fun _ _ => hs
    | append_singleton pre a ih =>
      intro post has
      rw [List.append_assoc, List.singleton_append] at has
      rw [run_concat]
      exact (hstep _ a (ih (a :: post) has)).mpr (h pre a post has)

end RegisterFile

theorem v1_enabled {A : Aes} (p : CrypV1) : (v1File A).enabled p = CrypV1.crypen p.cr := rfl

theorem v2_enabled {A : Aes} (p : CrypV2) : (v2File A).enabled p = CrypV2.en p.cr := rfl

/-- **CR and the engine agree.** On the U5 after every run from reset; on the
H7 in all states of a run from reset exactly if every write to CR that keeps
CRYPEN set in GCM keeps the configuration. -/
theorem coherent_while_gcm_config_kept (A : Aes) :
    (∀ as : List Access, (v2File A).Coherent ((v2File A).run ({} : CrypV2) as).2) ∧
    (∀ as : List Access,
      (∀ pre post, as = pre ++ post → (v1File A).Coherent ((v1File A).run ({} : CrypV1) pre).2) ↔
        ∀ pre a post, as = pre ++ a :: post →
          CrypV1.KeepsGcmConfig ((v1File A).run ({} : CrypV1) pre).2 a) := by
  have hfresh₁ : (v1File A).Coherent ({} : CrypV1) := .of_off ((v1_enabled _).trans (by decide)) rfl
  have hfresh₂ : (v2File A).Coherent ({} : CrypV2) := .of_off ((v2_enabled _).trans (by decide)) rfl
  constructor
  · intro as
    have hall := RegisterFile.run_invariant_iff (R := v2File A) (s := ({} : CrypV2)) (I := (v2File A).Coherent)
      (P := fun _ _ => True) (fun _ a h => iff_of_true (CrypV2.access_coherent h a) trivial) hfresh₂ as
    exact hall.mpr (fun _ _ _ _ => trivial) as [] (List.append_nil as).symm
  · intro as
    exact RegisterFile.run_invariant_iff (I := (v1File A).Coherent) (fun _ a h => CrypV1.access_coherent_iff h a)
      hfresh₁ as

/-- GCM is enabled, and then ECB is written with CRYPEN kept: CR reads back
as ECB, the engine stays in GCM. -/
theorem gcm_left_with_crypen_kept :
    ((v1File zeroKeyAes).run ({} : CrypV1) [.write CrypV1.regCR 0x88000, .write CrypV1.regCR 0x8020,
        .read CrypV1.regCR]).1 = [0x8020] ∧
      (CrypV1.config 0x8020).mode = .ecb ∧
      ¬ (v1File zeroKeyAes).Coherent
        ((v1File zeroKeyAes).run ({} : CrypV1) [.write CrypV1.regCR 0x88000, .write CrypV1.regCR 0x8020]).2 := by
  refine ⟨rfl, rfl, fun h => ?_⟩
  have hmode := congrArg Config.mode (h.config rfl)
  exact absurd hmode (by decide)

end Cryp
end STM32
end Simulators
