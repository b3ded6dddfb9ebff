/-
# STM32 CRYP: messages through the GCM phases

A driver of AES-GCM loads a key and the first counter block J0, takes CR
through the phases INIT, HEADER, PAYLOAD and FINAL, and writes four words to
DIN for each block. Between two phases it may clear the enable bit and set it
again, with any values of CR while the bit is clear.

On either register file the words it reads from DOUT are the blocks of
AES-GCM: the payload under the key stream, then the tag. A session survives
the writes to CR because a commit and a phase change keep it in every phase
but INIT (`Loaded`, `In`).

Key theorem: `gcm_whole_blocks`.
-/
import Simulators.STM32.Cryp.RegisterFile

namespace Simulators
namespace STM32
namespace Cryp

namespace RegisterFile

/-! ### The accesses of a message -/

section Script

variable (R : RegisterFile)

/-- Writes to CR, of which the last enables this configuration in this phase;
one before it does the same or leaves the enable bit clear. -/
structure Entry (cfg : Config) (ph : GcmPhase) where
  before : List UInt32
  last : UInt32
  before_ok : ∀ v ∈ before, R.enables v = true → R.config v = cfg ∧ R.gcmPhase v = ph
  last_ok : R.enables last = true ∧ R.config last = cfg ∧ R.gcmPhase last = ph

def Entry.accesses {R : RegisterFile} {cfg : Config} {ph : GcmPhase} (e : R.Entry cfg ph) : List Access :=
  (e.before ++ [e.last]).map (.write R.regCR)

/-- The writes to CR of a message. -/
structure Phases (cfg : Config) where
  init : R.Entry cfg .init
  header : R.Entry cfg .header
  payload : R.Entry cfg .payload
  final : R.Entry cfg .final

/-- The four words of a block, to DIN. -/
def push (dt : DataType) (x : Block) : List Access := (dt.words x.bytes).map (.write R.regDIN)

/-- Four words from DOUT. -/
def drain : List Access := List.replicate 4 (.read R.regDOUT)

def payloadAccesses (dt : DataType) (xs : List Block) : List Access := xs.flatMap fun x => R.push dt x ++ R.drain

/-- A whole message; the block written in the FINAL phase is not looked at. -/
def message (cfg : Config) (key : Bytes) (j0 : Block) (ph : R.Phases cfg) (aad xs : List Block) (last : Block) :
    List Access :=
  R.load cfg.keySize key j0 ++ (ph.init.accesses ++ (ph.header.accesses ++ (aad.flatMap (R.push cfg.datatype) ++
    (ph.payload.accesses ++ (R.payloadAccesses cfg.datatype xs ++ (ph.final.accesses ++
      (R.push cfg.datatype last ++ R.drain)))))))

end Script

/-! ### Where a message stands -/

variable {R : RegisterFile} {A : Aes} {cfg : Config} {key : ByteArr 32} {j0 : Block} {aad cipher : List Block}
  {s : R.State} {v : UInt32} {ph : GcmPhase}

/-- The block cipher under the first bytes of the key. -/
def cipherOf (A : Aes) (cfg : Config) (key : ByteArr 32) : Block → Block :=
  A.encrypt (key.bytes.take cfg.keySize.bytes)

theorem aesEncryptBlock_ready {c : Core} (h : c.Ready cfg key j0) :
    c.engine.aesEncryptBlock A = cipherOf A cfg key := by
  have hsize : c.engine.keySize = cfg.keySize := congrArg Config.keySize h.config
  funext block
  rw [CrypEngine.aesEncryptBlock, cipherOf, h.key, hsize]

/-- The registers hold the key and J0, and the engine, if it is on, runs the configuration. -/
structure Loaded (R : RegisterFile) (cfg : Config) (key : ByteArr 32) (j0 : Block) (s : R.State) : Prop where
  holdsKey : (R.held s).key cfg.keySize = key
  holdsIv : (R.held s).iv = j0
  ready : R.enabled s = true → (R.core s).Ready cfg key j0

/-- On, in a phase, after these blocks of AAD and of ciphertext. -/
structure In (R : RegisterFile) (A : Aes) (cfg : Config) (key : ByteArr 32) (j0 : Block) (ph : GcmPhase)
    (aad cipher : List Block) (s : R.State) : Prop extends R.Loaded cfg key j0 s where
  enabled : R.enabled s = true
  phase : (R.core s).gcm.phase = ph
  session : Session (cipherOf A cfg key) j0 aad cipher (R.core s).gcm

/-! ### Writes to CR -/

theorem Loaded.cr_on (hR : R.Lawful A) (hmode : cfg.mode = .gcm) (h : R.Loaded cfg key j0 s)
    (hon : R.enables v = true) (hcfg : R.config v = cfg) :
    (R.core (R.write s R.regCR v)).Ready cfg key j0 ∧
      (R.core (R.write s R.regCR v)).gcm =
        Core.enterPhase A (R.core (R.write s R.regCR v)).engine (R.core s).gcm (R.gcmPhase v) := by
  subst hcfg
  exact hR.cr_on s v key j0 hon hmode h.holdsKey h.holdsIv h.ready

theorem Loaded.writeCr (hR : R.Lawful A) (hmode : cfg.mode = .gcm) (h : R.Loaded cfg key j0 s)
    (hv : R.enables v = true → R.config v = cfg) : R.Loaded cfg key j0 (R.write s R.regCR v) := by
  obtain ⟨hen, hkey, hiv⟩ := hR.cr s v
  refine ⟨(congrFun hkey _).trans h.holdsKey, hiv.trans h.holdsIv, fun hon => ?_⟩
  rw [hen] at hon
  exact (h.cr_on hR hmode hon (hv hon)).1

/-- No write to CR outside of the INIT phase changes the session. -/
theorem Loaded.session_writeCr (hR : R.Lawful A) (hmode : cfg.mode = .gcm) (h : R.Loaded cfg key j0 s)
    (hs : Session (cipherOf A cfg key) j0 aad cipher (R.core s).gcm)
    (hv : R.enables v = true → R.config v = cfg ∧ R.gcmPhase v ≠ .init) :
    Session (cipherOf A cfg key) j0 aad cipher (R.core (R.write s R.regCR v)).gcm := by
  by_cases hon : R.enables v = true
  · obtain ⟨hcfg, hph⟩ := hv hon
    rw [(h.cr_on hR hmode hon hcfg).2, Core.enterPhase, if_neg hph]
    exact hs.setPhase _
  · rw [hR.cr_off s v (Bool.eq_false_iff.mpr hon)]
    exact hs

theorem enterPhase_phase (e : CrypEngine) (g : GcmSession) (ph : GcmPhase) :
    (Core.enterPhase A e g ph).phase = ph := by
  unfold Core.enterPhase
  split_ifs with h
  · rw [h]
    rfl
  · rfl

/-- The write that enables a phase other than INIT. -/
theorem Loaded.in_writeCr (hR : R.Lawful A) (hmode : cfg.mode = .gcm) (h : R.Loaded cfg key j0 s)
    (hs : Session (cipherOf A cfg key) j0 aad cipher (R.core s).gcm) (hph : ph ≠ .init)
    (hv : R.enables v = true ∧ R.config v = cfg ∧ R.gcmPhase v = ph) :
    R.In A cfg key j0 ph aad cipher (R.write s R.regCR v) := by
  obtain ⟨hon, hcfg, hphase⟩ := hv
  refine ⟨h.writeCr hR hmode fun _ => hcfg, (hR.cr s v).1.trans hon, ?_, ?_⟩
  · rw [(h.cr_on hR hmode hon hcfg).2, enterPhase_phase, hphase]
  · exact h.session_writeCr hR hmode hs fun _ => ⟨hcfg, hphase ▸ hph⟩

/-- The write that enables the INIT phase. -/
theorem Loaded.init_writeCr (hR : R.Lawful A) (hmode : cfg.mode = .gcm) (h : R.Loaded cfg key j0 s)
    (hv : R.enables v = true ∧ R.config v = cfg ∧ R.gcmPhase v = .init) :
    R.In A cfg key j0 .init [] [] (R.write s R.regCR v) := by
  obtain ⟨hon, hcfg, hphase⟩ := hv
  obtain ⟨hready, hgcm⟩ := h.cr_on hR hmode hon hcfg
  refine ⟨h.writeCr hR hmode fun _ => hcfg, (hR.cr s v).1.trans hon, ?_, ?_⟩
  · rw [hgcm, enterPhase_phase, hphase]
  · rw [hgcm, Core.enterPhase, if_pos hphase, ← aesEncryptBlock_ready (A := A) hready, ← hready.iv]
    exact Session.init A _

theorem run_writes (ws : List UInt32) (offset : UInt32) (s : R.State) :
    R.run s (ws.map (.write offset)) = ([], ws.foldl (fun s w => R.write s offset w) s) := by
  induction ws generalizing s with
  | nil => rfl
  | cons w ws ih => exact ih (R.write s offset w)

/-- What each of the writes before the last keeps. -/
theorem foldl_writeCr {P : R.State → Prop} {l : List UInt32} (hP : ∀ t, ∀ v ∈ l, P t → P (R.write t R.regCR v))
    (h : P s) : P (l.foldl (fun s w => R.write s R.regCR w) s) :=
  List.foldlRecOn l _ h fun t ht v hv => hP t v hv ht

/-- The writes to CR lead into the phase, with the session as it was. -/
theorem Entry.enters (hR : R.Lawful A) (hmode : cfg.mode = .gcm) (e : R.Entry cfg ph) (hph : ph ≠ .init)
    (h : R.Loaded cfg key j0 s) (hs : Session (cipherOf A cfg key) j0 aad cipher (R.core s).gcm) :
    ∃ t, R.run s e.accesses = ([], t) ∧ R.In A cfg key j0 ph aad cipher t := by
  have hbefore := foldl_writeCr (s := s) (l := e.before)
    (P := fun t => R.Loaded cfg key j0 t ∧ Session (cipherOf A cfg key) j0 aad cipher (R.core t).gcm)
    (fun t v hv ht => ⟨ht.1.writeCr hR hmode fun hon => (e.before_ok v hv hon).1,
      ht.1.session_writeCr hR hmode ht.2 fun hon => ⟨(e.before_ok v hv hon).1, (e.before_ok v hv hon).2 ▸ hph⟩⟩)
    ⟨h, hs⟩
  refine ⟨_, run_writes _ _ _, ?_⟩
  rw [List.foldl_append]
  exact hbefore.1.in_writeCr hR hmode hbefore.2 hph e.last_ok

theorem Entry.enters_init (hR : R.Lawful A) (hmode : cfg.mode = .gcm) (e : R.Entry cfg .init)
    (h : R.Loaded cfg key j0 s) : ∃ t, R.run s e.accesses = ([], t) ∧ R.In A cfg key j0 .init [] [] t := by
  have hbefore := foldl_writeCr (s := s) (l := e.before) (P := R.Loaded cfg key j0)
    (fun t v hv ht => ht.writeCr hR hmode fun hon => (e.before_ok v hv hon).1) h
  refine ⟨_, run_writes _ _ _, ?_⟩
  rw [List.foldl_append]
  exact hbefore.init_writeCr hR hmode e.last_ok

/-! ### Blocks -/

theorem foldl_din (hR : R.Lawful A) (ws : List UInt32) (s : R.State) :
    R.held (ws.foldl (fun s w => R.write s R.regDIN w) s) = R.held s ∧
      R.core (ws.foldl (fun s w => R.write s R.regDIN w) s) = ws.foldl (Core.din A) (R.core s) := by
  induction ws generalizing s with
  | nil => exact ⟨rfl, rfl⟩
  | cons w ws ih =>
    obtain ⟨hheld, hcore⟩ := hR.din s w
    obtain ⟨ihheld, ihcore⟩ := ih (R.write s R.regDIN w)
    exact ⟨ihheld.trans hheld, ihcore.trans (congrArg (ws.foldl (Core.din A)) hcore)⟩

theorem run_push (hR : R.Lawful A) (hmode : cfg.mode = .gcm) (h : (R.core s).Ready cfg key j0) (x : Block) :
    ∃ t, R.run s (R.push cfg.datatype x) = ([], t) ∧ R.held t = R.held s ∧ R.core t = (R.core s).gcmBlock A x := by
  have hgcm : (R.core s).engine.mode = .gcm := (congrArg Config.mode h.config).trans hmode
  have hdt : (R.core s).engine.datatype = cfg.datatype := congrArg Config.datatype h.config
  obtain ⟨hheld, hcore⟩ := foldl_din hR (cfg.datatype.words x.bytes) s
  refine ⟨_, run_writes _ _ _, hheld, hcore.trans ?_⟩
  rw [← hdt]
  exact Core.din_block h.enabled hgcm h.gcmInBuf x

theorem run_drain (hR : R.Lawful A) {c : Core} {out : Block} (h : R.core s = c.drained out 0) :
    ∃ t, R.run s R.drain = (c.engine.datatype.words out.bytes, t) ∧ R.held t = R.held s ∧
      R.core t = c.drained out 16 := by
  have hdrain := Core.drain_staged (c := c) out
  obtain ⟨h₀, e₀⟩ := hR.dout s
  obtain ⟨h₁, e₁⟩ := hR.dout (R.access s (.read R.regDOUT)).2
  obtain ⟨h₂, e₂⟩ := hR.dout (R.access (R.access s (.read R.regDOUT)).2 (.read R.regDOUT)).2
  obtain ⟨h₃, e₃⟩ :=
    hR.dout (R.access (R.access (R.access s (.read R.regDOUT)).2 (.read R.regDOUT)).2 (.read R.regDOUT)).2
  simp only [← h, Core.drain, ← e₀, ← e₁, ← e₂, ← e₃, Prod.mk.injEq] at hdrain
  exact ⟨_, Prod.ext hdrain.1 rfl, h₃.trans (h₂.trans (h₁.trans h₀)), hdrain.2⟩

/-- The registers as they were, and the engine as ready as it was. -/
theorem In.of_core {t : R.State} {aad' cipher' : List Block} (h : R.In A cfg key j0 ph aad cipher s)
    (hheld : R.held t = R.held s) (hready : (R.core t).Ready cfg key j0) (hphase : (R.core t).gcm.phase = ph)
    (hsession : Session (cipherOf A cfg key) j0 aad' cipher' (R.core t).gcm) :
    R.In A cfg key j0 ph aad' cipher' t where
  holdsKey := hheld ▸ h.holdsKey
  holdsIv := hheld ▸ h.holdsIv
  ready _ := hready
  enabled := (congrArg (fun held : Held => R.enables held.cr) hheld).trans h.enabled
  phase := hphase
  session := hsession

theorem header_block (hR : R.Lawful A) (hmode : cfg.mode = .gcm) (h : R.In A cfg key j0 .header aad [] s) (x : Block) :
    ∃ t, R.run s (R.push cfg.datatype x) = ([], t) ∧ R.In A cfg key j0 .header (aad ++ [x]) [] t := by
  have hready := h.ready h.enabled
  obtain ⟨t, hrun, hheld, hcore⟩ := run_push hR hmode hready x
  rw [Core.gcmBlock_header h.phase] at hcore
  refine ⟨t, hrun, h.of_core hheld ?_ ?_ ?_⟩
  · rw [hcore]
    exact { hready with }
  · rw [hcore]
    exact h.phase
  · rw [hcore]
    exact h.session.ingestAad x

theorem payload_block (hR : R.Lawful A) (hmode : cfg.mode = .gcm) (h : R.In A cfg key j0 .payload aad cipher s)
    (x : Block) :
    ∃ t, R.run s (R.push cfg.datatype x ++ R.drain) = (cfg.datatype.words
        (xorArr x (cipherOf A cfg key (Gcm.inc32^[cipher.length + 1] j0))).bytes, t) ∧
      R.In A cfg key j0 .payload aad
        (cipher ++ [Session.cipherBlock (cipherOf A cfg key) j0 cfg.direction cipher.length x]) t := by
  have hready := h.ready h.enabled
  have hdt : (R.core s).engine.datatype = cfg.datatype := congrArg Config.datatype hready.config
  have hdir : (R.core s).engine.direction = cfg.direction := congrArg Config.direction hready.config
  have haes := aesEncryptBlock_ready (A := A) hready
  obtain ⟨u, hpush, hheld, hcore⟩ := run_push hR hmode hready x
  rw [Core.gcmBlock_payload h.phase] at hcore
  obtain ⟨t, hdrain, hheld', hcore'⟩ := run_drain hR hcore
  have hsession := h.session
  rw [← haes] at hsession
  obtain ⟨hout, hnext⟩ := hsession.processPayload (R.core s).engine.direction x
  rw [haes, hdir] at hnext
  rw [haes] at hout
  refine ⟨t, ?_, h.of_core (hheld'.trans hheld) ?_ ?_ ?_⟩
  · rw [R.run_append, hpush, hdrain, ← hout, ← hdt]
    rfl
  · rw [hcore']
    exact { hready with }
  · rw [hcore']
    exact h.phase
  · rw [hcore', ← hdir]
    exact hdir ▸ hnext

theorem header_blocks (hR : R.Lawful A) (hmode : cfg.mode = .gcm) (h : R.In A cfg key j0 .header [] [] s)
    (aad : List Block) :
    ∃ t, R.run s (aad.flatMap (R.push cfg.datatype)) = ([], t) ∧ R.In A cfg key j0 .header aad [] t := by
  induction aad using List.reverseRecOn with
  | nil => exact ⟨s, rfl, h⟩
  | append_singleton aad x ih =>
    obtain ⟨u, hrun, hu⟩ := ih
    obtain ⟨t, hrun', ht⟩ := header_block hR hmode hu x
    refine ⟨t, ?_, ht⟩
    rw [List.flatMap_append, List.flatMap_singleton, R.run_append, hrun, hrun']
    rfl

/-- What the tag is computed over. -/
def cipherText (E : Block → Block) (j0 : Block) (dir : Direction) (xs : List Block) : List Block :=
  match dir with
  | .encrypt => Gcm.gctr E j0 xs
  | .decrypt => xs

theorem cipherText_append (E : Block → Block) (dir : Direction) (xs : List Block) (x : Block) :
    cipherText E j0 dir (xs ++ [x]) = cipherText E j0 dir xs ++ [Session.cipherBlock E j0 dir xs.length x] := by
  cases dir with
  | encrypt => exact Gcm.gctr_append E j0 xs x
  | decrypt => rfl

theorem cipherText_length (E : Block → Block) (dir : Direction) (xs : List Block) :
    (cipherText E j0 dir xs).length = xs.length := by
  cases dir with
  | encrypt => exact Gcm.gctr_length E j0 xs
  | decrypt => rfl

theorem payload_blocks (hR : R.Lawful A) (hmode : cfg.mode = .gcm) (h : R.In A cfg key j0 .payload aad [] s)
    (xs : List Block) :
    ∃ t, R.run s (R.payloadAccesses cfg.datatype xs) =
        ((Gcm.gctr (cipherOf A cfg key) j0 xs).flatMap fun y => cfg.datatype.words y.bytes, t) ∧
      R.In A cfg key j0 .payload aad (cipherText (cipherOf A cfg key) j0 cfg.direction xs) t := by
  induction xs using List.reverseRecOn with
  | nil =>
    refine ⟨s, rfl, ?_⟩
    have hnil : cipherText (cipherOf A cfg key) j0 cfg.direction [] = [] := by cases cfg.direction <;> rfl
    rw [hnil]
    exact h
  | append_singleton xs x ih =>
    obtain ⟨u, hrun, hu⟩ := ih
    obtain ⟨t, hrun', ht⟩ := payload_block hR hmode hu x
    rw [cipherText_length] at hrun' ht
    refine ⟨t, ?_, cipherText_append _ _ xs x ▸ ht⟩
    have happend : R.payloadAccesses cfg.datatype (xs ++ [x]) =
        R.payloadAccesses cfg.datatype xs ++ (R.push cfg.datatype x ++ R.drain) := by
      rw [payloadAccesses, List.flatMap_append, List.flatMap_singleton]
      rfl
    rw [happend, R.run_append, hrun, hrun', Gcm.gctr_append, List.flatMap_append, List.flatMap_singleton]

theorem final_block (hR : R.Lawful A) (hmode : cfg.mode = .gcm) (h : R.In A cfg key j0 .final aad cipher s)
    (last : Block) :
    (R.run s (R.push cfg.datatype last ++ R.drain)).1 =
      cfg.datatype.words (Gcm.tag (cipherOf A cfg key) j0 aad cipher).bytes := by
  have hready := h.ready h.enabled
  have hdt : (R.core s).engine.datatype = cfg.datatype := congrArg Config.datatype hready.config
  obtain ⟨u, hpush, -, hcore⟩ := run_push hR hmode hready last
  rw [Core.gcmBlock_final h.phase] at hcore
  obtain ⟨t, hdrain, -, -⟩ := run_drain hR hcore
  rw [R.run_append, hpush, hdrain, h.session.finalise, ← hdt]
  rfl

/-! ### A message -/

theorem run_message (hR : R.Lawful A) {s : R.State} (hoff : R.enabled s = false) (cfg : Config)
    (hmode : cfg.mode = .gcm) (key : ByteArr cfg.keySize.bytes) (j0 : Block) (ph : R.Phases cfg) (aad xs : List Block)
    (last : Block) :
    (R.run s (R.message cfg key.bytes j0 ph aad xs last)).1 =
      (Gcm.gctr (A.encrypt key.bytes) j0 xs ++
        [Gcm.tag (A.encrypt key.bytes) j0 aad (cipherText (A.encrypt key.bytes) j0 cfg.direction xs)]).flatMap
          fun y => cfg.datatype.words y.bytes := by
  have hsize : cfg.keySize ∈ R.keySizes := by
    have := hR.config_keySize ph.init.last
    rwa [ph.init.last_ok.2.1] at this
  obtain ⟨hreads, hoff₀, hkey, hiv⟩ := hR.load s cfg.keySize key j0 hsize hoff
  have hloaded : R.Loaded cfg ((R.held (R.run s (R.load cfg.keySize key.bytes j0)).2).key cfg.keySize) j0
      (R.run s (R.load cfg.keySize key.bytes j0)).2 :=
    ⟨rfl, hiv, fun hon => absurd (hoff₀.symm.trans hon) Bool.false_ne_true⟩
  have hE : cipherOf A cfg ((R.held (R.run s (R.load cfg.keySize key.bytes j0)).2).key cfg.keySize) =
      A.encrypt key.bytes := congrArg A.encrypt hkey
  obtain ⟨s₁, hrun₁, h₁⟩ := ph.init.enters_init hR hmode hloaded
  obtain ⟨s₂, hrun₂, h₂⟩ := ph.header.enters hR hmode (by decide) h₁.toLoaded h₁.session
  obtain ⟨s₃, hrun₃, h₃⟩ := header_blocks hR hmode h₂ aad
  obtain ⟨s₄, hrun₄, h₄⟩ := ph.payload.enters hR hmode (by decide) h₃.toLoaded h₃.session
  obtain ⟨s₅, hrun₅, h₅⟩ := payload_blocks hR hmode h₄ xs
  obtain ⟨s₆, hrun₆, h₆⟩ := ph.final.enters hR hmode (by decide) h₅.toLoaded h₅.session
  have hfinal := final_block hR hmode h₆ last
  rw [hE] at hrun₅ hfinal
  simp only [R.run_append] at hfinal
  simp only [message, R.run_append, hreads, hrun₁, hrun₂, hrun₃, hrun₄, hrun₅, hrun₆, List.nil_append]
  rw [hfinal, List.flatMap_append, List.flatMap_singleton]

end RegisterFile

/-! ### Both register files -/

inductive Revision
  | v1
  | v2
deriving DecidableEq, Repr

namespace Revision

def file (A : Aes) : Revision → RegisterFile
  | .v1 => v1File A
  | .v2 => v2File A

theorem lawful (A : Aes) : ∀ r : Revision, (r.file A).Lawful A
  | .v1 => v1_lawful A
  | .v2 => v2_lawful A

end Revision

def dataTypeBits : DataType → UInt32
  | .word => 0
  | .halfword => 1
  | .byte => 2
  | .bit => 3

def phaseBits : GcmPhase → UInt32
  | .init => 0
  | .header => 1
  | .payload => 2
  | .final => 3

def directionBits : Direction → UInt32
  | .encrypt => 0
  | .decrypt => 1

def keySizeBits : KeySize → UInt32
  | .k128 => 0
  | .k192 => 1
  | .k256 => 2

/-- CR of the H7 for GCM, enabled. -/
def CrypV1.gcmCr (size : KeySize) (dir : Direction) (dt : DataType) (ph : GcmPhase) : UInt32 :=
  (0x88000 : UInt32) ||| (directionBits dir <<< 2) ||| (dataTypeBits dt <<< 6) ||| (keySizeBits size <<< 8) |||
    (phaseBits ph <<< 16)

theorem CrypV1.gcmCr_ok (size : KeySize) (dir : Direction) (dt : DataType) (ph : GcmPhase) :
    crypen (gcmCr size dir dt ph) = true ∧ config (gcmCr size dir dt ph) = ⟨size, .gcm, dir, dt⟩ ∧
      gcmPhase (gcmCr size dir dt ph) = ph := by
  cases size <;> cases dir <;> cases dt <;> cases ph <;> decide

/-- CR of the U5 for GCM, enabled. -/
def CrypV2.gcmCr (size : KeySize) (dir : Direction) (dt : DataType) (ph : GcmPhase) : UInt32 :=
  (0x61 : UInt32) ||| (directionBits dir <<< 4) ||| (dataTypeBits dt <<< 1) ||| (keySizeBits size <<< 17) |||
    (phaseBits ph <<< 13)

theorem CrypV2.gcmCr_ok {size : KeySize} (hsize : size ≠ .k192) (dir : Direction) (dt : DataType) (ph : GcmPhase) :
    en (gcmCr size dir dt ph) = true ∧ config (gcmCr size dir dt ph) = ⟨size, .gcm, dir, dt⟩ ∧
      gcmPhase (gcmCr size dir dt ph) = ph := by
  cases size with
  | k128 => cases dir <;> cases dt <;> cases ph <;> decide
  | k192 => exact absurd rfl hsize
  | k256 => cases dir <;> cases dt <;> cases ph <;> decide

/-- One write to CR for each phase. -/
def RegisterFile.Phases.single {R : RegisterFile} {cfg : Config} (cr : GcmPhase → UInt32)
    (h : ∀ ph, R.enables (cr ph) = true ∧ R.config (cr ph) = cfg ∧ R.gcmPhase (cr ph) = ph) : R.Phases cfg where
  init := ⟨[], cr .init, by simp, h .init⟩
  header := ⟨[], cr .header, by simp, h .header⟩
  payload := ⟨[], cr .payload, by simp, h .payload⟩
  final := ⟨[], cr .final, by simp, h .final⟩

theorem Revision.phases_nonempty {A : Aes} {size : KeySize} : ∀ {r : Revision}, size ∈ (r.file A).keySizes →
    ∀ dir dt, Nonempty ((r.file A).Phases ⟨size, .gcm, dir, dt⟩)
  | .v1, _, dir, dt => ⟨.single (CrypV1.gcmCr size dir dt) (CrypV1.gcmCr_ok size dir dt)⟩
  | .v2, h, dir, dt => by
    have hsize : size ≠ .k192 := by
      rintro rfl
      exact absurd (show KeySize.k192 ∈ [KeySize.k128, .k256] from h) (by decide)
    exact ⟨.single (CrypV2.gcmCr size dir dt) (CrypV2.gcmCr_ok hsize dir dt)⟩

/-- **Both register files compute AES-GCM.** For every key size that the file
has and every DATATYPE there are writes to CR that take a message through the
phases; whatever these are, the words read are the payload under the key
stream and then the tag; and a decryption of what an encryption put out, on
either file, gives the payload back, and the same tag. -/
theorem gcm_whole_blocks (A : Aes) {size : KeySize} (key : ByteArr size.bytes) (j0 : Block) (aad xs : List Block) :
    (∀ r : Revision, size ∈ (r.file A).keySizes →
      ∀ dir dt, Nonempty ((r.file A).Phases ⟨size, .gcm, dir, dt⟩)) ∧
    (∀ (r : Revision) (s : (r.file A).State), (r.file A).enabled s = false → ∀ dir dt
      (ph : (r.file A).Phases ⟨size, .gcm, dir, dt⟩) (last : Block),
      ((r.file A).run s ((r.file A).message ⟨size, .gcm, dir, dt⟩ key.bytes j0 ph aad xs last)).1 =
        (Gcm.gctr (A.encrypt key.bytes) j0 xs ++ [Gcm.tag (A.encrypt key.bytes) j0 aad
          (RegisterFile.cipherText (A.encrypt key.bytes) j0 dir xs)]).flatMap fun y => dt.words y.bytes) ∧
    (∀ (r r' : Revision) (s : (r.file A).State) (s' : (r'.file A).State), (r.file A).enabled s = false →
      (r'.file A).enabled s' = false → ∀ dt dt' (ph : (r.file A).Phases ⟨size, .gcm, .encrypt, dt⟩)
      (ph' : (r'.file A).Phases ⟨size, .gcm, .decrypt, dt'⟩) (last last' : Block),
      ∃ (out : List Block) (tag : Block), out.length = xs.length ∧
        ((r.file A).run s ((r.file A).message ⟨size, .gcm, .encrypt, dt⟩ key.bytes j0 ph aad xs last)).1 =
          (out ++ [tag]).flatMap (fun y => dt.words y.bytes) ∧
        ((r'.file A).run s' ((r'.file A).message ⟨size, .gcm, .decrypt, dt'⟩ key.bytes j0 ph' aad out last')).1 =
          (xs ++ [tag]).flatMap fun y => dt'.words y.bytes) := by
  have hrun {r : Revision} {s : (r.file A).State} (hoff : (r.file A).enabled s = false) {dir : Direction}
      {dt : DataType} (ph : (r.file A).Phases ⟨size, .gcm, dir, dt⟩) (ys : List Block) (last : Block) :=
    RegisterFile.run_message (r.lawful A) hoff ⟨size, .gcm, dir, dt⟩ rfl key j0 ph aad ys last
  refine ⟨fun r hsize dir dt => Revision.phases_nonempty hsize dir dt, ?_, ?_⟩
  · intro r s hoff dir dt ph last
    exact hrun hoff ph xs last
  · intro r r' s s' hoff hoff' dt dt' ph ph' last last'
    refine ⟨_, _, Gcm.gctr_length _ j0 xs, hrun hoff ph xs last, ?_⟩
    have hdecrypt := hrun hoff' ph' (Gcm.gctr (A.encrypt key.bytes) j0 xs) last'
    rw [Gcm.gctr_gctr] at hdecrypt
    exact hdecrypt

/-- The block of four words. -/
def blockOf (w₀ w₁ w₂ w₃ : UInt32) : Block :=
  ⟨beBytes w₀ ++ beBytes w₁ ++ beBytes w₂ ++ beBytes w₃, by simp [beBytes_length]⟩

/-- AES under the zero key, on the three blocks that a one-block message with
a zero nonce needs. -/
def zeroKeyAes : Aes where
  encrypt key b :=
    if key ≠ List.replicate 16 0 then b
    else if b = blockOf 0 0 0 0 then blockOf 0x66e94bd4 0xef8a2c3b 0x884cfa59 0xca342b2e
    else if b = blockOf 0 0 0 1 then blockOf 0x58e2fcce 0xfa7e3061 0x367f1d57 0xa4e7455a
    else if b = blockOf 0 0 0 2 then blockOf 0x0388dace 0x60b6a392 0xf328c2b9 0x71b2fe78
    else b
  decrypt _ b := b

/-- The known answer for one zero block under the zero key. -/
theorem gcm_zero_block :
    ((v1File zeroKeyAes).run ({} : CrypV1) ((v1File zeroKeyAes).message ⟨.k128, .gcm, .encrypt, .word⟩
      (zeroArr 16).bytes (blockOf 0 0 0 1)
      (.single (CrypV1.gcmCr .k128 .encrypt .word) (CrypV1.gcmCr_ok .k128 .encrypt .word)) [] [zeroArr 16]
      (blockOf 0 0 0 0x80))).1 =
      [0x0388dace, 0x60b6a392, 0xf328c2b9, 0x71b2fe78, 0xab6e47d4, 0x2cec13bd, 0xf53a67b2, 0x1257bddf] :=
  ((@gcm_whole_blocks zeroKeyAes .k128 (zeroArr 16) (blockOf 0 0 0 1) [] [zeroArr 16]).2.1 .v1 ({} : CrypV1)
    rfl .encrypt .word (.single (CrypV1.gcmCr .k128 .encrypt .word) (CrypV1.gcmCr_ok .k128 .encrypt .word))
    (blockOf 0 0 0 0x80)).trans (by decide +kernel)

end Cryp
end STM32
end Simulators
