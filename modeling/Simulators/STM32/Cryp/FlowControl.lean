/-
# STM32 CRYP: flow control on the H7

A driver of the H7 file looks at SR before it writes DIN (IFNF) or reads DOUT
(OFNE). Behind the flags is one output buffer of one block. The input buffer
is empty again as soon as a block is in it, so IFNF stays set while the output
buffer still has words, and a driver that goes on writing loses them: the
words read are those of the mode over the words written if no word completes a
block while the block before is still being read.

`Driver` is the peripheral and the last value of SR that the driver saw; a run
of it is any interleaving of looks at SR, writes and reads that this value
allows. `Along` is what holds of the engine along a run, and `outWords` are
the words of the blocks that it has taken.

Key theorem: `lossless_iff`.
-/
import Simulators.Lib.Run
import Simulators.STM32.Cryp.BlockModes
import Simulators.STM32.Cryp.Messages

namespace Simulators
namespace STM32
namespace Cryp

/-! ### The words of the mode -/

/-- The words of the blocks of the mode. -/
def outWords (A : Aes) (e : CrypEngine) (bs : List Block) : List UInt32 :=
  (modeBlocks (e.aesEncryptBlock A) (e.aesDecryptBlock A) e.mode e.direction e.iv bs).flatMap fun y =>
    e.datatype.words y.bytes

/-- What the mode makes of the whole blocks among the words written. -/
def oneShot (A : Aes) (e : CrypEngine) (ws : List UInt32) : List UInt32 :=
  outWords A e (wholeBlocks 16 (ws.flatMap e.datatype.bytes))

/-! ### The engine along a run -/

section Along

variable {A : Aes} {e₀ e : CrypEngine} {ws : List UInt32} {bs : List Block}

/-- The engine after these words, which are these blocks and what the input
buffer has, from `e₀` on. -/
structure Along (A : Aes) (e₀ : CrypEngine) (ws : List UInt32) (bs : List Block) (e : CrypEngine) : Prop where
  enabled : e.enabled = true
  config : e.config = e₀.config
  key : e.key = e₀.key
  fill : e.Fill
  words : ws.flatMap e₀.datatype.bytes = flat bs ++ e.inBuf
  short : e.inLen < 16
  iv : e.iv = scanValue (e₀.blockStep A) e₀.iv bs

namespace Along

theorem mode (h : Along A e₀ ws bs e) : e.mode = e₀.mode := congrArg Config.mode h.config

theorem keySize (h : Along A e₀ ws bs e) : e.keySize = e₀.keySize := congrArg Config.keySize h.config

theorem direction (h : Along A e₀ ws bs e) : e.direction = e₀.direction := congrArg Config.direction h.config

theorem datatype (h : Along A e₀ ws bs e) : e.datatype = e₀.datatype := congrArg Config.datatype h.config

theorem blockStep (h : Along A e₀ ws bs e) : e.blockStep A = e₀.blockStep A := by
  have hkey : e.key.bytes.take e₀.keySize.bytes = e₀.key.bytes.take e₀.keySize.bytes := by rw [h.key]
  exact (CrypEngine.blockStep_eq h.keySize hkey h.mode h.direction).trans
    (CrypEngine.blockStep_eq rfl rfl rfl rfl).symm

theorem oneShot_eq (h : Along A e₀ ws bs e) : oneShot A e₀ ws = outWords A e₀ bs := by
  rw [oneShot, h.words, wholeBlocks_flat_append h.short]

/-- The input buffer has a whole number of words. -/
theorem inLen_mod (h : Along A e₀ ws bs e) : e.inLen % 4 = 0 := by
  have hlen := e₀.datatype.flatMap_bytes_length ws
  rw [h.words, List.length_append, flat_length] at hlen
  rw [CrypEngine.inLen]
  omega

/-- A word that does not complete a block leaves the output as it is. -/
theorem put_part (h : Along A e₀ ws bs e) (hpart : e.inLen ≠ 12) (w : UInt32) :
    Along A e₀ (ws ++ [w]) bs (e.writeDin A w) ∧ (e.writeDin A w).pending = e.pending := by
  have hlt : e.inLen < 12 := by
    have := h.short
    have := h.inLen_mod
    omega
  rw [CrypEngine.writeDin_part h.enabled hlt]
  refine ⟨⟨h.enabled, h.config, h.key, h.fill, ?_, ?_, h.iv⟩, rfl⟩
  · rw [List.flatMap_append, h.words, List.flatMap_singleton, List.append_assoc, h.datatype]
  · rw [CrypEngine.inLen, List.length_append, DataType.bytes_length]
    rw [CrypEngine.inLen] at hlt
    omega

/-- The word that completes a block replaces the output. -/
theorem put_full (hmode : e₀.mode.streams = true) (h : Along A e₀ ws bs e) (hfull : e.inLen = 12) (w : UInt32) :
    ∃ b, Along A e₀ (ws ++ [w]) (bs ++ [b]) (e.writeDin A w) ∧
      outWords A e₀ (bs ++ [b]) = outWords A e₀ bs ++ (e.writeDin A w).pending ∧
      (e.writeDin A w).pending.length = 4 := by
  have hlen : (e.inBuf ++ e.datatype.bytes w).length = 16 := by
    rw [List.length_append, DataType.bytes_length]
    rw [CrypEngine.inLen] at hfull
    omega
  obtain ⟨hpending, hfill⟩ := CrypEngine.pending_stageOutput e (e.blockStep A e.iv ⟨_, hlen⟩).1
  refine ⟨⟨_, hlen⟩, ?_⟩
  rw [CrypEngine.writeDin_full h.enabled ⟨_, hlen⟩ rfl, CrypEngine.processBlock_streams (h.mode ▸ hmode)]
  refine ⟨⟨h.enabled, h.config, h.key, hfill, ?_, ?_, ?_⟩, ?_, ?_⟩
  · rw [List.flatMap_append, h.words, List.flatMap_singleton, ← h.datatype, flat, flat, List.flatMap_append]
    simp
  · exact Nat.zero_lt_succ 15
  · rw [scanValue_append_singleton, ← h.iv, ← h.blockStep]
  · rw [outWords, modeBlocks_append_singleton hmode, List.flatMap_append, List.flatMap_singleton]
    congr 1
    refine Eq.trans ?_ hpending.symm
    rw [← h.datatype, h.blockStep, h.iv]
    rfl
  · refine (congrArg List.length hpending).trans ?_
    exact e.datatype.words_length _

/-- A read takes the first word of the output. -/
theorem get_word (h : Along A e₀ ws bs e) (hword : e.outputEmpty = false) :
    Along A e₀ ws bs e.readDout.2 ∧ e.pending = e.readDout.1 :: e.readDout.2.pending := by
  obtain ⟨hpending, hfill⟩ := CrypEngine.pending_readDout h.fill hword
  refine ⟨?_, hpending⟩
  rw [CrypEngine.readDout_eq h.fill hword] at hfill ⊢
  exact ⟨h.enabled, h.config, h.key, hfill, h.words, h.short, h.iv⟩

end Along
end Along

/-! ### Drivers -/

/-- Input buffer not full, output buffer not empty. -/
def CrypV1.srIFNF : UInt32 := 0x2
def CrypV1.srOFNE : UInt32 := 0x4

theorem CrypV1.computeSr_ofne (p : CrypV1) : p.computeSr &&& srOFNE = 0 ↔ p.core.engine.outputEmpty = true := by
  unfold computeSr
  dsimp only
  generalize p.core.engine.inputEmpty = a
  generalize p.core.engine.inputFull = b
  generalize p.core.engine.outputEmpty = c
  generalize p.core.engine.outputFull = f
  cases a <;> cases b <;> cases c <;> cases f <;> decide

/-- The peripheral, and the value of SR that the driver saw last. -/
structure Driver where
  p : CrypV1
  sr : UInt32 := 0
deriving DecidableEq

inductive Act
  | poll
  | put (word : UInt32)
  | get
deriving DecidableEq, Repr

namespace Driver

def engine (d : Driver) : CrypEngine := d.p.core.engine

/-- An access; one that the last value of SR does not allow is an error of the driver. -/
def step (A : Aes) (d : Driver) : Act → Except Unit (Option UInt32 × Driver)
  | .poll => .ok (none, ⟨(d.p.read CrypV1.regSR).2, (d.p.read CrypV1.regSR).1⟩)
  | .put word =>
    if d.sr &&& CrypV1.srIFNF = 0 then .error () else .ok (none, { d with p := d.p.write A CrypV1.regDIN word })
  | .get =>
    if d.sr &&& CrypV1.srOFNE = 0 then .error ()
    else .ok (some (d.p.read CrypV1.regDOUT).1, { d with p := (d.p.read CrypV1.regDOUT).2 })

end Driver

abbrev DriverEvent := Event Driver Act (Option UInt32)

/-- The word that is written. -/
def Act.word : Act → Option UInt32
  | .put word => some word
  | .poll | .get => none

/-- The words written and the words read. -/
def written (log : List DriverEvent) : List UInt32 := log.filterMap fun e => e.input.word

def got (log : List DriverEvent) : List UInt32 := log.filterMap (·.output)

theorem written_append (l l' : List DriverEvent) : written (l ++ l') = written l ++ written l' := List.filterMap_append

theorem got_append (l l' : List DriverEvent) : got (l ++ l') = got l ++ got l' := List.filterMap_append

section Runs

variable {A : Aes} {e₀ : CrypEngine} {d d' : Driver} {a : Act} {o : Option UInt32} {past log : List DriverEvent}

/-- What an access does. -/
theorem Driver.step_cases (h : d.step A a = .ok (o, d')) :
    (a = .poll ∧ o = none ∧ d'.p = d.p ∧ d'.sr = d.p.computeSr) ∨
    (∃ word, a = .put word ∧ o = none ∧ d'.p.core = d.p.core.din A word) ∨
    (a = .get ∧ d.sr &&& CrypV1.srOFNE ≠ 0 ∧ o = some d.engine.readDout.1 ∧ d'.engine = d.engine.readDout.2) := by
  cases a with
  | poll =>
    cases h
    exact .inl ⟨rfl, rfl, rfl, rfl⟩
  | put word =>
    simp only [step] at h
    split at h
    · cases h
    · cases h
      exact .inr (.inl ⟨word, rfl, rfl, rfl⟩)
  | get =>
    simp only [step] at h
    split at h
    · cases h
    · rename_i hsr
      cases h
      exact .inr (.inr ⟨rfl, hsr, rfl, rfl⟩)

theorem din_engine {c : Core} (h : c.engine.mode.streams = true) (word : UInt32) :
    (c.din A word).engine = c.engine.writeDin A word := by
  have hmode : ¬ (c.engine.enabled = true ∧ c.engine.mode = .gcm) := by
    rintro ⟨-, hgcm⟩
    rw [hgcm] at h
    cases h
  rw [Core.din, if_neg hmode]

/-- An access that loses and invents nothing: a word that completes a block
finds the output empty, and a read does not. -/
def Kept (e : DriverEvent) : Prop :=
  match e.input with
  | .poll => True
  | .put _ => e.pre.engine.inLen = 12 → e.pre.engine.outputEmpty = true
  | .get => e.pre.engine.outputEmpty = false

/-- The words read and those that are left to read are the words of the mode. -/
def Flow (A : Aes) (e₀ : CrypEngine) (past : List DriverEvent) (d : Driver) : Prop :=
  ∃ bs, Along A e₀ (written past) bs d.engine ∧ got past ++ d.engine.pending = outWords A e₀ bs

theorem Flow.step (hmode : e₀.mode.streams = true) (h : Flow A e₀ past d) (hstep : d.step A a = .ok (o, d'))
    (hkept : Kept ⟨d, a, o⟩) : Flow A e₀ (past ++ [⟨d, a, o⟩]) d' := by
  obtain ⟨bs, halong, hwords⟩ := h
  rw [Flow, written_append, got_append]
  obtain ⟨rfl, rfl, hp, -⟩ | ⟨word, rfl, rfl, hcore⟩ | ⟨rfl, -, rfl, hengine⟩ := Driver.step_cases hstep
  · refine ⟨bs, ?_⟩
    rw [Driver.engine, hp, ← Driver.engine]
    simpa [written, got, Act.word] using And.intro halong hwords
  · have hengine : d'.engine = d.engine.writeDin A word := by
      rw [Driver.engine, hcore, din_engine (halong.mode ▸ hmode), Driver.engine]
    rw [hengine]
    by_cases hfull : d.engine.inLen = 12
    · have hempty : d.engine.outputEmpty = true := hkept hfull
      obtain ⟨b, hput, hout, -⟩ := halong.put_full hmode hfull word
      rw [CrypEngine.pending_of_empty hempty, List.append_nil] at hwords
      refine ⟨bs ++ [b], hput, ?_⟩
      rw [hout, ← hwords]
      simp [got]
    · obtain ⟨hput, hpending⟩ := halong.put_part hfull word
      refine ⟨bs, hput, ?_⟩
      rw [hpending, ← hwords]
      simp [got]
  · obtain ⟨hget, hpending⟩ := halong.get_word hkept
    rw [hengine]
    refine ⟨bs, ?_, ?_⟩
    · simpa [written, Act.word] using hget
    · rw [← hwords, hpending]
      simp [got]

/-- Idle, before the first word of a message. -/
structure CrypV1.Idle (p : CrypV1) : Prop where
  enabled : p.core.engine.enabled = true
  streams : p.core.engine.mode.streams = true
  inBuf : p.core.engine.inBuf = []
  outputEmpty : p.core.engine.outputEmpty = true

/-- So it is when CR has switched it on. -/
theorem CrypV1.idle_writeCr {p : CrypV1} {v : UInt32} (hoff : crypen p.cr = false) (hon : crypen v = true)
    (hmode : (config v).mode.streams = true) : (p.writeCr A v).Idle := by
  have hgcm : (config v).mode ≠ .gcm := by
    intro h
    rw [h] at hmode
    cases hmode
  rw [writeCr_eq, if_pos ⟨by simp [hoff], hon⟩, committed, Core.commitConfig, if_neg hgcm]
  exact ⟨rfl, hmode, rfl, rfl⟩

theorem Flow.init {p : CrypV1} (hp : p.Idle) (sr : UInt32) : Flow A p.core.engine [] ⟨p, sr⟩ := by
  have hfill : p.core.engine.Fill := by
    have hzero := of_decide_eq_true hp.outputEmpty
    exact ⟨by rw [hzero], .inl hzero⟩
  refine ⟨[], ⟨hp.enabled, rfl, rfl, hfill, ?_, ?_, rfl⟩, ?_⟩
  · exact hp.inBuf.symm
  · show p.core.engine.inBuf.length < 16
    rw [hp.inBuf]
    decide
  · show [] ++ p.core.engine.pending = _
    rw [CrypEngine.pending_of_empty hp.outputEmpty, outWords, List.nil_append, eq_comm, List.flatMap_eq_nil_iff]
    have hlen := modeBlocks_length (E := p.core.engine.aesEncryptBlock A) (D := p.core.engine.aesDecryptBlock A)
      hp.streams p.core.engine.direction p.core.engine.iv []
    rw [List.eq_nil_of_length_eq_zero hlen]
    exact fun _ h => absurd h List.not_mem_nil

theorem Flow.run {p : CrypV1} (hp : p.Idle) (h : Run (Driver.step A) ⟨p, 0⟩ log d) (hkept : ∀ e ∈ log, Kept e) :
    Flow A p.core.engine log d := by
  refine h.history (I := fun past d => (∀ e ∈ past, Kept e) → Flow A p.core.engine past d) ?_ ?_ hkept
  · intro past d a o d' ih hstep hall
    exact (ih fun e he => hall e (List.mem_append_left _ he)).step hp.streams hstep
      (hall _ (List.mem_append_right _ List.mem_cons_self))
  · exact fun _ => .init hp 0

theorem Flow.prefix_oneShot (h : Flow A e₀ past d) : got past <+: oneShot A e₀ (written past) := by
  obtain ⟨bs, halong, hwords⟩ := h
  rw [halong.oneShot_eq, ← hwords]
  exact List.prefix_append _ _

/-! ### Reading until OFNE is clear -/

/-- `k` words, each after a look at SR, and a last look. -/
def draining : ℕ → List Act
  | 0 => [.poll]
  | k + 1 => .poll :: .get :: draining k

/-- A look at SR, and the rest of the run. -/
theorem run_poll {is : List Act} (h : Run (Driver.step A) d log d') (hin : log.map (·.input) = .poll :: is) :
    ∃ rest, log = ⟨d, .poll, none⟩ :: rest ∧ rest.map (·.input) = is ∧
      Run (Driver.step A) ⟨d.p, d.p.computeSr⟩ rest d' := by
  cases h with
  | nil => cases hin
  | cons hstep hrest =>
    simp only [List.map_cons, List.cons.injEq] at hin
    obtain ⟨rfl, hin⟩ := hin
    cases hstep
    exact ⟨_, rfl, hin, hrest⟩

theorem run_get {is : List Act} (h : Run (Driver.step A) d log d') (hin : log.map (·.input) = .get :: is) :
    ∃ rest d'', log = ⟨d, .get, some d.engine.readDout.1⟩ :: rest ∧ rest.map (·.input) = is ∧
      d.sr &&& CrypV1.srOFNE ≠ 0 ∧ d''.engine = d.engine.readDout.2 ∧ Run (Driver.step A) d'' rest d' := by
  cases h with
  | nil => cases hin
  | @cons _ d'' _ _ _ rest hstep hrest =>
    simp only [List.map_cons, List.cons.injEq] at hin
    obtain ⟨rfl, hin⟩ := hin
    obtain ⟨hact, -⟩ | ⟨word, hact, -⟩ | ⟨-, hsr, rfl, hengine⟩ := Driver.step_cases hstep
    · cases hact
    · cases hact
    · exact ⟨rest, d'', rfl, hin, hsr, hengine, hrest⟩

/-- The words read are those that were left. -/
theorem drain_got : ∀ {k : ℕ} {d : Driver} {log : List DriverEvent}, d.engine.Fill → Run (Driver.step A) d log d' →
    log.map (·.input) = draining k → d'.sr &&& CrypV1.srOFNE = 0 → got log = d.engine.pending
  | 0, d, log, _, h, hin, hsr => by
    obtain ⟨rest, rfl, hrest, hrun⟩ := run_poll h hin
    rw [List.map_eq_nil_iff.mp hrest] at hrun ⊢
    cases hrun
    rw [Driver.engine, CrypEngine.pending_of_empty (d.p.computeSr_ofne.mp hsr)]
    rfl
  | k + 1, d, log, hfill, h, hin, hsr => by
    obtain ⟨rest, rfl, hrest, hrun⟩ := run_poll h hin
    obtain ⟨rest', d'', rfl, hrest', hseen, hengine, hrun'⟩ := run_get hrun hrest
    have hword : d.p.core.engine.outputEmpty = false := by
      rw [← Bool.not_eq_true, ← d.p.computeSr_ofne]
      exact hseen
    obtain ⟨hpending, hfill'⟩ := CrypEngine.pending_readDout hfill hword
    have ih := drain_got (k := k) (by rw [hengine]; exact hfill') hrun' hrest' hsr
    refine Eq.trans ?_ hpending.symm
    show d.engine.readDout.1 :: got rest' = _
    rw [ih, hengine]
    rfl

theorem exists_drain : ∀ (n : ℕ) (d : Driver), d.engine.Fill → d.engine.pending.length = n →
    ∃ (k : ℕ) (log : List DriverEvent) (d' : Driver), Run (Driver.step A) d log d' ∧ log.map (·.input) = draining k ∧
      d'.sr &&& CrypV1.srOFNE = 0
  | n, d, hfill, hlen => by
    by_cases hempty : d.p.core.engine.outputEmpty = true
    · exact ⟨0, _, _, .cons rfl (.nil _), rfl, d.p.computeSr_ofne.mpr hempty⟩
    · have hseen : ¬ d.p.computeSr &&& CrypV1.srOFNE = 0 := mt d.p.computeSr_ofne.mp hempty
      obtain ⟨hpending, hfill'⟩ := CrypEngine.pending_readDout hfill (Bool.not_eq_true _ ▸ hempty)
      cases n with
      | zero =>
        rw [hpending] at hlen
        cases hlen
      | succ n =>
        have hlen' : d.engine.readDout.2.pending.length = n := by
          rw [hpending] at hlen
          exact Nat.succ.inj hlen
        have hget : Driver.step A ⟨d.p, d.p.computeSr⟩ .get =
            .ok (some (d.p.read CrypV1.regDOUT).1, ⟨(d.p.read CrypV1.regDOUT).2, d.p.computeSr⟩) := if_neg hseen
        obtain ⟨k, log, d', hrun, hin, hsr⟩ :=
          exists_drain n ⟨(d.p.read CrypV1.regDOUT).2, d.p.computeSr⟩ hfill' hlen'
        exact ⟨k + 1, _, d', .cons rfl (.cons hget hrun), congrArg (fun is => Act.poll :: .get :: is) hin, hsr⟩

/-! ### No word is lost -/

/-- At every point of the run the words read are the first of the mode's, and
all of them once the driver reads until OFNE is clear. -/
def Lossless (A : Aes) (d₀ : Driver) (log : List DriverEvent) : Prop :=
  ∀ past rest d, log = past ++ rest → Run (Driver.step A) d₀ past d →
    got past <+: oneShot A d₀.engine (written past) ∧
      ∀ k more d', Run (Driver.step A) d more d' → more.map (·.input) = draining k → d'.sr &&& CrypV1.srOFNE = 0 →
        got (past ++ more) = oneShot A d₀.engine (written (past ++ more))

/-- The first element that does not have a property. -/
theorem exists_first_not {α : Type} {P : α → Prop} : ∀ {l : List α}, ¬ (∀ x ∈ l, P x) →
    ∃ past x rest, l = past ++ x :: rest ∧ (∀ y ∈ past, P y) ∧ ¬ P x
  | [], h => absurd (fun _ hx => absurd hx List.not_mem_nil) h
  | x :: l, h => by
    by_cases hx : P x
    · have hl : ¬ ∀ y ∈ l, P y := fun hl => h (List.forall_mem_cons.mpr ⟨hx, hl⟩)
      obtain ⟨past, y, rest, rfl, hpast, hy⟩ := exists_first_not hl
      exact ⟨x :: past, y, rest, rfl, List.forall_mem_cons.mpr ⟨hx, hpast⟩, hy⟩
    · exact ⟨[], x, l, rfl, fun _ hy => absurd hy List.not_mem_nil, hx⟩

theorem written_draining {k : ℕ} {more : List DriverEvent} (h : more.map (·.input) = draining k) :
    written more = [] := by
  have hnone : ∀ k, (draining k).filterMap Act.word = [] := by
    intro k
    induction k with
    | zero => rfl
    | succ k ih => exact ih
  have hmap : written more = (more.map (·.input)).filterMap Act.word := by
    rw [List.filterMap_map]
    rfl
  rw [hmap, h, hnone]

/-- Words that are lost do not come back. -/
theorem Flow.lost (hmode : e₀.mode.streams = true) {word : UInt32} (h : Flow A e₀ past d)
    (hstep : d.step A (.put word) = .ok (o, d')) (hfull : d.engine.inLen = 12) (hword : d.engine.outputEmpty = false) :
    d'.engine.Fill ∧ (got past).length + d'.engine.pending.length <
      (oneShot A e₀ (written (past ++ [⟨d, .put word, o⟩]))).length := by
  obtain ⟨bs, halong, hwords⟩ := h
  obtain ⟨hact, -⟩ | ⟨word', hact, rfl, hcore⟩ | ⟨hact, -⟩ := Driver.step_cases hstep
  · cases hact
  · cases hact
    have hengine : d'.engine = d.engine.writeDin A word := by
      rw [Driver.engine, hcore, din_engine (halong.mode ▸ hmode), Driver.engine]
    obtain ⟨b, hput, hout, hfour⟩ := halong.put_full hmode hfull word
    obtain ⟨-, hpending⟩ := halong.get_word hword
    have hlen := congrArg List.length hwords
    rw [hpending, List.length_append, List.length_cons] at hlen
    rw [hengine, written_append]
    refine ⟨hput.fill, ?_⟩
    have hone : oneShot A e₀ (written past ++ written [⟨d, .put word, none⟩]) = outWords A e₀ (bs ++ [b]) :=
      hput.oneShot_eq
    rw [hone, hout, List.length_append, ← hlen]
    omega
  · cases hact

/-- A read of the empty output is one word too many. -/
theorem Flow.underrun (h : Flow A e₀ past d) (hstep : d.step A .get = .ok (o, d'))
    (hempty : d.engine.outputEmpty = true) :
    (oneShot A e₀ (written (past ++ [⟨d, .get, o⟩]))).length < (got (past ++ [⟨d, .get, o⟩])).length := by
  obtain ⟨bs, halong, hwords⟩ := h
  obtain ⟨hact, -⟩ | ⟨_, hact, -⟩ | ⟨-, -, rfl, -⟩ := Driver.step_cases hstep
  · cases hact
  · cases hact
  · rw [CrypEngine.pending_of_empty hempty, List.append_nil] at hwords
    have hsame (w : Option UInt32) : written (past ++ [⟨d, .get, w⟩]) = written past := by
      rw [written_append]
      exact List.append_nil _
    rw [hsame, halong.oneShot_eq, ← hwords, got_append, List.length_append]
    exact Nat.lt_add_of_pos_right Nat.one_pos

/-- A run that keeps all words reads the words of the mode. -/
theorem lossless_of_kept {p : CrypV1} (hp : p.Idle) {log : List DriverEvent} (hkept : ∀ e ∈ log, Kept e) :
    Lossless A ⟨p, 0⟩ log := by
  intro past rest d hlog hrun
  have hflow := Flow.run hp hrun fun e he => hkept e (hlog ▸ List.mem_append_left _ he)
  refine ⟨hflow.prefix_oneShot, ?_⟩
  intro k more d' hmore hin hsr
  obtain ⟨bs, halong, hwords⟩ := hflow
  rw [got_append, drain_got halong.fill hmore hin hsr, hwords, written_append, written_draining hin, List.append_nil]
  exact halong.oneShot_eq.symm

/-- The first access that does not keep all words shows when the driver reads on. -/
theorem kept_of_lossless {p : CrypV1} (hp : p.Idle) {log : List DriverEvent} (hrun : Run (Driver.step A) ⟨p, 0⟩ log d)
    (h : Lossless A ⟨p, 0⟩ log) : ∀ e ∈ log, Kept e := by
  by_contra hnot
  obtain ⟨past, e, rest, rfl, hkept, hbad⟩ := exists_first_not hnot
  obtain ⟨next, hpast, hstep, -⟩ := hrun.mid
  obtain ⟨pre, input, output⟩ := e
  have hflow := Flow.run hp hpast hkept
  obtain ⟨hpast, hdrain⟩ := h (past ++ [⟨pre, input, output⟩]) rest next (by simp)
    (hpast.append (.cons hstep (.nil next)))
  cases input with
  | poll => exact hbad trivial
  | put word =>
    obtain ⟨hfull, hword⟩ := Classical.not_imp.mp hbad
    obtain ⟨hfill, hlost⟩ := hflow.lost hp.streams hstep hfull (Bool.not_eq_true _ ▸ hword)
    obtain ⟨k, more, d', hmore, hin, hsr⟩ := exists_drain _ next hfill rfl
    have hall := congrArg List.length (hdrain k more d' hmore hin hsr)
    have hput : got [⟨pre, .put word, output⟩] = [] := by
      obtain ⟨hact, -⟩ | ⟨_, -, hout, -⟩ | ⟨hact, -⟩ := Driver.step_cases hstep
      · cases hact
      · simp [got, show output = none from hout]
      · cases hact
    rw [got_append, got_append, hput, List.append_nil, drain_got hfill hmore hin hsr, written_append _ more,
      written_draining hin, List.append_nil, List.length_append] at hall
    exact absurd hall (Nat.ne_of_lt hlost)
  | get =>
    have hempty : pre.engine.outputEmpty = true := by simpa [Kept] using hbad
    exact absurd hpast.length_le (Nat.not_le_of_gt (hflow.underrun hstep hempty))

/-- **The flags of the H7 do not stop a driver from losing words.** For every
run of a driver that looks at SR, from an idle engine in ECB, CBC or CTR mode
with any key, IV, direction and DATATYPE, the words read are always the first
of the mode's, and all of them once OFNE is clear, if and only if no write
completes a block while words of the block before are unread, and no read
goes on after the last word on the strength of an old look at SR. -/
theorem lossless_iff (A : Aes) (p : CrypV1) (hp : p.Idle) (log : List DriverEvent) (d : Driver)
    (hrun : Run (Driver.step A) ⟨p, 0⟩ log d) : Lossless A ⟨p, 0⟩ log ↔ ∀ e ∈ log, Kept e :=
  ⟨kept_of_lossless hp hrun, lossless_of_kept hp⟩

end Runs

instance Kept.decidable : DecidablePred Kept
  | ⟨_, .poll, _⟩ => inferInstanceAs (Decidable True)
  | ⟨pre, .put _, _⟩ => inferInstanceAs (Decidable (pre.engine.inLen = 12 → pre.engine.outputEmpty = true))
  | ⟨pre, .get, _⟩ => inferInstanceAs (Decidable (pre.engine.outputEmpty = false))

/-- A run that passes a test, from its trace. -/
theorem exists_run {A : Aes} {d : Driver} {acts : List Act} {f : List DriverEvent × Driver → Bool}
    (h : (trace (Driver.step A) d acts).map f = .ok true) :
    ∃ log d', Run (Driver.step A) d log d' ∧ f (log, d') = true := by
  rcases ht : trace (Driver.step A) d acts with _ | ⟨log, d'⟩
  · rw [ht] at h
    cases h
  · rw [ht] at h
    exact ⟨log, d', run_of_trace ht, Except.ok.inj h⟩

/-- AES-128 in ECB mode, switched on after a reset. -/
def CrypV1.ecbOn : CrypV1 := ({} : CrypV1).write zeroKeyAes regCR 0x8020

theorem CrypV1.ecbOn_idle : ecbOn.Idle := ⟨by decide, by decide, by decide, by decide⟩

/-- A block in, its words out. -/
theorem one_block_lossless : ∃ log d, Run (Driver.step zeroKeyAes) ⟨CrypV1.ecbOn, 0⟩ log d ∧
    got log = [0x66e94bd4, 0xef8a2c3b, 0x884cfa59, 0xca342b2e] ∧ Lossless zeroKeyAes ⟨CrypV1.ecbOn, 0⟩ log := by
  have htrace : (trace (Driver.step zeroKeyAes) ⟨CrypV1.ecbOn, 0⟩
      ([.poll] ++ List.replicate 4 (.put 0) ++ draining 4)).map (fun r =>
        decide (got r.1 = [0x66e94bd4, 0xef8a2c3b, 0x884cfa59, 0xca342b2e]) && decide (∀ e ∈ r.1, Kept e)) =
      .ok true := by decide +kernel
  obtain ⟨log, d, hrun, htest⟩ := exists_run htrace
  rw [Bool.and_eq_true, decide_eq_true_eq, decide_eq_true_eq] at htest
  exact ⟨log, d, hrun, htest.1,
    (lossless_iff zeroKeyAes CrypV1.ecbOn CrypV1.ecbOn_idle log d hrun).mpr htest.2⟩

/-- Two blocks written before the first is read: the flags allow it, and the
words of the first block are gone. -/
theorem two_blocks_lose_one : ∃ log d, Run (Driver.step zeroKeyAes) ⟨CrypV1.ecbOn, 0⟩ log d ∧
    d.sr &&& CrypV1.srOFNE = 0 ∧ (got log).length = 4 ∧
      (oneShot zeroKeyAes CrypV1.ecbOn.core.engine (written log)).length = 8 := by
  have htrace : (trace (Driver.step zeroKeyAes) ⟨CrypV1.ecbOn, 0⟩
      ((List.replicate 8 [.poll, .put 0]).flatten ++ draining 4)).map (fun r =>
        decide (r.2.sr &&& CrypV1.srOFNE = 0) && (decide ((got r.1).length = 4) &&
          decide ((oneShot zeroKeyAes CrypV1.ecbOn.core.engine (written r.1)).length = 8))) = .ok true := by
    decide +kernel
  obtain ⟨log, d, hrun, htest⟩ := exists_run htrace
  rw [Bool.and_eq_true, Bool.and_eq_true, decide_eq_true_eq, decide_eq_true_eq, decide_eq_true_eq] at htest
  exact ⟨log, d, hrun, htest⟩

end Cryp
end STM32
end Simulators
