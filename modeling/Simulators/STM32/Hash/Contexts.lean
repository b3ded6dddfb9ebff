/-
# STM32 HASH: several contexts

Firmware shares one peripheral between contexts: it starts a context, feeds it,
saves its registers, lets another one go on and restores them later. `Board` is
the peripheral with the firmware's copies of the registers, `Own` a context by
itself, without a peripheral.

The snapshot is kept inside of the peripheral, and whether a CR write starts or
restores is guessed from the STR writes before it. `Trail` is what firmware
would have to watch for the guess to be right: the context that was saved last
since the last start, and whether anything was restored or finished after that
start. Runs that do (`Honest`) keep the contexts apart; two contexts that take
turns do not.

Key theorems: `step_inv`, `shared_digests`, `contexts_do_not_interfere`.
-/
import Simulators.Lib.Bits
import Simulators.STM32.Hash.Messages

namespace Simulators
namespace STM32
namespace Hash

open HashV1

variable {D : Hashers} {layout : AlgoLayout}

/-! ### The firmware's side -/

/-- What firmware reads in a save. -/
structure SavedRegs where
  cr : UInt32
  str : UInt32
  imr : UInt32
  csr : List UInt32
deriving DecidableEq

/-- What firmware does for a context; NBLW is in the word of `dcal`. -/
inductive Op
  | start (c : ℕ) (cr str : UInt32)
  | feed (c : ℕ) (w : UInt32)
  | save (c : ℕ)
  | restore (c : ℕ)
  | dcal (c : ℕ) (str : UInt32)
deriving DecidableEq

def Op.ctx : Op → ℕ
  | .start c _ _ => c
  | .feed c _ => c
  | .save c => c
  | .restore c => c
  | .dcal c _ => c

def csrOffset (i : ℕ) : UInt32 := csrBase + 4 * UInt32.ofNat i

/-- CR, STR, IMR and CSR[0..53]. -/
def saveReads : List Access :=
  [.read regCR, .read regSTR, .read regIMR] ++ (List.range 54).map fun i => .read (csrOffset i)

/-- IMR, STR, CR with INIT and the CSR words. -/
def SavedRegs.writes (r : SavedRegs) : List Access :=
  [.write regIMR r.imr, .write regSTR r.str, .write regCR (r.cr ||| crINIT)] ++
    (List.range 54).map fun i => .write (csrOffset i) ((r.csr[i]?).getD 0)

/-- All words of HR. -/
def hrReads : List Access := (List.range 16).map fun i => .read (hrExtBase + 4 * UInt32.ofNat i)

structure Board (D : Hashers) where
  p : HashV1 D
  store : ℕ → Option SavedRegs

/-- DCAL reads the result registers. -/
def Board.step (b : Board D) : Op → List UInt32 × Board D
  | .start _ cr str => ([], { b with p := b.p.run [.write regCR (cr ||| crINIT), .write regSTR str] })
  | .feed _ w => ([], { b with p := b.p.run [.write regDIN w] })
  | .save c =>
    match outputs HashV1.access b.p saveReads with
    | (cr :: str :: imr :: csr, p) => ([], ⟨p, Function.update b.store c (some ⟨cr, str, imr, csr⟩)⟩)
    | (_, p) => ([], ⟨p, b.store⟩)
  | .restore c =>
    match b.store c with
    | some r => ([], { b with p := b.p.run r.writes })
    | none => ([], b)
  | .dcal _ str =>
    let (words, p) := outputs HashV1.access (b.p.run [.write regSTR (str ||| strDCAL)]) hrReads
    (words, { b with p := p })

/-! ### A context by itself -/

/-- `clean` says that nothing happened since its last save. -/
structure Own where
  started : Bool := false
  cur : Option Cursor := none
  saved : Option Cursor := none
  clean : Bool := false

/-- The result registers. -/
def hrWords (d : Option Bytes) : List UInt32 :=
  (List.range 16).map fun i => (d.bind fun d => (digestWords d)[i]?).getD 0

def Own.step (D : Hashers) (layout : AlgoLayout) (o : Own) : Op → List UInt32 × Own
  | .start _ cr _ =>
    ([], { started := true, cur := some (Cursor.start layout ((cr ||| crINIT) &&& ~~~crINIT)) })
  | .feed _ w => ([], { o with cur := o.cur.map (·.push w), clean := false })
  | .save _ => ([], { o with saved := o.cur, clean := true })
  | .restore _ => ([], { o with cur := o.saved, clean := false })
  | .dcal _ str =>
    match o.cur with
    | some k =>
      let next := k.dcal D (validBytes (str ||| strDCAL))
      (hrWords next.getRight?, { o with cur := next.getLeft?, clean := false })
    | none => (hrWords none, o)

/-- All contexts, and the one in the peripheral. -/
structure Table where
  owns : ℕ → Own := fun _ => {}
  loaded : Option ℕ := none

def Table.step (D : Hashers) (layout : AlgoLayout) (t : Table) (op : Op) : List UInt32 × Table :=
  let (words, own) := (t.owns op.ctx).step D layout op
  (words,
    { owns := Function.update t.owns op.ctx own
      loaded := if own.cur.isSome then some op.ctx else none })

/-- Nothing in the peripheral would be lost. -/
def Table.Free (t : Table) : Prop :=
  match t.loaded with
  | none => True
  | some d => (t.owns d).clean = true

/-- The documented protocol. -/
def Allowed (t : Table) : Op → Prop
  | .start c _ str => (t.owns c).started = false ∧ t.Free ∧ str &&& strDCAL = 0
  | .feed c _ => t.loaded = some c
  | .save c => t.loaded = some c
  | .restore c => (t.owns c).saved.isSome = true ∧ t.Free
  | .dcal c _ => t.loaded = some c

/-- Every operation is allowed where it stands. -/
def Protocol (D : Hashers) (layout : AlgoLayout) : Table → List Op → Prop
  | _, [] => True
  | t, op :: ops => Allowed t op ∧ Protocol D layout (t.step D layout op).2 ops

/-! ### What the peripheral relies on -/

/-- Whose save is the last one since the last start, and whether nothing was
restored and no DCAL written since that start. -/
structure Trail where
  owner : Option ℕ := none
  opened : Bool := false

def Trail.step (tr : Trail) : Op → Trail
  | .start _ _ _ => ⟨none, true⟩
  | .feed _ _ => tr
  | .save c => { tr with owner := some c }
  | .restore _ => { tr with opened := false }
  | .dcal _ _ => { tr with opened := false }

/-- A start is taken for a restore if a save came after the start before it;
a restore brings back the last save. -/
def Meets (tr : Trail) : Op → Prop
  | .start _ _ _ => ¬ (tr.opened = true ∧ tr.owner.isSome = true)
  | .restore c => tr.owner = some c
  | _ => True

def Honest : Trail → List Op → Prop
  | _, [] => True
  | tr, op :: ops => Meets tr op ∧ Honest (tr.step op) ops

/-! ### Operations on the peripheral -/

section Ops

variable {p : HashV1 D} {k : Cursor}

theorem or_init_ne (v : UInt32) : (v ||| crINIT) &&& crINIT ≠ 0 := by
  rw [or_and_self]
  decide

theorem or_dcal_ne (v : UInt32) : (v ||| strDCAL) &&& strDCAL ≠ 0 := by
  rw [or_and_self]
  decide

/-- STR without DCAL. -/
theorem access_str {str : UInt32} (h : str &&& strDCAL = 0) (p : HashV1 D) :
    (p.access (.write regSTR str)).2 = { p with strReg := str, strWrittenSinceCr := true } :=
  if_neg fun hboth => hboth.2 h

theorem run_start {str : UInt32} (hfresh : p.strWrittenSinceCr = false ∨ p.engine.savedHasher = none)
    (hstr : str &&& strDCAL = 0) (cr : UInt32) :
    let q := p.run [.write regCR (cr ||| crINIT), .write regSTR str]
    q.At (Cursor.start p.layout ((cr ||| crINIT) &&& ~~~crINIT)) ∧ q.engine.savedHasher = none ∧
      q.strWrittenSinceCr = true := by
  obtain ⟨hat, hnone⟩ := writeCr_starts hfresh (or_init_ne cr)
  simp only [run_cons, run_nil, access_str hstr]
  exact ⟨hat.of_same ⟨rfl, rfl, rfl, rfl⟩, hnone, trivial⟩

theorem run_feed (w : UInt32) : (p.run [.write regDIN w]).engine.kept = p.engine.kept ∧
    (p.run [.write regDIN w]).savedPending = p.savedPending ∧
    (p.run [.write regDIN w]).strWrittenSinceCr = p.strWrittenSinceCr := by
  show (p.writeDin w).engine.kept = _ ∧ (p.writeDin w).savedPending = _ ∧ (p.writeDin w).strWrittenSinceCr = _
  unfold writeDin
  split
  · exact ⟨Engine.feedWord_kept _ _ _, rfl, rfl⟩
  · exact ⟨rfl, rfl, rfl⟩

/-- Reads that take no snapshot. -/
theorem outputs_reads : ∀ {offsets : List UInt32}, (∀ offset ∈ offsets, NoSave offset) → ∀ p : HashV1 D,
    outputs HashV1.access p (offsets.map .read) = (offsets.map fun offset => (p.read offset).1, p)
  | [], _, _ => rfl
  | offset :: offsets, h, p => by
    have heq : (p.access (.read offset)).2 = p := read_eq_self (h offset List.mem_cons_self)
    rw [List.map_cons, outputs, heq, outputs_reads (fun o ho => h o (List.mem_cons_of_mem _ ho)) p]
    rfl

theorem csrOffset_noSave : ∀ i < 53, NoSave (csrOffset (i + 1)) := by
  unfold NoSave
  decide

theorem hrExt_noSave : ∀ i < 16, NoSave (hrExtBase + 4 * UInt32.ofNat i) := by
  unfold NoSave
  decide

theorem csrOffset_ne : ∀ i < 54, csrOffset i ≠ regCR ∧ csrOffset i ≠ regDIN ∧ csrOffset i ≠ regSTR := by decide

theorem saveReads_eq : saveReads = .read regCR :: .read regSTR :: .read regIMR :: .read csrBase ::
    ((List.range 53).map fun i => csrOffset (i + 1)).map .read := by
  rw [saveReads, List.range_succ_eq_map, List.map_cons, List.map_map, List.map_map]
  rfl

/-- A save takes the snapshot, and changes nothing else. -/
theorem outputs_save (p : HashV1 D) : ∃ csr,
    outputs HashV1.access p saveReads = (p.cr :: p.strReg :: p.imr :: csr, (p.readCsr 0).2) := by
  have hrest : ∀ offset ∈ (List.range 53).map fun i => csrOffset (i + 1), NoSave offset := by
    intro offset ho
    obtain ⟨i, hi, rfl⟩ := List.mem_map.mp ho
    exact csrOffset_noSave i (List.mem_range.mp hi)
  have hcsr : p.access (.read csrBase) = p.readCsr 0 := rfl
  have hregs : p.access (.read regCR) = (p.cr, p) ∧ p.access (.read regSTR) = (p.strReg, p) ∧
      p.access (.read regIMR) = (p.imr, p) := ⟨rfl, rfl, rfl⟩
  simp only [saveReads_eq, outputs, hregs, hcsr, outputs_reads hrest]
  exact ⟨_, rfl⟩

theorem run_restore {r : SavedRegs} (h : p.SavedAt k) (hr : r.str &&& strDCAL = 0) :
    (p.run r.writes).At k ∧ (p.run r.writes).SavedAt k ∧ (p.run r.writes).strWrittenSinceCr = false := by
  have himr : Same p (p.access (.write regIMR r.imr)).2 := ⟨rfl, rfl, rfl, rfl⟩
  simp only [SavedRegs.writes, run_append, run_cons, run_nil, access_str hr]
  obtain ⟨hat, hsaved⟩ := writeCr_restores
    (p := { (p.access (.write regIMR r.imr)).2 with strReg := r.str, strWrittenSinceCr := true })
    ((h.of_same himr).of_same ⟨rfl, rfl, rfl, rfl⟩) rfl (or_init_ne r.cr)
  have hclear : ∀ (q : HashV1 D) (value : UInt32), (q.writeCr value).strWrittenSinceCr = false := by
    intro q value
    unfold writeCr
    dsimp only
    split
    · split <;> rfl
    · rfl
  refine run_induction (P := fun q => q.At k ∧ q.SavedAt k ∧ q.strWrittenSinceCr = false)
    ⟨hat, hsaved, hclear _ _⟩ fun q hq a ha => ?_
  obtain ⟨i, hi, rfl⟩ := List.mem_map.mp ha
  have hbetween : Between (.write (csrOffset i) ((r.csr[i]?).getD 0)) := csrOffset_ne i (List.mem_range.mp hi)
  obtain ⟨hs, hw⟩ := access_between hbetween q
  exact ⟨hq.1.of_same hs, hq.2.1.of_same hs, hw.trans hq.2.2⟩

/-- DCAL, and what can then be read. -/
theorem run_dcal (h : p.At k) (hq : p.Quiet) (str : UInt32) :
    let q := p.run [.write regSTR (str ||| strDCAL)]
    outputs HashV1.access q hrReads = (hrWords (k.dcal D (validBytes (str ||| strDCAL))).getRight?, q) ∧
      q.Stands (k.dcal D (validBytes (str ||| strDCAL))) ∧ q.engine.kept = p.engine.kept ∧
      q.savedPending = p.savedPending ∧ q.strWrittenSinceCr = false := by
  intro q
  have hv := or_dcal_ne str
  have hstands : q.Stands _ := writeStr_at h hq hv
  have hnosave : ∀ offset ∈ (List.range 16).map fun i => hrExtBase + 4 * UInt32.ofNat i, NoSave offset := by
    intro offset ho
    obtain ⟨i, hi, rfl⟩ := List.mem_map.mp ho
    exact hrExt_noSave i (List.mem_range.mp hi)
  have hreads : hrReads = ((List.range 16).map fun i => hrExtBase + 4 * UInt32.ofNat i).map .read := by
    rw [List.map_map]
    rfl
  have hframe : q.engine.kept = p.engine.kept ∧ q.savedPending = p.savedPending ∧ q.strWrittenSinceCr = false := by
    show (p.writeStr (str ||| strDCAL)).engine.kept = _ ∧ (p.writeStr (str ||| strDCAL)).savedPending = _ ∧
      (p.writeStr (str ||| strDCAL)).strWrittenSinceCr = false
    rw [writeStr, if_pos ⟨hq, hv⟩]
    refine ⟨?_, rfl, rfl⟩
    rw [Engine.finalize_kept]
    split
    · exact Engine.feedWord_kept _ _ _
    · rfl
  refine ⟨?_, hstands, hframe⟩
  rw [hreads, outputs_reads hnosave, List.map_map, hrWords]
  congr 1
  refine List.map_congr_left fun i hi => ?_
  have hlt := List.mem_range.mp hi
  rw [Function.comp_apply, read_hrExt q hlt, readHr]
  rcases hnext : k.dcal D (validBytes (str ||| strDCAL)) with k' | d
  · rw [hnext] at hstands
    have hat : q.At k' := hstands
    rw [hat.has.running]
    rfl
  · rw [hnext] at hstands
    have hdone : q.engine.Done d := hstands
    rw [if_pos hdone.finalised]
    exact hdone.result i hlt

end Ops

/-! ### The peripheral and the contexts -/

/-- The loaded context is in the peripheral, and the snapshot is the last save. -/
structure Inv (layout : AlgoLayout) (t : Table) (tr : Trail) (b : Board D) : Prop where
  quiet : b.p.Quiet
  layout : b.p.layout = layout
  loaded : ∀ c, t.loaded = some c → ∃ k, (t.owns c).cur = some k ∧ b.p.At k
  owner : ∀ c, tr.owner = some c → ∃ k, (t.owns c).saved = some k ∧ b.p.SavedAt k
  noOwner : tr.owner = none → b.p.engine.savedHasher = none
  opened : b.p.strWrittenSinceCr = tr.opened
  store : ∀ c, (t.owns c).saved.isSome = true → ∃ r, b.store c = some r ∧ r.str &&& strDCAL = 0

section Step

variable {t : Table} {tr : Trail} {b : Board D}

/-- An operation on the loaded context that leaves the snapshot alone. -/
theorem Inv.of_kept (hI : Inv layout t tr b) {c : ℕ} {own : Own} {q : HashV1 D} {opened : Bool} (hq : q.Quiet)
    (hl : q.layout = b.p.layout) (hcur : ∀ k, own.cur = some k → q.At k) (hsaved : own.saved = (t.owns c).saved)
    (hkept : q.engine.kept = b.p.engine.kept) (hpend : q.savedPending = b.p.savedPending)
    (hw : q.strWrittenSinceCr = opened) :
    Inv layout { owns := Function.update t.owns c own, loaded := if own.cur.isSome then some c else none }
      { tr with opened := opened } { b with p := q } where
  quiet := hq
  layout := hl.trans hI.layout
  loaded := by
    intro c' hc'
    rcases hown : own.cur with _ | k
    · simp [hown] at hc'
    · simp only [hown, Option.isSome_some, if_true, Option.some.injEq] at hc'
      subst hc'
      exact ⟨k, by simp [hown], hcur k hown⟩
  owner := by
    intro c' hc'
    obtain ⟨k, hk, hs⟩ := hI.owner c' hc'
    refine ⟨k, ?_, hs.of_kept hkept hpend⟩
    by_cases h : c' = c
    · subst h
      simp [hsaved, hk]
    · simp [h, hk]
  noOwner := by
    intro h
    have hnone := hI.noOwner h
    simp only [Engine.kept, Prod.mk.injEq] at hkept
    exact hkept.2.2.1.trans hnone
  opened := hw
  store := by
    intro c' hc'
    by_cases h : c' = c
    · subst h
      simp only [Function.update_self, hsaved] at hc'
      exact hI.store c' hc'
    · simp only [Function.update_of_ne h] at hc'
      exact hI.store c' hc'

theorem start_inv (hI : Inv layout t tr b) {c : ℕ} {cr str : UInt32} (ha : Allowed t (.start c cr str))
    (hm : Meets tr (.start c cr str)) :
    Inv layout (t.step D layout (.start c cr str)).2 (tr.step (.start c cr str)) (b.step (.start c cr str)).2 := by
  have hfresh : b.p.strWrittenSinceCr = false ∨ b.p.engine.savedHasher = none := by
    rcases hown : tr.owner with _ | d
    · exact .inr (hI.noOwner hown)
    · have hm' : ¬ (tr.opened = true ∧ tr.owner.isSome = true) := hm
      rw [hown] at hm'
      left
      rw [hI.opened, ← Bool.not_eq_true]
      exact fun ho => hm' ⟨ho, rfl⟩
  obtain ⟨hat, hnone, hw⟩ := run_start hfresh ha.2.2 cr
  rw [hI.layout] at hat
  refine ⟨run_quiet hI.quiet _, (run_layout _ _).trans hI.layout, ?_, nofun, fun _ => hnone, hw, ?_⟩
  · intro c' hc'
    cases hc'
    exact ⟨_, by simp [Table.step, Own.step, Op.ctx], hat⟩
  · intro c' hc'
    by_cases h : c' = c
    · subst h
      simp [Table.step, Own.step, Op.ctx] at hc'
    · simp only [Table.step, Op.ctx, Function.update_of_ne h] at hc'
      exact hI.store c' hc'

theorem save_inv (hI : Inv layout t tr b) {c : ℕ} (ha : Allowed t (.save c)) :
    Inv layout (t.step D layout (.save c)).2 (tr.step (.save c)) (b.step (.save c)).2 := by
  obtain ⟨k, hcur, hat⟩ := hI.loaded c ha
  obtain ⟨hat', hsaved⟩ := readCsr_savedAt hat
  obtain ⟨csr, hout⟩ := outputs_save b.p
  have hstep : (b.step (.save c)).2 =
      ⟨(b.p.readCsr 0).2, Function.update b.store c (some ⟨b.p.cr, b.p.strReg, b.p.imr, csr⟩)⟩ := by
    simp only [Board.step, hout]
  have hown : (t.step D layout (.save c)).2 = ⟨Function.update t.owns c
      { t.owns c with saved := (t.owns c).cur, clean := true }, some c⟩ := by
    simp [Table.step, Own.step, Op.ctx, hcur]
  have hw : (b.p.readCsr 0).2.strWrittenSinceCr = b.p.strWrittenSinceCr :=
    read_kept (fun q => q.strWrittenSinceCr) rfl csrBase
  rw [hstep, hown]
  refine ⟨access_quiet hI.quiet (.read csrBase), (access_layout b.p (.read csrBase)).trans hI.layout, ?_, ?_, nofun,
    hw.trans hI.opened, ?_⟩
  · intro c' hc'
    cases hc'
    exact ⟨k, by simp [hcur], hat'⟩
  · intro c' hc'
    cases hc'
    exact ⟨k, by simp [hcur], hsaved⟩
  · intro c' hc'
    by_cases h : c' = c
    · subst h
      exact ⟨⟨b.p.cr, b.p.strReg, b.p.imr, csr⟩, by simp, hI.quiet⟩
    · simp only [Function.update_of_ne h] at hc' ⊢
      exact hI.store c' hc'

theorem restore_inv (hI : Inv layout t tr b) {c : ℕ} (hm : Meets tr (.restore c)) :
    Inv layout (t.step D layout (.restore c)).2 (tr.step (.restore c)) (b.step (.restore c)).2 := by
  have howner : tr.owner = some c := hm
  obtain ⟨k, hk, hsaved⟩ := hI.owner c howner
  obtain ⟨r, hr, hstr⟩ := hI.store c (by rw [hk]; rfl)
  obtain ⟨hat, hsaved', hw⟩ := run_restore hsaved hstr
  have hstep : (b.step (.restore c)).2 = { b with p := b.p.run r.writes } := by simp only [Board.step, hr]
  have hown : (t.step D layout (.restore c)).2 = ⟨Function.update t.owns c
      { t.owns c with cur := some k, clean := false }, some c⟩ := by
    simp [Table.step, Own.step, Op.ctx, hk]
  rw [hstep, hown]
  refine ⟨run_quiet hI.quiet _, (run_layout _ _).trans hI.layout, ?_, ?_, ?_, hw, ?_⟩
  · intro c' hc'
    cases hc'
    exact ⟨k, by simp, hat⟩
  · intro c' hc'
    obtain rfl : c = c' := Option.some.inj (howner.symm.trans hc')
    exact ⟨k, by simp [hk], hsaved'⟩
  · intro hnone
    rw [Trail.step, howner] at hnone
    cases hnone
  · intro c' hc'
    by_cases h : c' = c
    · subst h
      exact ⟨r, hr, hstr⟩
    · simp only [Function.update_of_ne h] at hc'
      exact hI.store c' hc'

/-- One operation: the same words are read, and the invariant stays. -/
theorem step_inv (hI : Inv layout t tr b) {op : Op} (ha : Allowed t op) (hm : Meets tr op) :
    (b.step op).1 = (t.step D layout op).1 ∧ Inv layout (t.step D layout op).2 (tr.step op) (b.step op).2 := by
  cases op with
  | start c cr str => exact ⟨rfl, start_inv hI ha hm⟩
  | save c =>
    obtain ⟨csr, hout⟩ := outputs_save b.p
    exact ⟨by simp only [Board.step, hout]; rfl, save_inv hI ha⟩
  | restore c =>
    obtain ⟨k, hk, -⟩ := hI.owner c hm
    obtain ⟨r, hr, -⟩ := hI.store c (by rw [hk]; rfl)
    exact ⟨by simp only [Board.step, hr]; rfl, restore_inv hI hm⟩
  | feed c w =>
    obtain ⟨k, hcur, hat⟩ := hI.loaded c ha
    obtain ⟨hkept, hpend, hw⟩ := run_feed (p := b.p) w
    refine ⟨rfl, hI.of_kept (run_quiet hI.quiet _) (run_layout _ _) ?_ rfl hkept hpend (hw.trans hI.opened)⟩
    intro k' hk'
    simp only [Op.ctx, hcur, Option.map_some, Option.some.injEq] at hk'
    exact hk' ▸ writeDin_at hat w
  | dcal c str =>
    obtain ⟨k, hcur, hat⟩ := hI.loaded c ha
    obtain ⟨hout, hstands, hkept, hpend, hw⟩ := run_dcal hat hI.quiet str
    have hown : (t.owns c).step D layout (.dcal c str) =
        (hrWords (k.dcal D (validBytes (str ||| strDCAL))).getRight?,
          { t.owns c with cur := (k.dcal D (validBytes (str ||| strDCAL))).getLeft?, clean := false }) := by
      simp only [Own.step, hcur]
    have hstep : b.step (.dcal c str) = (hrWords (k.dcal D (validBytes (str ||| strDCAL))).getRight?,
        { b with p := b.p.run [.write regSTR (str ||| strDCAL)] }) := by
      simp only [Board.step, hout]
    rw [hstep]
    refine ⟨by rw [Table.step, Op.ctx, hown], ?_⟩
    rw [Table.step, Op.ctx, hown]
    refine hI.of_kept (run_quiet hI.quiet _) (run_layout _ _) ?_ rfl hkept hpend hw
    intro k' hk'
    rcases hnext : k.dcal D (validBytes (str ||| strDCAL)) with k'' | d
    · rw [hnext] at hstands hk'
      cases hk'
      exact hstands
    · rw [hnext] at hk'
      cases hk'

end Step

/-- Every run that watches the snapshot reads what the contexts by themselves give. -/
theorem shared_digests : ∀ {ops : List Op} {t : Table} {tr : Trail} {b : Board D}, Inv layout t tr b →
    Protocol D layout t ops → Honest tr ops → (outputs Board.step b ops).1 = (outputs (Table.step D layout) t ops).1
  | [], _, _, _, _, _, _ => rfl
  | op :: ops, t, tr, b, hI, hp, hh => by
    obtain ⟨hout, hI'⟩ := step_inv hI hp.1 hh.1
    have ih := shared_digests hI' hp.2 hh.2
    show (b.step op).1 :: _ = (t.step D layout op).1 :: _
    rw [hout, ih]

/-! ### A context that has the peripheral to itself -/

/-- `t'` is the table of a run of context `c` alone. -/
structure Alone (c : ℕ) (t t' : Table) : Prop where
  own : t'.owns c = t.owns c
  loaded : t'.loaded = if (t.owns c).cur.isSome then some c else none
  fresh : (t.owns c).started = false → (t.owns c).cur = none ∧ (t.owns c).saved = none
  here : t.loaded = some c → (t.owns c).cur.isSome = true
  away : t.loaded ≠ some c → (t.owns c).cur.isSome = true → (t.owns c).clean = true

/-- The trail of a run of one context: its save is the only one. -/
def OwnTrail (o : Own) (c : ℕ) (tr : Trail) : Prop := tr.owner = if o.saved.isSome then some c else none

section Alone

variable {t t' : Table} {tr : Trail} {c : ℕ} {op : Op}

theorem Alone.free (h : Alone c t t') (hf : t.Free) : t'.Free := by
  unfold Table.Free
  rw [h.loaded]
  by_cases hcur : (t.owns c).cur.isSome = true
  · rw [if_pos hcur]
    show (t'.owns c).clean = true
    rw [h.own]
    by_cases hl : t.loaded = some c
    · rw [Table.Free, hl] at hf
      exact hf
    · exact h.away hl hcur
  · rw [if_neg hcur]
    trivial

theorem Alone.loaded_eq (h : Alone c t t') (hl : t.loaded = some c) : t'.loaded = some c := by
  rw [h.loaded, if_pos (h.here hl)]

theorem Alone.allowed (h : Alone c t t') (ha : Allowed t op) (hc : op.ctx = c) : Allowed t' op := by
  cases op with
  | start d cr str =>
    obtain rfl : d = c := hc
    exact ⟨h.own ▸ ha.1, h.free ha.2.1, ha.2.2⟩
  | feed d w =>
    obtain rfl : d = c := hc
    exact h.loaded_eq ha
  | save d =>
    obtain rfl : d = c := hc
    exact h.loaded_eq ha
  | restore d =>
    obtain rfl : d = c := hc
    exact ⟨h.own ▸ ha.1, h.free ha.2⟩
  | dcal d str =>
    obtain rfl : d = c := hc
    exact h.loaded_eq ha

theorem Alone.meets (h : Alone c t t') (ha : Allowed t op) (hc : op.ctx = c) (htr : OwnTrail (t.owns c) c tr) :
    Meets tr op := by
  cases op with
  | start d cr str =>
    obtain rfl : d = c := hc
    rintro ⟨-, hsome⟩
    rw [htr, (h.fresh ha.1).2] at hsome
    cases hsome
  | restore d =>
    obtain rfl : d = c := hc
    show tr.owner = some d
    rw [htr, if_pos ha.1]
  | _ => trivial

/-- A context that was not started stays so, and a save is of what there is. -/
theorem Own.step_fresh (D : Hashers) (layout : AlgoLayout) {o : Own}
    (h : o.started = false → o.cur = none ∧ o.saved = none) (op : Op) :
    (o.step D layout op).2.started = false → (o.step D layout op).2.cur = none ∧ (o.step D layout op).2.saved = none := by
  cases op with
  | start _ _ _ => nofun
  | feed _ w =>
    intro hs
    exact ⟨by simp [Own.step, (h hs).1], (h hs).2⟩
  | save _ => exact fun hs => ⟨(h hs).1, (h hs).1⟩
  | restore _ => exact fun hs => ⟨(h hs).2, (h hs).2⟩
  | dcal _ str =>
    rcases hcur : o.cur with _ | k
    · simp only [Own.step, hcur]
      exact fun hs => ⟨trivial, (h hs).2⟩
    · simp only [Own.step, hcur]
      intro hs
      rw [(h hs).1] at hcur
      cases hcur

theorem Alone.step_own (D : Hashers) (layout : AlgoLayout) (h : Alone c t t') (hc : op.ctx = c) :
    Alone c (t.step D layout op).2 (t'.step D layout op).2 := by
  subst hc
  refine ⟨?_, ?_, ?_, ?_, ?_⟩
  · simp [Table.step, h.own]
  · simp [Table.step, h.own]
  · simpa [Table.step] using Own.step_fresh D layout h.fresh op
  · intro hl
    by_contra hcur
    simp only [Table.step, Function.update_self] at hl hcur
    rw [if_neg hcur] at hl
    cases hl
  · intro hl hcur
    simp only [Table.step, Function.update_self] at hl hcur
    exact absurd (if_pos hcur) hl

theorem Alone.step_other (D : Hashers) (layout : AlgoLayout) (h : Alone c t t') (ha : Allowed t op) (hc : op.ctx ≠ c) :
    Alone c (t.step D layout op).2 t' := by
  have hown : (t.step D layout op).2.owns c = t.owns c := Function.update_of_ne (Ne.symm hc) _ _
  refine ⟨by rw [hown, h.own], by rw [hown, h.loaded], by rw [hown]; exact h.fresh, ?_, ?_⟩
  · intro hl
    simp only [Table.step] at hl
    split at hl
    · exact absurd (Option.some.inj hl) hc
    · cases hl
  · rw [hown]
    intro _ hcur
    by_cases hl : t.loaded = some c
    · -- another context takes over, so this one has been saved
      have hfree : t.Free := by
        cases op with
        | start _ _ _ => exact ha.2.1
        | restore _ => exact ha.2
        | feed _ _ => exact absurd (Option.some.inj (ha.symm.trans hl)) hc
        | save _ => exact absurd (Option.some.inj (ha.symm.trans hl)) hc
        | dcal _ _ => exact absurd (Option.some.inj (ha.symm.trans hl)) hc
      rw [Table.Free, hl] at hfree
      exact hfree
    · exact h.away hl hcur

theorem OwnTrail.step (htr : OwnTrail (t.owns c) c tr) (h : Alone c t t') (ha : Allowed t op) (hc : op.ctx = c) :
    OwnTrail ((t.step D layout op).2.owns c) c (tr.step op) := by
  have hown : (t.step D layout op).2.owns c = ((t.owns c).step D layout op).2 := by
    subst hc
    simp [Table.step]
  rw [hown]
  cases op with
  | start _ _ _ => rfl
  | feed _ _ => exact htr
  | save d =>
    obtain rfl : d = c := hc
    show some d = if (t.owns d).cur.isSome then some d else none
    rw [if_pos (h.here ha)]
  | restore _ => exact htr
  | dcal _ _ =>
    rcases hcur : (t.owns c).cur with _ | k
    · simp only [Own.step, hcur]
      exact htr
    · simp only [Own.step, hcur]
      exact htr

/-- The operations of one context follow the protocol, and their run watches the snapshot. -/
theorem filter_honest : ∀ {ops : List Op} {t t' : Table} {tr : Trail}, Alone c t t' → OwnTrail (t.owns c) c tr →
    Protocol D layout t ops →
    Protocol D layout t' (ops.filter (·.ctx = c)) ∧ Honest tr (ops.filter (·.ctx = c))
  | [], _, _, _, _, _, _ => ⟨trivial, trivial⟩
  | op :: ops, t, t', tr, h, htr, hp => by
    by_cases hc : op.ctx = c
    · rw [List.filter_cons_of_pos (by simpa using hc)]
      have ih := filter_honest (h.step_own D layout hc) (htr.step h hp.1 hc) hp.2
      exact ⟨⟨h.allowed hp.1 hc, ih.1⟩, h.meets hp.1 hc htr, ih.2⟩
    · rw [List.filter_cons_of_neg (by simpa using hc)]
      have hown : (t.step D layout op).2.owns c = t.owns c := Function.update_of_ne (Ne.symm hc) _ _
      exact filter_honest (h.step_other D layout hp.1 hc) (by rw [hown]; exact htr) hp.2

/-- The words read for one context. -/
def readsOf (c : ℕ) (ops : List Op) (words : List (List UInt32)) : List (List UInt32) :=
  ((ops.zip words).filter (·.1.ctx = c)).map (·.2)

/-- Contexts by themselves do not see each other. -/
theorem readsOf_table : ∀ {ops : List Op} {t t' : Table}, t'.owns c = t.owns c →
    readsOf c ops (outputs (Table.step D layout) t ops).1 =
      (outputs (Table.step D layout) t' (ops.filter (·.ctx = c))).1
  | [], _, _, _ => rfl
  | op :: ops, t, t', h => by
    show readsOf c (op :: ops) ((t.step D layout op).1 :: (outputs (Table.step D layout) (t.step D layout op).2 ops).1) = _
    unfold readsOf
    rw [List.zip_cons_cons]
    by_cases hc : op.ctx = c
    · rw [List.filter_cons_of_pos (by simpa using hc), List.filter_cons_of_pos (by simpa using hc), List.map_cons]
      have hown : (t'.step D layout op).2.owns c = (t.step D layout op).2.owns c := by
        subst hc
        simp [Table.step, h]
      have ih : readsOf c ops _ = _ := readsOf_table hown
      show _ :: readsOf c ops _ = (t'.step D layout op).1 :: _
      rw [ih]
      subst hc
      simp [Table.step, h]
    · rw [List.filter_cons_of_neg (by simpa using hc), List.filter_cons_of_neg (by simpa using hc)]
      have hown : (t.step D layout op).2.owns c = t.owns c := Function.update_of_ne (Ne.symm hc) _ _
      exact readsOf_table (h.trans hown.symm)

end Alone

/-- A new peripheral, and nothing saved. -/
def newBoard (D : Hashers) (layout : AlgoLayout) : Board D := ⟨withLayout D layout, fun _ => none⟩

theorem newBoard_inv (D : Hashers) (layout : AlgoLayout) : Inv layout {} {} (newBoard D layout) where
  quiet := (ready_withLayout layout).quiet
  layout := rfl
  loaded := nofun
  owner := nofun
  noOwner := fun _ => rfl
  opened := rfl
  store := nofun

/-- In a run that watches the snapshot every context reads what it would read alone. -/
theorem contexts_do_not_interfere (D : Hashers) (layout : AlgoLayout) (ops : List Op) (hp : Protocol D layout {} ops)
    (hh : Honest {} ops) (c : ℕ) :
    readsOf c ops (outputs Board.step (newBoard D layout) ops).1 =
      (outputs Board.step (newBoard D layout) (ops.filter (·.ctx = c))).1 := by
  have halone : Alone c {} {} := ⟨rfl, rfl, fun _ => ⟨rfl, rfl⟩, nofun, nofun⟩
  have htrail : OwnTrail {} c {} := rfl
  obtain ⟨hp', hh'⟩ := filter_honest halone htrail hp
  rw [shared_digests (newBoard_inv D layout) hp hh, shared_digests (newBoard_inv D layout) hp' hh']
  exact readsOf_table rfl

/-- SHA-1 of `abcd`. -/
def abcdSha1 : ByteArr 20 :=
  ⟨[0x81, 0xfe, 0x8b, 0xfe, 0x87, 0x57, 0x6c, 0x3e, 0xcb, 0x22,
    0x42, 0x6f, 0x8e, 0x57, 0x84, 0x73, 0x82, 0x91, 0x7a, 0xcf], rfl⟩

/-- SHA-1 of `efgh`. -/
def efghSha1 : ByteArr 20 :=
  ⟨[0x2a, 0xed, 0x8a, 0xa9, 0xf8, 0x26, 0xc2, 0x1e, 0xf0, 0x7d,
    0x5e, 0xe1, 0x5b, 0x48, 0xee, 0xa0, 0x6e, 0x9c, 0x8a, 0x62], rfl⟩

/-- SHA-1 of `abcdefgh`. -/
def abcdefghSha1 : ByteArr 20 :=
  ⟨[0x42, 0x5a, 0xf1, 0x2a, 0x07, 0x43, 0x50, 0x2b, 0x32, 0x2e,
    0x93, 0xa0, 0x15, 0xbc, 0xf8, 0x68, 0xe3, 0x24, 0xd5, 0x6a], rfl⟩

def letterHashers : Hashers := knownHashers
  [([0x61, 0x62, 0x63, 0x64], abcdSha1), ([0x65, 0x66, 0x67, 0x68], efghSha1),
    ([0x61, 0x62, 0x63, 0x64, 0x65, 0x66, 0x67, 0x68], abcdefghSha1)]

/-- One context after the other, the first with a save and a restore. -/
def oneAfterTheOther : List Op :=
  [.start 0 0 0, .feed 0 0x61626364, .save 0, .restore 0, .dcal 0 0, .start 1 0 0, .feed 1 0x65666768, .dcal 1 0]

theorem oneAfterTheOther_reads :
    (Protocol letterHashers .h7 {} oneAfterTheOther ∧ Honest {} oneAfterTheOther) ∧
      readsOf 1 oneAfterTheOther (outputs Board.step (newBoard letterHashers .h7) oneAfterTheOther).1 =
        (outputs Board.step (newBoard letterHashers .h7) (oneAfterTheOther.filter (·.ctx = 1))).1 := by
  have hp : Protocol letterHashers .h7 {} oneAfterTheOther :=
    ⟨⟨rfl, trivial, by decide⟩, rfl, rfl, ⟨rfl, rfl⟩, rfl, ⟨rfl, trivial, by decide⟩, rfl, rfl, trivial⟩
  have hh : Honest {} oneAfterTheOther :=
    ⟨nofun, trivial, trivial, rfl, trivial, nofun, trivial, trivial, trivial⟩
  exact ⟨⟨hp, hh⟩, contexts_do_not_interfere letterHashers .h7 oneAfterTheOther hp hh 1⟩

/-- The second context starts after a save of the first. -/
def startAfterSave : List Op :=
  [.start 0 0 0, .feed 0 0x61626364, .save 0, .start 1 0 0, .feed 1 0x65666768, .dcal 1 0]

/-- The second context reads the digest of both messages. -/
theorem startAfterSave_interferes : Protocol letterHashers .h7 {} startAfterSave ∧
    readsOf 1 startAfterSave (outputs Board.step (newBoard letterHashers .h7) startAfterSave).1 =
      [[], [], hrWords (some abcdefghSha1.bytes)] ∧
    (outputs Board.step (newBoard letterHashers .h7) (startAfterSave.filter (·.ctx = 1))).1 =
      [[], [], hrWords (some efghSha1.bytes)] ∧
    hrWords (some abcdefghSha1.bytes) ≠ hrWords (some efghSha1.bytes) := by
  refine ⟨⟨⟨rfl, trivial, by decide⟩, rfl, rfl, ⟨rfl, rfl, by decide⟩, rfl, rfl, trivial⟩, ?_, ?_, ?_⟩
  all_goals decide +kernel

end Hash
end STM32
end Simulators
