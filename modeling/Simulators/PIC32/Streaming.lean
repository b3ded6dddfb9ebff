/-
# PIC32MZ crypto engine: a streaming hash under any timing of the ticks

The firmware enables the buffers of a message one after the other, and ticks
absorb them. As long as no tick finds a descriptor enabled behind the one
enabled last in the order of the chain (`System.NoWrap`), the ticks absorb the
buffers in the order in which they were enabled, each once, before they clear
its DESC_EN, and the digest is that of the message. A tick that does find one
goes through the chain from its start all the same, and takes the newer buffer
first.

Key theorem: `streaming_hash_in_order`.
-/
import Simulators.Lib.Run
import Simulators.PIC32.Waiting

namespace Simulators
namespace PIC32

variable {D : Digests} {L : Layout} {J : Job} {a : HashAlgo} {outSwap : Bool} {p e : ℕ} {filled : Bool} {mem : Memory}
  {st : State D}

theorem byteSwapWords_length (b : Bytes) : (byteSwapWords b).length = b.length := by
  have hchunk : ∀ c : Bytes, (if c.length = 4 then c.reverse else c).length = c.length := fun c => by
    split
    · exact List.length_reverse
    · rfl
  rw [byteSwapWords, List.length_flatMap]
  simp only [hchunk]
  rw [← List.length_flatten, chunks_flatten (by decide) b.length b (Nat.le_refl _)]

namespace Job

/-- The digest that runs after the first `k` buffers. -/
def running (D : Digests) (J : Job) (a : HashAlgo) (k : ℕ) : D.State := (J.pieces k).foldl D.update (D.new a)

/-- What the firmware is to find at UPDPTR. -/
def digest (D : Digests) (J : Job) (a : HashAlgo) (outSwap : Bool) : Bytes :=
  if outSwap then D.hash a J.message else byteSwapWords (D.hash a J.message)

theorem running_succ (k : ℕ) : J.running D a (k + 1) = D.update (J.running D a k) (J.piece k) := by
  rw [running, pieces_succ, List.foldl_append, List.foldl_cons, List.foldl_nil, running]

theorem finalize_running : D.finalize (J.running D a J.bufs.length) = D.hash a J.message := by
  rw [running, D.finalize_updates, pieces_all]

theorem digest_length : (J.digest D a outSwap).length = a.size := by
  rw [digest]
  split
  · exact D.hash_length a J.message
  · rw [byteSwapWords_length, D.hash_length]

end Job

/-- A hash with the first `p` buffers in its digest. -/
structure Running (L : Layout) (J : Job) (a : HashAlgo) (outSwap : Bool) (p e : ℕ) (filled : Bool) (st : State D)
    (mem : Memory) : Prop where
  waiting : Waiting L J a p e filled mem
  lt : p < J.bufs.length
  completed : st.completed = false
  bdAddrs : st.bdAddrs = L.addrs
  swap : st.outSwap = outSwap
  ctx : st.ctx = if p = 0 then none else some (J.running D a p)
  fed : st.bytesFed = (J.pieces p).flatten.length

/-- A hash that has left its digest at UPDPTR. -/
structure Done (L : Layout) (J : Job) (a : HashAlgo) (outSwap : Bool) (e : ℕ) (filled : Bool) (st : State D)
    (mem : Memory) : Prop where
  enabled : e = J.bufs.length
  filled : filled = false
  completed : st.completed = true
  digest : mem.load L.upd.toNat a.size = J.digest D a outSwap
  off : ∀ i < L.n, descEnAt mem (L.bd i).toNat = false

/-! ### One descriptor -/

/-- The first descriptor starts the digest, and the others go on with it. -/
theorem Running.openCtx_eq (h : Running L J a outSwap p e filled st mem) {bd : BufferDescriptor}
    (hbd : J.Enabled L p bd) :
    ∃ algo, openCtx st bd mem = (true, { st with algo := algo, ctx := some (J.running D a p) }) := by
  have hctx := h.ctx
  by_cases hp : p = 0
  · subst hp
    rw [if_pos rfl] at hctx
    obtain ⟨hfetch, haddr⟩ := hbd.saFetch rfl
    have hsa : SecurityAssociation.readPhys mem bd.saAddr.toNat =
        some (.ofBytes (mem.load L.sa.toNat SecurityAssociation.size)) := by
      rw [haddr, SecurityAssociation.readPhys, Memory.readPhys, if_pos h.waiting.backed.sa]
      rfl
    refine ⟨(SecurityAssociation.ofBytes (mem.load L.sa.toNat SecurityAssociation.size)).ctrl.algo, ?_⟩
    rw [openCtx, hctx, if_pos Option.isNone_none, if_neg (not_not.mpr hfetch), hsa]
    dsimp only
    rw [h.waiting.backed.algo]
    rfl
  · rw [if_neg hp] at hctx
    refine ⟨st.algo, ?_⟩
    rw [openCtx, hctx, if_neg (by simp), ← hctx]

/-- The buffer goes into the digest, up to MSGLEN. -/
theorem Running.feed_eq (h : Running L J a outSwap p e filled st mem) (hfit : J.FitsIn L) {bd : BufferDescriptor}
    (hbd : J.Enabled L p bd) (hw : Written L J p bd mem) (st' : State D) (hctx : st'.ctx = some (J.running D a p))
    (hfed : st'.bytesFed = st.bytesFed) :
    feed st' bd mem = some { st' with
      ctx := some (J.running D a (p + 1)), bytesFed := (J.pieces (p + 1)).flatten.length } := by
  obtain ⟨htake, hlen⟩ := hbd.takeLen_eq h.lt (hfed.trans h.fed)
  have hsum : st'.bytesFed + takeLen st' bd = (J.pieces (p + 1)).flatten.length := by
    rw [Job.pieces_succ, List.flatten_append, List.length_append, List.flatten_singleton, hlen, hfed, h.fed]
  by_cases hpos : 0 < takeLen st' bd
  · have hle : takeLen st' bd ≤ (J.buf p).length := by
      rw [hlen, ← htake]
      exact List.length_take_le' _ _
    have hcap : takeLen st' bd ≤ L.cap (p % L.n) := Nat.le_trans hle (hfit p h.lt)
    have hread : mem.readPhys bd.srcaddr.toNat (takeLen st' bd) = some (J.piece p) := by
      rw [hbd.srcaddr, Memory.readPhys,
        if_pos (mem.backed_prefix (h.waiting.backed.src _ (Nat.mod_lt p L.n_pos)) hcap), ← mem.load_take hle, hw.data,
        htake]
    rw [feed, if_pos hpos, hread, Job.running_succ, ← hsum, hctx]
    rfl
  · have hzero : takeLen st' bd = 0 := by omega
    have hnil : J.piece p = [] := List.eq_nil_of_length_eq_zero (hlen.symm.trans hzero)
    rw [feed, if_neg hpos, Job.running_succ, hnil, D.update_nil, ← hsum, hzero, Nat.add_zero, ← hctx]

/-- The end of the hash. -/
theorem commit_eq (hbacked : L.Backed a mem) (hctx : st.ctx = some (J.running D a J.bufs.length))
    (hswap : st.outSwap = outSwap) {bd : BufferDescriptor} (hupd : bd.updptr = L.upd) :
    commit st bd mem =
      (true, { st with ctx := none, completed := true }, mem.store L.upd.toNat (J.digest D a outSwap)) := by
  have hdigest : (if ¬ outSwap then byteSwapWords (D.hash a J.message) else D.hash a J.message) =
      J.digest D a outSwap := by cases outSwap <;> rfl
  have hback : mem.backed L.upd.toNat (J.digest D a outSwap).length = true := by
    refine mem.backed_prefix hbacked.upd ?_
    rw [Job.digest_length]
    cases a <;> decide
  have hwrite : mem.writePhys L.upd.toNat (J.digest D a outSwap) =
      some (mem.store L.upd.toNat (J.digest D a outSwap)) := if_pos hback
  rw [commit, hctx]
  dsimp only
  rw [hswap, Job.finalize_running, hdigest, hupd, hwrite]

/-- The engine takes the oldest descriptor: its buffer is in the digest when it is handed back. -/
theorem Running.processBd_eq (h : Running L J a outSwap p e filled st mem) (hfit : J.FitsIn L) (hlt : p < e) :
    ∃ st' mem', processBd st (L.bd (p % L.n)).toNat mem = (true, st', mem') ∧
      (Running L J a outSwap (p + 1) e filled st' mem' ∨ Done L J a outSwap e filled st' mem') := by
  obtain ⟨bd, hbd, hw⟩ := h.waiting.pending p (Nat.le_refl p) hlt
  have hi : p % L.n < L.n := Nat.mod_lt p L.n_pos
  have hread : BufferDescriptor.readPhys mem (L.bd (p % L.n)).toNat = some bd := by
    rw [h.waiting.backed.readBd hi, hw.record, BufferDescriptor.ofBytes_toBytes]
  obtain ⟨algo, hopen⟩ := h.openCtx_eq hbd
  have hfeed := h.feed_eq hfit hbd hw { st with algo := algo, ctx := some (J.running D a p) } rfl rfl
  have hclear : BufferDescriptor.descEnabled { bd with bdCtrl := bd.bdCtrl.clear } = false := BdCtrl.descEn_clear _
  have hwait := h.waiting.absorb hfit hlt hclear
  have hwrite : BufferDescriptor.writePhys { bd with bdCtrl := bd.bdCtrl.clear } mem (L.bd (p % L.n)).toNat =
      some (mem.store (L.bd (p % L.n)).toNat
        (BufferDescriptor.toBytes { bd with bdCtrl := bd.bdCtrl.clear })) := by
    rw [BufferDescriptor.writePhys, Memory.writePhys, BufferDescriptor.toBytes_length,
      if_pos (h.waiting.backed.bd _ hi)]
  have hlast := hbd.last
  rw [Bool.eq_iff_iff, Bool.and_eq_true, decide_eq_true_iff] at hlast
  have hle := h.waiting.le_length
  rw [processBd, hread]
  dsimp only
  rw [if_neg (not_not.mpr hbd.descEnabled), hopen]
  dsimp only
  rw [hfeed]
  dsimp only
  rw [hwrite]
  dsimp only
  by_cases hend : p + 1 = J.bufs.length
  · -- LAST_BD and LIFM: the digest of all buffers goes to UPDPTR
    have hctx : ({ st with
        algo := algo, ctx := some (J.running D a (p + 1)), bytesFed := (J.pieces (p + 1)).flatten.length } :
          State D).ctx = some (J.running D a J.bufs.length) := congrArg (fun k => some (J.running D a k)) hend
    have hcommit := commit_eq hwait.backed hctx h.swap (hbd.updptr hend)
    rw [if_pos (hlast.mpr hend), hcommit]
    refine ⟨_, _, rfl, .inr ?_⟩
    have hpe : p + 1 = e := by omega
    constructor
    case enabled => omega
    case filled =>
      cases filled with
      | false => rfl
      | true =>
        obtain ⟨he, -⟩ := hwait.next rfl
        omega
    case completed => rfl
    case digest =>
      have hsame := Memory.load_store_same
        (mem.store (L.bd (p % L.n)).toNat (BufferDescriptor.toBytes { bd with bdCtrl := bd.bdCtrl.clear }))
        L.upd.toNat (J.digest D a outSwap)
      rwa [Job.digest_length] at hsame
    case off =>
      intro i hi'
      have hlen : (J.digest D a outSwap).length ≤ 32 := by
        rw [Job.digest_length]
        cases a <;> decide
      rw [descEnAt_store (Apart.shrink (L.bd_upd i hi') hlen)]
      exact hwait.idle i hi' fun j hj hje => by omega
  · rw [if_neg (fun hl => hend (hlast.mp hl))]
    refine ⟨_, _, rfl, .inl ?_⟩
    constructor
    case waiting => exact hwait
    case lt => omega
    case completed => exact h.completed
    case bdAddrs => exact h.bdAddrs
    case swap => exact h.swap
    case ctx => rw [if_neg (Nat.succ_ne_zero p)]
    case fed => rfl

/-! ### A tick -/

/-- The buffers that wait at positions from `i` on, in the order of the chain. -/
def Ahead (L : Layout) (i p e : ℕ) : Prop := p < e → i ≤ p % L.n ∧ p % L.n + (e - p) ≤ L.n

theorem Ahead.succ {i : ℕ} (h : Ahead L i p e) (hlt : p < e) (hi : i = p % L.n) : Ahead L (i + 1) (p + 1) e := by
  intro hlt'
  obtain ⟨-, hsum⟩ := h hlt
  have hmod : (p + 1) % L.n = p % L.n + 1 := by
    rw [add_mod_ring p (by omega), if_pos (by omega)]
  rw [hmod]
  omega

/-- Nothing waits at a position before those. -/
theorem Ahead.ne {i : ℕ} (h : Ahead L i p e) (hi : i ≠ p % L.n) {j : ℕ} (hj : p ≤ j) (hje : j < e) :
    j % L.n ≠ i := by
  obtain ⟨hle, hsum⟩ := h (by omega)
  obtain ⟨d, rfl⟩ := Nat.exists_eq_add_of_le hj
  rw [add_mod_ring p (by omega), if_pos (by omega)]
  omega

/-- Without a wrap the descriptors that wait lie in the order of the chain. -/
theorem Waiting.ahead (h : Waiting L J a p e filled mem)
    (hwrap : ∀ i < L.n, descEnAt mem (L.bd i).toNat = true → i ≤ (e - 1) % L.n) : Ahead L 0 p e := by
  intro hlt
  have hfirst := hwrap (p % L.n) (Nat.mod_lt p L.n_pos) (h.descEnAt_pending (Nat.le_refl p) hlt)
  have hround := h.le_round
  have hpos : e - 1 = p + (e - 1 - p) := by omega
  rw [hpos, add_mod_ring p (by omega)] at hfirst
  split at hfirst <;> omega

theorem Layout.Backed.readCtrl (h : L.Backed a mem) {i : ℕ} (hi : i < L.n) :
    mem.readPhys (L.bd i).toNat 4 = some (mem.load (L.bd i).toNat 4) :=
  if_pos (mem.backed_prefix (h.bd i hi) (by decide))

/-- The check of the callback. -/
theorem ctrl_ne_zero (mem : Memory) (addr : ℕ) :
    leWord (mem.load addr 4) &&& BdCtrl.descEnBit ≠ 0 ↔ descEnAt mem addr = true :=
  BdCtrl.and_descEnBit ⟨leWord (mem.load addr 4)⟩

/-- The rest of the ring, from position `i` on: everything that waits is absorbed. -/
theorem Running.scan_eq (hfit : J.FitsIn L) : ∀ (d i : ℕ) {p : ℕ} {st : State D} {mem : Memory}, i + d = L.n →
    Running L J a outSwap p e filled st mem → Ahead L i p e →
      let (st', mem') := scan ((List.range' i d).map fun i => (L.bd i).toNat) st mem
      Running L J a outSwap e e filled st' mem' ∨ Done L J a outSwap e filled st' mem'
  | 0, i, p, st, mem, hd, h, hahead => by
    have hpe : p = e := by
      by_contra hne
      have hle := h.waiting.le
      have hmod := Nat.mod_lt p L.n_pos
      have hi := (hahead (by omega)).1
      omega
    exact .inl (hpe ▸ h)
  | d + 1, i, p, st, mem, hd, h, hahead => by
    have hi : i < L.n := by omega
    rw [List.range'_succ, List.map_cons, scan, h.waiting.backed.readCtrl hi]
    dsimp only
    by_cases htake : p < e ∧ i = p % L.n
    · obtain ⟨hlt, rfl⟩ := htake
      have hon : ¬ leWord (mem.load (L.bd (p % L.n)).toNat 4) &&& BdCtrl.descEnBit = 0 :=
        (ctrl_ne_zero mem _).mpr (h.waiting.descEnAt_pending (Nat.le_refl p) hlt)
      obtain ⟨st', mem', heq, hnext | hdone⟩ := h.processBd_eq hfit hlt
      · rw [if_neg hon, heq]
        dsimp only
        rw [if_neg (by simp [hnext.completed])]
        exact Running.scan_eq hfit d _ (by omega) hnext (hahead.succ hlt rfl)
      · rw [if_neg hon, heq]
        dsimp only
        rw [if_pos hdone.completed]
        exact .inr hdone
    · have hne : ∀ j, p ≤ j → j < e → j % L.n ≠ i := fun j hj hje =>
        hahead.ne (fun heq => htake ⟨by omega, heq⟩) hj hje
      have hoff : leWord (mem.load (L.bd i).toNat 4) &&& BdCtrl.descEnBit = 0 := by
        by_contra hon
        have hdesc := (ctrl_ne_zero mem _).mp hon
        rw [h.waiting.idle i hi hne] at hdesc
        cases hdesc
      rw [if_pos hoff]
      refine Running.scan_eq hfit d _ (by omega) h fun hlt => ?_
      obtain ⟨hle, hsum⟩ := hahead hlt
      have hstrict : i ≠ p % L.n := fun heq => htake ⟨hlt, heq⟩
      omega

/-- A tick without a wrap absorbs all that waits. -/
theorem Running.tick_eq (h : Running L J a outSwap p e filled st mem) (hfit : J.FitsIn L)
    (hwrap : ∀ i < L.n, descEnAt mem (L.bd i).toNat = true → i ≤ (e - 1) % L.n) :
    Running L J a outSwap e e filled (tick st mem).1 (tick st mem).2 ∨
      Done L J a outSwap e filled (tick st mem).1 (tick st mem).2 := by
  have haddrs : st.bdAddrs = (List.range' 0 L.n).map fun i => (L.bd i).toNat := by
    rw [h.bdAddrs, Layout.addrs, List.range_eq_range']
  rw [tick, if_neg (by simp [h.completed]), haddrs]
  exact Running.scan_eq hfit L.n 0 (Nat.zero_add _) h (h.waiting.ahead hwrap)

/-! ### The registry -/

/-- No callback that still does something. -/
def Registry.Idle (reg : Registry D) : Prop := ∀ st, some st ∈ reg → st.completed = true

theorem tick_of_completed (h : st.completed = true) : tick st mem = (st, mem) := if_pos h

/-- Only the armed hash sees the tick. -/
theorem dispatchPollingTick_idle : ∀ {reg : Registry D}, reg.Idle →
    dispatchPollingTick (reg ++ [some st]) mem = (reg ++ [some (tick st mem).1], (tick st mem).2)
  | [], _ => rfl
  | none :: reg, hidle => by
    have ih := dispatchPollingTick_idle fun st hst => hidle st (List.mem_cons_of_mem _ hst)
    rw [List.cons_append, dispatchPollingTick, ih]
    rfl
  | some st' :: reg, hidle => by
    have ih := dispatchPollingTick_idle fun st hst => hidle st (List.mem_cons_of_mem _ hst)
    rw [List.cons_append, dispatchPollingTick, tick_of_completed (hidle st' List.mem_cons_self)]
    dsimp only
    rw [ih]
    rfl

/-! ### Runs -/

namespace System

/-- The first `p` buffers are absorbed, in order and nothing else: the running
digest is theirs, or the digest at UPDPTR that of the message; and DESC_EN is
set exactly on the descriptors of the buffers that are enabled and not absorbed. -/
structure InOrder (L : Layout) (J : Job) (a : HashAlgo) (outSwap : Bool) (p : ℕ) (st : State D) (s : System D) :
    Prop where
  le : p ≤ s.enabled
  le_round : s.enabled ≤ p + L.n
  descEn : ∀ i < L.n, descEnAt s.mem (L.bd i).toNat = true ↔ ∃ j, p ≤ j ∧ j < s.enabled ∧ j % L.n = i
  running : st.completed = false →
    p < J.bufs.length ∧ st.ctx = if p = 0 then none else some ((J.pieces p).foldl D.update (D.new a))
  done : st.completed = true → p = J.bufs.length ∧
    s.mem.load L.upd.toNat a.size = if outSwap then D.hash a J.message else byteSwapWords (D.hash a J.message)

/-- The armed hash, running or done. -/
def Sound (L : Layout) (J : Job) (a : HashAlgo) (outSwap : Bool) (reg : Registry D) (s : System D) : Prop :=
  ∃ st, s.reg = reg ++ [some st] ∧
    ((∃ p, Running L J a outSwap p s.enabled s.filled st s.mem) ∨ Done L J a outSwap s.enabled s.filled st s.mem)

variable {reg : Registry D} {s s' : System D}

theorem inOrder_of_running (h : Running L J a outSwap p s.enabled s.filled st s.mem) :
    s.InOrder L J a outSwap p st where
  le := h.waiting.le
  le_round := h.waiting.le_round
  descEn i hi := by
    constructor
    · intro hon
      by_contra hno
      have hoff := h.waiting.idle i hi fun j hj hje heq => hno ⟨j, hj, hje, heq⟩
      rw [hoff] at hon
      cases hon
    · rintro ⟨j, hj, hje, rfl⟩
      exact h.waiting.descEnAt_pending hj hje
  running _ := ⟨h.lt, h.ctx⟩
  done hc := by
    rw [h.completed] at hc
    cases hc

theorem inOrder_of_done (h : Done L J a outSwap s.enabled s.filled st s.mem) :
    s.InOrder L J a outSwap s.enabled st where
  le := Nat.le_refl _
  le_round := Nat.le_add_right _ _
  descEn i hi := by
    rw [h.off i hi]
    constructor
    · intro hon
      cases hon
    · rintro ⟨j, hj, hje, -⟩
      omega
  running hc := by
    rw [h.completed] at hc
    cases hc
  done _ := ⟨h.enabled, h.digest⟩

/-- A tick without a wrap leaves nothing that waits. -/
theorem tick_sound (hfit : J.FitsIn L) (hidle : reg.Idle) (h : s.Sound L J a outSwap reg) (hwrap : s.NoWrap L)
    (hs : System.step L J s .tick = .ok ((), s')) :
    ∃ st, s'.reg = reg ++ [some st] ∧ s'.enabled = s.enabled ∧
      (Running L J a outSwap s'.enabled s'.enabled s'.filled st s'.mem ∨
        Done L J a outSwap s'.enabled s'.filled st s'.mem) := by
  obtain ⟨st, hreg, h⟩ := h
  simp only [System.step, hreg, dispatchPollingTick_idle hidle] at hs
  cases hs
  refine ⟨_, rfl, rfl, ?_⟩
  rcases h with ⟨p, h⟩ | h
  · exact h.tick_eq hfit hwrap
  · rw [tick_of_completed h.completed]
    exact .inr h

theorem step_sound (hfit : J.FitsIn L) (hidle : reg.Idle) (h : s.Sound L J a outSwap reg) {i : Input}
    (hwrap : i = .tick → s.NoWrap L) (hs : System.step L J s i = .ok ((), s')) : s'.Sound L J a outSwap reg := by
  cases i with
  | fill bd =>
    obtain ⟨st, hreg, h⟩ := h
    rw [System.step] at hs
    split at hs
    · rename_i hguard
      obtain ⟨hfilled, he, hoff, hbd⟩ := hguard
      cases hs
      refine ⟨st, hreg, .inl ?_⟩
      rcases h with ⟨p, h⟩ | h
      · have hwait := h.waiting
        rw [hfilled] at hwait
        exact ⟨p, { h with waiting := hwait.fill hfit he hoff hbd }⟩
      · exact absurd h.enabled (Nat.ne_of_lt he)
    · cases hs
  | enable =>
    obtain ⟨st, hreg, h⟩ := h
    rw [System.step] at hs
    split at hs
    · rename_i hfilled
      cases hs
      refine ⟨st, hreg, .inl ?_⟩
      rcases h with ⟨p, h⟩ | h
      · have hwait := h.waiting
        rw [hfilled] at hwait
        exact ⟨p, { h with waiting := hwait.enable hfit }⟩
      · rw [h.filled] at hfilled
        cases hfilled
    · cases hs
  | tick =>
    obtain ⟨st, hreg, -, h⟩ := tick_sound hfit hidle h (hwrap rfl) hs
    exact ⟨st, hreg, h.imp_left fun h => ⟨_, h⟩⟩

theorem armed_sound (hbuilt : L.Built a mem) (outSwap : Bool) (reg : Registry D) (J : Job) :
    Sound L J a outSwap reg
      { mem := mem, reg := reg ++ [some { outSwap := outSwap, bdAddrs := L.addrs }] } := by
  refine ⟨_, rfl, .inl ⟨0, ?_⟩⟩
  constructor
  case waiting =>
    constructor
    case backed => exact hbuilt.toBacked
    case le => exact Nat.le_refl 0
    case le_length => exact Nat.zero_le _
    case le_round => exact Nat.zero_le _
    case pending => exact fun j _ hj => absurd hj (Nat.not_lt_zero j)
    case next => exact fun hf => absurd hf Bool.false_ne_true
    case idle => exact fun i hi _ => hbuilt.off i hi
  case lt => exact List.length_pos_iff.mpr J.bufs_ne
  case completed => rfl
  case bdAddrs => rfl
  case swap => rfl
  case ctx => rfl
  case fed => rfl

end System

/-- In a run in which no tick comes while a descriptor waits that lies after the one enabled last in the
order of the chain, the buffers are absorbed in the order in which they were enabled, and the digest is that
of the message; and a tick absorbs all that waits. -/
theorem streaming_hash_in_order (D : Digests) (L : Layout) (J : Job) (a : HashAlgo) (outSwap : Bool) (mem : Memory)
    (reg : Registry D) (hfit : J.FitsIn L) (hbuilt : L.Built a mem) (hidle : reg.Idle) :
    ∃ idx reg', arm (L.bd 0) outSwap mem reg = some (idx, reg') ∧
      ∀ log s, Run (System.step L J) { mem := mem, reg := reg' } log s →
        (∀ ev ∈ log, ev.input = .tick → ev.pre.NoWrap L) →
        (∃ p st, s.reg = reg ++ [some st] ∧ s.InOrder L J a outSwap p st) ∧
        (s.NoWrap L → ∀ s', System.step L J s .tick = .ok ((), s') →
          ∃ st, s'.reg = reg ++ [some st] ∧ s'.InOrder L J a outSwap s.enabled st) := by
  refine ⟨_, _, L.arm_ring hbuilt outSwap reg, fun log s hrun hwrap => ?_⟩
  have hsound : s.Sound L J a outSwap reg := by
    refine hrun.invariant ?_ hwrap (System.armed_sound hbuilt outSwap reg J)
    exact fun s i o s' h hP hs => System.step_sound hfit hidle h hP hs
  constructor
  · obtain ⟨st, hreg, ⟨p, h⟩ | h⟩ := hsound
    · exact ⟨p, st, hreg, System.inOrder_of_running h⟩
    · exact ⟨_, st, hreg, System.inOrder_of_done h⟩
  · intro hnow s' hs
    obtain ⟨st, hreg, heq, h | h⟩ := System.tick_sound hfit hidle hsound hnow hs
    · exact ⟨st, hreg, heq ▸ System.inOrder_of_running h⟩
    · exact ⟨st, hreg, heq ▸ System.inOrder_of_done h⟩

/-! ### Two descriptors and three buffers -/

/-- MD5 of two messages. -/
def md5OrZero (a : HashAlgo) (m : Bytes) : Bytes :=
  if a = .md5 ∧ m = [0x61, 0x62, 0x63] then
    [0x90, 0x01, 0x50, 0x98, 0x3C, 0xD2, 0x4F, 0xB0, 0xD6, 0x96, 0x3F, 0x7D, 0x28, 0xE1, 0x7F, 0x72]
  else if a = .md5 ∧ m = [0x61, 0x63] then
    [0xE2, 0x07, 0x54, 0x74, 0x29, 0x49, 0x83, 0xE0, 0x13, 0xEE, 0x4D, 0xD2, 0x20, 0x1C, 0x7A, 0x73]
  else List.replicate a.size 0

theorem foldl_append_pieces (a : HashAlgo) (pieces : List Bytes) : ∀ b : Bytes,
    pieces.foldl (fun (s : HashAlgo × Bytes) piece => (s.1, s.2 ++ piece)) (a, b) = (a, b ++ pieces.flatten) := by
  induction pieces with
  | nil => exact fun b => by rw [List.flatten_nil, List.append_nil, List.foldl_nil]
  | cons piece pieces ih => exact fun b => by rw [List.foldl_cons, ih, List.flatten_cons, List.append_assoc]

def md5Digests : Digests where
  State := HashAlgo × Bytes
  new a := (a, [])
  update s b := (s.1, s.2 ++ b)
  finalize s := md5OrZero s.1 s.2
  hash := md5OrZero
  update_nil s := by rw [List.append_nil]
  finalize_updates a pieces := by
    rw [foldl_append_pieces]
    rfl
  hash_length a m := by
    rw [md5OrZero]
    split
    · rename_i h
      rw [h.1]
      rfl
    · split
      · rename_i h
        rw [h.1]
        rfl
      · exact List.length_replicate

def twoBds : Layout where
  n := 2
  bd i := if i = 0 then 0x100 else 0x120
  src i := if i = 0 then 0x200 else 0x210
  cap _ := 16
  sa := 0x300
  upd := 0x400
  n_pos := by decide
  n_le := by decide
  cap_le := by decide
  bd_ne := by decide
  bd_bd := by unfold Apart; decide
  bd_src := by unfold Apart; decide
  src_src := by unfold Apart; decide
  sa_bd := by unfold Apart; decide
  sa_src := by unfold Apart; decide
  bd_upd := by unfold Apart; decide

def abc : Job where
  bufs := [[0x61], [0x62], [0x63]]
  msglen := 3
  bufs_ne := by decide
  msglen_ne := by decide
  init_le := by decide
  le_total := by decide

def abcBd (j : ℕ) : BufferDescriptor where
  bdCtrl := ⟨if j = 0 then 0x00400001 else if j = 2 then 0x000C0001 else 1⟩
  saAddr := twoBds.sa
  srcaddr := twoBds.src (j % 2)
  dstaddr := 0
  nxtptr := twoBds.bd ((j + 1) % 2)
  updptr := twoBds.upd
  msglen := if j = 2 then 3 else 0
  encoff := 0

/-- The ring set up, with ALGO MD5 in the security association. -/
def ringMem : Memory :=
  let mem : Memory := { bytes := fun _ => 0, mapped := fun _ => true }
  ((mem.store 0x100 (abcBd 0).toBytes).store 0x120 (abcBd 1).toBytes).store 0x300 (leBytes 0x2000)

theorem abc_fitsIn : abc.FitsIn twoBds := by
  unfold Job.FitsIn
  decide +kernel

theorem ringMem_built : twoBds.Built .md5 ringMem := by
  refine ⟨⟨?_, ?_, ?_, ?_, ?_⟩, ?_, ?_⟩ <;> decide +kernel

theorem nil_idle : Registry.Idle ([] : Registry md5Digests) := fun _ hst => absurd hst List.not_mem_nil

/-- The slot of a registry that holds one callback. -/
theorem exists_of_completed {reg : Registry D} (h : reg.map (Option.map (·.completed)) = [some true]) :
    ∃ st, reg = [some st] ∧ st.completed = true := by
  obtain ⟨o, rfl, ho⟩ := List.map_eq_singleton_iff.mp h
  obtain ⟨st, rfl, hst⟩ := Option.map_eq_some_iff.mp ho
  exact ⟨st, rfl, hst⟩

/-- A tick after each buffer: the digest is that of the message. -/
theorem abc_in_order : ∃ idx reg', arm (D := md5Digests) (twoBds.bd 0) false ringMem [] = some (idx, reg') ∧
    ∃ log s st, Run (System.step twoBds abc) { mem := ringMem, reg := reg' } log s ∧ s.reg = [some st] ∧
      st.completed = true ∧ s.mem.load twoBds.upd.toNat 16 = byteSwapWords (md5OrZero .md5 abc.message) := by
  obtain ⟨idx, reg', harm, hruns⟩ := streaming_hash_in_order md5Digests twoBds abc .md5 false ringMem [] abc_fitsIn
    ringMem_built nil_idle
  refine ⟨idx, reg', harm, ?_⟩
  have hreg : reg' = [some { outSwap := false, bdAddrs := twoBds.addrs }] := by
    rw [twoBds.arm_ring ringMem_built] at harm
    cases harm
    rfl
  have htrace : (trace (System.step twoBds abc) { mem := ringMem, reg := reg' }
      [.fill (abcBd 0), .enable, .tick, .fill (abcBd 1), .enable, .tick, .fill (abcBd 2), .enable, .tick]).map
      (testLast fun past e s => decide (∀ ev ∈ past ++ [e], ev.input = .tick → ev.pre.NoWrap twoBds) &&
        decide (s.reg.map (Option.map (·.completed)) = [some true])) = .ok true := by
    rw [hreg]
    decide +kernel
  obtain ⟨past, e, s, hrun, htest⟩ := exists_run_of_trace htrace
  rw [Bool.and_eq_true, decide_eq_true_iff, decide_eq_true_iff] at htest
  obtain ⟨st, hst, hdone⟩ := exists_of_completed htest.2
  obtain ⟨⟨p, st', hst', hord⟩, -⟩ := hruns _ s hrun htest.1
  rw [hst] at hst'
  cases hst'
  exact ⟨_, s, st, hrun, hst, hdone, (hord.done hdone).2⟩

/-- Two buffers behind the first one, the second of them in the first descriptor again: the tick takes it
first, and leaves the other for good. -/
theorem wrapped_buffer_skips : abc.FitsIn twoBds ∧ twoBds.Built .md5 ringMem ∧
    ∃ idx reg', arm (D := md5Digests) (twoBds.bd 0) false ringMem [] = some (idx, reg') ∧
    ∃ log s st, Run (System.step twoBds abc) { mem := ringMem, reg := reg' } log s ∧ s.reg = [some st] ∧
      st.completed = true ∧ s.enabled = abc.bufs.length ∧ descEnAt s.mem (twoBds.bd 1).toNat = true ∧
      s.mem.load twoBds.upd.toNat 16 = byteSwapWords (md5OrZero .md5 [0x61, 0x63]) ∧
      s.mem.load twoBds.upd.toNat 16 ≠ byteSwapWords (md5OrZero .md5 abc.message) := by
  refine ⟨abc_fitsIn, ringMem_built, _, _, twoBds.arm_ring ringMem_built false [], ?_⟩
  have htrace : (trace (System.step twoBds abc)
      { mem := ringMem, reg := [some ({ outSwap := false, bdAddrs := twoBds.addrs } : State md5Digests)] }
      [.fill (abcBd 0), .enable, .tick, .fill (abcBd 1), .enable, .fill (abcBd 2), .enable, .tick]).map
      (testLast fun _ _ s => decide (s.reg.map (Option.map (·.completed)) = [some true] ∧
        s.enabled = abc.bufs.length ∧ descEnAt s.mem (twoBds.bd 1).toNat = true ∧
        s.mem.load twoBds.upd.toNat 16 = byteSwapWords (md5OrZero .md5 [0x61, 0x63]) ∧
        s.mem.load twoBds.upd.toNat 16 ≠ byteSwapWords (md5OrZero .md5 abc.message))) = .ok true := by
    decide +kernel
  obtain ⟨past, e, s, hrun, htest⟩ := exists_run_of_trace htrace
  obtain ⟨hreg, hrest⟩ := decide_eq_true_iff.mp htest
  obtain ⟨st, hst, hdone⟩ := exists_of_completed hreg
  exact ⟨_, s, st, hrun, hst, hdone, hrest⟩

end PIC32
end Simulators
