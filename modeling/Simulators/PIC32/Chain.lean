/-
# PIC32MZ crypto engine: the walk along a chain

The engine takes the descriptors one after the other, each in the memory that
the ones before it have left. `visit k` is where the walk stands before its
descriptor `k`, and a descriptor either overruns its buffer, is refused, or is
executed. A walk that overruns panics inside of the store to CECON, and a walk
of `maxBdChain` descriptors that has not come to an end is taken for one that
has.

Key theorems: `write_returns_iff`, `truthful_iff`.
-/
import Simulators.PIC32.Engine
import Simulators.PIC32.Streaming
import Simulators.PIC32.Tasks

namespace Simulators
namespace PIC32

/-! ### One descriptor -/

/-- An enabled descriptor with its security association. -/
def fetched (mem : Memory) (bdAddr : ℕ) : Option (BufferDescriptor × SecurityAssociation) :=
  (BufferDescriptor.readPhys mem bdAddr).bind fun bd =>
    if bd.descEnabled = true ∧ bd.saFetchEnabled = true then
      (SecurityAssociation.readPhys mem bd.saAddr.toNat).map fun sa => (bd, sa)
    else none

/-- The task of the descriptor goes over more bytes than its buffer has. -/
def overruns (mem : Memory) (bdAddr : ℕ) : Bool :=
  match fetched mem bdAddr with
  | none => false
  | some (bd, sa) =>
    mem.backed bd.srcaddr.toNat bd.buflen && (task sa.ctrl).any fun t => bd.buflen < t.reach bd.msglen.toNat

/-- The descriptor and the memory after it. -/
def executed (C : Crates) (outSwap : Bool) (mem : Memory) (bdAddr : ℕ) : Option (BufferDescriptor × Memory) :=
  match fetched mem bdAddr with
  | none => none
  | some (bd, sa) =>
    match perform C sa bd outSwap mem with
    | .done mem => some (bd, mem)
    | _ => none

section Descriptor

variable {C : Crates} {outSwap : Bool} {mem : Memory} {bdAddr : ℕ} {bd : BufferDescriptor} {sa : SecurityAssociation}

theorem runBd_of_fetched (C : Crates) (outSwap : Bool) (h : fetched mem bdAddr = some (bd, sa)) :
    runBd C outSwap bdAddr mem = (execute C sa bd outSwap mem).map fun mem => (bd, mem) := by
  rw [fetched, Option.bind_eq_some_iff] at h
  obtain ⟨bd', hbd, h⟩ := h
  split at h
  · rename_i hon
    rw [Option.map_eq_some_iff] at h
    obtain ⟨sa', hsa, hpair⟩ := h
    cases hpair
    rw [runBd, hbd, Handler.orRefuse, Handler.ok_bind, Handler.ensure, if_pos hon.1, Handler.ok_bind, Handler.ensure,
      if_pos hon.2, Handler.ok_bind, hsa, Handler.orRefuse, Handler.ok_bind]
    cases execute C sa bd outSwap mem <;> rfl
  · cases h

theorem sized_of_fetched (h : fetched mem bdAddr = some (bd, sa)) : sa.Sized := by
  rw [fetched, Option.bind_eq_some_iff] at h
  obtain ⟨bd', -, h⟩ := h
  split at h
  · rw [Option.map_eq_some_iff] at h
    obtain ⟨sa', hsa, hpair⟩ := h
    cases hpair
    exact SecurityAssociation.sized_of_readPhys hsa
  · cases h

theorem runBd_of_not_fetched (h : fetched mem bdAddr = none) :
    ∃ e, runBd C outSwap bdAddr mem = .error (.refuse e) := by
  rw [runBd]
  rw [fetched] at h
  cases hbd : BufferDescriptor.readPhys mem bdAddr with
  | none => exact ⟨_, rfl⟩
  | some bd =>
    rw [hbd, Option.bind_some] at h
    rw [Handler.orRefuse, Handler.ok_bind]
    by_cases hdesc : bd.descEnabled = true
    · by_cases hfetch : bd.saFetchEnabled = true
      · rw [if_pos ⟨hdesc, hfetch⟩, Option.map_eq_none_iff] at h
        rw [Handler.ensure, if_pos hdesc, Handler.ok_bind, Handler.ensure, if_pos hfetch, Handler.ok_bind, h]
        exact ⟨_, rfl⟩
      · rw [Handler.ensure, if_pos hdesc, Handler.ok_bind, Handler.ensure, if_neg hfetch]
        exact ⟨_, rfl⟩
    · rw [Handler.ensure, if_neg hdesc]
      exact ⟨_, rfl⟩

/-- A task overruns if its buffer is there and too short. -/
theorem perform_eq_overrun (C : Crates) (sa : SecurityAssociation) (bd : BufferDescriptor) (outSwap : Bool)
    (mem : Memory) : perform C sa bd outSwap mem = .overrun ↔
    (mem.backed bd.srcaddr.toNat bd.buflen && (task sa.ctrl).any fun t => bd.buflen < t.reach bd.msglen.toNat) =
      true := by
  rw [perform, Memory.readPhys]
  by_cases hback : mem.backed bd.srcaddr.toNat bd.buflen = true
  · rw [if_pos hback, hback, Bool.true_and]
    dsimp only
    cases task sa.ctrl with
    | none => simp [performOn]
    | some t =>
      rw [performOn, Option.any_some, decide_eq_true_eq]
      by_cases h : bd.buflen < t.reach bd.msglen.toNat
      · rw [if_pos h]
        exact iff_of_true rfl h
      · rw [if_neg h]
        refine iff_of_false ?_ h
        split <;> exact Verdict.noConfusion
  · rw [if_neg hback, Bool.eq_false_iff.mpr hback]
    simp

/-- What the engine does with a descriptor. -/
theorem runBd_cases (C : Crates) (outSwap : Bool) (mem : Memory) (bdAddr : ℕ) :
    (overruns mem bdAddr = true ∧ executed C outSwap mem bdAddr = none ∧
      ∃ p, runBd C outSwap bdAddr mem = .error (.panic p)) ∨
    (overruns mem bdAddr = false ∧ executed C outSwap mem bdAddr = none ∧
      ∃ e, runBd C outSwap bdAddr mem = .error (.refuse e)) ∨
    (overruns mem bdAddr = false ∧
      ∃ r, executed C outSwap mem bdAddr = some r ∧ runBd C outSwap bdAddr mem = .ok r) := by
  cases hf : fetched mem bdAddr with
  | none => exact .inr (.inl ⟨by rw [overruns, hf], by rw [executed, hf], runBd_of_not_fetched hf⟩)
  | some r =>
    obtain ⟨bd, sa⟩ := r
    have hrun := runBd_of_fetched C outSwap hf
    have hverdict := verdict_execute C bd outSwap mem (sized_of_fetched hf)
    have hover := perform_eq_overrun C sa bd outSwap mem
    rw [overruns, executed, hf, hrun]
    dsimp only
    rcases hx : execute C sa bd outSwap mem with (p | e) | mem'
    · rw [hx] at hverdict
      rw [← hverdict]
      exact .inl ⟨hover.mp hverdict.symm, rfl, p, rfl⟩
    · rw [hx] at hverdict
      rw [← hverdict] at hover ⊢
      exact .inr (.inl ⟨Bool.eq_false_iff.mpr fun h => Verdict.noConfusion (hover.mpr h), rfl, e, rfl⟩)
    · rw [hx] at hverdict
      rw [← hverdict] at hover ⊢
      exact .inr (.inr ⟨Bool.eq_false_iff.mpr fun h => Verdict.noConfusion (hover.mpr h), (bd, mem'), rfl, rfl⟩)

end Descriptor

/-! ### The walk -/

/-- Where the walk stands after a descriptor that is executed and does not end it. -/
def next (C : Crates) (outSwap : Bool) (s : ℕ × Memory) : Option (ℕ × Memory) :=
  (executed C outSwap s.2 s.1).bind fun r => if r.1.Ends s.1 then none else some (r.1.nxtptr.toNat, r.2)

/-- The memory after a descriptor that is executed and ends the walk. -/
def final (C : Crates) (outSwap : Bool) (s : ℕ × Memory) : Option Memory :=
  (executed C outSwap s.2 s.1).bind fun r => if r.1.Ends s.1 then some r.2 else none

/-- Where the walk stands before its descriptor `k`: its address and the memory. -/
def visit (C : Crates) (outSwap : Bool) : ℕ → ℕ × Memory → Option (ℕ × Memory)
  | 0, s => some s
  | k + 1, s => (next C outSwap s).bind (visit C outSwap k)

/-- The engine comes to a descriptor that overruns. -/
def WalkOverruns (C : Crates) (outSwap : Bool) (s : ℕ × Memory) : Prop :=
  ∃ k < maxBdChain, ∃ s', visit C outSwap k s = some s' ∧ overruns s'.2 s'.1 = true

/-- The engine executes descriptors in turn up to one that ends the chain, and `mem` is left. -/
def WalkCompletes (C : Crates) (outSwap : Bool) (s : ℕ × Memory) (mem : Memory) : Prop :=
  ∃ k < maxBdChain, ∃ s', visit C outSwap k s = some s' ∧ final C outSwap s' = some mem

section Walk

variable {C : Crates} {outSwap : Bool}

theorem visit_add (j : ℕ) : ∀ (k : ℕ) (s : ℕ × Memory),
    visit C outSwap (k + j) s = (visit C outSwap k s).bind (visit C outSwap j)
  | 0, s => by rw [Nat.zero_add, visit, Option.bind_some]
  | k + 1, s => by
    rw [Nat.succ_add, visit, visit]
    cases next C outSwap s with
    | none => rfl
    | some s' => exact visit_add j k s'

theorem next_of_final {s : ℕ × Memory} {mem : Memory} (h : final C outSwap s = some mem) : next C outSwap s = none := by
  rw [final, Option.bind_eq_some_iff] at h
  obtain ⟨r, hr, h⟩ := h
  rw [next, hr, Option.bind_some]
  split at h
  · rename_i hend
    rw [if_pos hend]
  · cases h

theorem next_of_ends {mem mem' : Memory} {bdAddr : ℕ} {bd : BufferDescriptor}
    (h : executed C outSwap mem bdAddr = some (bd, mem')) (hends : bd.Ends bdAddr) :
    next C outSwap (bdAddr, mem) = none := by
  rw [next, h, Option.bind_some, if_pos hends]

/-- Behind its end the walk is nowhere. -/
theorem visit_of_final {k n : ℕ} {s s' : ℕ × Memory} {mem : Memory} (hk : k < n) (h : visit C outSwap k s = some s')
    (hf : final C outSwap s' = some mem) : visit C outSwap n s = none := by
  obtain ⟨j, rfl⟩ := Nat.exists_eq_add_of_lt hk
  rw [Nat.add_assoc, visit_add, h, Option.bind_some, visit, next_of_final hf, Option.bind_none]

/-- A walk that does not go on. -/
theorem walk_of_next_none {s : ℕ × Memory} (hover : overruns s.2 s.1 = false) (hnext : next C outSwap s = none) :
    ¬ WalkOverruns C outSwap s ∧ visit C outSwap maxBdChain s = none := by
  have hvisit : ∀ k, visit C outSwap (k + 1) s = none := fun k => by rw [visit, hnext, Option.bind_none]
  refine ⟨?_, hvisit 63⟩
  rintro ⟨k, -, s', hs, hs'⟩
  cases k with
  | zero =>
    cases hs
    rw [hover] at hs'
    cases hs'
  | succ k =>
    rw [hvisit k] at hs
    cases hs

/-- The loop ends without a panic exactly if no descriptor on its way overruns. -/
theorem runFrom_returns_iff : ∀ (fuel bdAddr : ℕ) (mem : Memory),
    (∃ r, runFrom C outSwap fuel bdAddr mem = .ok r) ↔
      ∀ k < fuel, ∀ s, visit C outSwap k (bdAddr, mem) = some s → overruns s.2 s.1 = false
  | 0, _, _ => ⟨fun _ _ hk => absurd hk (Nat.not_lt_zero _), fun _ => ⟨_, rfl⟩⟩
  | fuel + 1, bdAddr, mem => by
    rw [runFrom]
    rcases runBd_cases C outSwap mem bdAddr with ⟨hover, -, p, hrun⟩ | ⟨hover, hexec, e, hrun⟩ | ⟨hover, r, hexec, hrun⟩
    · rw [hrun]
      refine ⟨fun ⟨_, h⟩ => (by cases h), fun h => ?_⟩
      have h0 := h 0 (Nat.succ_pos _) (bdAddr, mem) rfl
      rw [hover] at h0
      cases h0
    · rw [hrun]
      refine ⟨fun _ k _ s hs => ?_, fun _ => ⟨_, rfl⟩⟩
      cases k with
      | zero =>
        cases hs
        exact hover
      | succ k =>
        rw [visit, next, hexec] at hs
        cases hs
    · obtain ⟨bd, mem'⟩ := r
      rw [hrun]
      dsimp only
      by_cases hend : bd.Ends bdAddr
      · rw [if_pos hend]
        refine ⟨fun _ k _ s hs => ?_, fun _ => ⟨_, rfl⟩⟩
        cases k with
        | zero =>
          cases hs
          exact hover
        | succ k =>
          rw [visit, next, hexec, Option.bind_some, if_pos hend] at hs
          cases hs
      · have hnext : next C outSwap (bdAddr, mem) = some (bd.nxtptr.toNat, mem') := by
          rw [next, hexec, Option.bind_some, if_neg hend]
        rw [if_neg hend, runFrom_returns_iff fuel bd.nxtptr.toNat mem']
        constructor
        · intro h k hk s hs
          cases k with
          | zero =>
            cases hs
            exact hover
          | succ k =>
            rw [visit, hnext, Option.bind_some] at hs
            exact h k (Nat.lt_of_succ_lt_succ hk) s hs
        · intro h k hk s hs
          apply h (k + 1) (Nat.succ_lt_succ hk) s
          rw [visit, hnext, Option.bind_some]
          exact hs

/-- The loop reports success at the end of the chain, and when it has gone on for long enough. -/
theorem runFrom_eq_ok_iff (out : Memory) : ∀ (fuel bdAddr : ℕ) (mem : Memory),
    runFrom C outSwap fuel bdAddr mem = .ok (.ok (), out) ↔
      (∃ k < fuel, ∃ s, visit C outSwap k (bdAddr, mem) = some s ∧ final C outSwap s = some out) ∨
        ∃ bdAddr', visit C outSwap fuel (bdAddr, mem) = some (bdAddr', out)
  | 0, bdAddr, mem => by
    constructor
    · intro h
      cases h
      exact .inr ⟨bdAddr, rfl⟩
    · rintro (⟨k, hk, -⟩ | ⟨bdAddr', h⟩)
      · exact absurd hk (Nat.not_lt_zero k)
      · cases h
        rfl
  | fuel + 1, bdAddr, mem => by
    have hsplit : (∃ k < fuel + 1, ∃ s, visit C outSwap k (bdAddr, mem) = some s ∧ final C outSwap s = some out) ↔
        final C outSwap (bdAddr, mem) = some out ∨
          ∃ k < fuel, ∃ s, visit C outSwap (k + 1) (bdAddr, mem) = some s ∧ final C outSwap s = some out := by
      constructor
      · rintro ⟨k, hk, s, hs, hf⟩
        cases k with
        | zero =>
          cases hs
          exact .inl hf
        | succ k => exact .inr ⟨k, Nat.lt_of_succ_lt_succ hk, s, hs, hf⟩
      · rintro (hf | ⟨k, hk, s, hs, hf⟩)
        · exact ⟨0, Nat.succ_pos fuel, (bdAddr, mem), rfl, hf⟩
        · exact ⟨k + 1, Nat.succ_lt_succ hk, s, hs, hf⟩
    rw [hsplit, runFrom]
    simp only [visit]
    rcases runBd_cases C outSwap mem bdAddr with ⟨-, hexec, p, hrun⟩ | ⟨-, hexec, e, hrun⟩ | ⟨-, r, hexec, hrun⟩
    · simp [hrun, next, final, hexec]
    · simp [hrun, next, final, hexec]
    · obtain ⟨bd, mem'⟩ := r
      rw [hrun]
      dsimp only
      by_cases hend : bd.Ends bdAddr
      · simp [next, final, hexec, hend]
      · simp [next, final, hexec, hend, runFrom_eq_ok_iff out fuel bd.nxtptr.toNat mem']

end Walk

/-! ### A store to CECON -/

namespace CryptoEngine

/-- The engine with the stored value in CECON. -/
def stored (e : CryptoEngine) (offset value : UInt32) : CryptoEngine :=
  { e with cecon := atomicOp e.cecon (offset >>> 2) value }

/-- The store goes to CECON and leaves START set, SWRST and the polling bit clear. -/
def StartsChain (e : CryptoEngine) (offset value : UInt32) : Prop :=
  offset < 16 ∧ (e.stored offset value).cecon &&& ceconSwrst = 0 ∧
    (e.stored offset value).cecon &&& ceconPolling = 0 ∧ (e.stored offset value).cecon &&& ceconStart ≠ 0

instance (e : CryptoEngine) (offset value : UInt32) : Decidable (e.StartsChain offset value) :=
  inferInstanceAs (Decidable (_ ∧ _))

/-- Where the walk starts. -/
def head (e : CryptoEngine) (mem : Memory) : ℕ × Memory := (e.cebdpaddr.toNat, mem)

/-- CESTAT.ERROP. -/
def errop (e : CryptoEngine) : UInt32 := e.cestat &&& 0xF

variable {C : Crates} {e : CryptoEngine} {offset value : UInt32} {mem : Memory} {reg : Registry C.digests}

theorem splitAtomic_cecon (offset : UInt32) :
    splitAtomic offset ceconOff = if offset < 16 then some (offset >>> 2) else none := by
  rw [splitAtomic, ceconOff, UInt32.sub_zero]

/-- What the store that starts a chain does. -/
theorem write_of_startsChain (h : e.StartsChain offset value) : e.write C offset value mem reg =
    match (e.stored offset value).runChain C (e.stored offset value).outSwap mem with
    | .error p => .error p
    | .ok (.ok (), mem) =>
      .ok ({ e.stored offset value with ceintsrc := e.ceintsrc ||| ceintsrcPktif }.clearStart, mem, reg)
    | .ok (.error _, mem) => .ok ((e.stored offset value).fail.clearStart, mem, reg) := by
  obtain ⟨hoff, hrst, hpoll, hstart⟩ := h
  rw [write, splitAtomic_cecon, if_pos hoff]
  dsimp only
  rw [writeCecon]
  rw [stored] at hrst hpoll hstart
  rw [if_neg (not_not.mpr hrst), if_neg (fun hc => hc.1 hpoll), if_pos hstart]
  rfl

/-- Every other store returns. -/
theorem write_of_not_startsChain (h : ¬ e.StartsChain offset value) : ∃ r, e.write C offset value mem reg = .ok r := by
  rw [write, splitAtomic_cecon]
  by_cases hoff : offset < 16
  · rw [if_pos hoff]
    dsimp only
    rw [writeCecon]
    dsimp only
    split_ifs with hrst hpoll hstart
    · exact ⟨_, rfl⟩
    · split
      · exact ⟨_, rfl⟩
      · exact ⟨_, rfl⟩
    · exfalso
      exact h ⟨hoff, not_not.mp hrst, by_contra fun hc => hpoll ⟨hc, hstart⟩, hstart⟩
    · exact ⟨_, rfl⟩
  · rw [if_neg hoff]
    dsimp only
    split
    · exact ⟨_, rfl⟩
    · split
      · split
        · exact ⟨_, rfl⟩
        · exact ⟨_, rfl⟩
      · split
        · exact ⟨_, rfl⟩
        · split
          · exact ⟨_, rfl⟩
          · split
            · exact ⟨_, rfl⟩
            · exact ⟨_, rfl⟩

/-- The store returns if the chain does. -/
theorem write_returns_iff_runChain (h : e.StartsChain offset value) : (∃ r, e.write C offset value mem reg = .ok r) ↔
    ∃ r, (e.stored offset value).runChain C (e.stored offset value).outSwap mem = .ok r := by
  rw [write_of_startsChain h]
  rcases (e.stored offset value).runChain C (e.stored offset value).outSwap mem with p | ⟨_ | _, mem'⟩
  · exact iff_of_false (fun ⟨_, h⟩ => (by cases h)) fun ⟨_, h⟩ => (by cases h)
  · exact iff_of_true ⟨_, rfl⟩ ⟨_, rfl⟩
  · exact iff_of_true ⟨_, rfl⟩ ⟨_, rfl⟩

theorem runChain_returns_iff (swap : Bool) : (∃ r, e.runChain C swap mem = .ok r) ↔
    ¬ WalkOverruns C swap (e.head mem) := by
  rw [runChain, runFrom_returns_iff]
  constructor
  · rintro h ⟨k, hk, s, hs, hover⟩
    rw [h k hk s hs] at hover
    cases hover
  · intro h k hk s hs
    by_contra hc
    exact h ⟨k, hk, s, hs, Bool.eq_true_of_not_eq_false hc⟩

/-- A store panics exactly if it starts a chain with a descriptor on its way whose task is longer than its
buffer. -/
theorem write_returns_iff (C : Crates) (e : CryptoEngine) (offset value : UInt32) (mem : Memory)
    (reg : Registry C.digests) : (∃ r, e.write C offset value mem reg = .ok r) ↔
      (e.StartsChain offset value → ¬ WalkOverruns C (e.stored offset value).outSwap (e.head mem)) := by
  by_cases h : e.StartsChain offset value
  · rw [write_returns_iff_runChain h, runChain_returns_iff]
    exact ⟨fun hw _ => hw, fun hw => hw h⟩
  · exact iff_of_true (write_of_not_startsChain h) fun hc => absurd hc h

/-! ### Completion -/

/-- START is clear and PKTIF set, and ERROP is zero if and only if the chain was executed to its end,
which left the memory as it is. -/
structure Truthful (C : Crates) (outSwap : Bool) (s : ℕ × Memory) (e : CryptoEngine) (mem : Memory) : Prop where
  start : e.cecon &&& ceconStart = 0
  pktif : e.ceintsrc &&& ceintsrcPktif ≠ 0
  completes : e.errop = 0 → WalkCompletes C outSwap s mem
  reports : e.errop ≠ 0 → ∀ mem', ¬ WalkCompletes C outSwap s mem'

theorem clearStart_start (e : CryptoEngine) : e.clearStart.cecon &&& ceconStart = 0 := clear_and_self _ _

theorem pktif_set (v : UInt32) : (v ||| ceintsrcPktif) &&& ceintsrcPktif ≠ 0 := by
  rw [or_and_self]
  decide

theorem fail_errop (e : CryptoEngine) : e.fail.errop ≠ 0 := by
  intro h
  have hbit : e.fail.errop &&& 1 = 1 := by
    rw [errop, UInt32.and_assoc]
    exact or_and_self _ 1
  rw [h] at hbit
  cases hbit

/-- A walk that has gone on for as long as it may has not completed. -/
theorem not_completes_of_visit {swap : Bool} {s s' : ℕ × Memory} (h : visit C swap maxBdChain s = some s')
    (out : Memory) :
    ¬ WalkCompletes C swap s out := by
  rintro ⟨k, hk, t, ht, hf⟩
  rw [visit_of_final hk ht hf] at h
  cases h

/-- It is reported as a success. -/
theorem not_truthful_of_visit {s' : ℕ × Memory} (hstart : e.StartsChain offset value) (herr : e.errop = 0)
    (h : visit C (e.stored offset value).outSwap maxBdChain (e.head mem) = some s') :
    ¬ ∃ r, e.write C offset value mem reg = .ok r ∧
      Truthful C (e.stored offset value).outSwap (e.head mem) r.1 r.2.1 := by
  have hrun : (e.stored offset value).runChain C (e.stored offset value).outSwap mem = .ok (.ok (), s'.2) :=
    (runFrom_eq_ok_iff s'.2 maxBdChain _ mem).mpr (.inr ⟨s'.1, h⟩)
  rw [write_of_startsChain hstart, hrun]
  rintro ⟨r, hr, htrue⟩
  cases hr
  exact not_completes_of_visit h _ (htrue.completes herr)

/-- The engine reports the truth exactly if no descriptor on its way overruns and the walk comes to an end. -/
theorem truthful_iff (C : Crates) (e : CryptoEngine) (offset value : UInt32) (mem : Memory) (reg : Registry C.digests)
    (hstart : e.StartsChain offset value) (herr : e.errop = 0) :
    (∃ r, e.write C offset value mem reg = .ok r ∧
      Truthful C (e.stored offset value).outSwap (e.head mem) r.1 r.2.1) ↔
    ¬ WalkOverruns C (e.stored offset value).outSwap (e.head mem) ∧
      visit C (e.stored offset value).outSwap maxBdChain (e.head mem) = none := by
  constructor
  · rintro ⟨r, hr, htrue⟩
    constructor
    · exact (runChain_returns_iff (e := e.stored offset value) _).mp ((write_returns_iff_runChain hstart).mp ⟨r, hr⟩)
    · by_contra hne
      obtain ⟨s', hs'⟩ := Option.ne_none_iff_exists'.mp hne
      exact not_truthful_of_visit hstart herr hs' ⟨r, hr, htrue⟩
  · rintro ⟨hover, hvisit⟩
    obtain ⟨⟨res, out⟩, hrun⟩ := (runChain_returns_iff (e := e.stored offset value) _).mpr hover
    rw [write_of_startsChain hstart, hrun]
    cases res with
    | ok u =>
      have hdone : WalkCompletes C (e.stored offset value).outSwap (e.head mem) out := by
        rcases (runFrom_eq_ok_iff out maxBdChain _ mem).mp hrun with h | ⟨bdAddr', h⟩
        · exact h
        · rw [show visit C (e.stored offset value).outSwap maxBdChain (e.head mem) = _ from h] at hvisit
          cases hvisit
      exact ⟨_, rfl, clearStart_start _, pktif_set _, fun _ => hdone, fun hne => absurd herr hne⟩
    | error err =>
      refine ⟨_, rfl, clearStart_start _, pktif_set _, fun h0 => absurd h0 (fail_errop _), fun _ mem' hdone => ?_⟩
      have hok : (e.stored offset value).runChain C (e.stored offset value).outSwap mem = .ok (.ok (), mem') :=
        (runFrom_eq_ok_iff mem' maxBdChain _ mem).mpr (.inl hdone)
      rw [hrun] at hok
      cases hok

end CryptoEngine

/-! ### Descriptors without a message, and one with a message but no buffer -/

/-- Words from address 0 on, and zeros behind them. -/
def wordsMem (ws : List UInt32) : Memory where
  bytes a := ((((ws[a / 4]?).map leBytes).getD [])[a % 4]?).getD 0
  mapped _ := true

/-- Eight zeros, the two descriptors at 32 and 64, and a security association for AES-128 in ECB mode. -/
def twoBdsMem (bd bd' : List UInt32) : Memory := wordsMem (List.replicate 8 0 ++ bd ++ bd' ++ [0x1008])

/-- A descriptor without a message changes nothing. -/
theorem executed_empty {C : Crates} {outSwap : Bool} {mem : Memory} {bdAddr : ℕ} {bd : BufferDescriptor}
    {sa : SecurityAssociation} (hf : fetched mem bdAddr = some (bd, sa))
    (ht : task sa.ctrl = some (.cipher (.aes .k128 (.blocks .ecb)))) (hbuf : bd.buflen = 0) (hmsg : bd.msglen = 0) :
    executed C outSwap mem bdAddr = some (bd, mem) := by
  have hread : mem.readPhys bd.srcaddr.toNat bd.buflen = some [] := by
    rw [hbuf]
    rfl
  have hout : wordOrder outSwap ((Task.cipher (.aes .k128 (.blocks .ecb))).output C sa bd.msglen.toNat []) = [] := by
    rw [hmsg]
    cases outSwap <;> rfl
  have hwrite : mem.writePhys ((Task.cipher (.aes .k128 (.blocks .ecb))).target bd).toNat [] = some mem := by
    have hback : mem.backed ((Task.cipher (.aes .k128 (.blocks .ecb))).target bd).toNat ([] : Bytes).length = true :=
      rfl
    rw [Memory.writePhys, if_pos hback, mem.store_nil]
  have hreach : ¬ bd.buflen < (Task.cipher (.aes .k128 (.blocks .ecb))).reach bd.msglen.toNat := by
    rw [hmsg, hbuf]
    exact Nat.not_lt_zero _
  rw [executed, hf]
  dsimp only
  rw [perform, hread]
  dsimp only
  rw [ht, performOn, if_neg hreach, hout, hwrite]

/-- MSGLEN is 16 and BUFLEN 0: the store panics. -/
theorem overlong_message_panics : ∃ (e : CryptoEngine) (offset value : UInt32) (mem : Memory),
    e.StartsChain offset value ∧ ∀ (C : Crates) (reg : Registry C.digests),
      ¬ ∃ r, e.write C offset value mem reg = .ok r := by
  refine ⟨{ cebdpaddr := 32 }, 0, 0xA5, twoBdsMem [0x80480000, 96, 0, 0, 0, 0, 16, 0] (List.replicate 8 0),
    by decide, fun C reg h => ?_⟩
  have hstart : CryptoEngine.StartsChain { cebdpaddr := 32 } 0 0xA5 := by decide
  apply (CryptoEngine.runChain_returns_iff _).mp ((CryptoEngine.write_returns_iff_runChain hstart).mp h)
  exact ⟨0, by decide, _, rfl, by decide +kernel⟩

/-- The task, the lengths, whether the descriptor ends the walk, and NXTPTR. -/
def summary (mem : Memory) (bdAddr : ℕ) : Option (Option Task × ℕ × UInt32 × Bool × UInt32) :=
  (fetched mem bdAddr).map fun r => (task r.2.ctrl, r.1.buflen, r.1.msglen, decide (r.1.Ends bdAddr), r.1.nxtptr)

theorem executed_of_summary (C : Crates) (outSwap : Bool) {mem : Memory} {bdAddr : ℕ} {ends : Bool} {nxtptr : UInt32}
    (h : summary mem bdAddr = some (some (.cipher (.aes .k128 (.blocks .ecb))), 0, 0, ends, nxtptr)) :
    ∃ bd, executed C outSwap mem bdAddr = some (bd, mem) ∧ decide (bd.Ends bdAddr) = ends ∧ bd.nxtptr = nxtptr := by
  obtain ⟨⟨bd, sa⟩, hf, hr⟩ := Option.map_eq_some_iff.mp h
  simp only [Prod.mk.injEq] at hr
  obtain ⟨ht, hbuf, hmsg, hends, hnxt⟩ := hr
  exact ⟨bd, executed_empty hf ht hbuf hmsg, hends, hnxt⟩

theorem next_of_summary {C : Crates} {outSwap : Bool} {mem : Memory} {bdAddr : ℕ} {nxtptr : UInt32}
    (h : summary mem bdAddr = some (some (.cipher (.aes .k128 (.blocks .ecb))), 0, 0, false, nxtptr)) :
    next C outSwap (bdAddr, mem) = some (nxtptr.toNat, mem) := by
  obtain ⟨bd, hexec, hends, rfl⟩ := executed_of_summary C outSwap h
  rw [next, hexec, Option.bind_some, if_neg (of_decide_eq_false hends)]

/-- A walk that comes back goes on. -/
theorem visit_loop {C : Crates} {outSwap : Bool} {s s' : ℕ × Memory} (h : next C outSwap s = some s')
    (h' : next C outSwap s' = some s) : ∀ k : ℕ, visit C outSwap (2 * k) s = some s
  | 0 => rfl
  | k + 1 => by
    rw [Nat.mul_succ, visit, h, Option.bind_some, visit, h', Option.bind_some]
    exact visit_loop h h' k

/-- Two descriptors that point to each other: no end is reached, and ERROP stays zero. -/
theorem loop_reported_done : ∃ (e : CryptoEngine) (offset value : UInt32) (mem : Memory),
    e.StartsChain offset value ∧ e.errop = 0 ∧ ∀ (C : Crates) (reg : Registry C.digests),
      ¬ ∃ r, e.write C offset value mem reg = .ok r ∧
        CryptoEngine.Truthful C (e.stored offset value).outSwap (e.head mem) r.1 r.2.1 := by
  refine ⟨{ cebdpaddr := 32 }, 0, 0xA5, twoBdsMem [0x80400000, 96, 0, 0, 64, 0, 0, 0] [0x80400000, 96, 0, 0, 32, 0, 0, 0],
    by decide, by decide, fun C reg => ?_⟩
  have hthere := @next_of_summary C true _ 32 64
    (show summary (twoBdsMem [0x80400000, 96, 0, 0, 64, 0, 0, 0] [0x80400000, 96, 0, 0, 32, 0, 0, 0]) 32 = _ by
      decide +kernel)
  have hback := @next_of_summary C true _ 64 32
    (show summary (twoBdsMem [0x80400000, 96, 0, 0, 64, 0, 0, 0] [0x80400000, 96, 0, 0, 32, 0, 0, 0]) 64 = _ by
      decide +kernel)
  exact CryptoEngine.not_truthful_of_visit (by decide) (by decide) (visit_loop hthere hback 32)

def identityCipher (n : ℕ) : BlockCipher n := ⟨fun _ b => b, fun _ b => b, fun _ _ => rfl⟩

/-- Crates for descriptors that call no cipher. -/
def idleCrates : Crates := ⟨identityCipher 16, identityCipher 8, identityCipher 8, md5Digests⟩

/-- A single descriptor without a message. -/
theorem single_truthful : ∃ r, ({ cebdpaddr := 32 } : CryptoEngine).write idleCrates 0 0xA5
      (twoBdsMem [0x80480000, 96, 0, 0, 0, 0, 0, 0] (List.replicate 8 0)) [] = .ok r ∧
    CryptoEngine.Truthful idleCrates true (32, twoBdsMem [0x80480000, 96, 0, 0, 0, 0, 0, 0] (List.replicate 8 0))
      r.1 r.2.1 := by
  apply (CryptoEngine.truthful_iff idleCrates { cebdpaddr := 32 } 0 0xA5 _ [] (by decide) (by decide)).mpr
  have hsum : summary (twoBdsMem [0x80480000, 96, 0, 0, 0, 0, 0, 0] (List.replicate 8 0)) 32 =
      some (some (.cipher (.aes .k128 (.blocks .ecb))), 0, 0, true, 0) := by decide +kernel
  obtain ⟨bd, hexec, hends, -⟩ := executed_of_summary idleCrates true hsum
  apply walk_of_next_none
  · decide +kernel
  · exact next_of_ends hexec (of_decide_eq_true hends)

end PIC32
end Simulators
