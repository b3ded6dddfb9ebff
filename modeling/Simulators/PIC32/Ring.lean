/-
# PIC32MZ crypto engine: a ring of descriptors and its firmware

The firmware of a streaming hash has a ring of one to eight buffer descriptors
in RAM, each with a buffer of its own, and a message cut into buffers. It takes
the descriptors round the ring: when DESC_EN of the next one is clear it writes
the buffer and the descriptor, and then it sets DESC_EN. Ticks come at any time.

`System` is the memory, the registered callbacks and where the firmware is;
`System.step` is one step of the firmware or a tick.

Key theorem: `Layout.arm_ring`.
-/
import Simulators.PIC32.Polling

namespace Simulators
namespace PIC32

/-! ### The ring in memory -/

/-- The addresses of `n` descriptors and their buffers, of the security
association and of the digest; only the digest may lie over a buffer. -/
structure Layout where
  n : ℕ
  bd : ℕ → UInt32
  src : ℕ → UInt32
  cap : ℕ → ℕ
  sa : UInt32
  upd : UInt32
  n_pos : 0 < n
  n_le : n ≤ 8
  cap_le : ∀ i < n, cap i ≤ 65535
  bd_ne : ∀ i < n, bd i ≠ 0
  bd_bd : ∀ i < n, ∀ j < n, i ≠ j → Apart (bd i).toNat 32 (bd j).toNat 32
  bd_src : ∀ i < n, ∀ j < n, Apart (bd i).toNat 32 (src j).toNat (cap j)
  src_src : ∀ i < n, ∀ j < n, i ≠ j → Apart (src i).toNat (cap i) (src j).toNat (cap j)
  sa_bd : ∀ i < n, Apart sa.toNat SecurityAssociation.size (bd i).toNat 32
  sa_src : ∀ i < n, Apart sa.toNat SecurityAssociation.size (src i).toNat (cap i)
  bd_upd : ∀ i < n, Apart (bd i).toNat 32 upd.toNat 32

/-- DESC_EN, as a read of BD_CTRL shows it. -/
def descEnAt (mem : Memory) (addr : ℕ) : Bool := (BdCtrl.mk (leWord (mem.load addr 4))).descEn

namespace Layout

variable (L : Layout)

/-- Everything is backed by RAM, and the security association selects `a`. -/
structure Backed (a : HashAlgo) (mem : Memory) : Prop where
  bd : ∀ i < L.n, mem.backed (L.bd i).toNat 32 = true
  src : ∀ i < L.n, mem.backed (L.src i).toNat (L.cap i) = true
  sa : mem.backed L.sa.toNat SecurityAssociation.size = true
  upd : mem.backed L.upd.toNat 32 = true
  algo : HashAlgo.fromAlgo (SecurityAssociation.ofBytes (mem.load L.sa.toNat SecurityAssociation.size)).ctrl.algo = some a

/-- The ring as the firmware has set it up: closed by NXTPTR, and no descriptor enabled. -/
structure Built (a : HashAlgo) (mem : Memory) : Prop extends L.Backed a mem where
  nxtptr : ∀ i < L.n, (BufferDescriptor.ofBytes (mem.load (L.bd i).toNat 32)).nxtptr = L.bd ((i + 1) % L.n)
  off : ∀ i < L.n, descEnAt mem (L.bd i).toNat = false

/-- The descriptors in the order of the ring. -/
def addrs : List ℕ := (List.range L.n).map fun i => (L.bd i).toNat

variable {L} {a : HashAlgo} {mem : Memory}

theorem bd_inj {i j : ℕ} (hi : i < L.n) (hj : j < L.n) (h : (L.bd i).toNat = (L.bd j).toNat) : i = j := by
  by_contra hne
  have hap := L.bd_bd i hi j hj hne
  rw [h] at hap
  rcases hap with hap | hap <;> omega

theorem Backed.readBd (h : L.Backed a mem) {i : ℕ} (hi : i < L.n) :
    BufferDescriptor.readPhys mem (L.bd i).toNat = some (.ofBytes (mem.load (L.bd i).toNat 32)) := by
  rw [BufferDescriptor.readPhys, Memory.readPhys, if_pos (h.bd i hi)]
  rfl

/-- The walk that has taken the first `i` descriptors takes them all. -/
theorem Built.collectFrom_ring (h : L.Built a mem) {i fuel : ℕ} (hi : i < L.n) (hfuel : L.n ≤ i + fuel) :
    collectFrom mem fuel (L.bd i).toNat ((List.range i).map fun j => (L.bd j).toNat) = some L.addrs := by
  induction fuel generalizing i with
  | zero => omega
  | succ fuel ih =>
    have hne : (L.bd i).toNat ≠ 0 := fun h0 => L.bd_ne i hi (UInt32.toNat_inj.mp h0)
    have hnew : (L.bd i).toNat ∉ (List.range i).map fun j => (L.bd j).toNat := by
      intro hmem
      obtain ⟨j, hj, heq⟩ := List.mem_map.mp hmem
      have hji := List.mem_range.mp hj
      exact absurd (bd_inj (Nat.lt_trans hji hi) hi heq) (Nat.ne_of_lt hji)
    have hsnoc : ((List.range i).map fun j => (L.bd j).toNat) ++ [(L.bd i).toNat] =
        (List.range (i + 1)).map fun j => (L.bd j).toNat := by
      rw [List.range_succ, List.map_append, List.map_singleton]
    rw [collectFrom, if_neg hne, if_neg hnew, h.readBd hi]
    dsimp only
    rw [h.nxtptr i hi, hsnoc]
    by_cases hlast : i + 1 = L.n
    · -- the ring closes here: either on the descriptor itself, or on one that is known
      rw [hlast, Nat.mod_self]
      split
      · rfl
      · cases fuel with
        | zero => rfl
        | succ fuel =>
          have h0 : (L.bd 0).toNat ≠ 0 := fun h0 => L.bd_ne 0 L.n_pos (UInt32.toNat_inj.mp h0)
          have hmem : (L.bd 0).toNat ∈ (List.range L.n).map fun j => (L.bd j).toNat :=
            List.mem_map.mpr ⟨0, List.mem_range.mpr L.n_pos, rfl⟩
          rw [collectFrom, if_neg h0, if_pos hmem]
          rfl
    · have hlt : i + 1 < L.n := by omega
      have hdiff : (L.bd (i + 1)).toNat ≠ (L.bd i).toNat := fun heq => by
        have := bd_inj hlt hi heq
        omega
      rw [Nat.mod_eq_of_lt hlt, if_neg hdiff]
      exact ih hlt (by omega)

/-- Arming a ring registers the callback over all its descriptors. -/
theorem arm_ring {D : Digests} (h : L.Built a mem) (outSwap : Bool) (reg : Registry D) :
    arm (L.bd 0) outSwap mem reg =
      some (reg.length, reg ++ [some { outSwap := outSwap, bdAddrs := L.addrs }]) := by
  have hfuel : L.n ≤ 0 + 8 := by
    have := L.n_le
    omega
  have hwalk : collectFrom mem 8 (L.bd 0).toNat [] = some L.addrs := h.collectFrom_ring L.n_pos hfuel
  have hne : L.addrs ≠ [] := by
    rw [addrs, Ne, List.map_eq_nil_iff, List.range_eq_nil]
    exact Nat.pos_iff_ne_zero.mp L.n_pos
  have hchain : collectChain mem (L.bd 0).toNat = some L.addrs := by
    obtain ⟨addr, addrs, hcons⟩ := List.exists_cons_of_ne_nil hne
    rw [collectChain, hwalk, hcons]
  rw [arm, if_neg (L.bd_ne 0 L.n_pos), hchain]
  rfl

end Layout

/-! ### The firmware -/

/-- A message cut into buffers; the last buffer may go on after its end. -/
structure Job where
  bufs : List Bytes
  msglen : UInt32
  bufs_ne : bufs ≠ []
  msglen_ne : msglen ≠ 0
  init_le : bufs.dropLast.flatten.length ≤ msglen.toNat
  le_total : msglen.toNat ≤ bufs.flatten.length

namespace Job

variable (J : Job)

def message : Bytes := J.bufs.flatten.take J.msglen.toNat

def buf (j : ℕ) : Bytes := (J.bufs[j]?).getD []

/-- What counts of buffer `j`: the last one is cut at MSGLEN. -/
def piece (j : ℕ) : Bytes :=
  if j + 1 = J.bufs.length then (J.buf j).take (J.msglen.toNat - J.bufs.dropLast.flatten.length) else J.buf j

/-- What counts of the first `k` buffers. -/
def pieces (k : ℕ) : List Bytes := (List.range k).map J.piece

/-- Each buffer fits into that of its descriptor. -/
def FitsIn (L : Layout) : Prop := ∀ j < J.bufs.length, (J.buf j).length ≤ L.cap (j % L.n)

/-- A descriptor for buffer `j`, not enabled yet: SA_FETCH_EN on the first, LAST_BD and LIFM on the
last one, and MSGLEN on no other. -/
def Announces (L : Layout) (j : ℕ) (bd : BufferDescriptor) : Prop :=
  bd.descEnabled = false ∧ bd.buflen = (J.buf j).length ∧ bd.srcaddr = L.src (j % L.n) ∧
    (j = 0 → bd.saFetchEnabled = true ∧ bd.saAddr = L.sa) ∧
    ((bd.lastBd && bd.lifm) = decide (j + 1 = J.bufs.length)) ∧
    (bd.msglen = if j + 1 = J.bufs.length then J.msglen else 0) ∧
    (j + 1 = J.bufs.length → bd.updptr = L.upd)

instance (L : Layout) (j : ℕ) (bd : BufferDescriptor) : Decidable (J.Announces L j bd) :=
  inferInstanceAs (Decidable (_ ∧ _))

end Job

/-- The memory, the callbacks, how many buffers are enabled, and whether the next one is written. -/
structure System (D : Digests) where
  mem : Memory
  reg : Registry D
  enabled : ℕ := 0
  filled : Bool := false

/-- A step: the firmware writes the next buffer with its descriptor, the firmware
sets DESC_EN of it, a tick. -/
inductive Input
  | fill (bd : BufferDescriptor)
  | enable
  | tick
deriving DecidableEq, Repr

namespace System

variable {D : Digests}

/-- The descriptor whose turn it is. -/
def slot (s : System D) (L : Layout) : ℕ := s.enabled % L.n

def step (L : Layout) (J : Job) (s : System D) : Input → Except Unit (Unit × System D)
  | .fill bd =>
    if s.filled = false ∧ s.enabled < J.bufs.length ∧ descEnAt s.mem (L.bd (s.slot L)).toNat = false ∧
        J.Announces L s.enabled bd then
      let mem := s.mem.store (L.src (s.slot L)).toNat (J.buf s.enabled)
      .ok ((), { s with mem := mem.store (L.bd (s.slot L)).toNat bd.toBytes, filled := true })
    else .error ()
  | .enable =>
    if s.filled then
      let addr := (L.bd (s.slot L)).toNat
      let ctrl : BdCtrl := ⟨leWord (s.mem.load addr 4)⟩
      .ok ((), { s with
        mem := s.mem.store addr (leBytes ctrl.set.word), enabled := s.enabled + 1, filled := false })
    else .error ()
  | .tick =>
    let (reg, mem) := dispatchPollingTick s.reg s.mem
    .ok ((), { s with reg := reg, mem := mem })

/-- No descriptor after the one enabled last, in the order of the chain, waits for the tick. -/
def NoWrap (L : Layout) (s : System D) : Prop :=
  ∀ i < L.n, descEnAt s.mem (L.bd i).toNat = true → i ≤ (s.enabled - 1) % L.n

instance (L : Layout) (s : System D) : Decidable (s.NoWrap L) :=
  inferInstanceAs (Decidable (∀ i < L.n, _ → _))

end System

end PIC32
end Simulators
