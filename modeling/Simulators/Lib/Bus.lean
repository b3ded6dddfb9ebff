/-
# Memory-mapped devices

A bus is a list of windows, each with a device behind it. An access goes to
the first window that holds its address, with the offset into the window; an
address outside of all windows reads as 0 and takes no write. A device may
also reach a memory that all of them share.

If the windows are disjoint, a device sees the accesses to its own window, in
order, and no others: the devices that keep off the shared memory are as if
each had the machine to itself (`Bus.run_alone`).

`pages` are the 4 KiB pages on which accesses are passed to the bus.

Key definitions: `Mapped`, `Bus.dispatch`, `Bus.step`, `Bus.pages`.
-/
import Mathlib.Data.List.Dedup
import Mathlib.Data.List.Sort
import Mathlib.Tactic.Common
import Simulators.Lib.Run

namespace Simulators

/-- A window of the address space, and the device behind it. -/
structure Mapped (δ : Type) where
  base : ℕ
  size : ℕ
  name : String
  peripheral : δ

/-- A peripheral is read or written. -/
inductive BusAccess
  | read
  | write (value : UInt32)
deriving DecidableEq, Repr

inductive BusEvent (ε : Type)
  | access (addr : ℕ) (a : BusAccess)
  /-- Something else happens to the shared memory. -/
  | elsewhere (e : ε)

/-- What a device does with an access at an offset: the value read, the memory and the device afterwards. -/
abbrev BusDevice (M δ : Type) := M → δ → UInt32 → BusAccess → UInt32 × M × δ

variable {M δ ε : Type}

namespace Mapped

def Holds (r : Mapped δ) (addr : ℕ) : Prop := r.base ≤ addr ∧ addr < r.base + r.size

instance (r : Mapped δ) (addr : ℕ) : Decidable (r.Holds addr) := inferInstanceAs (Decidable (_ ∧ _))

def offset (r : Mapped δ) (addr : ℕ) : UInt32 := UInt32.ofNat (addr - r.base)

/-- The windows have no address in common. -/
def Apart (r r' : Mapped δ) : Prop := r.base + r.size ≤ r'.base ∨ r'.base + r'.size ≤ r.base

instance (r r' : Mapped δ) : Decidable (r.Apart r') := inferInstanceAs (Decidable (_ ∨ _))

/-- The access that a window makes of an event. -/
def sees (r : Mapped δ) : BusEvent ε → Option (UInt32 × BusAccess)
  | .access addr a => if r.Holds addr then some (r.offset addr, a) else none
  | .elsewhere _ => none

theorem Apart.not_holds {r r' : Mapped δ} (h : r.Apart r') {addr : ℕ} (hr : r.Holds addr) : ¬ r'.Holds addr := by
  rcases h with h | h <;> intro ⟨hlo, hhi⟩ <;> obtain ⟨hlo', hhi'⟩ := hr <;> omega

end Mapped

abbrev Bus (δ : Type) := List (Mapped δ)

namespace Bus

/-- No address is in two windows. -/
def Disjoint (bus : Bus δ) : Prop := bus.Pairwise Mapped.Apart

instance (bus : Bus δ) : Decidable bus.Disjoint := inferInstanceAs (Decidable (List.Pairwise _ _))

def dispatch (access : BusDevice M δ) (m : M) (addr : ℕ) (a : BusAccess) : Bus δ → UInt32 × M × Bus δ
  | [] => (0, m, [])
  | r :: bus =>
    if r.Holds addr then
      let (v, m, peripheral) := access m r.peripheral (r.offset addr) a
      (v, m, { r with peripheral } :: bus)
    else
      let (v, m, bus) := dispatch access m addr a bus
      (v, m, r :: bus)

def step (access : BusDevice M δ) (elsewhere : M → ε → M) (s : M × Bus δ) : BusEvent ε → UInt32 × (M × Bus δ)
  | .access addr a => dispatch access s.1 addr a s.2
  | .elsewhere e => (0, elsewhere s.1 e, s.2)

section Dispatch

variable {access : BusDevice M δ} {m : M} {addr : ℕ} {a : BusAccess} {bus : Bus δ} {k : ℕ} {r : Mapped δ}

/-- An access outside of all windows. -/
theorem dispatch_unmapped (h : ∀ r ∈ bus, ¬ r.Holds addr) : dispatch access m addr a bus = (0, m, bus) := by
  induction bus with
  | nil => rfl
  | cons r bus ih =>
    rw [dispatch, if_neg (h r List.mem_cons_self), ih fun r' hr => h r' (List.mem_cons_of_mem r hr)]

/-- An access to a window reaches its device. -/
theorem dispatch_mapped (hd : bus.Disjoint) (hk : bus[k]? = some r) (h : r.Holds addr) :
    dispatch access m addr a bus =
      ((access m r.peripheral (r.offset addr) a).1, (access m r.peripheral (r.offset addr) a).2.1,
        bus.set k { r with peripheral := (access m r.peripheral (r.offset addr) a).2.2 }) := by
  induction bus generalizing k with
  | nil => simp at hk
  | cons r' bus ih =>
    obtain ⟨hfirst, hrest⟩ := List.pairwise_cons.mp hd
    cases k with
    | zero =>
      obtain rfl : r' = r := by simpa using hk
      rw [dispatch, if_pos h]
      rfl
    | succ k =>
      have hk' : bus[k]? = some r := by simpa using hk
      have hne : ¬ r'.Holds addr := fun h' => (hfirst r (List.mem_of_getElem? hk')).not_holds h' h
      rw [dispatch, if_neg hne, ih hrest hk']
      rfl

/-- An access elsewhere does not reach the device. -/
theorem dispatch_other (hk : bus[k]? = some r) (h : ¬ r.Holds addr) :
    (dispatch access m addr a bus).2.2[k]? = some r := by
  induction bus generalizing k with
  | nil => simp at hk
  | cons r' bus ih =>
    rw [dispatch]
    split
    · rename_i hr'
      cases k with
      | zero =>
        obtain rfl : r' = r := by simpa using hk
        exact absurd hr' h
      | succ k => simpa using hk
    · cases k with
      | zero => simpa using hk
      | succ k =>
        have hk' : bus[k]? = some r := by simpa using hk
        simpa using ih hk'

/-- The windows stay where they are. -/
theorem dispatch_map {α : Type} (access : BusDevice M δ) (m : M) (addr : ℕ) (a : BusAccess) (bus : Bus δ)
    (f : ℕ → ℕ → String → α) : (dispatch access m addr a bus).2.2.map (fun r => f r.base r.size r.name) =
      bus.map fun r => f r.base r.size r.name := by
  induction bus with
  | nil => rfl
  | cons r bus ih =>
    rw [dispatch]
    split
    · rfl
    · rw [List.map_cons, List.map_cons, ih]

/-- Where the windows are. -/
def windows (bus : Bus δ) : List (ℕ × ℕ) := bus.map fun r => (r.base, r.size)

theorem disjoint_iff : bus.Disjoint ↔
    bus.windows.Pairwise fun p q => p.1 + p.2 ≤ q.1 ∨ q.1 + q.2 ≤ p.1 :=
  (List.pairwise_map (f := fun r : Mapped δ => (r.base, r.size))
    (R := fun p q => p.1 + p.2 ≤ q.1 ∨ q.1 + q.2 ≤ p.1)).symm

theorem dispatch_disjoint (h : bus.Disjoint) : (dispatch access m addr a bus).2.2.Disjoint := by
  have hmap := dispatch_map access m addr a bus fun base size _ => (base, size)
  rw [disjoint_iff, windows, hmap]
  exact disjoint_iff.mp h

end Dispatch

/-! ### A device alone -/

section Alone

variable (access : BusDevice M δ) (elsewhere : M → ε → M) {alone : δ → UInt32 × BusAccess → UInt32 × δ} {P : δ → Prop}

/-- The devices with `P` keep off the shared memory: they do what `alone` says, and stay such devices. -/
def KeepsOff (access : BusDevice M δ) (P : δ → Prop) (alone : δ → UInt32 × BusAccess → UInt32 × δ) : Prop :=
  ∀ m d offset a, P d → access m d offset a = ((alone d (offset, a)).1, m, (alone d (offset, a)).2) ∧
    P (alone d (offset, a)).2

/-- What was read at a window. -/
def valuesAt (r : Mapped δ) (es : List (BusEvent ε)) (values : List UInt32) : List UInt32 :=
  (es.zip values).filterMap fun p => (r.sees p.1).map fun _ => p.2

theorem step_disjoint {s : M × Bus δ} (h : s.2.Disjoint) (e : BusEvent ε) :
    (step access elsewhere s e).2.2.Disjoint := by
  cases e with
  | access addr a => exact dispatch_disjoint h
  | elsewhere e => exact h

/-- An event, at the window of a device that keeps off the memory. -/
theorem step_alone (hP : KeepsOff access P alone) {s : M × Bus δ} (hd : s.2.Disjoint) {k : ℕ} {r : Mapped δ}
    (hk : s.2[k]? = some r) (hr : P r.peripheral) (e : BusEvent ε) :
    match r.sees (ε := ε) e with
    | none => (step access elsewhere s e).2.2[k]? = some r
    | some a => (step access elsewhere s e).1 = (alone r.peripheral a).1 ∧
        (step access elsewhere s e).2.2[k]? = some { r with peripheral := (alone r.peripheral a).2 } ∧
        P (alone r.peripheral a).2 := by
  cases e with
  | elsewhere e => exact hk
  | access addr a =>
    by_cases h : r.Holds addr
    · obtain ⟨haccess, hafter⟩ := hP s.1 r.peripheral (r.offset addr) a hr
      have hstep : step access elsewhere s (.access addr a) = dispatch access s.1 addr a s.2 := rfl
      have hlt : k < s.2.length := (List.getElem?_eq_some_iff.mp hk).1
      simp only [Mapped.sees, if_pos h, hstep, dispatch_mapped hd hk h, haccess]
      exact ⟨trivial, List.getElem?_set_self hlt, hafter⟩
    · simp only [Mapped.sees, if_neg h]
      exact dispatch_other hk h

/-- A device that keeps off the memory ends in the state, and gave the values, that it would have with the accesses to
its window alone. -/
theorem run_alone (hP : KeepsOff access P alone) {k : ℕ} : ∀ (es : List (BusEvent ε)) {s : M × Bus δ} {r : Mapped δ},
    s.2.Disjoint → s.2[k]? = some r → P r.peripheral →
    (outputs (step access elsewhere) s es).2.2[k]? =
        some { r with peripheral := (outputs alone r.peripheral (es.filterMap r.sees)).2 } ∧
      valuesAt r es (outputs (step access elsewhere) s es).1 = (outputs alone r.peripheral (es.filterMap r.sees)).1
  | [], _, _, _, hk, _ => ⟨hk, rfl⟩
  | e :: es, s, r, hd, hk, hr => by
    have hstep := step_alone access elsewhere hP hd hk hr e
    have hd' := step_disjoint access elsewhere hd e
    rcases hsees : r.sees (ε := ε) e with _ | a
    · rw [hsees] at hstep
      obtain ⟨hend, hvalues⟩ := run_alone hP es hd' hstep hr
      refine ⟨?_, ?_⟩
      · rw [List.filterMap_cons_none hsees]
        exact hend
      · rw [List.filterMap_cons_none hsees, ← hvalues]
        simp only [outputs, valuesAt, List.zip_cons_cons]
        rw [List.filterMap_cons_none (by simp [hsees])]
    · rw [hsees] at hstep
      obtain ⟨hvalue, hk', hafter⟩ := hstep
      obtain ⟨hend, hvalues⟩ := run_alone hP es hd' hk' hafter
      have hsame : Mapped.sees (ε := ε) { r with peripheral := (alone r.peripheral a).2 } = r.sees := by
        funext e
        cases e <;> rfl
      have hat : ∀ values, valuesAt { r with peripheral := (alone r.peripheral a).2 } es values = valuesAt r es values :=
        fun values => by rw [valuesAt, hsame, valuesAt]
      rw [hsame] at hend
      rw [hsame, hat] at hvalues
      refine ⟨?_, ?_⟩
      · rw [List.filterMap_cons_some hsees]
        exact hend
      · rw [List.filterMap_cons_some hsees]
        simp only [outputs]
        rw [← hvalue, ← hvalues, valuesAt, List.zip_cons_cons, List.filterMap_cons_some (by rw [hsees]; rfl)]
        rfl

theorem zip_valuesAt (r : Mapped δ) : ∀ (es : List (BusEvent ε)) (values : List UInt32),
    (es.filterMap r.sees).zip (valuesAt r es values) =
      (es.zip values).filterMap fun p => (r.sees p.1).map fun a => (a, p.2)
  | [], _ => rfl
  | e :: es, [] => by simp [valuesAt]
  | e :: es, v :: values => by
    have hrest := zip_valuesAt r es values
    cases hsees : r.sees (ε := ε) e with
    | none =>
      rw [List.filterMap_cons_none hsees, valuesAt, List.zip_cons_cons, List.filterMap_cons_none (by rw [hsees]; rfl),
        List.filterMap_cons_none (by rw [hsees]; rfl)]
      exact hrest
    | some a =>
      rw [List.filterMap_cons_some hsees, valuesAt, List.zip_cons_cons, List.filterMap_cons_some (by rw [hsees]; rfl),
        List.filterMap_cons_some (by rw [hsees]; rfl), List.zip_cons_cons]
      exact congrArg _ hrest

/-- The windows stay where they are, whatever happens. -/
theorem run_map {α : Type} (f : ℕ → ℕ → String → α) : ∀ (es : List (BusEvent ε)) (s : M × Bus δ),
    (outputs (step access elsewhere) s es).2.2.map (fun r => f r.base r.size r.name) =
      s.2.map fun r => f r.base r.size r.name
  | [], _ => rfl
  | e :: es, s => by
    have hrest := run_map f es (step access elsewhere s e).2
    refine hrest.trans ?_
    cases e with
    | access addr a => exact dispatch_map access s.1 addr a s.2 f
    | elsewhere e => rfl

/-- An access outside of all windows reads 0 and changes nothing, at any time. -/
theorem unmapped_after {es : List (BusEvent ε)} {s : M × Bus δ} {addr : ℕ} (h : ∀ r ∈ s.2, ¬ r.Holds addr)
    (a : BusAccess) : step access elsewhere (outputs (step access elsewhere) s es).2 (.access addr a) =
      (0, (outputs (step access elsewhere) s es).2) := by
  have hmap := run_map access elsewhere (fun base size _ => decide (base ≤ addr ∧ addr < base + size)) es s
  have hnone : ∀ r ∈ (outputs (step access elsewhere) s es).2.2, ¬ r.Holds addr := by
    intro r hr hholds
    have hmem := List.mem_map_of_mem (f := fun r : Mapped δ => decide (r.base ≤ addr ∧ addr < r.base + r.size)) hr
    rw [hmap] at hmem
    obtain ⟨r', hr', heq⟩ := List.mem_map.mp hmem
    exact h r' hr' (of_decide_eq_true (heq.trans (decide_eq_true hholds)))
  exact dispatch_unmapped hnone

end Alone

/-! ### Pages -/

def pageSize : ℕ := 0x1000

/-- `addr & !0xFFF`. -/
def pageOf (addr : ℕ) : ℕ := addr - addr % pageSize

/-- The pages from the one of the first address to the one of the last. -/
def pagesOf (r : Mapped δ) : List ℕ :=
  let start := pageOf r.base
  let finish := pageOf (r.base + r.size + 0xFFF)
  (List.range ((finish - start) / pageSize)).map fun n => start + n * pageSize

/-- Every page once, in ascending order. -/
def pages (bus : Bus δ) : List ℕ := ((bus.flatMap pagesOf).insertionSort (· ≤ ·)).dedup

section Pages

variable {bus : Bus δ} {r : Mapped δ} {addr p : ℕ}

theorem pageOf_eq (addr : ℕ) : pageOf addr = addr / pageSize * pageSize := by
  have h := Nat.div_add_mod' addr pageSize
  rw [pageOf]
  omega

theorem mem_pagesOf : p ∈ pagesOf r ↔
    pageOf r.base ≤ p ∧ p < pageOf (r.base + r.size + 0xFFF) ∧ p % pageSize = 0 := by
  simp only [pagesOf, List.mem_map, List.mem_range]
  constructor
  · rintro ⟨n, hn, rfl⟩
    simp only [pageOf_eq, pageSize] at hn ⊢
    omega
  · rintro ⟨h1, h2, h3⟩
    refine ⟨(p - pageOf r.base) / pageSize, ?_, ?_⟩ <;> simp only [pageOf_eq, pageSize] at h1 h2 h3 ⊢ <;> omega

theorem mem_pages : p ∈ bus.pages ↔ ∃ r ∈ bus, p ∈ pagesOf r := by
  rw [pages, List.mem_dedup, List.mem_insertionSort, List.mem_flatMap]

/-- The pages ascend. -/
theorem pages_sorted (bus : Bus δ) : bus.pages.Pairwise (· < ·) := by
  have hsorted : bus.pages.Pairwise (· ≤ ·) :=
    (List.pairwise_insertionSort (· ≤ ·) _).sublist (List.dedup_sublist _)
  have hnodup : bus.pages.Pairwise (· ≠ ·) := List.nodup_dedup _
  exact hsorted.imp₂ (fun _ _ hle hne => lt_of_le_of_ne hle hne) hnodup

/-- An address of a window is on one of the pages. -/
theorem page_mem (hr : r ∈ bus) (h : r.Holds addr) : pageOf addr ∈ bus.pages := by
  refine mem_pages.mpr ⟨r, hr, mem_pagesOf.mpr ?_⟩
  obtain ⟨hlo, hhi⟩ := h
  simp only [pageOf_eq, pageSize]
  omega

/-- A page has an address of a window on it. -/
theorem page_used (hsize : ∀ r ∈ bus, 0 < r.size) (h : p ∈ bus.pages) :
    ∃ r ∈ bus, ∃ addr, r.Holds addr ∧ pageOf addr = p := by
  obtain ⟨r, hr, hp⟩ := mem_pages.mp h
  obtain ⟨h1, h2, h3⟩ := mem_pagesOf.mp hp
  have hpos := hsize r hr
  refine ⟨r, hr, max p r.base, ⟨le_max_right _ _, ?_⟩, ?_⟩ <;>
    simp only [pageOf_eq, pageSize] at h1 h2 h3 ⊢ <;> omega

end Pages

end Bus

end Simulators
