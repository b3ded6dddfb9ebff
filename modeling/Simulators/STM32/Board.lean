/-
# STM32: the chips

`chips/`: which peripherals a chip has and where on the bus they are, and
`core/src/bus.rs`, of which `Lib.Bus` is the model. The accesses of a program
go to all of them in any order. No two windows overlap, and no RAM region
reaches into a page of the bus, so a peripheral of a chip is as if it were the
only one (`peripherals_do_not_interfere`).

The instruction set is not modelled: a program is the accesses it makes.
-/
import Simulators.Lib.Bus
import Simulators.STM32.Cryp.V1
import Simulators.STM32.Cryp.V2
import Simulators.STM32.Hash.V1
import Simulators.STM32.Peripherals
import Simulators.STM32.Pka.V2

namespace Simulators
namespace STM32
namespace Board

/-- The libraries behind the peripherals. -/
structure Crates where
  aes : Cryp.Aes
  hashers : Hash.Hashers
  curves : Pka.Crates
  chacha : ChaCha

/-- A peripheral (`dyn Peripheral`). -/
inductive Device (K : Crates)
  | usart (u : Usart)
  | rcc (r : Rcc)
  | dbgmcu (d : Dbgmcu)
  | rng (g : Rng K.chacha)
  | cryp (p : Cryp.CrypV1)
  | aes (p : Cryp.CrypV2)
  | hash (p : Hash.HashV1 K.hashers)
  | pka (p : Pka.PkaV2)

variable (K : Crates)

namespace Device

variable {K}

def read (offset : UInt32) : Device K → UInt32 × Device K
  | .usart u => (u.read offset, .usart u)
  | .rcc r => (r.read offset, .rcc r)
  | .dbgmcu d => (d.read offset, .dbgmcu d)
  | .rng g => ((g.read offset).1, .rng (g.read offset).2)
  | .cryp p => ((p.read offset).1, .cryp (p.read offset).2)
  | .aes p => ((p.read offset).1, .aes (p.read offset).2)
  | .hash p => ((p.read offset).1, .hash (p.read offset).2)
  | .pka p => (p.read offset, .pka p)

def write (offset value : UInt32) : Device K → Device K
  | .usart u => .usart (u.write offset value)
  | .rcc r => .rcc (r.write offset value)
  | .dbgmcu d => .dbgmcu (d.write offset value)
  | .rng g => .rng (g.write offset value)
  | .cryp p => .cryp (p.write K.aes offset value)
  | .aes p => .aes (p.write K.aes offset value)
  | .hash p => .hash (p.write offset value)
  | .pka p => .pka (p.write K.curves offset value)

/-- The peripheral alone. -/
def access (d : Device K) : UInt32 × BusAccess → UInt32 × Device K
  | (offset, .read) => d.read offset
  | (offset, .write value) => (0, d.write offset value)

/-- The peripheral on the bus: none of them reaches the memory. -/
def onBus : BusDevice Unit (Device K) := fun m d offset a => ((d.access (offset, a)).1, m, (d.access (offset, a)).2)

end Device

/-! ### Chips -/

inductive CpuKind
  | cortexM
  | cortexA
deriving DecidableEq, Repr

structure MemoryRegion where
  base : ℕ
  size : ℕ
  name : String
deriving DecidableEq, Repr

/-- `contains_range`; an end beyond `u64` is in no region. -/
def MemoryRegion.containsRange (r : MemoryRegion) (addr size : ℕ) : Bool :=
  addr + size < 2 ^ 64 && r.base ≤ addr && addr + size ≤ r.base + r.size

structure Chip where
  name : String
  cpuKind : CpuKind
  memoryRegions : List MemoryRegion
  bus : Bus (Device K)

inductive ChipName
  | stm32h753
  | stm32u575
  | stm32u585
  | stm32mp135
deriving DecidableEq, Repr

/-- The names of `list`. -/
def ChipName.toString : ChipName → String
  | .stm32h753 => "stm32h753"
  | .stm32u575 => "stm32u575"
  | .stm32u585 => "stm32u585"
  | .stm32mp135 => "stm32mp135"

def stm32h753 : Chip K where
  name := "stm32h753"
  cpuKind := .cortexM
  memoryRegions := [⟨0x08000000, 0x00200000, "FLASH"⟩, ⟨0x20000000, 0x00020000, "DTCM"⟩,
    ⟨0x24000000, 0x00080000, "AXI_SRAM"⟩, ⟨0x30000000, 0x00020000, "SRAM1"⟩]
  bus := [⟨0x40004800, 0x0400, "usart3", .usart {}⟩, ⟨0x58024400, 0x0400, "rcc", .rcc .h7⟩,
    ⟨0x48021000, 0x0400, "cryp", .cryp {}⟩, ⟨0x48021400, 0x0400, "hash", .hash { layout := .h7 }⟩,
    ⟨0x48021800, 0x0400, "rng", .rng (.new K.chacha)⟩, ⟨0x5C001000, 0x0400, "dbgmcu", .dbgmcu .h7⟩]

def stm32u575 : Chip K where
  name := "stm32u575"
  cpuKind := .cortexM
  memoryRegions := [⟨0x08000000, 0x00200000, "FLASH"⟩, ⟨0x20000000, 0x000C0000, "SRAM"⟩,
    ⟨0x28070000, 0x00004000, "BKP_SRAM"⟩]
  bus := [⟨0x40013800, 0x0400, "usart1", .usart {}⟩, ⟨0x46020C00, 0x0400, "rcc", .rcc .u5⟩,
    ⟨0x420C0000, 0x0400, "aes", .aes {}⟩, ⟨0x420C0400, 0x0400, "hash", .hash { layout := .u5 }⟩,
    ⟨0x420C0800, 0x0400, "rng", .rng (.new K.chacha)⟩, ⟨0x420C2000, 0x2000, "pka", .pka .new⟩,
    ⟨0xE0044000, 0x0400, "dbgmcu", .dbgmcu .u5⟩]

/-- The U575 under another name. -/
def stm32u585 : Chip K := { stm32u575 K with name := "stm32u585" }

def stm32mp135 : Chip K where
  name := "stm32mp135"
  cpuKind := .cortexA
  memoryRegions := [⟨0x2FFE0000, 0x00020000, "SYSRAM"⟩, ⟨0x30000000, 0x00004000, "SRAM1"⟩,
    ⟨0x30004000, 0x00002000, "SRAM2"⟩, ⟨0x30006000, 0x00002000, "SRAM3"⟩, ⟨0xC0000000, 0x20000000, "DDR"⟩]
  bus := [⟨0x40010000, 0x0400, "uart4", .usart {}⟩, ⟨0x50000000, 0x1000, "rcc", .rcc .raw⟩,
    ⟨0x54002000, 0x0400, "cryp1", .cryp {}⟩, ⟨0x54003000, 0x0400, "hash1", .hash { layout := .mp13 }⟩,
    ⟨0x54004000, 0x0400, "rng1", .rng (.new K.chacha)⟩, ⟨0x54006000, 0x2000, "pka", .pka .new⟩,
    ⟨0x50081000, 0x0400, "dbgmcu", .dbgmcu .mp13⟩]

def build : ChipName → Chip K
  | .stm32h753 => stm32h753 K
  | .stm32u575 => stm32u575 K
  | .stm32u585 => stm32u585 K
  | .stm32mp135 => stm32mp135 K

/-! ### The memory map -/

def windows : ChipName → List (ℕ × ℕ)
  | .stm32h753 => [(0x40004800, 0x0400), (0x58024400, 0x0400), (0x48021000, 0x0400), (0x48021400, 0x0400),
      (0x48021800, 0x0400), (0x5C001000, 0x0400)]
  | .stm32u575 | .stm32u585 => [(0x40013800, 0x0400), (0x46020C00, 0x0400), (0x420C0000, 0x0400), (0x420C0400, 0x0400),
      (0x420C0800, 0x0400), (0x420C2000, 0x2000), (0xE0044000, 0x0400)]
  | .stm32mp135 => [(0x40010000, 0x0400), (0x50000000, 0x1000), (0x54002000, 0x0400), (0x54003000, 0x0400),
      (0x54004000, 0x0400), (0x54006000, 0x2000), (0x50081000, 0x0400)]

def ramRegions : ChipName → List (ℕ × ℕ)
  | .stm32h753 => [(0x08000000, 0x00200000), (0x20000000, 0x00020000), (0x24000000, 0x00080000),
      (0x30000000, 0x00020000)]
  | .stm32u575 | .stm32u585 => [(0x08000000, 0x00200000), (0x20000000, 0x000C0000), (0x28070000, 0x00004000)]
  | .stm32mp135 => [(0x2FFE0000, 0x00020000), (0x30000000, 0x00004000), (0x30004000, 0x00002000),
      (0x30006000, 0x00002000), (0xC0000000, 0x20000000)]

theorem build_windows (n : ChipName) : (build K n).bus.windows = windows n := by cases n <;> rfl

theorem build_ramRegions (n : ChipName) :
    ((build K n).memoryRegions.map fun r => (r.base, r.size)) = ramRegions n := by cases n <;> rfl

theorem bus_disjoint (n : ChipName) : (build K n).bus.Disjoint := by
  rw [Bus.disjoint_iff, build_windows]
  cases n <;> decide +kernel

/-- The pages of a window and a RAM region are apart. -/
def OffRam (window ram : ℕ × ℕ) : Prop :=
  Bus.pageOf (window.1 + window.2 + 0xFFF) ≤ ram.1 ∨ ram.1 + ram.2 ≤ Bus.pageOf window.1

instance (window ram : ℕ × ℕ) : Decidable (OffRam window ram) := inferInstanceAs (Decidable (_ ∨ _))

theorem windows_offRam (n : ChipName) : ∀ window ∈ windows n, ∀ ram ∈ ramRegions n, OffRam window ram := by
  cases n <;> decide +kernel

/-- No address of RAM is on a page of the bus. -/
theorem ram_off_bus (n : ChipName) {addr : ℕ} (h : Bus.pageOf addr ∈ (build K n).bus.pages) :
    ∀ region ∈ (build K n).memoryRegions, ¬ (region.base ≤ addr ∧ addr < region.base + region.size) := by
  rintro region hregion ⟨hlo, hhi⟩
  obtain ⟨r, hr, hp⟩ := Bus.mem_pages.mp h
  have hwindow : (r.base, r.size) ∈ windows n := by
    rw [← build_windows K n]
    exact List.mem_map_of_mem hr
  have hram : (region.base, region.size) ∈ ramRegions n := by
    rw [← build_ramRegions K n]
    exact List.mem_map_of_mem hregion
  have hoff := windows_offRam n _ hwindow _ hram
  obtain ⟨h1, h2, -⟩ := Bus.mem_pagesOf.mp hp
  simp only [OffRam, Bus.pageOf_eq, Bus.pageSize] at hoff h1 h2
  omega

/-! ### A peripheral on the board -/

theorem onBus_keepsOff : Bus.KeepsOff (M := Unit) (Device.onBus (K := K)) (fun _ => True) Device.access :=
  fun _ _ _ _ _ => ⟨rfl, trivial⟩

/-- The accesses that a program makes on the bus. -/
abbrev Program := List (ℕ × BusAccess)

def events (program : Program) : List (BusEvent Empty) := program.map fun a => .access a.1 a.2

/-- There is nothing beside the bus. -/
def nothingElse (_ : Unit) (e : Empty) : Unit := e.elim

def step : Unit × Bus (Device K) → BusEvent Empty → UInt32 × (Unit × Bus (Device K)) :=
  Bus.step Device.onBus nothingElse

/-- The values that a program reads on a new chip, and the chip afterwards. -/
def run (n : ChipName) (program : Program) : List UInt32 × (Unit × Bus (Device K)) :=
  outputs (step K) ((), (build K n).bus) (events program)

/-- On every chip and for every program: each peripheral ends in the state, and gave the values, that it would have
with the accesses to its own window alone. Outside of all windows nothing is read and nothing happens, every window is
on the pages that are passed to the bus, and no RAM is. -/
theorem peripherals_do_not_interfere (n : ChipName) (program : Program) :
    (∀ (k : ℕ) (r : Mapped (Device K)), (build K n).bus[k]? = some r →
      let own := outputs Device.access r.peripheral ((events program).filterMap r.sees)
      (run K n program).2.2[k]? = some { r with peripheral := own.2 } ∧
        Bus.valuesAt r (events program) (run K n program).1 = own.1) ∧
    (∀ addr a, (∀ r ∈ (build K n).bus, ¬ r.Holds addr) →
      step K (run K n program).2 (.access addr a) = (0, (run K n program).2)) ∧
    (∀ r ∈ (build K n).bus, ∀ addr, r.Holds addr → Bus.pageOf addr ∈ (build K n).bus.pages) ∧
    (∀ addr, Bus.pageOf addr ∈ (build K n).bus.pages →
      ∀ region ∈ (build K n).memoryRegions, ¬ (region.base ≤ addr ∧ addr < region.base + region.size)) := by
  refine ⟨fun k r hk => ?_, fun addr a h => ?_, fun r hr addr h => Bus.page_mem hr h, fun addr => ram_off_bus K n⟩
  · exact Bus.run_alone Device.onBus nothingElse (onBus_keepsOff K) (events program) (s := ((), (build K n).bus))
      (bus_disjoint K n) hk trivial
  · exact Bus.unmapped_after Device.onBus nothingElse h a

/-! ### The console and the random words -/

/-- The byte that an access sends. -/
def sent : UInt32 × BusAccess → Option UInt8
  | (offset, .write value) => if offset = 0x28 then some (value &&& 0xFF).toUInt8 else none
  | (_, .read) => none

/-- An access draws a word. -/
def draws (a : UInt32 × BusAccess) : Bool := a = (0x08, .read)

/-- The words that were drawn. -/
def drawn (as : List (UInt32 × BusAccess)) (values : List UInt32) : List UInt32 :=
  (as.zip values).filterMap fun p => if draws p.1 then some p.2 else none

/-- The next words of the generator, and the generator after them. -/
def ChaCha.words (R : ChaCha) : ℕ → R.State → List UInt32 × R.State
  | 0, s => ([], s)
  | n + 1, s => ((R.nextU32 s).1 :: (words R n (R.nextU32 s).2).1, (words R n (R.nextU32 s).2).2)

variable {K}

theorem usart_access (u : Usart) (a : UInt32 × BusAccess) : ∃ u', (Device.usart (K := K) u).access a =
    ((Device.usart (K := K) u |>.access a).1, .usart u') ∧ u'.sink = u.sink ++ (sent a).toList := by
  obtain ⟨offset, _ | value⟩ := a
  · exact ⟨u, rfl, (List.append_nil _).symm⟩
  · refine ⟨u.write offset value, rfl, ?_⟩
    by_cases h : offset = 0x28
    · subst h
      rfl
    · simp only [sent, if_neg h, Option.toList_none, List.append_nil]
      unfold Usart.write
      split_ifs <;> rfl

theorem usart_run : ∀ (as : List (UInt32 × BusAccess)) (u : Usart), ∃ u',
    (outputs Device.access (Device.usart (K := K) u) as).2 = .usart u' ∧ u'.sink = u.sink ++ as.filterMap sent
  | [], u => ⟨u, rfl, (List.append_nil _).symm⟩
  | a :: as, u => by
    obtain ⟨u₁, haccess, hsink⟩ := usart_access (K := K) u a
    obtain ⟨u₂, hrun, hsink₂⟩ := usart_run as u₁
    refine ⟨u₂, ?_, ?_⟩
    · simp only [outputs]
      rw [haccess]
      exact hrun
    · rw [hsink₂, hsink, List.append_assoc]
      cases hs : sent a with
      | none => rw [List.filterMap_cons_none hs]; rfl
      | some b => rw [List.filterMap_cons_some hs]; rfl

theorem rng_access (g : Rng K.chacha) (a : UInt32 × BusAccess) : ∃ g',
    ((Device.rng (K := K) g).access a).2 = .rng g' ∧
      if draws a then ((Device.rng (K := K) g).access a).1 = (K.chacha.nextU32 g.rng).1 ∧ g'.rng = (K.chacha.nextU32 g.rng).2
      else g'.rng = g.rng := by
  obtain ⟨offset, _ | value⟩ := a
  · refine ⟨(g.read offset).2, rfl, ?_⟩
    by_cases h : offset = 0x08
    · subst h
      exact ⟨rfl, rfl⟩
    · have hdraws : draws (offset, .read) = false := by simpa [draws] using h
      rw [hdraws, if_neg Bool.false_ne_true, Rng.read]
      split_ifs <;> rfl
  · refine ⟨g.write offset value, rfl, ?_⟩
    have hdraws : draws (offset, .write value) = false := by simp [draws]
    rw [hdraws, if_neg Bool.false_ne_true, Rng.write]
    split_ifs <;> rfl

theorem rng_run : ∀ (as : List (UInt32 × BusAccess)) (g : Rng K.chacha),
    drawn as (outputs Device.access (Device.rng (K := K) g) as).1 = (ChaCha.words K.chacha (as.countP draws) g.rng).1
  | [], _ => rfl
  | a :: as, g => by
    obtain ⟨g', haccess, hword⟩ := rng_access g a
    have hrest := rng_run as g'
    simp only [outputs, haccess, drawn, List.zip_cons_cons]
    cases hd : draws a with
    | true =>
      rw [hd, if_pos rfl] at hword
      rw [List.filterMap_cons_some (by rw [hd]; rfl), List.countP_cons_of_pos hd, ChaCha.words, hword.1, ← hword.2]
      exact congrArg _ hrest
    | false =>
      rw [hd, if_neg Bool.false_ne_true] at hword
      rw [List.filterMap_cons_none (by rw [hd]; rfl), List.countP_cons_of_neg (by simp [hd]), ← hword]
      exact hrest

/-- An offset of a window of one KiB is that of one address. -/
theorem offset_eq_iff {base addr : ℕ} {name : String} {d : Device K} (offset : UInt32) (ho : offset.toNat < 0x400)
    (h : (⟨base, 0x400, name, d⟩ : Mapped (Device K)).Holds addr) :
    (⟨base, 0x400, name, d⟩ : Mapped (Device K)).offset addr = offset ↔ addr = base + offset.toNat := by
  obtain ⟨hlo, hhi⟩ := h
  simp only [Mapped.offset] at hlo hhi ⊢
  rw [← UInt32.toNat_inj, UInt32.toNat_ofNat', Nat.mod_eq_of_lt (by omega)]
  omega

theorem holds_offset {base : ℕ} {name : String} {d : Device K} (offset : UInt32) (ho : offset.toNat < 0x400) :
    (⟨base, 0x400, name, d⟩ : Mapped (Device K)).Holds (base + offset.toNat) :=
  ⟨Nat.le_add_right _ _, Nat.add_lt_add_left ho _⟩

/-- The byte that an access to `addr` sends. -/
def sentTo (addr : ℕ) (a : ℕ × BusAccess) : Option UInt8 :=
  if a.1 = addr then
    match a.2 with
    | .write value => some (value &&& 0xFF).toUInt8
    | .read => none
  else none

theorem sees_sent (base : ℕ) (name : String) (d : Device K) (a : ℕ × BusAccess) :
    ((⟨base, 0x400, name, d⟩ : Mapped (Device K)).sees (ε := Empty) (.access a.1 a.2)).bind sent =
      sentTo (base + 0x28) a := by
  obtain ⟨addr, a⟩ := a
  simp only [Mapped.sees, sentTo]
  by_cases h : (⟨base, 0x400, name, d⟩ : Mapped (Device K)).Holds addr
  · have hiff := offset_eq_iff 0x28 (by decide) h
    rw [if_pos h]
    cases a with
    | read => simp [sent]
    | write value =>
      simp only [Option.bind_some, sent, hiff]
      rfl
  · have hne : addr ≠ base + 0x28 := fun heq => h (heq ▸ holds_offset 0x28 (by decide))
    rw [if_neg h, if_neg hne]
    rfl

theorem sees_draws (base : ℕ) (name : String) (d : Device K) (a : ℕ × BusAccess) :
    (((⟨base, 0x400, name, d⟩ : Mapped (Device K)).sees (ε := Empty) (.access a.1 a.2)).map draws).getD false =
      decide (a = (base + 0x08, .read)) := by
  obtain ⟨addr, a⟩ := a
  simp only [Mapped.sees]
  by_cases h : (⟨base, 0x400, name, d⟩ : Mapped (Device K)).Holds addr
  · have hiff := offset_eq_iff 0x08 (by decide) h
    rw [if_pos h, Option.map_some, Option.getD_some, draws]
    exact decide_eq_decide.mpr (by simp [Prod.ext_iff, hiff])
  · have hne : addr ≠ base + 0x08 := fun heq => h (heq ▸ holds_offset 0x08 (by decide))
    rw [if_neg h, Option.map_none, Option.getD_none]
    exact (decide_eq_false fun heq => hne (Prod.ext_iff.mp heq).1).symm

variable (K)

/-- The window of the console comes first on every chip. -/
def consoleBase (n : ChipName) : ℕ := ((windows n).getD 0 default).1

/-- The random number generator comes fifth. -/
def rngBase (n : ChipName) : ℕ := ((windows n).getD 4 default).1

theorem console_window (n : ChipName) : ∃ name, (build K n).bus[0]? =
    some ⟨consoleBase n, 0x400, name, .usart {}⟩ := by cases n <;> exact ⟨_, rfl⟩

theorem rng_window (n : ChipName) : ∃ name, (build K n).bus[4]? =
    some ⟨rngBase n, 0x400, name, .rng (.new K.chacha)⟩ := by cases n <;> exact ⟨_, rfl⟩

/-- The words that a program read at an address. -/
def wordsRead (addr : ℕ) (program : Program) (values : List UInt32) : List UInt32 :=
  (program.zip values).filterMap fun p => if p.1 = (addr, .read) then some p.2 else none

/-- On every chip and for every program: the console shows the bytes written to TDR, in order and without carriage
returns, and the words read from the random number generator are its words from the fixed seed on, none of them
skipped or repeated, whatever the program does with the other peripherals meanwhile. -/
theorem console_and_random_words (n : ChipName) (program : Program) :
    (∃ u name, (run K n program).2.2[0]? = some ⟨consoleBase n, 0x400, name, .usart u⟩ ∧
      stdout u.sink = (program.filterMap (sentTo (consoleBase n + 0x28))).filter (· ≠ 0x0D)) ∧
    wordsRead (rngBase n + 0x08) program (run K n program).1 =
      (ChaCha.words K.chacha (program.count (rngBase n + 0x08, .read)) (K.chacha.seedFromU64 0xDEADBEEFCAFEBABE)).1 := by
  constructor
  · obtain ⟨name, hk⟩ := console_window K n
    obtain ⟨hend, -⟩ := Bus.run_alone Device.onBus nothingElse (onBus_keepsOff K) (events program)
      (s := ((), (build K n).bus)) (bus_disjoint K n) hk trivial
    obtain ⟨u, hrun, hsink⟩ := usart_run (K := K) ((events program).filterMap
      (Mapped.sees ⟨consoleBase n, 0x400, name, Device.usart (K := K) {}⟩)) {}
    rw [hrun] at hend
    refine ⟨u, name, hend, ?_⟩
    have hsent : ((events program).filterMap (Mapped.sees ⟨consoleBase n, 0x400, name, Device.usart (K := K) {}⟩)).filterMap
        sent = program.filterMap (sentTo (consoleBase n + 0x28)) := by
      rw [List.filterMap_filterMap, events, List.filterMap_map]
      exact List.filterMap_congr fun a _ => sees_sent (consoleBase n) name _ a
    rw [stdout, hsink, hsent]
    rfl
  · obtain ⟨name, hk⟩ := rng_window K n
    obtain ⟨-, hvalues⟩ := Bus.run_alone Device.onBus nothingElse (onBus_keepsOff K) (events program)
      (s := ((), (build K n).bus)) (bus_disjoint K n) hk trivial
    have hdrawn := rng_run ((events program).filterMap
      (Mapped.sees ⟨rngBase n, 0x400, name, Device.rng (K := K) (.new K.chacha)⟩)) (.new K.chacha)
    have hcount : ((events program).filterMap (Mapped.sees ⟨rngBase n, 0x400, name, Device.rng (K := K) (.new K.chacha)⟩)).countP draws =
        program.count (rngBase n + 0x08, .read) := by
      rw [List.countP_filterMap, events, List.countP_map, List.count]
      refine List.countP_congr fun a _ => ?_
      have hsees := sees_draws (rngBase n) name (Device.rng (K := K) (.new K.chacha)) a
      simp only [Function.comp_apply, hsees, beq_iff_eq, decide_eq_true_eq]
    rw [hcount] at hdrawn
    refine Eq.trans ?_ hdrawn
    rw [drawn, ← hvalues, Bus.zip_valuesAt, List.filterMap_filterMap, events, List.zip_map_left, List.filterMap_map,
      wordsRead]
    refine List.filterMap_congr fun p _ => ?_
    have hsees := sees_draws (rngBase n) name (Device.rng (K := K) (.new K.chacha)) p.1
    simp only [Function.comp_apply, Prod.map_fst, Prod.map_snd, id]
    cases hs : (⟨rngBase n, 0x400, name, Device.rng (K := K) (.new K.chacha)⟩ : Mapped (Device K)).sees (ε := Empty)
        (.access p.1.1 p.1.2) with
    | none =>
      rw [hs] at hsees
      rw [if_neg (of_decide_eq_false hsees.symm)]
      rfl
    | some a =>
      rw [hs] at hsees
      have hdraws : draws a = decide (p.1 = (rngBase n + 0x08, .read)) := hsees
      simp only [Option.map_some, Option.bind_some, hdraws, decide_eq_true_eq]

end Board
end STM32
end Simulators
