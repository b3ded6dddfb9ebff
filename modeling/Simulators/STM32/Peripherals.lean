/-
# STM32: console, clocks, debug unit and random numbers

`usart.rs`, `rcc.rs`, `dbgmcu.rs` and `rng.rs`: the peripherals around the
accelerators. ChaCha20 of the random number generator comes with `ChaCha`.
-/
import Simulators.Lib.Bytes
import Simulators.STM32.DataType

namespace Simulators
namespace STM32

/-! ### `usart.rs` -/

/-- The sink is what was written to it. -/
structure Usart where
  sink : Bytes := []
  cr1 : UInt32 := 0
  cr2 : UInt32 := 0
  cr3 : UInt32 := 0
  brr : UInt32 := 0
deriving DecidableEq

/-- What `StdoutSink` puts on the terminal: carriage returns are dropped. -/
def stdout (sink : Bytes) : Bytes := sink.filter (· ≠ 0x0D)

namespace Usart

def read (u : Usart) (offset : UInt32) : UInt32 :=
  if offset = 0x00 then u.cr1
  else if offset = 0x04 then u.cr2
  else if offset = 0x08 then u.cr3
  else if offset = 0x0C then u.brr
  else if offset = 0x1C then 0x000000C0
  else 0

/-- TDR sends the low byte. -/
def write (u : Usart) (offset value : UInt32) : Usart :=
  if offset = 0x00 then { u with cr1 := value }
  else if offset = 0x04 then { u with cr2 := value }
  else if offset = 0x08 then { u with cr3 := value }
  else if offset = 0x0C then { u with brr := value }
  else if offset = 0x28 then { u with sink := u.sink ++ [(value &&& 0xFF).toUInt8] }
  else u

end Usart

/-! ### `rcc.rs` -/

structure Rcc where
  regs : Vector UInt32 1024 := Vector.replicate 1024 0
  /-- Bits that read as 1, by offset. -/
  readyOffsets : List (UInt32 × UInt32) := []

namespace Rcc

def raw : Rcc := {}

/-- A mask of the given bits. -/
def bits (positions : List UInt32) : UInt32 := positions.foldl (fun mask n => mask ||| ((1 : UInt32) <<< n)) 0

def h7 : Rcc := { readyOffsets := [(0x00, bits [2, 8, 13, 14, 15, 17, 25, 27, 29])] }

def u5 : Rcc := { readyOffsets := [(0x00, bits [2, 10, 13, 17, 25, 27, 29])] }

/-- The ready bits of an offset. -/
def readyBits (r : Rcc) (offset : UInt32) : UInt32 :=
  r.readyOffsets.foldl (fun extra p => if p.1 = offset then extra ||| p.2 else extra) 0

def read (r : Rcc) (offset : UInt32) : UInt32 := (r.regs[offset.toNat / 4]?).getD 0 ||| r.readyBits offset

def write (r : Rcc) (offset value : UInt32) : Rcc :=
  if h : offset.toNat / 4 < 1024 then { r with regs := r.regs.set (offset.toNat / 4) value h } else r

end Rcc

/-! ### `dbgmcu.rs` -/

structure Dbgmcu where
  idcode : UInt32
  regs : Vector UInt32 256 := Vector.replicate 256 0

namespace Dbgmcu

def h7 : Dbgmcu := { idcode := 0x10030450 }
def u5 : Dbgmcu := { idcode := 0x10000482 }
def mp13 : Dbgmcu := { idcode := 0x20000501 }

def read (d : Dbgmcu) (offset : UInt32) : UInt32 :=
  if offset = 0x000 then d.idcode else (d.regs[offset.toNat / 4]?).getD 0

def write (d : Dbgmcu) (offset value : UInt32) : Dbgmcu :=
  if h : offset.toNat / 4 < 256 then { d with regs := d.regs.set (offset.toNat / 4) value h } else d

end Dbgmcu

/-! ### `rng.rs` -/

/-- ChaCha20 as a generator of words (`rand_chacha`). -/
structure ChaCha where
  State : Type
  seedFromU64 : UInt64 → State
  nextU32 : State → UInt32 × State

structure Rng (R : ChaCha) where
  rng : R.State
  cr : UInt32 := 0
  sr : UInt32 := 0

namespace Rng

variable {R : ChaCha}

def withSeed (R : ChaCha) (seed : UInt64) : Rng R := { rng := R.seedFromU64 seed }

def new (R : ChaCha) : Rng R := .withSeed R 0xDEADBEEFCAFEBABE

/-- A word is always ready. -/
def read (g : Rng R) (offset : UInt32) : UInt32 × Rng R :=
  if offset = 0x00 then (g.cr, g)
  else if offset = 0x04 then (g.sr ||| 0x1, g)
  else if offset = 0x08 then
    let (word, rng) := R.nextU32 g.rng
    (word, { g with rng })
  else (0, g)

def write (g : Rng R) (offset value : UInt32) : Rng R :=
  if offset = 0x00 then { g with cr := value }
  else if offset = 0x04 then { g with sr := value &&& ~~~0x1 }
  else g

end Rng

end STM32
end Simulators
