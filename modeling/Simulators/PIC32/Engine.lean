/-
# PIC32MZ crypto engine: registers and chains

`ce/mod.rs`. Each register has four lanes: a store, and atomic sets, clears and
inversions. A store to CECON that leaves START set walks the descriptors from
CEBDPADDR on before it returns, or arms the polling mode.
-/
import Simulators.PIC32.Algo

namespace Simulators
namespace PIC32

def ceconOff : UInt32 := 0x000
def cestatOff : UInt32 := 0x010
def ceintsrcOff : UInt32 := 0x020
def ceintenOff : UInt32 := 0x030
def cebdpaddrOff : UInt32 := 0x040
def cepollconOff : UInt32 := 0x050

def ceconStart : UInt32 := 0x01
def ceconPolling : UInt32 := 0x02
def ceconSwrst : UInt32 := 0x40
def ceconOutSwap : UInt32 := 0x80

def ceintsrcPktif : UInt32 := 0x2
def ceintsrcAll : UInt32 := 0xF

def maxBdChain : ℕ := 64

/-- The registers; `polling` is the slot of the armed callback. -/
structure CryptoEngine where
  cecon : UInt32 := 0
  cestat : UInt32 := 0
  ceintsrc : UInt32 := 0
  ceinten : UInt32 := 0
  cebdpaddr : UInt32 := 0
  cepollcon : UInt32 := 0
  noOutSwap : Bool := false
  polling : Option ℕ := none
deriving DecidableEq, Repr

def atomicOp (current lane value : UInt32) : UInt32 :=
  match lane with
  | 0 => value
  | 1 => current ||| value
  | 2 => current &&& ~~~value
  | 3 => current ^^^ value
  | _ => current

def splitAtomic (offset base : UInt32) : Option UInt32 :=
  let delta := offset - base
  if delta < 16 then some (delta >>> 2) else none

/-! ### Chains -/

/-- The descriptor at an address, executed. -/
def runBd (C : Crates) (outSwap : Bool) (bdAddr : ℕ) (mem : Memory) :
    Handler ChainError (BufferDescriptor × Memory) := do
  let bd ← Handler.orRefuse (.readPhys bdAddr 32) (BufferDescriptor.readPhys mem bdAddr)
  Handler.ensure (bd.descEnabled = true) (.descDisabled bdAddr bd)
  Handler.ensure (bd.saFetchEnabled = true) (.saFetchDisabled bdAddr)
  let sa ← Handler.orRefuse (.readPhys bd.saAddr.toNat SecurityAssociation.size)
    (SecurityAssociation.readPhys mem bd.saAddr.toNat)
  let mem ← execute C sa bd outSwap mem
  return (bd, mem)

/-- The walk ends with this descriptor. -/
def BufferDescriptor.Ends (bd : BufferDescriptor) (bdAddr : ℕ) : Prop :=
  bd.lastBd = true ∨ bd.nxtptr = 0 ∨ bd.nxtptr.toNat = bdAddr

instance (bd : BufferDescriptor) (bdAddr : ℕ) : Decidable (bd.Ends bdAddr) :=
  inferInstanceAs (Decidable (_ ∨ _))

/-- The loop over at most `fuel` more descriptors; an error keeps what was written before it. -/
def runFrom (C : Crates) (outSwap : Bool) : ℕ → ℕ → Memory → Except Panic (Except ChainError Unit × Memory)
  | 0, _, mem => .ok (.ok (), mem)
  | fuel + 1, bdAddr, mem =>
    match runBd C outSwap bdAddr mem with
    | .error (.panic p) => .error p
    | .error (.refuse e) => .ok (.error e, mem)
    | .ok (bd, mem) =>
      if bd.Ends bdAddr then .ok (.ok (), mem) else runFrom C outSwap fuel bd.nxtptr.toNat mem

namespace CryptoEngine

def runChain (C : Crates) (e : CryptoEngine) (outSwap : Bool) (mem : Memory) :
    Except Panic (Except ChainError Unit × Memory) :=
  runFrom C outSwap maxBdChain e.cebdpaddr.toNat mem

/-! ### Registers -/

/-- `disarm_polling`, with `polling::disarm`. -/
def disarmPolling {D : Digests} (e : CryptoEngine) (reg : Registry D) : CryptoEngine × Registry D :=
  match e.polling with
  | none => (e, reg)
  | some idx => ({ e with polling := none }, unregisterPollingTick reg idx)

/-- Whether the words of a result keep their order. -/
def outSwap (e : CryptoEngine) : Bool := !e.noOutSwap && (e.cecon &&& ceconOutSwap ≠ 0)

/-- ERROP to 1, and PKTIF. -/
def fail (e : CryptoEngine) : CryptoEngine :=
  { e with cestat := (e.cestat &&& ~~~0xF) ||| 0x1, ceintsrc := e.ceintsrc ||| ceintsrcPktif }

def clearStart (e : CryptoEngine) : CryptoEngine := { e with cecon := e.cecon &&& ~~~ceconStart }

/-- `split_atomic` of the registers in turn: the value of a base lane, and zero elsewhere. -/
def read (e : CryptoEngine) (offset : UInt32) : UInt32 :=
  let lane (base reg : UInt32) (rest : UInt32) : UInt32 :=
    match splitAtomic offset base with
    | some l => if l = 0 then reg else 0
    | none => rest
  lane ceconOff e.cecon <| lane cestatOff e.cestat <| lane ceintsrcOff e.ceintsrc <|
    lane ceintenOff e.ceinten <| lane cebdpaddrOff e.cebdpaddr <| lane cepollconOff e.cepollcon 0

/-- A store to CECON, in the lane `lane`. -/
def writeCecon (C : Crates) (e : CryptoEngine) (lane value : UInt32) (mem : Memory)
    (reg : Registry C.digests) : Except Panic (CryptoEngine × Memory × Registry C.digests) :=
  let e := { e with cecon := atomicOp e.cecon lane value }
  if e.cecon &&& ceconSwrst ≠ 0 then
    let (e, reg) := { e with cecon := 0, cestat := 0, ceintsrc := 0, cebdpaddr := 0 }.disarmPolling reg
    .ok (e, mem, reg)
  else if e.cecon &&& ceconPolling ≠ 0 ∧ e.cecon &&& ceconStart ≠ 0 then
    let swap := e.outSwap
    let (e, reg) := e.disarmPolling reg
    match arm e.cebdpaddr swap mem reg with
    | some (idx, reg) => .ok ({ e with polling := some idx }.clearStart, mem, reg)
    | none => .ok (e.fail.clearStart, mem, reg)
  else if e.cecon &&& ceconStart ≠ 0 then
    match e.runChain C e.outSwap mem with
    | .error p => .error p
    | .ok (.ok (), mem) => .ok ({ e with ceintsrc := e.ceintsrc ||| ceintsrcPktif }.clearStart, mem, reg)
    | .ok (.error _, mem) => .ok (e.fail.clearStart, mem, reg)
  else .ok (e, mem, reg)

/-- A store from the firmware. -/
def write (C : Crates) (e : CryptoEngine) (offset value : UInt32) (mem : Memory)
    (reg : Registry C.digests) : Except Panic (CryptoEngine × Memory × Registry C.digests) :=
  match splitAtomic offset ceconOff with
  | some lane => e.writeCecon C lane value mem reg
  | none =>
    match splitAtomic offset cestatOff with
    | some lane => .ok ({ e with cestat := atomicOp e.cestat lane value }, mem, reg)
    | none =>
      match splitAtomic offset ceintsrcOff with
      | some lane =>
        -- the base lane is write-1-to-clear
        if lane = 0 then .ok ({ e with ceintsrc := e.ceintsrc &&& ~~~(value &&& ceintsrcAll) }, mem, reg)
        else .ok ({ e with ceintsrc := atomicOp e.ceintsrc lane value }, mem, reg)
      | none =>
        match splitAtomic offset ceintenOff with
        | some lane => .ok ({ e with ceinten := atomicOp e.ceinten lane value }, mem, reg)
        | none =>
          match splitAtomic offset cebdpaddrOff with
          | some lane => .ok ({ e with cebdpaddr := atomicOp e.cebdpaddr lane value }, mem, reg)
          | none =>
            match splitAtomic offset cepollconOff with
            | some lane => .ok ({ e with cepollcon := atomicOp e.cepollcon lane value }, mem, reg)
            | none => .ok (e, mem, reg)

end CryptoEngine
end PIC32
end Simulators
