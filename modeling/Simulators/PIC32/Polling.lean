/-
# PIC32MZ crypto engine: streaming hashes

`ce/polling.rs`, and the registry of polling ticks in `core/src/peripheral.rs`.
In polling mode the engine hashes a ring of buffer descriptors that the
firmware enables one by one. At each tick a callback goes through the ring from
its first descriptor, feeds the buffer of each enabled one to a running digest
and clears its DESC_EN; the descriptor with LAST_BD and LIFM ends the hash.

The digests are streaming hashers that see the concatenation of what they are
fed. An error is logged and ends the tick, with what was done before it kept.
-/
import Simulators.Lib.Blocks
import Simulators.PIC32.Descriptors

namespace Simulators
namespace PIC32

inductive HashAlgo
  | md5
  | sha1
  | sha256
deriving DecidableEq, Repr

/-- Bytes of a digest. -/
def HashAlgo.size : HashAlgo → ℕ
  | .md5 => 16
  | .sha1 => 20
  | .sha256 => 32

/-- The digest crates. -/
structure Digests where
  State : Type
  new : HashAlgo → State
  update : State → Bytes → State
  finalize : State → Bytes
  hash : HashAlgo → Bytes → Bytes
  update_nil : ∀ s, update s [] = s
  finalize_updates : ∀ a (pieces : List Bytes), finalize (pieces.foldl update (new a)) = hash a pieces.flatten
  hash_length : ∀ a m, (hash a m).length = a.size

def algoHmac1 : UInt8 := 0x40
def algoSha256 : UInt8 := 0x20
def algoSha1 : UInt8 := 0x10
def algoMd5 : UInt8 := 0x08

/-- `HashCtx::from_algo`, without the empty digest. -/
def HashAlgo.fromAlgo (algo : UInt8) : Option HashAlgo :=
  if algo &&& algoHmac1 ≠ 0 then none
  else if algo &&& algoSha256 ≠ 0 then some .sha256
  else if algo &&& algoSha1 ≠ 0 then some .sha1
  else if algo &&& algoMd5 ≠ 0 then some .md5
  else none

/-- Each whole word turned round. -/
def byteSwapWords (b : Bytes) : Bytes := (chunks 4 b).flatMap fun c => if c.length = 4 then c.reverse else c

/-- The state of an armed hash. -/
structure State (D : Digests) where
  algo : UInt8 := 0
  ctx : Option D.State := none
  bytesFed : ℕ := 0
  outSwap : Bool
  completed : Bool := false
  bdAddrs : List ℕ

variable {D : Digests}

/-! ### The chain -/

/-- The loop over at most `fuel` more descriptors. -/
def collectFrom (mem : Memory) : ℕ → ℕ → List ℕ → Option (List ℕ)
  | 0, _, addrs => some addrs
  | fuel + 1, cur, addrs =>
    if cur = 0 then some addrs
    else if cur ∈ addrs then some addrs
    else
      match BufferDescriptor.readPhys mem cur with
      | none => none
      | some bd =>
        let next := bd.nxtptr.toNat
        if next = cur then some (addrs ++ [cur]) else collectFrom mem fuel next (addrs ++ [cur])

def collectChain (mem : Memory) (bd0 : ℕ) : Option (List ℕ) :=
  match collectFrom mem 8 bd0 [] with
  | none => none
  | some [] => none
  | some addrs => some addrs

/-! ### One descriptor -/

/-- Whether a step went well, and what it left. -/
abbrev Outcome (D : Digests) := Bool × State D × Memory

/-- The digest that a descriptor starts, if none is running. -/
def openCtx (st : State D) (bd : BufferDescriptor) (mem : Memory) : Bool × State D :=
  if st.ctx.isNone then
    if ¬ bd.saFetchEnabled then (false, st)
    else
      match SecurityAssociation.readPhys mem bd.saAddr.toNat with
      | none => (false, st)
      | some sa =>
        let st := { st with algo := sa.ctrl.algo }
        match HashAlgo.fromAlgo st.algo with
        | none => (false, st)
        | some a => (true, { st with ctx := some (D.new a) })
  else (true, st)

/-- The bytes of a buffer that count: MSGLEN, if it is set, is the length of the whole message. -/
def takeLen (st : State D) (bd : BufferDescriptor) : ℕ :=
  if bd.msglen ≠ 0 then min bd.buflen (bd.msglen.toNat - st.bytesFed) else bd.buflen

def feed (st : State D) (bd : BufferDescriptor) (mem : Memory) : Option (State D) :=
  if 0 < takeLen st bd then
    match mem.readPhys bd.srcaddr.toNat (takeLen st bd) with
    | none => none
    | some buf => some { st with ctx := st.ctx.map (D.update · buf), bytesFed := st.bytesFed + takeLen st bd }
  else some st

/-- The digest to UPDPTR; there is one after `openCtx`. -/
def commit (st : State D) (bd : BufferDescriptor) (mem : Memory) : Outcome D :=
  match st.ctx with
  | none => (false, st, mem)
  | some ctx =>
    let st := { st with ctx := none }
    let digest := D.finalize ctx
    match mem.writePhys bd.updptr.toNat (if ¬ st.outSwap then byteSwapWords digest else digest) with
    | none => (false, st, mem)
    | some mem => (true, { st with completed := true }, mem)

def processBd (st : State D) (addr : ℕ) (mem : Memory) : Outcome D :=
  match BufferDescriptor.readPhys mem addr with
  | none => (false, st, mem)
  | some bd =>
    if ¬ bd.descEnabled then (true, st, mem)
    else
      match openCtx st bd mem with
      | (false, st) => (false, st, mem)
      | (true, st) =>
        match feed st bd mem with
        | none => (false, st, mem)
        | some st =>
          match { bd with bdCtrl := bd.bdCtrl.clear }.writePhys mem addr with
          | none => (false, st, mem)
          | some mem => if bd.lastBd ∧ bd.lifm then commit st bd mem else (true, st, mem)

/-! ### Ticks -/

/-- The callback's loop over the ring. -/
def scan : List ℕ → State D → Memory → State D × Memory
  | [], st, mem => (st, mem)
  | addr :: addrs, st, mem =>
    match mem.readPhys addr 4 with
    | none => scan addrs st mem
    | some ctrl =>
      if leWord ctrl &&& BdCtrl.descEnBit = 0 then scan addrs st mem
      else
        match processBd st addr mem with
        | (false, st, mem) => (st, mem)
        | (true, st, mem) => if st.completed then (st, mem) else scan addrs st mem

/-- The callback. -/
def tick (st : State D) (mem : Memory) : State D × Memory :=
  if st.completed then (st, mem) else scan st.bdAddrs st mem

/-- The callbacks, each with its state; a slot that is free again stays empty. -/
abbrev Registry (D : Digests) := List (Option (State D))

def registerPollingTick (reg : Registry D) (callback : State D) : ℕ × Registry D :=
  (reg.length, reg ++ [some callback])

def unregisterPollingTick (reg : Registry D) (idx : ℕ) : Registry D := reg.set idx none

def dispatchPollingTick : Registry D → Memory → Registry D × Memory
  | [], mem => ([], mem)
  | none :: reg, mem =>
    let (reg, mem) := dispatchPollingTick reg mem
    (none :: reg, mem)
  | some st :: reg, mem =>
    let (st, mem) := tick st mem
    let (reg, mem) := dispatchPollingTick reg mem
    (some st :: reg, mem)

def arm (cebdpaddr : UInt32) (outSwap : Bool) (mem : Memory) (reg : Registry D) : Option (ℕ × Registry D) :=
  if cebdpaddr = 0 then none
  else
    match collectChain mem cebdpaddr.toNat with
    | none => none
    | some addrs => some (registerPollingTick reg { outSwap := outSwap, bdAddrs := addrs })

end PIC32
end Simulators
