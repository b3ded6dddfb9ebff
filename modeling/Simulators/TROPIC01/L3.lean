/-
# TROPIC01: L3 commands

`handlers/l3.rs`: the commands inside of an Encrypted_Cmd packet. A command is
its identifier and its fields, a result is a result byte and its fields.

Every command is gated by its User Access Privilege register, in the
configuration that was in force when the firmware started. A handler that
answers with a bare error code has changed nothing, so error codes are
refusals (`Lib/Handler`).
-/
import Simulators.TROPIC01.Device
import Simulators.TROPIC01.Frame

namespace Simulators
namespace TROPIC01

open Handler

/-! ### Codes -/

def resultOk : UInt8 := 0xc3
def resultFail : UInt8 := 0x3c
def resultUnauthorized : UInt8 := 0x01
def resultInvalidCmd : UInt8 := 0x02
def resultSlotNotEmpty : UInt8 := 0x10
def resultInvalidKey : UInt8 := 0x12
def resultUpdateErr : UInt8 := 0x13
def resultCounterInvalid : UInt8 := 0x14
def resultSlotEmpty : UInt8 := 0x15
def resultSlotInvalid : UInt8 := 0x16

/-- The known commands. -/
inductive CmdId
  | ping
  | pairingKeyWrite
  | pairingKeyRead
  | pairingKeyInvalidate
  | rConfigWrite
  | rConfigRead
  | rConfigErase
  | iConfigWrite
  | iConfigRead
  | rMemDataWrite
  | rMemDataRead
  | rMemDataErase
  | randomValueGet
  | eccKeyGenerate
  | eccKeyStore
  | eccKeyRead
  | eccKeyErase
  | ecdsaSign
  | eddsaSign
  | mcounterInit
  | mcounterUpdate
  | mcounterGet
  | macAndDestroy
deriving DecidableEq, Repr

namespace CmdId

/-- `cmd_id`. -/
def wireId : CmdId → UInt8
  | ping => 0x01
  | pairingKeyWrite => 0x10
  | pairingKeyRead => 0x11
  | pairingKeyInvalidate => 0x12
  | rConfigWrite => 0x20
  | rConfigRead => 0x21
  | rConfigErase => 0x22
  | iConfigWrite => 0x30
  | iConfigRead => 0x31
  | rMemDataWrite => 0x40
  | rMemDataRead => 0x41
  | rMemDataErase => 0x42
  | randomValueGet => 0x50
  | eccKeyGenerate => 0x60
  | eccKeyStore => 0x61
  | eccKeyRead => 0x62
  | eccKeyErase => 0x63
  | ecdsaSign => 0x70
  | eddsaSign => 0x71
  | mcounterInit => 0x80
  | mcounterUpdate => 0x81
  | mcounterGet => 0x82
  | macAndDestroy => 0x90

def all : List CmdId :=
  [ping, pairingKeyWrite, pairingKeyRead, pairingKeyInvalidate, rConfigWrite, rConfigRead, rConfigErase,
    iConfigWrite, iConfigRead, rMemDataWrite, rMemDataRead, rMemDataErase, randomValueGet, eccKeyGenerate,
    eccKeyStore, eccKeyRead, eccKeyErase, ecdsaSign, eddsaSign, mcounterInit, mcounterUpdate, mcounterGet,
    macAndDestroy]

/-- The command with an identifier, if it is known. -/
def ofWireId (id : UInt8) : Option CmdId := all.find? fun c => c.wireId == id

/-- The address of the User Access Privilege register (`uap`). -/
def uap : CmdId → ℕ
  | ping => 0x100
  | pairingKeyWrite => 0x020
  | pairingKeyRead => 0x024
  | pairingKeyInvalidate => 0x028
  | rConfigWrite | rConfigErase => 0x030
  | rConfigRead => 0x034
  | iConfigWrite => 0x040
  | iConfigRead => 0x044
  | rMemDataWrite => 0x110
  | rMemDataRead => 0x114
  | rMemDataErase => 0x118
  | randomValueGet => 0x120
  | eccKeyGenerate => 0x130
  | eccKeyStore => 0x134
  | eccKeyRead => 0x138
  | eccKeyErase => 0x13c
  | ecdsaSign => 0x140
  | eddsaSign => 0x144
  | mcounterInit => 0x150
  | mcounterGet => 0x154
  | mcounterUpdate => 0x158
  | macAndDestroy => 0x160

end CmdId

def eccSlotMax : ℕ := 31
def rMemSlotIndexMax : ℕ := 511
def mcounterMax : ℕ := 15
def mcounterValueMax : UInt32 := 0xfffffffe
def macanddSlotMax : ℕ := 127
def pingMax : ℕ := 4096
def eddsaMsgMax : ℕ := 4096
def configObjectSize : ℕ := 0x200
def macanddCustom : Bytes := ascii "My Tagged Application"

/-- What a command produced. -/
inductive L3Outcome
  | result (plaintext : Bytes)
  /-- Rejected at L2; the session closes. -/
  | genErr
deriving DecidableEq, Repr

/-- Firmware state that outlives a command: a SPECT command was rejected for its size. -/
structure L3State where
  spectSizeError : Bool := false
deriving DecidableEq, Repr

/-- How FW 0.1.2 reacts to a size that does not fit. -/
inductive Lenient
  | fail
  | okNoData
  | execute
deriving DecidableEq, Repr

/-- Acceptable sizes, the identifier included. -/
def sizeOk (p : Personality) (id : CmdId) (len : ℕ) : Bool :=
  match id with
  | .ping => 1 ≤ len ∧ len ≤ 1 + pingMax
  | .pairingKeyWrite => len = 36
  | .pairingKeyRead | .pairingKeyInvalidate => len = 3
  | .rConfigWrite => len = 8
  | .rConfigRead | .iConfigRead => len = 3
  | .rConfigErase => len = 1
  | .iConfigWrite => len = 4
  | .rMemDataWrite => 5 ≤ len ∧ len ≤ 4 + p.rMemSlotMax
  | .rMemDataRead | .rMemDataErase => len = 3
  | .randomValueGet => len = 2
  | .eccKeyGenerate => len = 4
  | .eccKeyStore => len = 48
  | .eccKeyRead | .eccKeyErase => len = 3
  | .ecdsaSign => len = 48
  | .eddsaSign => 16 ≤ len ∧ len ≤ 16 + eddsaMsgMax
  | .mcounterInit => len = 8
  | .mcounterUpdate | .mcounterGet => len = 3
  | .macAndDestroy => len = 36

def esLenient (id : CmdId) (len : ℕ) : Lenient :=
  match id with
  | .randomValueGet => if 2 < len then .execute else .fail
  | .ecdsaSign | .macAndDestroy | .eddsaSign => .okNoData
  | _ => .fail

/-- The commands for the SPECT coprocessor. -/
def isSpect : CmdId → Bool
  | .eccKeyGenerate | .eccKeyStore | .eccKeyRead | .eccKeyErase | .ecdsaSign | .eddsaSign | .macAndDestroy => true
  | _ => false

/-- The commands that can change the device. -/
def mutatesStore : CmdId → Bool
  | .pairingKeyWrite | .pairingKeyInvalidate | .rConfigWrite | .rConfigErase | .iConfigWrite | .rMemDataWrite
  | .rMemDataErase | .eccKeyGenerate | .eccKeyStore | .eccKeyErase | .mcounterInit | .mcounterUpdate
  | .macAndDestroy => true
  | _ => false

/-! ### Reading a command -/

/-- A command handler: error codes are refusals. -/
abbrev L3Cmd (α : Type) := Handler UInt8 α

def u16At (b : Bytes) (off : ℕ) : L3Cmd UInt16 := do
  let lo ← index b off
  let hi ← index b (off + 1)
  return u16Le lo hi

/-- `u32::from_le_bytes` of four bytes. -/
def u32At (b : Bytes) (off : ℕ) : L3Cmd UInt32 := do
  let b0 ← index b off
  let b1 ← index b (off + 1)
  let b2 ← index b (off + 2)
  let b3 ← index b (off + 3)
  return UInt32.ofNat (ofLe [b0, b1, b2, b3])

/-- A successful result. -/
def ok (fields : Bytes) : Bytes := resultOk :: fields

structure Ctx where
  dev : Device
  cfg : List UInt32
  p : Personality
  pkey : UInt8

namespace Ctx

/-- Bit `pkey` of the field at bit `pos` of the register. -/
def allowed (x : Ctx) (addr pos : ℕ) : L3Cmd Bool :=
  let reg := (x.cfg[addr / 4]?).getD 0
  if pos < 32 ∧ x.pkey.toNat < 32 then
    .ok (decide ((reg >>> UInt32.ofNat pos) &&& 0xff &&& ((1 : UInt32) <<< x.pkey.toUInt32) ≠ 0))
  else .error (.panic .shift)

def authorize (x : Ctx) (addr pos : ℕ) : L3Cmd Unit := do
  let permitted ← x.allowed addr pos
  ensure (permitted = true) resultUnauthorized

/-- The slot or index that a command names, at most `max`; the register has
one field for each `per` slots. -/
def target (x : Ctx) (max per : ℕ) (c : Bytes) (addr : ℕ) : L3Cmd UInt16 := do
  let slot ← u16At c 1
  ensure (slot.toNat ≤ max) resultUnauthorized
  x.authorize addr (slot.toNat / per * 8)
  return slot

def pairingSlot (x : Ctx) (c : Bytes) (addr : ℕ) : L3Cmd UInt16 := x.target 3 1 c addr

def rMemSlot (x : Ctx) (c : Bytes) (addr : ℕ) : L3Cmd UInt16 := x.target rMemSlotIndexMax 128 c addr

def eccSlot (x : Ctx) (c : Bytes) (addr : ℕ) : L3Cmd UInt16 := x.target eccSlotMax 8 c addr

def mcounterIndex (x : Ctx) (c : Bytes) (addr : ℕ) : L3Cmd UInt16 := x.target mcounterMax 4 c addr

def macanddSlot (x : Ctx) (c : Bytes) (addr : ℕ) : L3Cmd UInt16 := x.target macanddSlotMax 32 c addr

/-! ### Ping and pairing keys -/

def ping (x : Ctx) (c : Bytes) : L3Cmd (Bytes × Device) := do
  x.authorize (CmdId.uap .ping) 0
  let data ← slice c 1 c.length
  return (ok data, x.dev)

def pairingKeyWrite (x : Ctx) (c : Bytes) : L3Cmd (Bytes × Device) := do
  let slot ← x.pairingSlot c (CmdId.uap .pairingKeyWrite)
  ensure (slot.toUInt8 ∉ x.dev.pairingSlots) resultFail
  let key ← slice c 4 36
  let publicKey ← array 32 key
  return (ok [], { x.dev with pairingSlots := x.dev.pairingSlots.insert slot.toUInt8 ⟨publicKey, .written⟩ })

def pairingKeyRead (x : Ctx) (c : Bytes) : L3Cmd (Bytes × Device) := do
  let slot ← x.pairingSlot c (CmdId.uap .pairingKeyRead)
  let s ← orRefuse resultSlotEmpty (x.dev.pairingSlots.lookup slot.toUInt8)
  ensure (s.state ≠ .invalidated) resultSlotInvalid
  return (ok (List.replicate 3 0 ++ s.publicKey.bytes), x.dev)

def pairingKeyInvalidate (x : Ctx) (c : Bytes) : L3Cmd (Bytes × Device) := do
  let slot ← x.pairingSlot c (CmdId.uap .pairingKeyInvalidate)
  let s ← orRefuse resultFail (x.dev.pairingSlots.lookup slot.toUInt8)
  return (ok [], { x.dev with
    pairingSlots := x.dev.pairingSlots.insert slot.toUInt8 { s with state := .invalidated } })

/-! ### Configuration -/

/-- Registers from `0x100` on have the second field of the privilege register. -/
def configAddr (x : Ctx) (addr : UInt16) (uapAddr : ℕ) : L3Cmd ℕ := do
  ensure (addr.toNat < configObjectSize) resultUnauthorized
  x.authorize uapAddr (if addr < 0x100 then 0 else 8)
  ensure (addr.toNat % 4 = 0) resultFail
  return addr.toNat / 4

/-- Only an erased register can be written; the first field gates all of them. -/
def rConfigWrite (x : Ctx) (c : Bytes) : L3Cmd (Bytes × Device) := do
  x.authorize (CmdId.uap .rConfigWrite) 0
  let addr ← u16At c 1
  ensure (addr.toNat < configObjectSize) resultUnauthorized
  ensure (addr.toNat % 4 = 0) resultFail
  let old ← index x.dev.rConfig (addr.toNat / 4)
  ensure (old = 0xffffffff) resultFail
  let v ← u32At c 4
  return (ok [], { x.dev with rConfig := x.dev.rConfig.set (addr.toNat / 4) v })

def configRead (x : Ctx) (c : Bytes) (immutable : Bool) : L3Cmd (Bytes × Device) := do
  let addr ← u16At c 1
  let i ← x.configAddr addr (CmdId.uap (if immutable then .iConfigRead else .rConfigRead))
  let v ← index (if immutable then x.dev.iConfig else x.dev.rConfig) i
  return (ok (List.replicate 3 0 ++ toLe 4 v.toNat), x.dev)

def rConfigErase (x : Ctx) : L3Cmd (Bytes × Device) := do
  x.authorize (CmdId.uap .rConfigErase) 0
  return (ok [], { x.dev with rConfig := x.dev.rConfig.map fun _ => 0xffffffff })

/-- Clear one bit. -/
def iConfigWrite (x : Ctx) (c : Bytes) : L3Cmd (Bytes × Device) := do
  let addr ← u16At c 1
  let i ← x.configAddr addr (CmdId.uap .iConfigWrite)
  let bit ← index c 3
  ensure (bit ≤ 31) resultFail
  let old ← index x.dev.iConfig i
  return (ok [], { x.dev with iConfig := x.dev.iConfig.set i (old &&& ~~~((1 : UInt32) <<< bit.toUInt32)) })

/-! ### R-Memory and random values -/

def rMemWrite (x : Ctx) (c : Bytes) : L3Cmd (Bytes × Device) := do
  let slot ← x.rMemSlot c (CmdId.uap .rMemDataWrite)
  let data ← slice c 4 c.length
  ensure (data ≠ [] ∧ data.length ≤ x.p.rMemSlotMax) resultFail
  ensure (slot ∉ x.dev.rMemSlots) resultSlotNotEmpty
  return (ok [], { x.dev with rMemSlots := x.dev.rMemSlots.insert slot data })

/-- An empty slot reads as no data. -/
def rMemRead (x : Ctx) (c : Bytes) : L3Cmd (Bytes × Device) := do
  let slot ← x.rMemSlot c (CmdId.uap .rMemDataRead)
  return (ok (List.replicate 3 0 ++ (x.dev.rMemSlots.lookup slot).getD []), x.dev)

def rMemErase (x : Ctx) (c : Bytes) : L3Cmd (Bytes × Device) := do
  let slot ← x.rMemSlot c (CmdId.uap .rMemDataErase)
  return (ok [], { x.dev with rMemSlots := x.dev.rMemSlots.erase slot })

def random (x : Ctx) (g : OsRng) (c : Bytes) : L3Cmd (Bytes × Device) := do
  x.authorize (CmdId.uap .randomValueGet) 0
  let n ← index c 1
  return (ok (List.replicate 3 0 ++ g.fill n.toNat), x.dev)

end Ctx

/-! ### Keys -/

/-- The public key of a slot, as ECC_Key_Read returns it. -/
def publicKey (K : Crates) (entry : EccSlot) : Option Bytes :=
  match entry.curve with
  | .p256 => (K.p256FromSlice entry.privateKey).map fun secret => (K.p256Public secret).bytes
  | .ed25519 => (toArr 32 entry.privateKey).map fun seed => (K.ed25519Public seed).bytes

/-- The clamped scalar of the hashed seed. -/
def clampedScalar (h : ByteArr 64) : ByteArr 32 :=
  ⟨((h.bytes.take 32).modify 0 (· &&& 248)).modify 31 fun b => (b &&& 127) ||| 64, by simp [h.size]⟩

/-- A signature whose nonce mixes 32 random bytes into the usual hash. -/
def ed25519SignHedged (K : Crates) (g : OsRng) (seed : ByteArr 32) (msg : Bytes) : Bytes :=
  let h := K.sha512 seed.bytes
  let a := K.scalarFromBytes (clampedScalar h)
  let r := K.scalarFromHash (K.sha512 (g.fill 32 ++ h.bytes.drop 32 ++ msg))
  let rPoint := (K.mulBase r).bytes
  let k := K.scalarFromHash (K.sha512 (rPoint ++ (K.mulBase a).bytes ++ msg))
  rPoint ++ (K.scalarToBytes (K.scalarMulAdd r k a)).bytes

namespace Ctx

def eccGenerate (K : Crates) (x : Ctx) (g : OsRng) (c : Bytes) : L3Cmd (Bytes × Device) := do
  let slot ← x.eccSlot c (CmdId.uap .eccKeyGenerate)
  let id ← index c 3
  let curve ← orRefuse resultFail (CurveKind.fromWireId id)
  ensure (slot ∉ x.dev.eccSlots) resultFail
  let privateKey := match curve with
    | .p256 => (K.p256Random g).bytes
    | .ed25519 => g.fill 32
  return (ok [], { x.dev with eccSlots := x.dev.eccSlots.insert slot ⟨curve, .generated, privateKey⟩ })

def eccStore (K : Crates) (x : Ctx) (c : Bytes) : L3Cmd (Bytes × Device) := do
  let slot ← x.eccSlot c (CmdId.uap .eccKeyStore)
  let id ← index c 3
  let curve ← orRefuse resultFail (CurveKind.fromWireId id)
  ensure (slot ∉ x.dev.eccSlots) resultFail
  let k ← slice c 16 48
  ensure (curve = .p256 → (K.p256FromSlice k).isSome = true) resultFail
  return (ok [], { x.dev with eccSlots := x.dev.eccSlots.insert slot ⟨curve, .stored, k⟩ })

def eccRead (K : Crates) (x : Ctx) (c : Bytes) : L3Cmd (Bytes × Device) := do
  let slot ← x.eccSlot c (CmdId.uap .eccKeyRead)
  let entry ← orRefuse resultInvalidKey (x.dev.eccSlots.lookup slot)
  let pub ← orRefuse resultFail (publicKey K entry)
  return (ok ([entry.curve.wireId, entry.origin.wireId] ++ List.replicate 13 0 ++ pub), x.dev)

def eccErase (x : Ctx) (c : Bytes) : L3Cmd (Bytes × Device) := do
  let slot ← x.eccSlot c (CmdId.uap .eccKeyErase)
  return (ok [], { x.dev with eccSlots := x.dev.eccSlots.erase slot })

/-- The hash is signed as given. -/
def ecdsaSign (K : Crates) (x : Ctx) (g : OsRng) (c : Bytes) : L3Cmd (Bytes × Device) := do
  let slot ← x.eccSlot c (CmdId.uap .ecdsaSign)
  let entry ← orRefuse resultInvalidKey (x.dev.eccSlots.lookup slot)
  ensure (entry.curve = .p256) resultInvalidKey
  let secret ← orRefuse resultFail (K.p256FromSlice entry.privateKey)
  let hash ← slice c 16 48
  let sig ← orRefuse resultFail (K.p256SignPrehash secret g hash)
  return (ok (List.replicate 15 0 ++ sig.bytes), x.dev)

/-- The engineering samples answer an empty message without a signature. -/
def eddsaSign (K : Crates) (x : Ctx) (g : OsRng) (c : Bytes) : L3Cmd (Bytes × Device) := do
  let slot ← x.eccSlot c (CmdId.uap .eddsaSign)
  if c.length = 16 ∧ x.p.eddsaEmptyMessageUnsigned = true then return (ok [], x.dev)
  else
    let entry ← orRefuse resultInvalidKey (x.dev.eccSlots.lookup slot)
    ensure (entry.curve = .ed25519) resultInvalidKey
    let seed ← array 32 entry.privateKey
    let msg ← slice c 16 c.length
    return (ok (List.replicate 15 0 ++ ed25519SignHedged K g seed msg), x.dev)

/-! ### Counters -/

def mcounterInit (x : Ctx) (c : Bytes) : L3Cmd (Bytes × Device) := do
  let idx ← x.mcounterIndex c (CmdId.uap .mcounterInit)
  let v ← u32At c 4
  ensure (v ≤ mcounterValueMax) resultFail
  return (ok [], { x.dev with mcounters := x.dev.mcounters.insert idx v })

def mcounterUpdate (x : Ctx) (c : Bytes) : L3Cmd (Bytes × Device) := do
  let idx ← x.mcounterIndex c (CmdId.uap .mcounterUpdate)
  let v ← orRefuse resultCounterInvalid (x.dev.mcounters.lookup idx)
  ensure (v ≠ 0) resultUpdateErr
  return (ok [], { x.dev with mcounters := x.dev.mcounters.insert idx (v - 1) })

def mcounterGet (x : Ctx) (c : Bytes) : L3Cmd (Bytes × Device) := do
  let idx ← x.mcounterIndex c (CmdId.uap .mcounterGet)
  let v ← orRefuse resultCounterInvalid (x.dev.mcounters.lookup idx)
  return (ok (List.replicate 3 0 ++ toLe 4 v.toNat), x.dev)

/-! ### MAC_And_Destroy -/

/-- The slot becomes F1 of the input; the result is F2 of the old and the new content. -/
def macAndDestroy (K : Crates) (x : Ctx) (c : Bytes) : L3Cmd (Bytes × Device) := do
  let slot ← x.macanddSlot c (CmdId.uap .macAndDestroy)
  let slotByte := [slot.toUInt8]
  let s := match x.dev.macanddSlots.lookup slot with
    | some s => s.bytes
    | none => List.replicate 32 0xff
  let input ← slice c 4 36
  let sNew := K.kmac256 x.dev.macanddKey1 macanddCustom (input ++ slotByte)
  let out := K.kmac256 x.dev.macanddKey2 macanddCustom (s ++ sNew.bytes ++ slotByte)
  return (ok (List.replicate 3 0 ++ out.bytes), { x.dev with macanddSlots := x.dev.macanddSlots.insert slot sNew })

/-! ### Dispatch -/

/-- The handler of a command. -/
def handle (K : Crates) (x : Ctx) (g : OsRng) (id : CmdId) (c : Bytes) : L3Cmd (Bytes × Device) :=
  match id with
  | .ping => x.ping c
  | .pairingKeyWrite => x.pairingKeyWrite c
  | .pairingKeyRead => x.pairingKeyRead c
  | .pairingKeyInvalidate => x.pairingKeyInvalidate c
  | .rConfigWrite => x.rConfigWrite c
  | .rConfigRead => x.configRead c false
  | .rConfigErase => x.rConfigErase
  | .iConfigWrite => x.iConfigWrite c
  | .iConfigRead => x.configRead c true
  | .rMemDataWrite => x.rMemWrite c
  | .rMemDataRead => x.rMemRead c
  | .rMemDataErase => x.rMemErase c
  | .randomValueGet => x.random g c
  | .eccKeyGenerate => x.eccGenerate K g c
  | .eccKeyStore => x.eccStore K c
  | .eccKeyRead => x.eccRead K c
  | .eccKeyErase => x.eccErase c
  | .ecdsaSign => x.ecdsaSign K g c
  | .eddsaSign => x.eddsaSign K g c
  | .mcounterInit => x.mcounterInit c
  | .mcounterUpdate => x.mcounterUpdate c
  | .mcounterGet => x.mcounterGet c
  | .macAndDestroy => x.macAndDestroy K c

end Ctx

/-- A command of an acceptable size, or of one that FW 0.1.2 overlooks. After
a rejected SPECT command, another kind of command is answered by zeros. -/
def dispatchSized (K : Crates) (g : OsRng) (dev : Device) (cfg : List UInt32) (p : Personality) (pkey : UInt8)
    (state : L3State) (id : CmdId) (c : Bytes) : Except Panic (L3Outcome × Device × L3State) :=
  if state.spectSizeError = true ∧ isSpect id = false then
    .ok (.result (List.replicate (if id = .ping then c.length else 1) 0), dev, ⟨false⟩)
  else
    (settle (fun code => [code]) dev (Ctx.handle K ⟨dev, cfg, p, pkey⟩ g id c)).map fun (r, dev') =>
      (.result r, dev', ⟨false⟩)

/-- Execute one command, in the configuration `cfg` that is in force. -/
def dispatch (K : Crates) (g : OsRng) (dev : Device) (cfg : List UInt32) (p : Personality) (pkey : UInt8)
    (state : L3State) (plaintext : Bytes) : Except Panic (L3Outcome × Device × L3State) :=
  match plaintext with
  | [] => .ok (.result [resultInvalidCmd], dev, state)
  | byte :: _ =>
    match CmdId.ofWireId byte with
    | none => .ok (.result [resultInvalidCmd], dev, ⟨false⟩)
    | some id =>
      if sizeOk p id plaintext.length then dispatchSized K g dev cfg p pkey state id plaintext
      else if p.strictL3Sizes then .ok (.genErr, dev, if isSpect id then ⟨true⟩ else state)
      else match esLenient id plaintext.length with
        | .fail => .ok (.result [resultFail], dev, state)
        | .okNoData => .ok (.result [resultOk], dev, state)
        | .execute => dispatchSized K g dev cfg p pkey state id plaintext

end TROPIC01
end Simulators
