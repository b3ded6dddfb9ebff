/-
# TROPIC01: access privileges

A User Access Privilege register has a field of eight bits for each part of
the memory that a command can address, and a field has one bit for each
pairing key. `privilegePos` says which field covers the target of a command;
without the bit the command is refused, whatever the device stores
(`dispatch_unauthorized`).

The configuration that counts is the one of the last start. The chip reads it
when it is first needed; that nothing has changed it since the start is an
invariant over runs (`Enforced`).

Key theorem: `privileges_enforced`.
-/
import Simulators.Lib.Bits
import Simulators.TROPIC01.Invariant
import Simulators.TROPIC01.Persistence
import Simulators.TROPIC01.Tunnel

namespace Simulators
namespace TROPIC01

open Handler

/-! ### The gate -/

/-- The slot, index or address of a command. -/
def commandArg (plaintext : Bytes) : ℕ := (u16Le ((plaintext[1]?).getD 0) ((plaintext[2]?).getD 0)).toNat

/-- The bit position of the field that covers the target, if that is in range. -/
def privilegePos (id : CmdId) (arg : ℕ) : Option ℕ :=
  match id with
  | .ping | .randomValueGet | .rConfigErase => some 0
  | .rConfigWrite => if arg < configObjectSize then some 0 else none
  | .rConfigRead | .iConfigWrite | .iConfigRead =>
    if arg < configObjectSize then some (if arg < 0x100 then 0 else 8) else none
  | .pairingKeyWrite | .pairingKeyRead | .pairingKeyInvalidate => if arg ≤ 3 then some (arg * 8) else none
  | .rMemDataWrite | .rMemDataRead | .rMemDataErase =>
    if arg ≤ rMemSlotIndexMax then some (arg / 128 * 8) else none
  | .eccKeyGenerate | .eccKeyStore | .eccKeyRead | .eccKeyErase | .ecdsaSign | .eddsaSign =>
    if arg ≤ eccSlotMax then some (arg / 8 * 8) else none
  | .mcounterInit | .mcounterUpdate | .mcounterGet => if arg ≤ mcounterMax then some (arg / 4 * 8) else none
  | .macAndDestroy => if arg ≤ macanddSlotMax then some (arg / 32 * 8) else none

/-- The bit of a pairing index in the field at `pos` of the register of a command. -/
def privilegeBit (cfg : List UInt32) (id : CmdId) (pos : ℕ) (pkey : UInt8) : Bool :=
  ((cfg[id.uap / 4]?).getD 0).toNat.testBit (pos + pkey.toNat)

/-- The commands that name a slot, an index or an address. -/
def hasArg : CmdId → Bool
  | .ping | .randomValueGet | .rConfigErase => false
  | _ => true

section Gate

variable {K : Crates} {g : OsRng} {x : Ctx} {c : Bytes}

/-- The test of the code is the test of the bit. -/
theorem allowed_eq {addr pos : ℕ} (hpos : pos ≤ 24) (hkey : x.pkey.toNat < 8) :
    x.allowed addr pos = .ok (((x.cfg[addr / 4]?).getD 0).toNat.testBit (pos + x.pkey.toNat)) := by
  unfold Ctx.allowed
  dsimp only
  rw [if_pos (by omega)]
  have hkey' : x.pkey.toUInt32 = UInt32.ofNat x.pkey.toNat := by
    apply UInt32.toNat_inj.mp
    rw [UInt8.toNat_toUInt32, UInt32.toNat_ofNat', Nat.mod_eq_of_lt (by omega)]
  rw [hkey', field_ne_zero _ (by omega) hkey]

theorem authorize_refuses {addr pos : ℕ} (hpos : pos ≤ 24) (hkey : x.pkey.toNat < 8)
    (hbit : ((x.cfg[addr / 4]?).getD 0).toNat.testBit (pos + x.pkey.toNat) = false) :
    x.authorize addr pos = refuse resultUnauthorized := by
  unfold Ctx.authorize
  rw [allowed_eq hpos hkey, hbit]
  rfl

theorem u16At_commandArg (hc : 3 ≤ c.length) : ∃ w : UInt16, u16At c 1 = .ok w ∧ w.toNat = commandArg c := by
  match c, hc with
  | _ :: lo :: hi :: _, _ => exact ⟨u16Le lo hi, rfl, rfl⟩

/-- A slot in range without its privilege. -/
theorem target_refuses {max per addr : ℕ} (hc : 3 ≤ c.length) (hmax : commandArg c ≤ max)
    (hpos : commandArg c / per * 8 ≤ 24) (hkey : x.pkey.toNat < 8)
    (hbit : ((x.cfg[addr / 4]?).getD 0).toNat.testBit (commandArg c / per * 8 + x.pkey.toNat) = false) :
    x.target max per c addr = refuse resultUnauthorized := by
  obtain ⟨w, hw, hwc⟩ := u16At_commandArg hc
  unfold Ctx.target
  rw [hw, ok_bind, ensure, if_pos (hwc ▸ hmax), ok_bind, hwc, authorize_refuses hpos hkey hbit]
  rfl

theorem configAddr_refuses {w : UInt16} {addr : ℕ} (hw : w.toNat < configObjectSize) (hkey : x.pkey.toNat < 8)
    (hbit : ((x.cfg[addr / 4]?).getD 0).toNat.testBit ((if w.toNat < 0x100 then 0 else 8) + x.pkey.toNat) = false) :
    x.configAddr w addr = refuse resultUnauthorized := by
  have hif : (if w < 0x100 then 0 else 8) = if w.toNat < 0x100 then 0 else 8 := rfl
  unfold Ctx.configAddr
  rw [ensure, if_pos hw, ok_bind, hif, authorize_refuses (by split <;> omega) hkey hbit]
  rfl

theorem three_le_of_sizeOk {p : Personality} {id : CmdId} {n : ℕ} (h : sizeOk p id n = true) (hid : hasArg id = true) :
    3 ≤ n := by
  cases id <;> simp [sizeOk, hasArg] at h hid <;> omega

/-- The handler of a command in range, without its privilege. -/
theorem handle_refuses {id : CmdId} {pos : ℕ} (hsize : hasArg id = true → 3 ≤ c.length)
    (hpos : privilegePos id (commandArg c) = some pos) (hkey : x.pkey.toNat < 8)
    (hbit : privilegeBit x.cfg id pos x.pkey = false) : x.handle K g id c = refuse resultUnauthorized := by
  have hzero : pos = 0 → x.authorize id.uap 0 = refuse resultUnauthorized := by
    rintro rfl
    exact authorize_refuses (by omega) hkey hbit
  have hslot : ∀ {max per : ℕ}, hasArg id = true → max / per ≤ 3 →
      (if commandArg c ≤ max then some (commandArg c / per * 8) else none) = some pos →
      x.target max per c id.uap = refuse resultUnauthorized := by
    intro max per harg hper hif
    rw [Option.ite_none_right_eq_some, Option.some.injEq] at hif
    obtain ⟨hmax, rfl⟩ := hif
    have hle : commandArg c / per ≤ max / per := Nat.div_le_div_right hmax
    exact target_refuses (hsize harg) hmax (by omega) hkey hbit
  have haddr : ∀ {w : UInt16}, w.toNat = commandArg c →
      (if commandArg c < configObjectSize then some (if commandArg c < 0x100 then 0 else 8) else none) = some pos →
      x.configAddr w id.uap = refuse resultUnauthorized := by
    intro w hw hif
    rw [Option.ite_none_right_eq_some, Option.some.injEq, ← hw] at hif
    obtain ⟨hlt, rfl⟩ := hif
    exact configAddr_refuses hlt hkey hbit
  cases id with
  | ping =>
    rw [Ctx.handle, Ctx.ping, hzero (Option.some.inj hpos).symm, refuse_bind]
  | randomValueGet =>
    rw [Ctx.handle, Ctx.random, hzero (Option.some.inj hpos).symm, refuse_bind]
  | rConfigErase =>
    rw [Ctx.handle, Ctx.rConfigErase, hzero (Option.some.inj hpos).symm, refuse_bind]
  | rConfigWrite =>
    rw [privilegePos, Option.ite_none_right_eq_some, Option.some.injEq] at hpos
    rw [Ctx.handle, Ctx.rConfigWrite, hzero hpos.2.symm, refuse_bind]
  | rConfigRead =>
    obtain ⟨w, hw, hwc⟩ := u16At_commandArg (hsize rfl)
    rw [Ctx.handle, Ctx.configRead, hw, ok_bind]
    exact congrArg (· >>= _) (haddr hwc hpos)
  | iConfigRead =>
    obtain ⟨w, hw, hwc⟩ := u16At_commandArg (hsize rfl)
    rw [Ctx.handle, Ctx.configRead, hw, ok_bind]
    exact congrArg (· >>= _) (haddr hwc hpos)
  | iConfigWrite =>
    obtain ⟨w, hw, hwc⟩ := u16At_commandArg (hsize rfl)
    rw [Ctx.handle, Ctx.iConfigWrite, hw, ok_bind, haddr hwc hpos, refuse_bind]
  | pairingKeyWrite =>
    rw [Ctx.handle, Ctx.pairingKeyWrite, Ctx.pairingSlot, hslot rfl (by decide) (by rw [Nat.div_one]; exact hpos),
      refuse_bind]
  | pairingKeyRead =>
    rw [Ctx.handle, Ctx.pairingKeyRead, Ctx.pairingSlot, hslot rfl (by decide) (by rw [Nat.div_one]; exact hpos),
      refuse_bind]
  | pairingKeyInvalidate =>
    rw [Ctx.handle, Ctx.pairingKeyInvalidate, Ctx.pairingSlot,
      hslot rfl (by decide) (by rw [Nat.div_one]; exact hpos), refuse_bind]
  | rMemDataWrite => rw [Ctx.handle, Ctx.rMemWrite, Ctx.rMemSlot, hslot rfl (by decide) hpos, refuse_bind]
  | rMemDataRead => rw [Ctx.handle, Ctx.rMemRead, Ctx.rMemSlot, hslot rfl (by decide) hpos, refuse_bind]
  | rMemDataErase => rw [Ctx.handle, Ctx.rMemErase, Ctx.rMemSlot, hslot rfl (by decide) hpos, refuse_bind]
  | eccKeyGenerate => rw [Ctx.handle, Ctx.eccGenerate, Ctx.eccSlot, hslot rfl (by decide) hpos, refuse_bind]
  | eccKeyStore => rw [Ctx.handle, Ctx.eccStore, Ctx.eccSlot, hslot rfl (by decide) hpos, refuse_bind]
  | eccKeyRead => rw [Ctx.handle, Ctx.eccRead, Ctx.eccSlot, hslot rfl (by decide) hpos, refuse_bind]
  | eccKeyErase => rw [Ctx.handle, Ctx.eccErase, Ctx.eccSlot, hslot rfl (by decide) hpos, refuse_bind]
  | ecdsaSign => rw [Ctx.handle, Ctx.ecdsaSign, Ctx.eccSlot, hslot rfl (by decide) hpos, refuse_bind]
  | eddsaSign => rw [Ctx.handle, Ctx.eddsaSign, Ctx.eccSlot, hslot rfl (by decide) hpos, refuse_bind]
  | mcounterInit => rw [Ctx.handle, Ctx.mcounterInit, Ctx.mcounterIndex, hslot rfl (by decide) hpos, refuse_bind]
  | mcounterUpdate => rw [Ctx.handle, Ctx.mcounterUpdate, Ctx.mcounterIndex, hslot rfl (by decide) hpos, refuse_bind]
  | mcounterGet => rw [Ctx.handle, Ctx.mcounterGet, Ctx.mcounterIndex, hslot rfl (by decide) hpos, refuse_bind]
  | macAndDestroy => rw [Ctx.handle, Ctx.macAndDestroy, Ctx.macanddSlot, hslot rfl (by decide) hpos, refuse_bind]

end Gate

/-- A known command of an acceptable size that is not answered for an earlier rejected one. -/
structure Accepted (p : Personality) (state : L3State) (id : CmdId) (c : Bytes) : Prop where
  known : c.head?.bind CmdId.ofWireId = some id
  size : sizeOk p id c.length = true
  unspoiled : state.spectSizeError = false ∨ isSpect id = true

/-- Without the bit, the answer is UNAUTHORIZED and the device stays as it is. -/
theorem dispatch_unauthorized {K : Crates} {g : OsRng} (dev : Device) {cfg : List UInt32} {p : Personality}
    {pkey : UInt8} {state : L3State} {c : Bytes} {id : CmdId} {pos : ℕ} (h : Accepted p state id c)
    (hpos : privilegePos id (commandArg c) = some pos) (hkey : pkey.toNat < 8)
    (hbit : privilegeBit cfg id pos pkey = false) :
    dispatch K g dev cfg p pkey state c = .ok (.result [resultUnauthorized], dev, ⟨false⟩) := by
  obtain ⟨hknown, hsize, hspoiled⟩ := h
  rcases c with _ | ⟨b, rest⟩
  · cases hknown
  · have hid : CmdId.ofWireId b = some id := hknown
    have hhandle : Ctx.handle K ⟨dev, cfg, p, pkey⟩ g id (b :: rest) = refuse resultUnauthorized :=
      handle_refuses (three_le_of_sizeOk hsize) hpos hkey hbit
    have hsized : ¬ (state.spectSizeError = true ∧ isSpect id = false) := by
      rcases hspoiled with h | h <;> simp [h]
    rw [dispatch]
    simp only [hid]
    rw [if_pos hsize, dispatchSized, if_neg hsized, hhandle]
    rfl

/-! ### The configuration of the last start -/

abbrev SpiStep := Event Sim (OsRng × SpiEvent) SpiOutput

/-- The chip has started again: a power cycle, or a reboot by STARTUP. -/
def SpiStep.Starts (e : SpiStep) : Prop :=
  e.input.2 = .powerCycle ∨ ∃ x ∈ e.output.executed, Reboots x.raw x.reply

instance (e : SpiStep) : Decidable e.Starts := inferInstanceAs (Decidable (_ ∨ _))

/-- The effective configuration at the last start. -/
def bootAfter (boot : List UInt32) (e : SpiStep) : List UInt32 :=
  match e.pre with
  | .error _ => boot
  | .ok (_, dev) => if e.Starts then dev.effectiveConfig else boot

/-- The configuration in force is the one of the last start, and the privilege
bits of the session are those of one of the four pairing slots. -/
structure Enforced (boot : List UInt32) (c : Chip) (dev : Device) : Prop where
  config : c.configInForce dev = boot
  index : ∀ keys, c.session.keys = some keys → keys.pkeyIndex.toNat ≤ 3
  slots : ∀ slot, slot ∈ dev.pairingSlots → slot.toNat ≤ 3

section Enforced

variable {K : Crates} {g : OsRng} {c c' : Chip} {dev dev' : Device} {boot : List UInt32}

theorem Update.slots {plaintext : Bytes} (h : Update plaintext dev dev')
    (hs : ∀ slot, slot ∈ dev.pairingSlots → slot.toNat ≤ 3) : ∀ slot, slot ∈ dev'.pairingSlots → slot.toNat ≤ 3 := by
  cases h with
  | pairingKeyWrite _ hle _ =>
    intro slot hmem
    rcases Finmap.mem_insert.mp hmem with rfl | hmem
    · exact hle
    · exact hs slot hmem
  | pairingKeyInvalidate hlookup =>
    intro slot hmem
    rcases Finmap.mem_insert.mp hmem with rfl | hmem
    · exact hs _ (Finmap.mem_of_lookup_eq_some hlookup)
    · exact hs slot hmem
  | _ => exact hs

theorem enforced_of_core (hc : c'.core = c.core) (h : Enforced boot c dev) : Enforced boot c' dev where
  config := (configInForce_of_core hc dev).trans h.config
  index := by
    rw [session_of_core hc]
    exact h.index
  slots := h.slots

/-- A chip that has just started has no session, and reads the configuration anew. -/
theorem enforced_start (ha : c.activeConfig = none) (hc : c.session = {})
    (hs : ∀ slot, slot ∈ dev.pairingSlots → slot.toNat ≤ 3) : Enforced dev.effectiveConfig c dev where
  config := by rw [Chip.configInForce, ha, Option.getD_none]
  index keys h := by
    rw [hc] at h
    cases h
  slots := hs

theorem Handled.enforced {raw : Bytes} {frames : List Bytes} {call : Option L3Call}
    (h : Handled K g c dev raw frames call c' dev') (he : Enforced boot c dev) : Enforced boot c' dev' := by
  cases h with
  | same => exact he
  | configured => exact ⟨he.config, he.index, he.slots⟩
  | closed => exact ⟨he.config, (fun _ hk => by cases hk), he.slots⟩
  | slept => exact ⟨he.config, (fun _ hk => by cases hk), he.slots⟩
  | alarmed _ _ => exact ⟨he.config, (fun _ hk => by cases hk), he.slots⟩
  | opened _ hs =>
    refine ⟨he.config, fun keys' hk' => ?_, he.slots⟩
    obtain ⟨keys, hk, -, -, hslot⟩ := handshake_keys hs
    obtain rfl : keys = keys' := Option.some.inj (hk.symm.trans hk')
    exact he.slots _ hslot
  | collected _ _ _ _ => exact ⟨he.config, he.index, he.slots⟩
  | executed hx hs _ =>
    refine ⟨he.config, fun keys' hk' => ?_, (dispatch_update hx.dispatched).slots he.slots⟩
    rcases hs with rfl | ⟨nonce', -, rfl⟩
    · cases hk'
    · cases hk'
      exact he.index hx.keys hx.session

theorem took_enforced {xs : List Execution} (h : Took K g c dev xs (.ok (c', dev'))) (he : Enforced boot c dev) :
    Enforced (if ∃ x ∈ xs, Reboots x.raw x.reply then dev.effectiveConfig else boot) c' dev' := by
  cases h with
  | quiet h _ =>
    rw [if_neg (by simp)]
    exact enforced_of_core h he
  | ignored raw _ h _ =>
    rw [if_neg (by simp [Reboots])]
    exact enforced_of_core h he
  | @resent _ raw f _ hraw h =>
    have hno : ¬ Reboots raw [f] := by
      intro hr
      obtain ⟨data, hd⟩ := hr.startup
      rw [hraw] at hd
      cases hd
    rw [if_neg (by simpa using hno)]
    exact enforced_of_core h he
  | @answered c₀ c₁ _ _ raw call frames _ h₀ hp h _ =>
    have he₀ := enforced_of_core h₀ he
    by_cases hr : Reboots raw frames
    · obtain ⟨-, ⟨mode, -, rfl⟩, rfl⟩ := process_reboots hp hr
      rw [if_pos (by simpa using hr)]
      exact enforced_of_core h (enforced_start rfl rfl he.slots)
    · rw [if_neg (by simpa using hr)]
      exact enforced_of_core h ((process_handled hp hr).enforced he₀)

/-- Before each step, whatever was written since the last start. -/
def Sim.Enforced (boot : List UInt32) (s : Sim) : Prop := ∀ c dev, s = .ok (c, dev) → TROPIC01.Enforced boot c dev

theorem step_enforced {s : Sim} (i : OsRng × SpiEvent) (h : s.Enforced boot) :
    Sim.Enforced (bootAfter boot ⟨s, i, (Sim.step K s i).1⟩) (Sim.step K s i).2 := by
  rcases s with p | ⟨c, dev⟩
  · intro c dev hs
    cases hs
  · have he := h c dev rfl
    intro c' dev' hs
    by_cases hi : i.2 = .powerCycle
    · have hstart : bootAfter boot ⟨.ok (c, dev), i, (Sim.step K (.ok (c, dev)) i).1⟩ = dev.effectiveConfig :=
        if_pos (.inl hi)
      simp only [Sim.step, hi, Except.ok.injEq, Prod.mk.injEq] at hs
      obtain ⟨rfl, rfl⟩ := hs
      rw [hstart]
      exact enforced_start rfl rfl he.slots
    · have ht := step_took (K := K) c dev hi
      rw [hs] at ht
      have hstarts : SpiStep.Starts ⟨.ok (c, dev), i, (Sim.step K (.ok (c, dev)) i).1⟩ ↔
          ∃ x ∈ (Sim.step K (.ok (c, dev)) i).1.executed, Reboots x.raw x.reply := or_iff_right hi
      simp only [bootAfter, hstarts]
      exact took_enforced ht he

end Enforced

/-! ### Every command on the bus -/

/-- The system after a command is what `dispatch` makes of it. -/
def Follows (s : Sim) : Except Panic (L3Outcome × Device × L3State) → Prop
  | .error p => s = .error p
  | .ok (_, dev, l3State) => ∃ c, s = .ok (c, dev) ∧ c.l3State = l3State

theorem took_executes {K : Crates} {g : OsRng} {c : Chip} {dev : Device} {xs : List Execution} {s : Sim}
    {x : Execution} {call : L3Call} (h : Took K g c dev xs s) (hx : x ∈ xs) (hcall : x.call = some call) :
    ∃ result, Nonempty (Executes K g c dev x.raw call.plaintext result) ∧ Follows s result := by
  cases h with
  | quiet _ _ => cases hx
  | ignored _ _ _ _ =>
    obtain rfl := List.mem_singleton.mp hx
    cases hcall
  | resent _ _ _ _ =>
    obtain rfl := List.mem_singleton.mp hx
    cases hcall
  | @panicked c₀ raw _ p _ h₀ hp =>
    obtain rfl := List.mem_singleton.mp hx
    obtain rfl : _ = some call := hcall
    have hdoes := process_does (K := K) (g := g) c₀ dev raw
    rw [hp] at hdoes
    obtain ⟨hex⟩ := hdoes
    exact ⟨.error p, ⟨hex.of_core h₀⟩, rfl⟩
  | @answered c₀ c₁ c' dev' raw _ frames _ h₀ hp h _ =>
    obtain rfl := List.mem_singleton.mp hx
    obtain rfl : _ = some call := hcall
    by_cases hr : Reboots raw frames
    · cases (process_reboots hp hr).1
    · have hhandled := process_handled hp hr
      cases hhandled with
      | @executed plaintext encryption outcome _ l3State hex _ _ _ =>
        exact ⟨.ok (outcome, dev', l3State), ⟨hex.of_core h₀⟩, c', rfl, l3State_of_core h⟩

/-- Every command that a run of SPI events and power cycles executes is
dispatched in the effective configuration of the last start. If the bit of the
session's pairing index is clear there, in the field that covers the target of
a command that is accepted and in range, then the answer is UNAUTHORIZED and
the device stays as it is, whatever it stores. -/
theorem privileges_enforced (K : Crates) (p : Personality) {dev₀ : Device}
    (hdev₀ : ∀ slot, slot ∈ dev₀.pairingSlots → slot.toNat ≤ 3) {inputs : List (OsRng × SpiEvent)}
    {past rest : List SpiStep} {e : SpiStep}
    (h : steps (Sim.step K) (.ok (Chip.new p, dev₀)) inputs = past ++ e :: rest) {x : Execution} {call : L3Call}
    (hx : x ∈ e.output.executed) (hcall : x.call = some call) :
    ∃ boot c dev keys, boot = past.foldl bootAfter dev₀.effectiveConfig ∧ e.pre = .ok (c, dev) ∧
      c.session.keys = some keys ∧ c.configInForce dev = boot ∧
      Follows (Sim.step K e.pre e.input).2
        (dispatch K e.input.1 dev boot c.personality keys.pkeyIndex c.l3State call.plaintext) ∧
      ∀ id pos, Accepted c.personality c.l3State id call.plaintext →
        privilegePos id (commandArg call.plaintext) = some pos → privilegeBit boot id pos keys.pkeyIndex = false →
        ∀ d : Device, dispatch K e.input.1 d boot c.personality keys.pkeyIndex c.l3State call.plaintext =
          .ok (.result [resultUnauthorized], d, ⟨false⟩) := by
  have hI := steps_invariant (I := fun past s => Sim.Enforced (past.foldl bootAfter dev₀.effectiveConfig) s)
    (fun c dev hs => by cases hs; exact enforced_start rfl rfl hdev₀)
    (fun past s i hI => by rw [List.foldl_append]; exact step_enforced i hI) h
  obtain ⟨hboot, hout⟩ := hI
  rcases hpre : e.pre with q | ⟨c, dev⟩
  · rw [hout, hpre] at hx
    cases hx
  · have he := hboot c dev hpre
    rw [hout, hpre] at hx
    have hi : e.input.2 ≠ .powerCycle := by
      obtain ⟨mosi, hm⟩ := transfer_of_executed hx
      rw [hm]
      simp
    obtain ⟨result, ⟨hex⟩, hfollows⟩ := took_executes (step_took c dev hi) hx hcall
    have hindex := he.index hex.keys hex.session
    refine ⟨_, c, dev, hex.keys, rfl, rfl, hex.session, he.config, ?_, ?_⟩
    · rw [← he.config, hex.dispatched]
      exact hfollows
    · intro id pos hacc hpos hbit d
      exact dispatch_unauthorized d hacc hpos (by omega) hbit

/-! A Ping without its privilege: bit 0 of register `0x100` is cleared. -/

def refusalCiphertext : Bytes := toBe 17 0xb26d249d36067e837ae9270fed90b01b5b

def refusalCrates : Crates :=
  Crates.recorded pingDigests pingMacs pingSecrets
    (pingEncryptions ++ [⟨resultKey, List.replicate 12 0, [], [0x01], refusalCiphertext⟩])

def restrictedDevice : Device := { pairedDevice with iConfig := pairedDevice.iConfig.set 64 0xfffffffe }

def refusalEvent : OsRng × SpiEvent := (countingRng, .transfer pingFrame)

theorem openingEvents_state :
    (outputs (Sim.step refusalCrates) (.ok (Chip.new .fw220, restrictedDevice)) openingEvents).2 =
      .ok (openChip.csnHigh.csnLow, restrictedDevice) := by
  decide +kernel

theorem openingEvents_boot :
    (steps (Sim.step refusalCrates) (.ok (Chip.new .fw220, restrictedDevice)) openingEvents).foldl bootAfter
      restrictedDevice.effectiveConfig = restrictedDevice.effectiveConfig := by
  decide +kernel

def refusalCall : L3Call := ⟨[0x01], some ⟨pingKeys.kRes, nonceAt 0, [0x01]⟩⟩

/-- The step that executes it. -/
def refusalStep : SpiStep :=
  ⟨.ok (openChip.csnHigh.csnLow, restrictedDevice), refusalEvent,
    (Sim.step refusalCrates (.ok (openChip.csnHigh.csnLow, restrictedDevice)) refusalEvent).1⟩

theorem refusalStep_calls : refusalStep.output.executed.map (·.call) = [some refusalCall] := by
  decide +kernel

theorem ping_refused : ∃ past x,
    steps (Sim.step refusalCrates) (.ok (Chip.new .fw220, restrictedDevice)) (openingEvents ++ [refusalEvent]) =
      past ++ [refusalStep] ∧ x ∈ refusalStep.output.executed ∧ x.call = some refusalCall ∧
    ∀ d : Device, dispatch refusalCrates countingRng d restrictedDevice.effectiveConfig .fw220 0 {} [0x01] =
      .ok (.result [resultUnauthorized], d, ⟨false⟩) := by
  have hsteps : steps (Sim.step refusalCrates) (.ok (Chip.new .fw220, restrictedDevice))
      (openingEvents ++ [refusalEvent]) =
      steps (Sim.step refusalCrates) (.ok (Chip.new .fw220, restrictedDevice)) openingEvents ++ [refusalStep] := by
    rw [steps_concat, openingEvents_state]
    rfl
  have hmem : some refusalCall ∈ refusalStep.output.executed.map (·.call) := by
    rw [refusalStep_calls]
    exact List.mem_singleton_self _
  obtain ⟨x, hx, hcall⟩ := List.mem_map.mp hmem
  have hslots : ∀ slot, slot ∈ restrictedDevice.pairingSlots → slot.toNat ≤ 3 := by
    intro slot hslot
    rcases Finmap.mem_insert.mp hslot with rfl | hslot
    · decide
    · exact absurd hslot Finmap.notMem_empty
  obtain ⟨boot, c, dev, keys, hboot, hpre, hkeys, -, -, hgate⟩ :=
    privileges_enforced refusalCrates .fw220 hslots hsteps hx hcall
  obtain ⟨rfl, rfl⟩ : openChip.csnHigh.csnLow = c ∧ restrictedDevice = dev := by
    simpa [refusalStep] using hpre
  cases hkeys
  rw [hboot, openingEvents_boot] at hgate
  have hplain : Accepted .fw220 {} .ping [0x01] := ⟨rfl, by decide, .inl rfl⟩
  exact ⟨_, x, hsteps, hx, hcall, hgate .ping 0 hplain rfl (by decide +kernel)⟩

end TROPIC01
end Simulators
