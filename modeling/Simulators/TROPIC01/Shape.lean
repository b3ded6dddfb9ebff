/-
# TROPIC01: hostile commands

`dispatch` returns on every plaintext: no handler indexes, slices or shifts out
of range, because the size table has let the command through, the slot bounds
have been checked, and the device has the shape that provisioning gives it and
commands keep (`Device.Shaped`). What `mutatesStore` does not list changes
nothing.

Key theorems: `provision_shaped`, `Update.shaped`, `handle_noPanic`, `dispatch_total`.
-/
import Simulators.TROPIC01.Persistence
import Simulators.TROPIC01.Provision

namespace Simulators
namespace TROPIC01

open Handler

/-! ### The shape of a device -/

/-- Every entry of the map. -/
def AllEntries {κ υ : Type} [DecidableEq κ] (m : BTreeMap κ υ) (P : κ → υ → Prop) : Prop :=
  ∀ k v, m.lookup k = some v → P k v

section AllEntries

variable {κ υ : Type} [DecidableEq κ] {m : BTreeMap κ υ} {P : κ → υ → Prop} {k : κ} {v : υ}

theorem allEntries_empty : AllEntries (∅ : BTreeMap κ υ) P := fun k v h => by
  rw [Finmap.lookup_empty] at h
  cases h

theorem AllEntries.insert (h : AllEntries m P) (hv : P k v) : AllEntries (m.insert k v) P := by
  intro k' v' h'
  rw [lookup_insert_eq] at h'
  split at h'
  · rename_i hk
    cases h'
    exact hk ▸ hv
  · exact h k' v' h'

theorem AllEntries.erase (h : AllEntries m P) (k : κ) : AllEntries (m.erase k) P := by
  intro k' v' h'
  rcases lookup_erase_cases m k k' with he | ⟨-, he⟩
  · exact h k' v' (he ▸ h')
  · rw [he] at h'
    cases h'

end AllEntries

structure Device.Shaped (dev : Device) : Prop where
  pairingSlots : AllEntries dev.pairingSlots fun slot _ => slot.toNat ≤ 3
  eccSlots : AllEntries dev.eccSlots fun slot entry => slot.toNat ≤ eccSlotMax ∧ entry.privateKey.length = 32
  rMemSlots : AllEntries dev.rMemSlots fun slot data =>
    slot.toNat ≤ rMemSlotIndexMax ∧ 1 ≤ data.length ∧ data.length ≤ 475
  mcounters : AllEntries dev.mcounters fun idx v => idx.toNat ≤ mcounterMax ∧ v ≤ mcounterValueMax
  macanddSlots : AllEntries dev.macanddSlots fun slot _ => slot.toNat ≤ macanddSlotMax
  rConfig : dev.rConfig.length = configRegisters
  iConfig : dev.iConfig.length = configRegisters
  chipId : dev.chipId.length = 128

theorem wolfsslFixtures_shaped (K : Crates) : AllEntries (wolfsslFixtures K) fun slot data =>
    slot.toNat ≤ rMemSlotIndexMax ∧ 1 ≤ data.length ∧ data.length ≤ 475 := by
  have hinsert : ∀ {m : BTreeMap UInt16 Bytes} {slot : UInt16} (key : ByteArr 32),
      AllEntries m (fun slot data => slot.toNat ≤ rMemSlotIndexMax ∧ 1 ≤ data.length ∧ data.length ≤ 475) →
      slot.toNat ≤ rMemSlotIndexMax → AllEntries (m.insert slot key.bytes) fun slot data =>
        slot.toNat ≤ rMemSlotIndexMax ∧ 1 ≤ data.length ∧ data.length ≤ 475 := by
    intro m slot key hm hs
    refine hm.insert ⟨hs, ?_, ?_⟩ <;> rw [key.size] <;> decide
  exact hinsert _ (hinsert _ (hinsert _ (hinsert _ allEntries_empty (by decide)) (by decide)) (by decide)) (by decide)

theorem provision_shaped (K : Crates) (buildCertStore : ByteArr 32 → ByteArr 8 → Bytes) (prov : Provisioning)
    (e : Entropy) : (provision K buildCertStore prov e).Shaped where
  pairingSlots := allEntries_empty.insert (by decide)
  eccSlots := allEntries_empty
  rMemSlots := by
    show AllEntries (if prov.wolfsslFixtures then wolfsslFixtures K else ∅) _
    split
    · exact wolfsslFixtures_shaped K
    · exact allEntries_empty
  mcounters := allEntries_empty
  macanddSlots := allEntries_empty
  rConfig := by rw [provision, List.length_set, List.length_replicate]
  iConfig := by rw [provision, List.length_set, List.length_replicate]
  chipId := prov.personality.chipId_length _

/-- Every write of a command keeps the shape. -/
theorem Update.shaped {c : Bytes} {dev dev' : Device} (h : Update c dev dev') (hd : dev.Shaped) : dev'.Shaped := by
  cases h with
  | unchanged => exact hd
  | pairingKeyWrite key hs _ => exact { hd with pairingSlots := hd.pairingSlots.insert hs }
  | pairingKeyInvalidate hs => exact { hd with pairingSlots := hd.pairingSlots.insert (hd.pairingSlots _ _ hs) }
  | rConfigWrite v _ => exact { hd with rConfig := List.length_set.trans hd.rConfig }
  | rConfigErase _ => exact { hd with rConfig := List.length_map _ |>.trans hd.rConfig }
  | iConfigWrite bit _ => exact { hd with iConfig := List.length_set.trans hd.iConfig }
  | rMemWrite hs hne hlen _ =>
    exact { hd with rMemSlots := hd.rMemSlots.insert ⟨hs, List.length_pos_iff.mpr hne, hlen⟩ }
  | rMemErase _ => exact { hd with rMemSlots := hd.rMemSlots.erase _ }
  | eccWrite hs hk _ => exact { hd with eccSlots := hd.eccSlots.insert ⟨hs, hk⟩ }
  | eccErase _ => exact { hd with eccSlots := hd.eccSlots.erase _ }
  | mcounterInit hs hv _ => exact { hd with mcounters := hd.mcounters.insert ⟨hs, hv⟩ }
  | @mcounterUpdate idx v hv hne =>
    obtain ⟨hidx, hmax⟩ := hd.mcounters idx v hv
    refine { hd with mcounters := hd.mcounters.insert ⟨hidx, ?_⟩ }
    have hpos : v.toNat ≠ 0 := fun h => hne (UInt32.toNat_inj.mp h)
    have hone : (1 : UInt32) ≤ v := UInt32.le_iff_toNat_le.mpr (Nat.pos_iff_ne_zero.mpr hpos)
    rw [UInt32.le_iff_toNat_le] at hmax ⊢
    rw [UInt32.toNat_sub_of_le v 1 hone]
    exact Nat.le_trans (Nat.sub_le _ _) hmax
  | macAndDestroy s hs _ => exact { hd with macanddSlots := hd.macanddSlots.insert hs }

/-! ### Handlers cannot panic -/

section NoPanic

variable {K : Crates} {g : OsRng} {x : Ctx} {c : Bytes}

theorem u16At_noPanic {off : ℕ} (h : off + 2 ≤ c.length) : (u16At c off).NoPanic := by
  simp only [u16At, noPanic_bind, noPanic_index, noPanic_pure, implies_true, and_true]
  exact ⟨by omega, fun _ _ => by omega⟩

theorem u32At_noPanic {off : ℕ} (h : off + 4 ≤ c.length) : (u32At c off).NoPanic := by
  simp only [u32At, noPanic_bind, noPanic_index, noPanic_pure, implies_true, and_true]
  exact ⟨by omega, fun _ _ => ⟨by omega, fun _ _ => ⟨by omega, fun _ _ => by omega⟩⟩⟩

theorem authorize_noPanic {addr pos : ℕ} (hpos : pos < 32) (hkey : x.pkey.toNat < 32) :
    (x.authorize addr pos).NoPanic := by
  simp only [Ctx.authorize, Ctx.allowed, if_pos (And.intro hpos hkey), noPanic_bind, noPanic_ok, noPanic_ensure,
    implies_true, and_self]

/-- The field of a slot in range is one of the four of its register. -/
theorem target_noPanic {max per addr : ℕ} (hc : 3 ≤ c.length) (hper : max / per ≤ 3) (hkey : x.pkey.toNat < 32) :
    (x.target max per c addr).NoPanic := by
  simp only [Ctx.target, noPanic_bind, noPanic_ensure, ensure_eq_ok, noPanic_pure, implies_true, and_true, true_and]
  refine ⟨u16At_noPanic hc, fun slot _ _ hle => ?_⟩
  have hfield : slot.toNat / per ≤ max / per := Nat.div_le_div_right hle
  exact authorize_noPanic (by omega) hkey

theorem configAddr_noPanic {addr : UInt16} {uapAddr : ℕ} (hkey : x.pkey.toNat < 32) :
    (x.configAddr addr uapAddr).NoPanic := by
  simp only [Ctx.configAddr, noPanic_bind, noPanic_ensure, noPanic_pure, implies_true, and_true, true_and]
  intro _ _
  refine authorize_noPanic ?_ hkey
  split <;> decide

/-- A register index that passed the checks is one of the 128. -/
theorem configAddr_lt {addr : UInt16} {uapAddr i : ℕ} (h : x.configAddr addr uapAddr = .ok i) :
    i < configRegisters := by
  simp only [Ctx.configAddr, bind_eq_ok, ensure_eq_ok, pure_eq_ok, Except.ok.injEq] at h
  obtain ⟨-, hlt, -, -, -, -, rfl⟩ := h
  simp only [configObjectSize, configRegisters] at hlt ⊢
  omega

theorem slot_noPanic {max per addr : ℕ} {f : UInt16 → L3Cmd (Bytes × Device)} (hc : 3 ≤ c.length)
    (hper : max / per ≤ 3) (hkey : x.pkey.toNat < 32)
    (hf : ∀ slot, x.target max per c addr = .ok slot → (f slot).NoPanic) :
    (x.target max per c addr >>= f).NoPanic := noPanic_bind.mpr ⟨target_noPanic hc hper hkey, hf⟩

theorem pairingKeyWrite_noPanic (hc : c.length = 36) (hkey : x.pkey.toNat < 32) : (x.pairingKeyWrite c).NoPanic := by
  refine slot_noPanic (by omega) (by decide) hkey fun slot _ => ?_
  simp only [noPanic_bind, noPanic_ensure, noPanic_slice, noPanic_array, noPanic_pure, implies_true, and_true, true_and,
    slice_eq_ok]
  intro _ _
  refine ⟨by omega, fun key hk => ?_⟩
  obtain ⟨-, rfl⟩ := hk
  rw [List.length_take, List.length_drop]
  omega

theorem pairingKeyRead_noPanic (hc : c.length = 3) (hkey : x.pkey.toNat < 32) : (x.pairingKeyRead c).NoPanic := by
  refine slot_noPanic (by omega) (by decide) hkey fun slot _ => ?_
  simp only [noPanic_bind, noPanic_ensure, noPanic_orRefuse, noPanic_pure, implies_true, and_self]

theorem pairingKeyInvalidate_noPanic (hc : c.length = 3) (hkey : x.pkey.toNat < 32) :
    (x.pairingKeyInvalidate c).NoPanic := by
  refine slot_noPanic (by omega) (by decide) hkey fun slot _ => ?_
  simp only [noPanic_bind, noPanic_orRefuse, noPanic_pure, implies_true, and_self]

theorem rConfigWrite_noPanic (hc : c.length = 8) (hkey : x.pkey.toNat < 32) (hd : x.dev.Shaped) :
    (x.rConfigWrite c).NoPanic := by
  simp only [Ctx.rConfigWrite, noPanic_bind, noPanic_ensure, noPanic_index, noPanic_pure, implies_true, and_true,
    true_and, ensure_eq_ok, hd.rConfig]
  refine ⟨authorize_noPanic (by decide) hkey, fun _ _ => ⟨u16At_noPanic (by omega), fun addr _ _ hlt _ _ => ?_⟩⟩
  refine ⟨?_, fun _ _ _ _ => u32At_noPanic (by omega)⟩
  simp only [configObjectSize, configRegisters] at hlt ⊢
  omega

theorem configRead_noPanic {immutable : Bool} (hc : c.length = 3) (hkey : x.pkey.toNat < 32) (hd : x.dev.Shaped) :
    (x.configRead c immutable).NoPanic := by
  simp only [Ctx.configRead, noPanic_bind, noPanic_index, noPanic_pure, implies_true, and_true]
  refine ⟨u16At_noPanic (by omega), fun addr _ => ⟨configAddr_noPanic hkey, fun i hi => ?_⟩⟩
  have hlt := configAddr_lt hi
  split
  · rw [hd.iConfig]
    exact hlt
  · rw [hd.rConfig]
    exact hlt

theorem rConfigErase_noPanic (hkey : x.pkey.toNat < 32) : x.rConfigErase.NoPanic := by
  simp only [Ctx.rConfigErase, noPanic_bind, noPanic_pure, implies_true, and_true]
  exact authorize_noPanic (by decide) hkey

theorem iConfigWrite_noPanic (hc : c.length = 4) (hkey : x.pkey.toNat < 32) (hd : x.dev.Shaped) :
    (x.iConfigWrite c).NoPanic := by
  simp only [Ctx.iConfigWrite, noPanic_bind, noPanic_ensure, noPanic_index, noPanic_pure, implies_true, and_true,
    true_and, hd.iConfig]
  refine ⟨u16At_noPanic (by omega), fun addr _ => ⟨configAddr_noPanic hkey, fun i hi => ⟨by omega, ?_⟩⟩⟩
  exact fun _ _ _ _ => configAddr_lt hi

theorem rMemWrite_noPanic (hc : 5 ≤ c.length) (hkey : x.pkey.toNat < 32) : (x.rMemWrite c).NoPanic := by
  refine slot_noPanic (by omega) (by decide) hkey fun slot _ => ?_
  simp only [noPanic_bind, noPanic_ensure, noPanic_slice, noPanic_pure, implies_true, and_true]
  omega

theorem rMemRead_noPanic (hc : c.length = 3) (hkey : x.pkey.toNat < 32) : (x.rMemRead c).NoPanic :=
  slot_noPanic (by omega) (by decide) hkey fun _ _ => noPanic_pure _

theorem rMemErase_noPanic (hc : c.length = 3) (hkey : x.pkey.toNat < 32) : (x.rMemErase c).NoPanic :=
  slot_noPanic (by omega) (by decide) hkey fun _ _ => noPanic_pure _

theorem random_noPanic (hc : 2 ≤ c.length) (hkey : x.pkey.toNat < 32) : (x.random g c).NoPanic := by
  simp only [Ctx.random, noPanic_bind, noPanic_index, noPanic_pure, implies_true, and_true]
  exact ⟨authorize_noPanic (by decide) hkey, fun _ _ => by omega⟩

theorem eccGenerate_noPanic (hc : c.length = 4) (hkey : x.pkey.toNat < 32) : (x.eccGenerate K g c).NoPanic := by
  refine slot_noPanic (by omega) (by decide) hkey fun slot _ => ?_
  simp only [noPanic_bind, noPanic_ensure, noPanic_orRefuse, noPanic_index, noPanic_pure, implies_true, and_true]
  omega

theorem eccStore_noPanic (hc : c.length = 48) (hkey : x.pkey.toNat < 32) : (x.eccStore K c).NoPanic := by
  refine slot_noPanic (by omega) (by decide) hkey fun slot _ => ?_
  simp only [noPanic_bind, noPanic_ensure, noPanic_orRefuse, noPanic_index, noPanic_slice, noPanic_pure, implies_true,
    and_true, true_and]
  exact ⟨by omega, fun _ _ _ _ _ _ => by omega⟩

theorem eccRead_noPanic (hc : c.length = 3) (hkey : x.pkey.toNat < 32) : (x.eccRead K c).NoPanic := by
  refine slot_noPanic (by omega) (by decide) hkey fun slot _ => ?_
  simp only [noPanic_bind, noPanic_orRefuse, noPanic_pure, implies_true, and_self]

theorem eccErase_noPanic (hc : c.length = 3) (hkey : x.pkey.toNat < 32) : (x.eccErase c).NoPanic :=
  slot_noPanic (by omega) (by decide) hkey fun _ _ => noPanic_pure _

theorem ecdsaSign_noPanic (hc : c.length = 48) (hkey : x.pkey.toNat < 32) : (x.ecdsaSign K g c).NoPanic := by
  refine slot_noPanic (by omega) (by decide) hkey fun slot _ => ?_
  simp only [noPanic_bind, noPanic_ensure, noPanic_orRefuse, noPanic_slice, noPanic_pure, implies_true, and_true,
    true_and]
  exact fun _ _ _ _ _ _ => by omega

theorem eddsaSign_noPanic (hc : 16 ≤ c.length) (hkey : x.pkey.toNat < 32) (hd : x.dev.Shaped) :
    (x.eddsaSign K g c).NoPanic := by
  refine slot_noPanic (by omega) (by decide) hkey fun slot _ => ?_
  refine noPanic_ite.mpr ⟨fun _ => noPanic_pure _, fun _ => ?_⟩
  simp only [noPanic_bind, noPanic_ensure, noPanic_orRefuse, noPanic_array, noPanic_slice, noPanic_pure, implies_true,
    and_true, true_and, orRefuse_eq_ok]
  intro entry hentry _ _
  exact ⟨(hd.eccSlots slot entry hentry).2, fun _ _ => by omega⟩

theorem mcounterInit_noPanic (hc : c.length = 8) (hkey : x.pkey.toNat < 32) : (x.mcounterInit c).NoPanic := by
  refine slot_noPanic (by omega) (by decide) hkey fun idx _ => ?_
  simp only [noPanic_bind, noPanic_ensure, noPanic_pure, implies_true, and_true]
  exact u32At_noPanic (by omega)

theorem mcounterUpdate_noPanic (hc : c.length = 3) (hkey : x.pkey.toNat < 32) : (x.mcounterUpdate c).NoPanic := by
  refine slot_noPanic (by omega) (by decide) hkey fun idx _ => ?_
  simp only [noPanic_bind, noPanic_ensure, noPanic_orRefuse, noPanic_pure, implies_true, and_self]

theorem mcounterGet_noPanic (hc : c.length = 3) (hkey : x.pkey.toNat < 32) : (x.mcounterGet c).NoPanic := by
  refine slot_noPanic (by omega) (by decide) hkey fun idx _ => ?_
  simp only [noPanic_bind, noPanic_orRefuse, noPanic_pure, implies_true, and_self]

theorem macAndDestroy_noPanic (hc : c.length = 36) (hkey : x.pkey.toNat < 32) : (x.macAndDestroy K c).NoPanic := by
  refine slot_noPanic (by omega) (by decide) hkey fun slot _ => ?_
  simp only [noPanic_bind, noPanic_slice, noPanic_pure, implies_true, and_true]
  omega

theorem ping_noPanic (hc : 1 ≤ c.length) (hkey : x.pkey.toNat < 32) : (x.ping c).NoPanic := by
  simp only [Ctx.ping, noPanic_bind, noPanic_slice, noPanic_pure, implies_true, and_true]
  exact ⟨authorize_noPanic (by decide) hkey, fun _ _ => ⟨hc, Nat.le_refl _⟩⟩

/-- No handler panics on a command of an acceptable size. -/
theorem handle_noPanic {id : CmdId} {p : Personality} (hsize : sizeOk p id c.length = true)
    (hkey : x.pkey.toNat < 32) (hd : x.dev.Shaped) : (x.handle K g id c).NoPanic := by
  cases id
  all_goals simp only [sizeOk, decide_eq_true_eq] at hsize
  case ping => exact ping_noPanic hsize.1 hkey
  case pairingKeyWrite => exact pairingKeyWrite_noPanic hsize hkey
  case pairingKeyRead => exact pairingKeyRead_noPanic hsize hkey
  case pairingKeyInvalidate => exact pairingKeyInvalidate_noPanic hsize hkey
  case rConfigWrite => exact rConfigWrite_noPanic hsize hkey hd
  case rConfigRead => exact configRead_noPanic hsize hkey hd
  case rConfigErase => exact rConfigErase_noPanic hkey
  case iConfigWrite => exact iConfigWrite_noPanic hsize hkey hd
  case iConfigRead => exact configRead_noPanic hsize hkey hd
  case rMemDataWrite => exact rMemWrite_noPanic hsize.1 hkey
  case rMemDataRead => exact rMemRead_noPanic hsize hkey
  case rMemDataErase => exact rMemErase_noPanic hsize hkey
  case randomValueGet => exact random_noPanic hsize.ge hkey
  case eccKeyGenerate => exact eccGenerate_noPanic hsize hkey
  case eccKeyStore => exact eccStore_noPanic hsize hkey
  case eccKeyRead => exact eccRead_noPanic hsize hkey
  case eccKeyErase => exact eccErase_noPanic hsize hkey
  case ecdsaSign => exact ecdsaSign_noPanic hsize hkey
  case eddsaSign => exact eddsaSign_noPanic hsize.1 hkey hd
  case mcounterInit => exact mcounterInit_noPanic hsize hkey
  case mcounterUpdate => exact mcounterUpdate_noPanic hsize hkey
  case mcounterGet => exact mcounterGet_noPanic hsize hkey
  case macAndDestroy => exact macAndDestroy_noPanic hsize hkey

end NoPanic

/-! ### Answers -/

section Answers

variable {K : Crates} {g : OsRng} {x : Ctx} {c : Bytes}

theorem ok_length (fields : Bytes) : (ok fields).length = fields.length + 1 := rfl

theorem publicKey_length {entry : EccSlot} {pub : Bytes} (h : publicKey K entry = some pub) : pub.length ≤ 64 := by
  unfold publicKey at h
  split at h
  · obtain ⟨secret, -, rfl⟩ := Option.map_eq_some_iff.mp h
    exact (K.p256Public secret).size.le
  · obtain ⟨seed, -, rfl⟩ := Option.map_eq_some_iff.mp h
    rw [(K.ed25519Public seed).size]
    decide

theorem ed25519SignHedged_length (seed : ByteArr 32) (msg : Bytes) : (ed25519SignHedged K g seed msg).length = 64 := by
  simp only [ed25519SignHedged, List.length_append, ByteArr.size]

/-- Results are at most as long as the longest Ping. -/
theorem handle_length {id : CmdId} (hping : id = .ping → c.length ≤ 1 + pingMax) (hd : x.dev.Shaped) :
    (x.handle K g id c).Returns fun r => r.1.length ≤ 4097 := by
  cases id
  case ping =>
    have hlen := hping rfl
    simp only [Ctx.handle, Ctx.ping, returns_bind, returns_pure, slice_eq_ok, ok_length]
    rintro - - data ⟨⟨hle, -⟩, rfl⟩
    rw [List.length_take, List.length_drop]
    simp only [pingMax] at hlen
    omega
  case pairingKeyRead =>
    simp only [Ctx.handle, Ctx.pairingKeyRead, returns_bind, returns_pure, ok_length, List.length_append,
      List.length_replicate, ByteArr.size]
    intros
    decide
  case rConfigRead =>
    simp only [Ctx.handle, Ctx.configRead, returns_bind, returns_pure, ok_length, List.length_append,
      List.length_replicate, toLe_length]
    intros
    decide
  case iConfigRead =>
    simp only [Ctx.handle, Ctx.configRead, returns_bind, returns_pure, ok_length, List.length_append,
      List.length_replicate, toLe_length]
    intros
    decide
  case rMemDataRead =>
    simp only [Ctx.handle, Ctx.rMemRead, returns_bind, returns_pure, ok_length, List.length_append,
      List.length_replicate]
    intro slot _
    rcases hs : x.dev.rMemSlots.lookup slot with _ | data
    · decide
    · have hlen := (hd.rMemSlots slot data hs).2.2
      rw [Option.getD_some]
      omega
  case randomValueGet =>
    simp only [Ctx.handle, Ctx.random, returns_bind, returns_pure, ok_length, List.length_append,
      List.length_replicate, OsRng.fill_length]
    intro _ _ n _
    have hn := n.toNat_lt
    omega
  case eccKeyRead =>
    simp only [Ctx.handle, Ctx.eccRead, returns_bind, returns_pure, orRefuse_eq_ok, ok_length, List.length_append,
      List.length_replicate]
    intro _ _ entry _ pub hpub
    have hlen := publicKey_length hpub
    simp only [List.length_cons, List.length_nil]
    omega
  case ecdsaSign =>
    simp only [Ctx.handle, Ctx.ecdsaSign, returns_bind, returns_pure, ok_length, List.length_append,
      List.length_replicate, ByteArr.size]
    intros
    decide
  case eddsaSign =>
    simp only [Ctx.handle, Ctx.eddsaSign, returns_bind]
    intro slot _
    refine returns_ite.mpr ⟨fun _ => by simp [ok_length], fun _ => ?_⟩
    simp only [returns_bind, returns_pure, ok_length, List.length_append, List.length_replicate,
      ed25519SignHedged_length]
    intros
    decide
  case mcounterGet =>
    simp only [Ctx.handle, Ctx.mcounterGet, returns_bind, returns_pure, ok_length, List.length_append,
      List.length_replicate, toLe_length]
    intros
    decide
  case macAndDestroy =>
    simp only [Ctx.handle, Ctx.macAndDestroy, returns_bind, returns_pure, ok_length, List.length_append,
      List.length_replicate, ByteArr.size]
    intros
    decide
  all_goals
    simp only [Ctx.handle, Ctx.pairingKeyWrite, Ctx.pairingKeyInvalidate, Ctx.rConfigWrite, Ctx.rConfigErase,
      Ctx.iConfigWrite, Ctx.rMemWrite, Ctx.rMemErase, Ctx.eccGenerate, Ctx.eccStore, Ctx.eccErase, Ctx.mcounterInit,
      Ctx.mcounterUpdate, returns_bind, returns_pure, ok_length]
    intros
    decide

end Answers

/-! ### Dispatch -/

section Dispatch

variable {K : Crates} {g : OsRng} {dev : Device} {cfg : List UInt32} {p : Personality} {pkey : UInt8}
  {state : L3State} {c : Bytes}

/-- The command is listed as one that can change the device. -/
def Mutates (c : Bytes) : Prop := ∃ id, c.head?.bind CmdId.ofWireId = some id ∧ mutatesStore id = true

/-- What `dispatch` came to: an answer of bounded length, and a device that
has its shape and changed only by a listed command. -/
def Answers (dev : Device) (c : Bytes) (r : Except Panic (L3Outcome × Device × L3State)) : Prop :=
  ∃ o dev' state', r = .ok (o, dev', state') ∧ dev'.Shaped ∧ (∀ res, o = .result res → res.length ≤ 4097) ∧
    (dev' ≠ dev → Mutates c)

theorem answers_unchanged (hd : dev.Shaped) {o : L3Outcome} {state' : L3State}
    (h : ∀ res, o = .result res → res.length ≤ 4097) : Answers dev c (.ok (o, dev, state')) :=
  ⟨o, dev, state', rfl, hd, h, fun hne => absurd rfl hne⟩

theorem dispatchSized_answers {id : CmdId} (hd : dev.Shaped) (hc : c.head?.bind CmdId.ofWireId = some id)
    (hping : id = .ping → c.length ≤ 1 + pingMax)
    (hnp : (Ctx.handle K ⟨dev, cfg, p, pkey⟩ g id c).NoPanic) :
    Answers dev c (dispatchSized K g dev cfg p pkey state id c) := by
  rw [dispatchSized]
  split
  · refine answers_unchanged hd fun res hres => ?_
    cases hres
    rw [List.length_replicate]
    split
    · rename_i hid
      have hlen := hping hid
      simp only [pingMax] at hlen
      omega
    · decide
  · rcases hh : Ctx.handle K ⟨dev, cfg, p, pkey⟩ g id c with (q | code) | ⟨r, dev'⟩
    · exact absurd hh (hnp q)
    · refine answers_unchanged hd fun res hres => ?_
      cases hres
      show 1 ≤ 4097
      decide
    · refine ⟨.result r, dev', ⟨false⟩, rfl, ?_, ?_, ?_⟩
      · have hcmd : IsCmd c id := by
          rcases c with _ | ⟨b, rest⟩
          · cases hc
          · rw [IsCmd, List.head?_cons, isCmd_of_ofWireId hc]
        exact (handle_update hcmd hh).shaped hd
      · rintro res ⟨⟩
        exact handle_length hping hd _ hh
      · intro hne
        refine ⟨id, hc, ?_⟩
        by_contra hno
        exact hne (handle_reads (Bool.eq_false_of_not_eq_true hno) hh)

/-- FW 0.1.2 executes one command of a size that does not fit. -/
theorem esLenient_execute {id : CmdId} {len : ℕ} (h : esLenient id len = .execute) :
    id = .randomValueGet ∧ 2 < len := by
  cases id
  case randomValueGet =>
    by_cases hlen : 2 < len
    · exact ⟨rfl, hlen⟩
    · rw [esLenient, if_neg hlen] at h
      cases h
  all_goals cases h

/-- Whatever the plaintext, `dispatch` returns. -/
theorem dispatch_answers (hd : dev.Shaped) (hkey : pkey.toNat < 32) :
    Answers dev c (dispatch K g dev cfg p pkey state c) := by
  have hcode : ∀ (code : UInt8) (state' : L3State), Answers dev c (.ok (.result [code], dev, state')) := by
    intro code state'
    refine answers_unchanged hd fun res hres => ?_
    cases hres
    show 1 ≤ 4097
    decide
  rcases c with _ | ⟨byte, rest⟩
  · exact hcode _ _
  · rw [dispatch]
    rcases hid : CmdId.ofWireId byte with _ | id
    · exact hcode _ _
    · dsimp only
      split
      · rename_i hsize
        refine dispatchSized_answers hd hid ?_ (handle_noPanic hsize hkey hd)
        rintro rfl
        simp only [sizeOk, decide_eq_true_eq] at hsize
        exact hsize.2
      · split
        · exact answers_unchanged hd fun res hres => by cases hres
        · split
          · exact hcode _ _
          · exact hcode _ _
          · rename_i hexec
            obtain ⟨rfl, hlen⟩ := esLenient_execute hexec
            exact dispatchSized_answers hd hid (fun h => by cases h) (random_noPanic (by omega) hkey)

end Dispatch

/-- A command does what the shape allows. -/
theorem l3Step_shaped {K : Crates} {dev dev' : Device} {i : L3Input} {o : L3Outcome × L3State}
    (h : l3Step K dev i = .ok (o, dev')) (hd : dev.Shaped) : dev'.Shaped := (l3Step_update h).shaped hd

/-- On every device that commands reach from a fresh one, `dispatch` answers every plaintext, in every
configuration and firmware state: no slice, index or shift is out of range, the answer is bounded, the device
keeps its shape, and it changes only by a command that is listed as one that can. -/
theorem hostile_commands_answered (K : Crates) (buildCertStore : ByteArr 32 → ByteArr 8 → Bytes) (prov : Provisioning)
    (e : Entropy) {dev : Device} {log : List (Event Device L3Input (L3Outcome × L3State))}
    (h : Run (l3Step K) (provision K buildCertStore prov e) log dev) (g : OsRng) (cfg : List UInt32) (p : Personality)
    {pkey : UInt8} (hkey : pkey.toNat ≤ 3) (state : L3State) (plaintext : Bytes) :
    dev.Shaped ∧ ∃ o dev' state', dispatch K g dev cfg p pkey state plaintext = .ok (o, dev', state') ∧
      dev'.Shaped ∧ (∀ res, o = .result res → res.length ≤ 4097) ∧ (dev' ≠ dev → Mutates plaintext) := by
  have hd : dev.Shaped := by
    refine h.invariant (I := Device.Shaped) (P := fun _ => True) ?_ (fun _ _ => trivial)
      (provision_shaped K buildCertStore prov e)
    exact fun dev i o dev' hd _ hs => l3Step_shaped hs hd
  exact ⟨hd, dispatch_answers hd (Nat.lt_of_le_of_lt hkey (by decide))⟩

def freshDevice : Device :=
  provision (.recorded [] [] [] []) (fun _ _ => []) ⟨.fw220, true⟩ ⟨zeroArr 8, zeroArr 32, zeroArr 32, zeroArr 32⟩

/-- R_Mem_Data_Read of slot 0, cut off in the middle of the slot. -/
theorem truncated_read_answered : freshDevice.Shaped ∧ ∃ o dev' state',
    dispatch (.recorded [] [] [] []) (fun _ => 0) freshDevice freshDevice.effectiveConfig .fw220 3 {} [0x41, 0x00] =
      .ok (o, dev', state') ∧
    dev'.Shaped ∧ (∀ res, o = .result res → res.length ≤ 4097) ∧ (dev' ≠ freshDevice → Mutates [0x41, 0x00]) :=
  hostile_commands_answered _ _ _ _ (.nil _) _ _ _ (by decide) _ _

end TROPIC01
end Simulators
