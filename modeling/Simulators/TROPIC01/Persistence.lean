/-
# TROPIC01: the persistent state only moves one way

What one command can do to the device is said once, in `Update`: a command
leaves the device alone or makes one of twelve writes, each after the checks
of its handler. One-time-programmable state follows from it. `OneWay` is what
holds of every command, whatever configuration, personality, pairing index and
firmware state it is given; `Ages` is what remains of it over any number of
commands.

Key theorems: `dispatch_update`, `Update.oneWay`, `device_moves_one_way`.
-/
import Simulators.Lib.Run
import Simulators.TROPIC01.L3

namespace Simulators
namespace TROPIC01

open Handler

/-! ### What a command can do -/

/-- The plaintext is command `id`. -/
def IsCmd (c : Bytes) (id : CmdId) : Prop := c.head? = some id.wireId

/-- The plaintext is command `id`, on a slot or index. -/
def Names (c : Bytes) (id : CmdId) (slot : UInt16) : Prop := IsCmd c id ∧ u16At c 1 = .ok slot

/-- The device after a command. -/
inductive Update (c : Bytes) (dev : Device) : Device → Prop
  | unchanged : Update c dev dev
  | pairingKeyWrite {slot : UInt8} (key : ByteArr 32) (hs : slot.toNat ≤ 3) (h : slot ∉ dev.pairingSlots) :
      Update c dev { dev with pairingSlots := dev.pairingSlots.insert slot ⟨key, .written⟩ }
  | pairingKeyInvalidate {slot : UInt8} {s : PairingSlot} (h : dev.pairingSlots.lookup slot = some s) :
      Update c dev { dev with pairingSlots := dev.pairingSlots.insert slot { s with state := .invalidated } }
  | rConfigWrite {i : ℕ} (v : UInt32) (h : dev.rConfig[i]? = some 0xffffffff) :
      Update c dev { dev with rConfig := dev.rConfig.set i v }
  | rConfigErase (hc : IsCmd c .rConfigErase) :
      Update c dev { dev with rConfig := dev.rConfig.map fun _ => 0xffffffff }
  | iConfigWrite {i : ℕ} {old : UInt32} (bit : UInt32) (h : dev.iConfig[i]? = some old) :
      Update c dev { dev with iConfig := dev.iConfig.set i (old &&& ~~~((1 : UInt32) <<< bit)) }
  | rMemWrite {slot : UInt16} {data : Bytes} (hs : slot.toNat ≤ rMemSlotIndexMax) (hd : data ≠ [])
      (hl : data.length ≤ 475) (h : slot ∉ dev.rMemSlots) :
      Update c dev { dev with rMemSlots := dev.rMemSlots.insert slot data }
  | rMemErase {slot : UInt16} (hc : Names c .rMemDataErase slot) :
      Update c dev { dev with rMemSlots := dev.rMemSlots.erase slot }
  | eccWrite {slot : UInt16} {entry : EccSlot} (hs : slot.toNat ≤ eccSlotMax) (hk : entry.privateKey.length = 32)
      (h : slot ∉ dev.eccSlots) :
      Update c dev { dev with eccSlots := dev.eccSlots.insert slot entry }
  | eccErase {slot : UInt16} (hc : Names c .eccKeyErase slot) :
      Update c dev { dev with eccSlots := dev.eccSlots.erase slot }
  | mcounterInit {idx : UInt16} {v : UInt32} (hs : idx.toNat ≤ mcounterMax) (hv : v ≤ mcounterValueMax)
      (hc : Names c .mcounterInit idx) :
      Update c dev { dev with mcounters := dev.mcounters.insert idx v }
  | mcounterUpdate {idx : UInt16} {v : UInt32} (h : dev.mcounters.lookup idx = some v) (hv : v ≠ 0) :
      Update c dev { dev with mcounters := dev.mcounters.insert idx (v - 1) }
  | macAndDestroy {slot : UInt16} (s : ByteArr 32) (hs : slot.toNat ≤ macanddSlotMax)
      (hc : Names c .macAndDestroy slot) :
      Update c dev { dev with macanddSlots := dev.macanddSlots.insert slot s }

section Handlers

variable {K : Crates} {g : OsRng} {x : Ctx} {c r : Bytes} {dev' : Device}

/-- The slot that a command names is the one it is allowed on. -/
theorem target_eq_ok {max per addr : ℕ} {slot : UInt16} (h : x.target max per c addr = .ok slot) :
    u16At c 1 = .ok slot ∧ slot.toNat ≤ max := by
  simp only [Ctx.target, bind_eq_ok, ensure_eq_ok, pure_eq_ok, Except.ok.injEq] at h
  obtain ⟨slot', hs, -, hmax, -, -, rfl⟩ := h
  exact ⟨hs, hmax⟩

theorem pairingKeyWrite_update (h : x.pairingKeyWrite c = .ok (r, dev')) : Update c x.dev dev' := by
  simp only [Ctx.pairingKeyWrite, bind_eq_ok, ensure_eq_ok, pure_eq_ok, Except.ok.injEq, Prod.mk.injEq] at h
  obtain ⟨slot, hs, -, hnew, data, -, key, -, -, rfl⟩ := h
  have hle := (target_eq_ok hs).2
  refine .pairingKeyWrite key ?_ hnew
  rw [UInt16.toNat_toUInt8]
  omega

theorem pairingKeyInvalidate_update (h : x.pairingKeyInvalidate c = .ok (r, dev')) : Update c x.dev dev' := by
  simp only [Ctx.pairingKeyInvalidate, bind_eq_ok, orRefuse_eq_ok, pure_eq_ok, Except.ok.injEq, Prod.mk.injEq] at h
  obtain ⟨slot, -, s, hs, -, rfl⟩ := h
  exact .pairingKeyInvalidate hs

theorem rConfigWrite_update (h : x.rConfigWrite c = .ok (r, dev')) : Update c x.dev dev' := by
  simp only [Ctx.rConfigWrite, bind_eq_ok, ensure_eq_ok, pure_eq_ok, Except.ok.injEq, Prod.mk.injEq] at h
  obtain ⟨-, -, addr, -, -, -, -, -, old, hi, -, hold, v, -, -, rfl⟩ := h
  exact .rConfigWrite v (hold ▸ index_eq_ok.mp hi)

theorem rConfigErase_update (hc : IsCmd c .rConfigErase) (h : x.rConfigErase = .ok (r, dev')) :
    Update c x.dev dev' := by
  simp only [Ctx.rConfigErase, bind_eq_ok, pure_eq_ok, Except.ok.injEq, Prod.mk.injEq] at h
  obtain ⟨-, -, -, rfl⟩ := h
  exact .rConfigErase hc

theorem iConfigWrite_update (h : x.iConfigWrite c = .ok (r, dev')) : Update c x.dev dev' := by
  simp only [Ctx.iConfigWrite, bind_eq_ok, ensure_eq_ok, pure_eq_ok, Except.ok.injEq, Prod.mk.injEq] at h
  obtain ⟨addr, -, i, -, bit, -, -, -, old, hi, -, rfl⟩ := h
  exact .iConfigWrite bit.toUInt32 (index_eq_ok.mp hi)

theorem rMemWrite_update (h : x.rMemWrite c = .ok (r, dev')) : Update c x.dev dev' := by
  simp only [Ctx.rMemWrite, bind_eq_ok, ensure_eq_ok, pure_eq_ok, Except.ok.injEq, Prod.mk.injEq] at h
  obtain ⟨slot, hs, data, -, -, ⟨hne, hlen⟩, -, hnew, -, rfl⟩ := h
  refine .rMemWrite (target_eq_ok hs).2 hne (Nat.le_trans hlen ?_) hnew
  cases x.p <;> decide

theorem rMemErase_update (hc : IsCmd c .rMemDataErase) (h : x.rMemErase c = .ok (r, dev')) :
    Update c x.dev dev' := by
  simp only [Ctx.rMemErase, bind_eq_ok, pure_eq_ok, Except.ok.injEq, Prod.mk.injEq] at h
  obtain ⟨slot, hs, -, rfl⟩ := h
  exact .rMemErase ⟨hc, (target_eq_ok hs).1⟩

theorem eccGenerate_update (h : x.eccGenerate K g c = .ok (r, dev')) : Update c x.dev dev' := by
  simp only [Ctx.eccGenerate, bind_eq_ok, ensure_eq_ok, pure_eq_ok, Except.ok.injEq, Prod.mk.injEq] at h
  obtain ⟨slot, hs, id, -, curve, -, -, hnew, -, rfl⟩ := h
  refine .eccWrite (target_eq_ok hs).2 ?_ hnew
  cases curve
  · exact (K.p256Random g).size
  · exact g.fill_length 32

theorem eccStore_update (h : x.eccStore K c = .ok (r, dev')) : Update c x.dev dev' := by
  simp only [Ctx.eccStore, bind_eq_ok, ensure_eq_ok, pure_eq_ok, Except.ok.injEq, Prod.mk.injEq] at h
  obtain ⟨slot, hs, id, -, curve, -, -, hnew, k, hk, -, -, -, rfl⟩ := h
  obtain ⟨⟨-, hlen⟩, rfl⟩ := slice_eq_ok.mp hk
  refine .eccWrite (target_eq_ok hs).2 ?_ hnew
  rw [List.length_take, List.length_drop]
  omega

theorem eccErase_update (hc : IsCmd c .eccKeyErase) (h : x.eccErase c = .ok (r, dev')) : Update c x.dev dev' := by
  simp only [Ctx.eccErase, bind_eq_ok, pure_eq_ok, Except.ok.injEq, Prod.mk.injEq] at h
  obtain ⟨slot, hs, -, rfl⟩ := h
  exact .eccErase ⟨hc, (target_eq_ok hs).1⟩

theorem mcounterInit_update (hc : IsCmd c .mcounterInit) (h : x.mcounterInit c = .ok (r, dev')) :
    Update c x.dev dev' := by
  simp only [Ctx.mcounterInit, bind_eq_ok, ensure_eq_ok, pure_eq_ok, Except.ok.injEq, Prod.mk.injEq] at h
  obtain ⟨idx, hs, v, -, -, hv, -, rfl⟩ := h
  exact .mcounterInit (target_eq_ok hs).2 hv ⟨hc, (target_eq_ok hs).1⟩

theorem mcounterUpdate_update (h : x.mcounterUpdate c = .ok (r, dev')) : Update c x.dev dev' := by
  simp only [Ctx.mcounterUpdate, bind_eq_ok, orRefuse_eq_ok, ensure_eq_ok, pure_eq_ok, Except.ok.injEq,
    Prod.mk.injEq] at h
  obtain ⟨idx, -, v, hv, -, hne, -, rfl⟩ := h
  exact .mcounterUpdate hv hne

theorem macAndDestroy_update (hc : IsCmd c .macAndDestroy) (h : x.macAndDestroy K c = .ok (r, dev')) :
    Update c x.dev dev' := by
  simp only [Ctx.macAndDestroy, bind_eq_ok, pure_eq_ok, Except.ok.injEq, Prod.mk.injEq] at h
  obtain ⟨slot, hs, input, -, -, rfl⟩ := h
  exact .macAndDestroy _ (target_eq_ok hs).2 ⟨hc, (target_eq_ok hs).1⟩

/-- The commands that are not in `mutatesStore` return the device they were given. -/
theorem handle_reads {id : CmdId} (hid : mutatesStore id = false) (h : x.handle K g id c = .ok (r, dev')) :
    dev' = x.dev := by
  cases id <;> cases hid
  all_goals
    simp only [Ctx.handle, Ctx.ping, Ctx.pairingKeyRead, Ctx.configRead, Ctx.rMemRead, Ctx.random, Ctx.eccRead,
      Ctx.ecdsaSign, Ctx.mcounterGet, bind_eq_ok, pure_eq_ok, Except.ok.injEq, Prod.mk.injEq] at h
  all_goals grind [Ctx.eddsaSign, bind_eq_ok, pure_eq_ok]

/-- A handler that returns has made one of the writes. -/
theorem handle_update {id : CmdId} (hc : IsCmd c id) (h : x.handle K g id c = .ok (r, dev')) :
    Update c x.dev dev' := by
  by_cases hid : mutatesStore id = false
  · rw [handle_reads hid h]
    exact .unchanged
  · cases id with
    | pairingKeyWrite => exact pairingKeyWrite_update h
    | pairingKeyInvalidate => exact pairingKeyInvalidate_update h
    | rConfigWrite => exact rConfigWrite_update h
    | rConfigErase => exact rConfigErase_update hc h
    | iConfigWrite => exact iConfigWrite_update h
    | rMemDataWrite => exact rMemWrite_update h
    | rMemDataErase => exact rMemErase_update hc h
    | eccKeyGenerate => exact eccGenerate_update h
    | eccKeyStore => exact eccStore_update h
    | eccKeyErase => exact eccErase_update hc h
    | mcounterInit => exact mcounterInit_update hc h
    | mcounterUpdate => exact mcounterUpdate_update h
    | macAndDestroy => exact macAndDestroy_update hc h
    | _ => exact absurd rfl hid

end Handlers

section Dispatch

variable {K : Crates} {g : OsRng} {dev dev' : Device} {cfg : List UInt32} {p : Personality} {pkey : UInt8}
  {state state' : L3State} {c : Bytes} {o : L3Outcome}

theorem isCmd_of_ofWireId {b : UInt8} {id : CmdId} (h : CmdId.ofWireId b = some id) : id.wireId = b := by
  have := List.find?_some h
  simpa using this

/-- A command of the right size is spoiled and answered by zeros, or handled. The flag is down after it. -/
theorem dispatchSized_eq_ok {id : CmdId} (h : dispatchSized K g dev cfg p pkey state id c = .ok (o, dev', state')) :
    state' = ⟨false⟩ ∧ ((state.spectSizeError = true ∧ isSpect id = false) ∧
        o = .result (List.replicate (if id = .ping then c.length else 1) 0) ∧ dev' = dev ∨
      ¬ (state.spectSizeError = true ∧ isSpect id = false) ∧ ∃ r, o = .result r ∧
        settle (fun code => [code]) dev (Ctx.handle K ⟨dev, cfg, p, pkey⟩ g id c) = .ok (r, dev')) := by
  unfold dispatchSized at h
  split at h
  · rename_i hspoiled
    cases h
    exact ⟨rfl, .inl ⟨hspoiled, rfl, rfl⟩⟩
  · rename_i hspoiled
    rcases hs : settle (fun code => [code]) dev (Ctx.handle K ⟨dev, cfg, p, pkey⟩ g id c) with q | ⟨r, dev''⟩
    · rw [hs] at h
      cases h
    · rw [hs] at h
      cases h
      exact ⟨rfl, .inr ⟨hspoiled, r, rfl, rfl⟩⟩

theorem dispatchSized_update {id : CmdId} (hc : IsCmd c id)
    (h : dispatchSized K g dev cfg p pkey state id c = .ok (o, dev', state')) : Update c dev dev' := by
  obtain ⟨-, ⟨-, -, rfl⟩ | ⟨-, r, -, hs⟩⟩ := dispatchSized_eq_ok h
  · exact .unchanged
  · rcases settle_eq_ok.mp hs with hh | ⟨e, -, -, rfl⟩
    · exact handle_update hc hh
    · exact .unchanged

theorem dispatch_update (h : dispatch K g dev cfg p pkey state c = .ok (o, dev', state')) : Update c dev dev' := by
  unfold dispatch at h
  split at h
  · cases h
    exact .unchanged
  · rename_i b rest
    split at h
    · cases h
      exact .unchanged
    · rename_i id hid
      have hc : IsCmd (b :: rest) id := by rw [IsCmd, isCmd_of_ofWireId hid, List.head?_cons]
      split at h
      · exact dispatchSized_update hc h
      · split at h
        · cases h
          exact .unchanged
        · split at h
          · cases h
            exact .unchanged
          · cases h
            exact .unchanged
          · exact dispatchSized_update hc h

end Dispatch

/-! ### One way -/

/-- How the lock of a pairing slot can move: blank, written, invalidated. -/
inductive PairingMove : Option PairingSlot → Option PairingSlot → Prop
  | stay (s : Option PairingSlot) : PairingMove s s
  | write (key : ByteArr 32) : PairingMove none (some ⟨key, .written⟩)
  | invalidate (key : ByteArr 32) : PairingMove (some ⟨key, .written⟩) (some ⟨key, .invalidated⟩)

/-- A bit that is 0 stays 0. -/
def BitsClear (old new : UInt32) : Prop := ∀ b, old.toNat.testBit b = false → new.toNat.testBit b = false

/-- What every command keeps to. -/
structure OneWay (c : Bytes) (dev dev' : Device) : Prop where
  iConfig : List.Forall₂ BitsClear dev.iConfig dev'.iConfig
  pairing : ∀ slot, PairingMove (dev.pairingSlots.lookup slot) (dev'.pairingSlots.lookup slot)
  /-- A register changes from `0xffffffff`, or all of them become that by an erase. -/
  rConfig : (∀ i : ℕ, dev'.rConfig[i]? ≠ dev.rConfig[i]? → dev.rConfig[i]? = some 0xffffffff) ∨
    (IsCmd c .rConfigErase ∧ dev'.rConfig = List.replicate dev.rConfig.length 0xffffffff)
  rMem : ∀ slot data, dev.rMemSlots.lookup slot = some data → dev'.rMemSlots.lookup slot = some data ∨
    (Names c .rMemDataErase slot ∧ dev'.rMemSlots.lookup slot = none)
  ecc : ∀ slot entry, dev.eccSlots.lookup slot = some entry → dev'.eccSlots.lookup slot = some entry ∨
    (Names c .eccKeyErase slot ∧ dev'.eccSlots.lookup slot = none)
  mcounter : ∀ idx, dev'.mcounters.lookup idx = dev.mcounters.lookup idx ∨
    (Names c .mcounterInit idx ∧ ∃ v, dev'.mcounters.lookup idx = some v) ∨
    ∃ v v', dev.mcounters.lookup idx = some v ∧ dev'.mcounters.lookup idx = some v' ∧ v.toNat = v'.toNat + 1
  chipId : dev'.chipId = dev.chipId
  stPriv : dev'.stPriv = dev.stPriv
  stPub : dev'.stPub = dev.stPub
  certStore : dev'.certStore = dev.certStore
  macanddKey1 : dev'.macanddKey1 = dev.macanddKey1
  macanddKey2 : dev'.macanddKey2 = dev.macanddKey2
  personality : dev'.personality = dev.personality

section OneWay

variable {c : Bytes} {dev dev' dev'' : Device}

theorem bitsClear_refl (v : UInt32) : BitsClear v v := fun _ h => h

theorem bitsClear_and (old mask : UInt32) : BitsClear old (old &&& mask) := by
  intro b hb
  rw [UInt32.toNat_and, Nat.testBit_and, hb, Bool.false_and]

theorem OneWay.refl (c : Bytes) (dev : Device) : OneWay c dev dev where
  iConfig := List.forall₂_same.mpr fun v _ => bitsClear_refl v
  pairing _ := .stay _
  rConfig := .inl fun _ h => absurd rfl h
  rMem _ _ h := .inl h
  ecc _ _ h := .inl h
  mcounter _ := .inl rfl
  chipId := rfl
  stPriv := rfl
  stPub := rfl
  certStore := rfl
  macanddKey1 := rfl
  macanddKey2 := rfl
  personality := rfl

theorem lookup_insert_eq {κ υ : Type} [DecidableEq κ] (m : BTreeMap κ υ) (k k' : κ) (v : υ) :
    (m.insert k v).lookup k' = if k' = k then some v else m.lookup k' := by
  split
  · rename_i h
    rw [h, Finmap.lookup_insert]
  · rename_i h
    rw [Finmap.lookup_insert_of_ne m h]

/-- An occupied slot is not written again. -/
theorem lookup_insert_of_new {κ υ : Type} [DecidableEq κ] {m : BTreeMap κ υ} {k k' : κ} {v w : υ} (h : k ∉ m)
    (h' : m.lookup k' = some w) : (m.insert k v).lookup k' = some w := by
  have hne : k' ≠ k := by
    rintro rfl
    rw [Finmap.lookup_eq_none.mpr h] at h'
    cases h'
  rw [Finmap.lookup_insert_of_ne m hne, h']

/-- An erase empties its slot and leaves the others alone. -/
theorem lookup_erase_cases {κ υ : Type} [DecidableEq κ] (m : BTreeMap κ υ) (k k' : κ) :
    (m.erase k).lookup k' = m.lookup k' ∨ k' = k ∧ (m.erase k).lookup k' = none := by
  by_cases h : k' = k
  · rw [h]
    exact .inr ⟨rfl, Finmap.lookup_erase k m⟩
  · exact .inl (Finmap.lookup_erase_ne h)

theorem forall₂_bitsClear_set {old : UInt32} (mask : UInt32) :
    ∀ {regs : List UInt32} {i : ℕ}, regs[i]? = some old → List.Forall₂ BitsClear regs (regs.set i (old &&& mask))
  | [], i, h => by simp at h
  | v :: regs, 0, h => by
    obtain rfl : v = old := by simpa using h
    exact .cons (bitsClear_and v mask) (List.forall₂_same.mpr fun w _ => bitsClear_refl w)
  | v :: regs, i + 1, h => .cons (bitsClear_refl v) (forall₂_bitsClear_set (i := i) mask (by simpa using h))

theorem forall₂_bitsClear_trans : ∀ {a b d : List UInt32}, List.Forall₂ BitsClear a b → List.Forall₂ BitsClear b d →
    List.Forall₂ BitsClear a d
  | _, _, _, .nil, .nil => .nil
  | _, _, _, .cons h hs, .cons h' hs' => .cons (fun b hb => h' b (h b hb)) (forall₂_bitsClear_trans hs hs')

/-- Every write of a command goes one way. -/
theorem Update.oneWay (h : Update c dev dev') : OneWay c dev dev' := by
  have hr := OneWay.refl c dev
  cases h with
  | unchanged => exact hr
  | @pairingKeyWrite slot key _ hnew =>
    refine { hr with pairing := fun slot' => ?_ }
    dsimp only
    rw [lookup_insert_eq]
    split
    · rename_i hs
      rw [hs, Finmap.lookup_eq_none.mpr hnew]
      exact .write key
    · exact .stay _
  | @pairingKeyInvalidate slot s hs =>
    refine { hr with pairing := fun slot' => ?_ }
    dsimp only
    rw [lookup_insert_eq]
    split
    · rename_i hslot
      rw [hslot, hs]
      obtain ⟨key, _ | _⟩ := s
      · exact .invalidate key
      · exact .stay _
    · exact .stay _
  | @rConfigWrite i v hi =>
    refine { hr with rConfig := .inl fun j hj => ?_ }
    by_cases hij : i = j
    · rw [← hij]
      exact hi
    · exact absurd (List.getElem?_set_ne hij) hj
  | rConfigErase hc =>
    refine { hr with rConfig := .inr ⟨hc, ?_⟩ }
    exact List.map_const'
  | iConfigWrite bit hi => exact { hr with iConfig := forall₂_bitsClear_set _ hi }
  | rMemWrite _ _ _ hnew =>
    exact { hr with rMem := fun slot data h => .inl (lookup_insert_of_new hnew h) }
  | @rMemErase slot' hc =>
    refine { hr with rMem := fun slot data h => ?_ }
    rcases lookup_erase_cases dev.rMemSlots slot' slot with he | ⟨rfl, he⟩
    · exact .inl (he.trans h)
    · exact .inr ⟨hc, he⟩
  | eccWrite _ _ hnew =>
    exact { hr with ecc := fun slot entry h => .inl (lookup_insert_of_new hnew h) }
  | @eccErase slot' hc =>
    refine { hr with ecc := fun slot entry h => ?_ }
    rcases lookup_erase_cases dev.eccSlots slot' slot with he | ⟨rfl, he⟩
    · exact .inl (he.trans h)
    · exact .inr ⟨hc, he⟩
  | @mcounterInit idx v _ _ hc =>
    refine { hr with mcounter := fun idx' => ?_ }
    dsimp only
    rw [lookup_insert_eq]
    split
    · rename_i hi
      rw [hi]
      exact .inr (.inl ⟨hc, v, rfl⟩)
    · exact .inl rfl
  | @mcounterUpdate idx v hv hne =>
    refine { hr with mcounter := fun idx' => ?_ }
    dsimp only
    rw [lookup_insert_eq]
    split
    · rename_i hi
      rw [hi]
      refine .inr (.inr ⟨v, v - 1, hv, rfl, ?_⟩)
      have hpos : v.toNat ≠ 0 := fun h => hne (UInt32.toNat_inj.mp h)
      rw [UInt32.toNat_sub_of_le v 1 (UInt32.le_iff_toNat_le.mpr (by simpa using by omega))]
      simp
      omega
    · exact .inl rfl
  | macAndDestroy s _ _ => exact { hr with }

/-! ### Over any number of commands -/

/-- What a device keeps for good. -/
structure Ages (dev dev' : Device) : Prop where
  iConfig : List.Forall₂ BitsClear dev.iConfig dev'.iConfig
  /-- A written slot keeps its key, and stays invalidated once it is. -/
  pairing : ∀ slot s, dev.pairingSlots.lookup slot = some s → ∃ s', dev'.pairingSlots.lookup slot = some s' ∧
    s'.publicKey = s.publicKey ∧ (s.state = .invalidated → s'.state = .invalidated)
  chipId : dev'.chipId = dev.chipId
  stPriv : dev'.stPriv = dev.stPriv
  stPub : dev'.stPub = dev.stPub
  certStore : dev'.certStore = dev.certStore
  macanddKey1 : dev'.macanddKey1 = dev.macanddKey1
  macanddKey2 : dev'.macanddKey2 = dev.macanddKey2
  personality : dev'.personality = dev.personality

theorem PairingMove.keeps {s s' : Option PairingSlot} (h : PairingMove s s') {t : PairingSlot} (hs : s = some t) :
    ∃ t', s' = some t' ∧ t'.publicKey = t.publicKey ∧ (t.state = .invalidated → t'.state = .invalidated) := by
  cases h with
  | stay _ => exact ⟨t, hs, rfl, id⟩
  | write _ => cases hs
  | invalidate key =>
    obtain rfl : _ = t := Option.some.inj hs
    exact ⟨_, rfl, rfl, fun _ => rfl⟩

theorem OneWay.ages (h : OneWay c dev dev') : Ages dev dev' :=
  { h with pairing := fun slot _ hs => (h.pairing slot).keeps hs }

theorem Ages.refl (dev : Device) : Ages dev dev := (OneWay.refl [] dev).ages

theorem Ages.trans (h : Ages dev dev') (h' : Ages dev' dev'') : Ages dev dev'' where
  iConfig := forall₂_bitsClear_trans h.iConfig h'.iConfig
  pairing slot s hs := by
    obtain ⟨s', hs', hk, hi⟩ := h.pairing slot s hs
    obtain ⟨s'', hs'', hk', hi'⟩ := h'.pairing slot s' hs'
    exact ⟨s'', hs'', hk'.trans hk, fun h => hi' (hi h)⟩
  chipId := h'.chipId.trans h.chipId
  stPriv := h'.stPriv.trans h.stPriv
  stPub := h'.stPub.trans h.stPub
  certStore := h'.certStore.trans h.certStore
  macanddKey1 := h'.macanddKey1.trans h.macanddKey1
  macanddKey2 := h'.macanddKey2.trans h.macanddKey2
  personality := h'.personality.trans h.personality

end OneWay

/-- A call of `dispatch`: everything but the device. -/
structure L3Input where
  g : OsRng
  cfg : List UInt32
  p : Personality
  pkey : UInt8
  state : L3State
  plaintext : Bytes

/-- One command on the device. -/
def l3Step (K : Crates) (dev : Device) (i : L3Input) : Except Panic ((L3Outcome × L3State) × Device) :=
  (dispatch K i.g dev i.cfg i.p i.pkey i.state i.plaintext).map fun (o, dev', state) => ((o, state), dev')

/-- A command that has an answer is a call of `dispatch` that returned. -/
theorem l3Step_eq_ok {K : Crates} {dev dev' : Device} {i : L3Input} {o : L3Outcome × L3State} :
    l3Step K dev i = .ok (o, dev') ↔
      dispatch K i.g dev i.cfg i.p i.pkey i.state i.plaintext = .ok (o.1, dev', o.2) := by
  unfold l3Step
  rcases dispatch K i.g dev i.cfg i.p i.pkey i.state i.plaintext with q | ⟨o', dev'', state⟩
  · exact ⟨nofun, nofun⟩
  · constructor
    · rintro ⟨⟩
      rfl
    · rintro ⟨⟩
      rfl

theorem l3Step_update {K : Crates} {dev dev' : Device} {i : L3Input} {o : L3Outcome × L3State}
    (h : l3Step K dev i = .ok (o, dev')) : Update i.plaintext dev dev' := dispatch_update (l3Step_eq_ok.mp h)

theorem l3Step_oneWay {K : Crates} {dev dev' : Device} {i : L3Input} {o : L3Outcome × L3State}
    (h : l3Step K dev i = .ok (o, dev')) : OneWay i.plaintext dev dev' := (l3Step_update h).oneWay

/-- Over any commands, each of them goes one way, and the device at the end
keeps what it had at the start. -/
theorem device_moves_one_way (K : Crates) {dev dev' : Device} {log : List (Event Device L3Input (L3Outcome × L3State))}
    (h : Run (l3Step K) dev log dev') :
    (∀ e ∈ log, ∃ next, l3Step K e.pre e.input = .ok (e.output, next) ∧ OneWay e.input.plaintext e.pre next ∧
      Ages dev e.pre ∧ Ages next dev') ∧ Ages dev dev' := by
  have hages : ∀ {d d' : Device} {l : List (Event Device L3Input (L3Outcome × L3State))},
      Run (l3Step K) d l d' → Ages d d' := fun hr =>
    hr.related Ages.refl (fun _ _ _ => Ages.trans) fun _ _ _ _ hs => (l3Step_oneWay hs).ages
  refine ⟨fun e he => ?_, hages h⟩
  obtain ⟨past, rest, rfl⟩ := List.append_of_mem he
  obtain ⟨s, hpast, hrest⟩ := h.split
  cases hrest with
  | @cons _ next _ i o _ hs hrest => exact ⟨next, hs, l3Step_oneWay hs, hages hpast, hages hrest⟩

/-- A command of pairing slot 0, with every privilege. -/
def firstCommand (plaintext : Bytes) : L3Input :=
  ⟨fun _ => 0, List.replicate 128 0xffffffff, .fw220, 0, {}, plaintext⟩

/-- Pairing_Key_Write and Pairing_Key_Invalidate on slot 1, I_Config_Write of
bit 2 of register 0, MCounter_Init to 1, and two MCounter_Updates. -/
def oneWayCommands : List L3Input :=
  [[0x10, 1, 0, 0] ++ List.replicate 32 7, [0x12, 1, 0], [0x30, 0, 0, 2], [0x80, 0, 0, 0, 1, 0, 0, 0], [0x81, 0, 0],
    [0x81, 0, 0]].map firstCommand

theorem oneWayCommands_age : ∃ log dev', Run (l3Step (.recorded [] [] [] [])) blankDevice log dev' ∧
    dev'.pairingSlots.lookup 1 = some ⟨⟨List.replicate 32 7, rfl⟩, .invalidated⟩ ∧
    dev'.iConfig.head? = some 0xfffffffb ∧ dev'.mcounters.lookup 0 = some 0 ∧ Ages blankDevice dev' := by
  have hrun : (trace (l3Step (.recorded [] [] [] [])) blankDevice oneWayCommands).map
      (testLast fun _ _ dev => decide (dev.pairingSlots.lookup 1 = some ⟨⟨List.replicate 32 7, rfl⟩, .invalidated⟩ ∧
        dev.iConfig.head? = some 0xfffffffb ∧ dev.mcounters.lookup 0 = some 0)) = .ok true := by
    decide +kernel
  obtain ⟨past, e, dev', hr, htest⟩ := exists_run_of_trace hrun
  obtain ⟨h1, h2, h3⟩ := of_decide_eq_true htest
  exact ⟨_, dev', hr, h1, h2, h3, (device_moves_one_way _ hr).2⟩

end TROPIC01
end Simulators
