/-
# TROPIC01: the invariant of the chip

Mode, session, reassembly buffer, nonces and response queue belong together
(`Chip.Sound`), in every state that SPI events and power cycles can reach from
a new chip. In alarm mode nothing happens until a power cycle, and the device
changes only by a command whose packet was authentic.

Key theorems: `took_sound`, `chip_sound`.
-/
import Simulators.TROPIC01.Requests

namespace Simulators
namespace TROPIC01

/-- The state between two requests. -/
structure Chip.Sound (c : Chip) : Prop where
  /-- A session is open in application mode only. -/
  session : c.session.isOpen = true → c.mode = .application
  /-- A packet is being put together: its size is known, and it is not complete. -/
  packet : c.l3Packet ≠ [] → c.session.isOpen = true ∧ 2 ≤ c.l3Packet.length ∧ c.l3Packet.length < c.l3Expected
  nonces : ∀ keys, c.session.keys = some keys → keys.nonceCmd = keys.nonceRes
  alarm : c.mode = .alarm → c.queue = []

section Sound

variable {K : Crates} {g : OsRng} {c c' : Chip} {dev dev' : Device}

theorem sound_of_core (hc : c'.core = c.core) (hq : c.mode = .alarm → c'.queue = []) (h : c.Sound) : c'.Sound where
  session := by
    rw [session_of_core hc, mode_of_core hc]
    exact h.session
  packet := by
    rw [session_of_core hc, l3Packet_of_core hc, l3Expected_of_core hc]
    exact h.packet
  nonces := by
    rw [session_of_core hc]
    exact h.nonces
  alarm hm := hq (mode_of_core hc ▸ hm)

/-- A chip without a session and without a packet is sound, unless responses are left in alarm mode. -/
theorem sound_of_closed (hs : c.session = {}) (hp : c.l3Packet = []) (hq : c.mode = .alarm → c.queue = []) :
    c.Sound where
  session h := by
    rw [hs] at h
    cases h
  packet h := absurd hp h
  nonces keys h := by
    rw [hs] at h
    cases h
  alarm := hq

/-- The nonces of a session that has advanced agree. -/
theorem Advances.nonces {keys : SessionKeys} {nonce : ByteArr 12} {after : Session} (h : Advances keys nonce after)
    (hn : stepNonce keys.nonceCmd = .ok nonce) (he : keys.nonceCmd = keys.nonceRes) :
    ∀ keys', after.keys = some keys' → keys'.nonceCmd = keys'.nonceRes := by
  intro keys' hk
  rcases h with rfl | ⟨nonce', hn', rfl⟩
  · cases hk
  · cases hk
    rw [he, hn'] at hn
    exact (Except.ok.inj hn).symm

/-- A request that was answered keeps the invariant; its frames are queued. -/
theorem Handled.sound {raw : Bytes} {frames : List Bytes} {call : Option L3Call} (hm : c.mode ≠ .alarm)
    (h : Handled K g c dev raw frames call c' dev') (hc : c.Sound) : { c' with queue := frames }.Sound := by
  cases h with
  | same => exact sound_of_core (c := c) rfl (fun h => absurd h hm) hc
  | configured => exact ⟨hc.session, hc.packet, hc.nonces, fun h => absurd h hm⟩
  | closed => exact sound_of_closed rfl rfl fun h => absurd h hm
  | slept => exact sound_of_closed rfl rfl fun h => absurd h hm
  | alarmed _ hf => exact sound_of_closed rfl rfl fun _ => hf
  | opened happ hs =>
    obtain ⟨keys, hk, hcmd, hres, -⟩ := handshake_keys hs
    refine ⟨fun _ => happ, fun h => absurd rfl h, fun keys' hk' => ?_, fun h => absurd h hm⟩
    obtain rfl : keys = keys' := Option.some.inj (hk.symm.trans hk')
    rw [hcmd, hres]
  | @collected chunk expected happ hs h2 hlt =>
    refine ⟨hc.session, fun _ => ⟨hs, ?_, hlt⟩, hc.nonces, fun h => absurd h hm⟩
    show 2 ≤ (c.l3Packet ++ chunk).length
    rw [List.length_append]
    by_cases hnew : c.l3Packet = []
    · have := h2 hnew
      omega
    · have := (hc.packet hnew).2.1
      omega
  | executed h hs _ =>
    refine ⟨fun _ => h.mode, fun h => absurd rfl h, ?_, fun ha => absurd ha hm⟩
    exact hs.nonces h.step (hc.nonces _ h.session)

theorem reboot_sound {mode : Mode} (hm : mode ≠ .alarm) (frames : List Bytes) :
    { c.reboot mode with queue := frames }.Sound := sound_of_closed rfl rfl fun h => absurd h hm

/-- The invariant of the system. -/
def Sim.Sound (s : Sim) : Prop := ∀ c dev, s = .ok (c, dev) → c.Sound

theorem took_sound {xs : List Execution} {s : Sim} (h : Took K g c dev xs s) (hc : c.Sound) : s.Sound := by
  intro c' dev' hs
  cases h with
  | quiet h hq =>
    cases hs
    refine sound_of_core h (fun hm => ?_) hc
    rw [hc.alarm hm, List.suffix_nil] at hq
    exact hq
  | ignored _ _ h hq =>
    cases hs
    exact sound_of_core h (fun hm => hq.trans (hc.alarm hm)) hc
  | resent _ hm _ h =>
    cases hs
    exact sound_of_core h (fun ha => absurd ha hm) hc
  | panicked _ _ _ => cases hs
  | @answered c₀ c₁ _ _ raw call frames hm h₀ hp h hq =>
    cases hs
    have hm₀ : c₀.mode ≠ .alarm := by
      rw [mode_of_core h₀]
      exact hm
    have h₀s : c₀.Sound := sound_of_core h₀ (fun ha => absurd ha hm) hc
    have h₁ : { c₁ with queue := frames }.Sound := by
      by_cases hr : Reboots raw frames
      · obtain ⟨-, ⟨mode, hmode, rfl⟩, -⟩ := process_reboots hp hr
        exact reboot_sound hmode frames
      · exact (process_handled hp hr).sound hm₀ h₀s
    exact sound_of_core (c := { c₁ with queue := frames }) h (fun ha => hq.trans (h₁.alarm ha)) h₁

theorem step_sound (s : Sim) (i : OsRng × SpiEvent) (h : s.Sound) : (Sim.step K s i).2.Sound := by
  rcases s with p | ⟨c, dev⟩
  · intro c dev hs
    cases hs
  · by_cases hi : i.2 = .powerCycle
    · intro c' dev' hs
      simp only [Sim.step, hi, Except.ok.injEq, Prod.mk.injEq] at hs
      rw [← hs.1]
      exact sound_of_closed rfl rfl fun _ => rfl
    · exact took_sound (step_took c dev hi) (h c dev rfl)

theorem new_sound (p : Personality) (dev : Device) : Sim.Sound (.ok (Chip.new p, dev)) := by
  intro c dev' hs
  cases hs
  exact sound_of_closed rfl rfl fun _ => rfl

/-! ### What an event can do -/

/-- In alarm mode no request is executed, and only a power cycle leads out of it. -/
theorem took_alarm {xs : List Execution} {s : Sim} (h : Took K g c dev xs s) (hc : c.Sound) (hm : c.mode = .alarm) :
    ∃ c', s = .ok (c', dev) ∧ c'.mode = .alarm ∧ c'.session.isOpen = false ∧ c'.queue = [] := by
  have hclosed : c.session.isOpen = false := by
    by_contra hopen
    rw [Bool.not_eq_false] at hopen
    have := hc.session hopen
    rw [hm] at this
    cases this
  cases h with
  | @quiet c' h hq =>
    rw [hc.alarm hm, List.suffix_nil] at hq
    exact ⟨c', rfl, (mode_of_core h).trans hm, by rw [session_of_core h]; exact hclosed, hq⟩
  | @ignored c' _ _ h hq =>
    exact ⟨c', rfl, (mode_of_core h).trans hm, by rw [session_of_core h]; exact hclosed, hq.trans (hc.alarm hm)⟩
  | resent _ hne _ _ => exact absurd hm hne
  | panicked hne _ _ => exact absurd hm hne
  | answered hne _ _ _ _ => exact absurd hm hne

/-- A command that the chip executes, whatever the front end is doing. -/
def Executes.of_core {raw plaintext : Bytes} {result : Except Panic (L3Outcome × Device × L3State)}
    (h : Executes K g c' dev raw plaintext result) (hc : c'.core = c.core) : Executes K g c dev raw plaintext result where
  keys := h.keys
  data := h.data
  ct := h.ct
  nonce := h.nonce
  mode := mode_of_core hc ▸ h.mode
  request := h.request
  packet := l3Packet_of_core hc ▸ h.packet
  session := session_of_core hc ▸ h.session
  tag := h.tag
  step := h.step
  dispatched := by
    rw [← configInForce_of_core hc, ← personality_of_core hc, ← l3State_of_core hc]
    exact h.dispatched

/-- The device changes by a command only. -/
theorem took_device {xs : List Execution} (h : Took K g c dev xs (.ok (c', dev'))) (hd : dev' ≠ dev) :
    ∃ raw reply plaintext encryption outcome l3State, xs = [⟨raw, reply, some ⟨plaintext, encryption⟩⟩] ∧
      Nonempty (Executes K g c dev raw plaintext (.ok (outcome, dev', l3State))) := by
  cases h with
  | quiet _ _ => exact absurd rfl hd
  | ignored _ _ _ _ => exact absurd rfl hd
  | resent _ _ _ _ => exact absurd rfl hd
  | @answered c₀ c₁ _ _ raw call frames hm h₀ hp h hq =>
    by_cases hr : Reboots raw frames
    · exact absurd (process_reboots hp hr).2.2 hd
    · have hhandled := process_handled hp hr
      cases hhandled with
      | @executed plaintext encryption outcome _ l3State hx _ _ _ =>
        exact ⟨raw, frames, plaintext, encryption, outcome, l3State, rfl, ⟨hx.of_core h₀⟩⟩
      | _ => exact absurd rfl hd

end Sound

/-- In every state that SPI events and power cycles reach from a new chip: the
chip is sound; in alarm mode every event but a power cycle leaves the device,
the closed session and the empty queue alone; and an event that changes the
device is a transfer that completed an Encrypted_Cmd packet whose tag verified,
in application mode. -/
theorem chip_sound (K : Crates) (p : Personality) (dev₀ : Device) (inputs : List (OsRng × SpiEvent)) {c : Chip}
    {dev : Device} (h : (outputs (Sim.step K) (.ok (Chip.new p, dev₀)) inputs).2 = .ok (c, dev)) :
    c.Sound ∧
    (c.mode = .alarm → ∀ i : OsRng × SpiEvent, i.2 ≠ .powerCycle →
      ∃ c', (Sim.step K (.ok (c, dev)) i).2 = .ok (c', dev) ∧ c'.mode = .alarm ∧ c'.session.isOpen = false ∧
        c'.queue = []) ∧
    ∀ (i : OsRng × SpiEvent) (c' : Chip) (dev' : Device), (Sim.step K (.ok (c, dev)) i).2 = .ok (c', dev') →
      dev' ≠ dev → ∃ mosi raw reply plaintext encryption outcome l3State, i.2 = .transfer mosi ∧
        (Sim.step K (.ok (c, dev)) i).1.executed = [⟨raw, reply, some ⟨plaintext, encryption⟩⟩] ∧
        Nonempty (Executes K i.1 c dev raw plaintext (.ok (outcome, dev', l3State))) := by
  have hc : c.Sound := outputs_invariant step_sound inputs _ (new_sound p dev₀) c dev h
  refine ⟨hc, fun hm i hi => took_alarm (step_took c dev hi) hc hm, ?_⟩
  intro i c' dev' hs hd
  have hi : i.2 ≠ .powerCycle := by
    intro hi
    simp only [Sim.step, hi, Except.ok.injEq, Prod.mk.injEq] at hs
    exact hd hs.2.symm
  have ht := step_took (K := K) c dev hi
  rw [hs] at ht
  obtain ⟨raw, reply, plaintext, encryption, outcome, l3State, hx, hex⟩ := took_device ht hd
  obtain ⟨mosi, hmosi⟩ := transfer_of_executed (K := K) (c := c) (d := dev) (by rw [hx]; exact List.mem_cons_self)
  exact ⟨mosi, raw, reply, plaintext, encryption, outcome, l3State, hmosi, hx, hex⟩

/-- A HANDSHAKE with pairing index 7. -/
def badIndexEvents : List (OsRng × SpiEvent) :=
  [.csnLow, .transfer ([0x02, 0x21] ++ List.replicate 32 0 ++ [0x07, 0xef, 0x6e]), .csnHigh].map fun e => (fun _ => 0, e)

/-- FW 0.1.2 takes it for an attack. -/
theorem badIndexEvents_alarm : ∃ c, (outputs (Sim.step (.recorded [] [] [] []))
      (.ok (Chip.new .es012, blankDevice)) badIndexEvents).2 = .ok (c, blankDevice) ∧
    c.mode = .alarm ∧ c.Sound := by
  have hrun : (outputs (Sim.step (.recorded [] [] [] [])) (.ok (Chip.new .es012, blankDevice)) badIndexEvents).2 =
      .ok ({ Chip.new .es012 with mode := .alarm, alarmFresh := true }, blankDevice) := by
    decide +kernel
  exact ⟨_, hrun, rfl, (chip_sound _ _ _ _ hrun).1⟩

end TROPIC01
end Simulators
