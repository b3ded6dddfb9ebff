/-
# TROPIC01: RESEND

A RESEND puts the frame that was read last in front of the queue. Once it has
been read again the queue, the last response, the session, the firmware state
and the device are what they were, so a host may ask for every chunk of a
result again, as often as it likes, and still reads all chunks once, in order.

Key theorems: `Replays.last`, `Fetches.in_order`, `resend_replays`.
-/
import Simulators.TROPIC01.BitErrors
import Simulators.TROPIC01.Shape
import Simulators.TROPIC01.Transaction

namespace Simulators
namespace TROPIC01

/-- The RESEND frame. -/
def resendFrame : Bytes := appendCrc [reqResend, 0]

theorem parseRequest_resendFrame : parseRequest resendFrame = .ok ⟨reqResend, []⟩ :=
  parseRequest_appendCrc (Nat.zero_le _)

/-- A transaction that sends RESEND. -/
structure ResendRequest extends Transaction where
  extra : Bytes
  sends : toTransaction.mosi = resendFrame ++ extra

/-- A RESEND, polls, and the complete read of a response. -/
inductive Replays (K : Crates) (s : Sim) (bytes : Bytes) (s' : Sim) : Prop
  | replay (r : ResendRequest) (h : Reads K (s.transact K r.toTransaction).2 bytes s') : Replays K s bytes s'

/-- The last response is replayed a number of times. -/
inductive ReplaysAll (K : Crates) : Sim → List Bytes → Sim → Prop
  | nil (s : Sim) : ReplaysAll K s [] s
  | cons {s s' s'' : Sim} {bytes : Bytes} {copies : List Bytes} (h : Replays K s bytes s')
      (hr : ReplaysAll K s' copies s'') : ReplaysAll K s (bytes :: copies) s''

/-- One response after the other is read, each of them again a number of times. -/
inductive Fetches (K : Crates) : Sim → List (Bytes × List Bytes) → Sim → Prop
  | nil (s : Sim) : Fetches K s [] s
  | cons {s s' s'' s''' : Sim} {bytes : Bytes} {copies : List Bytes} {rounds : List (Bytes × List Bytes)}
      (h : Reads K s bytes s') (hagain : ReplaysAll K s' copies s'') (hr : Fetches K s'' rounds s''') :
      Fetches K s ((bytes, copies) :: rounds) s'''

section Alarm

variable {K : Crates}

/-- Nothing but a power cycle leaves alarm mode. -/
theorem runEvents_alarm (dev : Device) : ∀ {is : List (OsRng × SpiEvent)} {c : Chip}, c.mode = .alarm →
    (∀ i ∈ is, i.2 ≠ .powerCycle) → ∃ c', (Sim.runEvents K (.ok (c, dev)) is).2 = .ok (c', dev) ∧ c'.mode = .alarm
  | [], c, hm, _ => ⟨c, rfl, hm⟩
  | i :: is, c, hm, his => by
    have htook := step_took (K := K) c dev (his i List.mem_cons_self)
    have hnext : ∃ c', (Sim.step K (.ok (c, dev)) i).2 = .ok (c', dev) ∧ c'.mode = .alarm := by
      generalize (Sim.step K (.ok (c, dev)) i).1.executed = xs at htook
      generalize (Sim.step K (.ok (c, dev)) i).2 = s at htook
      cases htook with
      | quiet h _ => exact ⟨_, rfl, (mode_of_core h).trans hm⟩
      | ignored _ _ h _ => exact ⟨_, rfl, (mode_of_core h).trans hm⟩
      | resent _ h _ _ => exact absurd hm h
      | panicked h _ _ => exact absurd hm h
      | answered h _ _ _ _ => exact absurd hm h
    obtain ⟨c', hs, hm'⟩ := hnext
    show ∃ c', (Sim.runEvents K (Sim.step K (.ok (c, dev)) i).2 is).2 = .ok (c', dev) ∧ c'.mode = .alarm
    rw [hs]
    exact runEvents_alarm dev hm' fun j hj => his j (List.mem_cons_of_mem i hj)

theorem Transaction.events_ne_powerCycle (t : Transaction) : ∀ i ∈ t.events, i.2 ≠ .powerCycle := by
  intro i hi
  unfold events at hi
  simp only [List.cons_append, List.mem_cons, List.mem_append, List.mem_map, List.not_mem_nil, or_false] at hi
  rcases hi with rfl | ⟨p, -, rfl⟩ | rfl
  · exact fun h => by cases h
  · exact fun h => by cases h
  · exact fun h => by cases h

end Alarm

section Replay

variable {K : Crates} {c : Chip} (dev : Device) {f bytes : Bytes} {s s' : Sim}

theorem execute_resend {g : OsRng} (hm : c.mode ≠ .alarm) (hlast : c.lastResponse = some f) :
    c.execute K g dev resendFrame =
      (⟨resendFrame, [f], none⟩, .ok ({ c with queue := f :: c.queue, busyLeft := c.busyPolls }, dev)) := by
  unfold Chip.execute
  rw [if_neg hm, parseRequest_resendFrame, hlast]
  rfl

/-- A RESEND puts the last frame in front of the queue. -/
theorem transact_resend (hm : c.mode ≠ .alarm) (hlast : c.lastResponse = some f) (r : ResendRequest) :
    ∃ miso, Sim.transact K (.ok (c, dev)) r.toTransaction = (⟨miso, [⟨resendFrame, [f], none⟩]⟩,
      .ok ({ c.resting with queue := f :: c.queue, busyLeft := c.busyPolls }, dev)) := by
  have hrid : reqResend ≠ getResponseReqId := by decide
  have hrlen : [hiByte (crc16 [reqResend, 0]), loByte (crc16 [reqResend, 0])].length = UInt8.toNat 0 + 2 := rfl
  obtain ⟨g, h⟩ := transact_request (K := K) dev hm hrid hrlen (Nat.zero_le _) r.sends
  exact h _ _ _ (execute_resend dev (c := c.receiving []) hm hlast)

/-- In alarm mode nothing is read. -/
theorem alarm_reads_nothing (hm : c.mode = .alarm) : ¬ Reads K (.ok (c, dev)) bytes s' := by
  rintro ⟨hw, p, hp⟩
  obtain ⟨c', hs, hkeeps⟩ := hw.keeps dev rfl
  cases hs
  exact hp.1 ((mode_of_core hkeeps.core).trans hm)

/-- A replay is the last response, and leaves no trace. -/
theorem Replays.last (hlast : c.lastResponse = some f) (h : Replays K (.ok (c, dev)) bytes s') :
    Carries bytes f ∧ ∃ c', s' = .ok (c', dev) ∧ c.Keeps c' := by
  obtain ⟨r, hread⟩ := h
  by_cases hm : c.mode = .alarm
  · obtain ⟨c', hs, hm'⟩ := runEvents_alarm (K := K) dev hm r.events_ne_powerCycle
    rw [Sim.transact, hs] at hread
    exact absurd hread (alarm_reads_nothing dev hm')
  · obtain ⟨miso, ht⟩ := transact_resend (K := K) dev hm hlast r
    rw [ht] at hread
    obtain ⟨f', queue, c', hq, hcarries, hs, hcore, hqueue, hlast'⟩ := hread.front dev
    cases hq
    exact ⟨hcarries, c', hs, hcore, hqueue, hlast'.trans hlast.symm⟩

theorem ReplaysAll.last {copies : List Bytes} (h : ReplaysAll K s copies s') (hs : s = .ok (c, dev))
    (hlast : c.lastResponse = some f) :
    (∀ bytes ∈ copies, Carries bytes f) ∧ ∃ c', s' = .ok (c', dev) ∧ c.Keeps c' := by
  induction h generalizing c with
  | nil _ => exact ⟨fun _ h => absurd h List.not_mem_nil, c, hs, rfl, rfl, rfl⟩
  | cons h _ ih =>
    cases hs
    obtain ⟨hcarries, c', hs, hkeeps⟩ := h.last dev hlast
    obtain ⟨hcopies, c'', hs', hkeeps'⟩ := ih hs (hkeeps.lastResponse.trans hlast)
    exact ⟨List.forall_mem_cons.mpr ⟨hcarries, hcopies⟩, c'', hs', hkeeps.trans hkeeps'⟩

/-- Each round reads the next frame of the queue, and its copies. -/
theorem Fetches.in_order {rounds : List (Bytes × List Bytes)} (h : Fetches K s rounds s') (hs : s = .ok (c, dev)) :
    ∃ frames queue c', c.queue = frames ++ queue ∧
      List.Forall₂ (fun r f => Carries r.1 f ∧ ∀ bytes ∈ r.2, Carries bytes f) rounds frames ∧
      s' = .ok (c', dev) ∧ c'.core = c.core ∧ c'.queue = queue := by
  induction h generalizing c with
  | nil _ => exact ⟨[], c.queue, c, rfl, .nil, hs, rfl, rfl⟩
  | cons h hagain _ ih =>
    cases hs
    obtain ⟨f, queue, c₁, hq, hcarries, hs, hcore, hqueue, hlast⟩ := h.front dev
    obtain ⟨hcopies, c₂, hs', hkeeps⟩ := hagain.last dev hs hlast
    obtain ⟨frames, rest, c', hq', hall, hs'', hcore', hrest⟩ := ih hs'
    refine ⟨f :: frames, rest, c', ?_, .cons ⟨hcarries, hcopies⟩ hall, hs'', ?_, hrest⟩
    · rw [hq, ← hqueue, ← hkeeps.queue, hq']
      rfl
    · exact hcore'.trans (hkeeps.core.trans hcore)

/-- A replay is there to be read: after the busy polls, every poll that is long enough reads it. -/
theorem replay_completes (hm : c.mode ≠ .alarm) (hlast : c.lastResponse = some f) (r : ResendRequest)
    {polls : List Poll} (hshort : ∀ p ∈ polls, p.rest.length < f.length) (hbusy : c.busyPolls ≤ polls.length) {p : Poll}
    (hread : f.length ≤ p.rest.length) : ∃ c',
    Sim.afterPolls K (Sim.transact K (.ok (c, dev)) r.toTransaction).2 polls = .ok (c', dev) ∧
    Replays K (.ok (c, dev)) (Sim.transact K (.ok (c', dev)) p.toTransaction).1.miso.tail
      (Sim.transact K (.ok (c', dev)) p.toTransaction).2 := by
  obtain ⟨miso, ht⟩ := transact_resend (K := K) dev hm hlast r
  obtain ⟨c', hafter, hwaits, hcompletes⟩ := completes_of_polls (K := K) dev
    (c := { c.resting with queue := f :: c.queue, busyLeft := c.busyPolls }) hread hm rfl hshort hbusy
  refine ⟨c', ?_, .replay r (.read ?_ p hcompletes)⟩
  · rw [ht]
    exact hafter
  · rw [ht]
    exact hwaits

end Replay

/-- A RESEND is a harmless replay. Whatever the state of the chip, once a frame was read completely, a RESEND, any
number of polls that are busy or break off, and a complete read give that frame, and leave the queue, the last
response, the device and everything the chip knows beside the bus as they were. A host that does so any number of
times after each frame still reads the frames of the queue once each, in order. -/
theorem resend_replays (K : Crates) (c : Chip) (dev : Device) :
    (∀ f bytes s', c.lastResponse = some f → Replays K (.ok (c, dev)) bytes s' →
      Carries bytes f ∧ ∃ c', s' = .ok (c', dev) ∧ c'.queue = c.queue ∧ c'.lastResponse = c.lastResponse ∧
        c'.session = c.session ∧ c'.l3State = c.l3State ∧ c'.core = c.core) ∧
    (∀ rounds s', Fetches K (.ok (c, dev)) rounds s' → ∃ frames c', c.queue = frames ++ c'.queue ∧
      List.Forall₂ (fun r f => Carries r.1 f ∧ ∀ bytes ∈ r.2, Carries bytes f) rounds frames ∧
      s' = .ok (c', dev) ∧ c'.core = c.core) := by
  constructor
  · intro f bytes s' hlast h
    obtain ⟨hcarries, c', hs, hkeeps⟩ := h.last dev hlast
    exact ⟨hcarries, c', hs, hkeeps.queue, hkeeps.lastResponse, session_of_core hkeeps.core,
      l3State_of_core hkeeps.core, hkeeps.core⟩
  · intro rounds s' h
    obtain ⟨frames, queue, c', hq, hall, hs, hcore, rfl⟩ := h.in_order dev rfl
    exact ⟨frames, c', hq, hall, hs, hcore⟩

/-! ### A replay in the middle of a result -/

/-- The first of three frames was read. -/
def midResult : Chip :=
  { Chip.new .fw220 with
    lastResponse := some (responseFrame statusRequestOk [])
    queue := [responseFrame statusResultCont [0xaa, 0xbb], responseFrame statusResultOk [0xcc]] }

/-- RESEND, clocked in two pieces, and a byte too many. -/
def resendInPieces : ResendRequest where
  csnRng := fun _ => 0
  pieces := [(fun _ => 0, resendFrame.take 3), (fun _ => 1, resendFrame.drop 3 ++ [0x00])]
  extra := [0x00]
  sends := by simp [Transaction.mosi, List.take_append_drop, ← List.append_assoc]

/-- A poll of so many bytes. -/
def pollOf (n : ℕ) : Poll where
  csnRng := fun _ => 0
  pieces := [(fun _ => 0, getResponseReqId :: List.replicate n 0)]
  rest := List.replicate n 0
  polls := List.append_nil _

theorem midResult_replayed : ∃ bytes s', Replays (.recorded [] [] [] []) (.ok (midResult, freshDevice)) bytes s' ∧
    Carries bytes (responseFrame statusRequestOk []) ∧
    ∃ c', s' = .ok (c', freshDevice) ∧ c'.queue = midResult.queue ∧ c'.lastResponse = midResult.lastResponse ∧
      c'.session = midResult.session ∧ c'.l3State = midResult.l3State ∧ c'.core = midResult.core := by
  have hshort : ∀ p ∈ [pollOf 2], p.rest.length < (responseFrame statusRequestOk []).length := by decide
  obtain ⟨c', -, h⟩ := replay_completes (K := .recorded [] [] [] []) freshDevice (c := midResult) (by decide) rfl
    resendInPieces hshort (by decide) (p := pollOf 9) (by decide)
  exact ⟨_, _, h, (resend_replays _ _ _).1 _ _ _ rfl h⟩

end TROPIC01
end Simulators
