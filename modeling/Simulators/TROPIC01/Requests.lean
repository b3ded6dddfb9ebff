/-
# TROPIC01: what an event on the bus does

Bytes on the bus move the front end of the chip: the transaction, the queue of
responses and the poll counter. The rest is its core (`Chip.core`), and only a
request that was clocked in completely can change it or the device, at most one
for each event (`Took`). What a request can do is said once in `Handled`.

Key theorems: `step_took`, `process_handled`, `process_reboots`.
-/
import Simulators.Lib.Run
import Simulators.TROPIC01.Chip

namespace Simulators
namespace TROPIC01

/-! ### The core of a chip -/

/-- The chip at rest: what a request finds, whatever the state of the bus. -/
def Chip.core (c : Chip) : Chip :=
  { c with
    phase := .idle, request := [], queue := [], cursor := 0, lastResponse := none, busyLeft := 0, alarmFresh := false }

section Core

variable {c c' : Chip}

theorem mode_of_core (h : c'.core = c.core) : c'.mode = c.mode := by
  show c'.core.mode = c.core.mode
  rw [h]

theorem session_of_core (h : c'.core = c.core) : c'.session = c.session := by
  show c'.core.session = c.core.session
  rw [h]

theorem l3Packet_of_core (h : c'.core = c.core) : c'.l3Packet = c.l3Packet := by
  show c'.core.l3Packet = c.core.l3Packet
  rw [h]

theorem l3Expected_of_core (h : c'.core = c.core) : c'.l3Expected = c.l3Expected := by
  show c'.core.l3Expected = c.core.l3Expected
  rw [h]

theorem personality_of_core (h : c'.core = c.core) : c'.personality = c.personality := by
  show c'.core.personality = c.core.personality
  rw [h]

theorem l3State_of_core (h : c'.core = c.core) : c'.l3State = c.l3State := by
  show c'.core.l3State = c.core.l3State
  rw [h]

theorem configInForce_of_core (h : c'.core = c.core) (dev : Device) : c'.configInForce dev = c.configInForce dev := by
  show c'.core.configInForce dev = c.core.configInForce dev
  rw [h]

end Core

/-! ### Requests -/

theorem buildResponse_head {status : UInt8} {data f : Bytes} (h : buildResponse status data = .ok f) :
    f.head? = some status := by
  unfold buildResponse at h
  split at h
  · cases h
    rfl
  · cases h

theorem answer_eq_ok {c c' : Chip} {dev dev' : Device} {status : UInt8} {data : Bytes} {frames : List Bytes}
    (h : c.answer dev status data = .ok (frames, c', dev')) :
    ∃ f, frames = [f] ∧ f.head? = some status ∧ c' = c := by
  unfold Chip.answer at h
  rcases hb : buildResponse status data with p | f
  · rw [hb] at h
    cases h
  · rw [hb] at h
    cases h
    exact ⟨f, rfl, buildResponse_head hb, rfl⟩

/-- A session opens only what decrypts under its command nonce, and steps that nonce. -/
theorem unwrapL3Request_eq_ok {K : Crates} {s s' : Session} {l2Body plaintext : Bytes}
    (h : s.unwrapL3Request K l2Body = .ok (plaintext, s')) :
    ∃ keys lo hi ct nonce, l2Body = lo :: hi :: ct ∧ ct.length = (u16Le lo hi).toNat + 16 ∧ s.keys = some keys ∧
      K.gcmDecrypt keys.kCmd keys.nonceCmd [] ct = some plaintext ∧ stepNonce keys.nonceCmd = .ok nonce ∧
      s' = ⟨some { keys with nonceCmd := nonce }⟩ := by
  unfold Session.unwrapL3Request at h
  split at h
  · cases h
  · rename_i keys hk
    split at h
    · rename_i lo hi ct
      split at h
      · cases h
      · split at h
        · cases h
        · rename_i hlen
          have hct : ct.length = (u16Le lo hi).toNat + 16 := by
            simp only [List.length_cons] at hlen
            omega
          split at h
          · cases h
          · rename_i plaintext' hd
            split at h
            · cases h
            · rename_i nonce hn
              cases h
              exact ⟨keys, lo, hi, ct, nonce, rfl, hct, hk, hd, hn, rfl⟩
    · cases h

/-- The request is a STARTUP that was answered REQUEST_OK. -/
def Reboots (raw : Bytes) (frames : List Bytes) : Prop :=
  (parseRequest raw).map (·.reqId) = .ok reqStartup ∧ frames.map List.head? = [some statusRequestOk]

instance (raw : Bytes) (frames : List Bytes) : Decidable (Reboots raw frames) :=
  inferInstanceAs (Decidable (_ ∧ _))

theorem Reboots.startup {raw : Bytes} {frames : List Bytes} (h : Reboots raw frames) :
    ∃ data, parseRequest raw = .ok ⟨reqStartup, data⟩ := by
  obtain ⟨hreq, -⟩ := h
  generalize parseRequest raw = r at hreq
  rcases r with e | ⟨reqId, data⟩
  · cases hreq
  · obtain rfl : reqId = reqStartup := Except.ok.inj hreq
    exact ⟨data, rfl⟩

/-- A request makes the chip execute the command that a packet decrypts to, in
the configuration in force: the frame, the keys before it, the plaintext and
what `dispatch` makes of it. -/
structure Executes (K : Crates) (g : OsRng) (c : Chip) (dev : Device) (raw plaintext : Bytes)
    (result : Except Panic (L3Outcome × Device × L3State)) where
  keys : SessionKeys
  data : Bytes
  ct : Bytes
  nonce : ByteArr 12
  mode : c.mode = .application
  request : parseRequest raw = .ok ⟨reqEncryptedCmd, data⟩
  packet : ∃ lo hi, c.l3Packet ++ data = lo :: hi :: ct ∧ ct.length = (u16Le lo hi).toNat + 16
  session : c.session.keys = some keys
  tag : K.gcmDecrypt keys.kCmd keys.nonceCmd [] ct = some plaintext
  step : stepNonce keys.nonceCmd = .ok nonce
  dispatched : dispatch K g dev (c.configInForce dev) c.personality keys.pkeyIndex c.l3State plaintext = result

/-- The session after a command: both nonces have stepped, or it is closed. -/
def Advances (keys : SessionKeys) (nonce : ByteArr 12) (after : Session) : Prop :=
  after = {} ∨ ∃ nonce', stepNonce keys.nonceRes = .ok nonce' ∧
    after = ⟨some { keys with nonceCmd := nonce, nonceRes := nonce' }⟩

/-- The chip and the device after a request that was answered and is no reboot. -/
inductive Handled (K : Crates) (g : OsRng) (c : Chip) (dev : Device) (raw : Bytes) (frames : List Bytes) :
    Option L3Call → Chip → Device → Prop
  | same : Handled K g c dev raw frames none c dev
  /-- A refused SLEEP has read the configuration. -/
  | configured : Handled K g c dev raw frames none { c with activeConfig := some (c.configInForce dev) } dev
  | closed : Handled K g c dev raw frames none c.dropSession dev
  | slept : Handled K g c dev raw frames none
      { c with activeConfig := some (c.configInForce dev) }.dropSession dev
  | alarmed (hm : c.mode = .application) (hf : frames = []) :
      Handled K g c dev raw frames none { c.dropSession with mode := .alarm, alarmFresh := true } dev
  | opened {session : Session} {data body : Bytes} (hm : c.mode = .application)
      (h : Session.handshake K g dev data = .ok (body, session)) :
      Handled K g c dev raw frames none { c.dropSession with session } dev
  | collected {chunk : Bytes} {expected : ℕ} (hm : c.mode = .application) (hs : c.session.isOpen = true)
      (h2 : c.l3Packet = [] → 2 ≤ chunk.length) (hlt : (c.l3Packet ++ chunk).length < expected) :
      Handled K g c dev raw frames none { c with l3Packet := c.l3Packet ++ chunk, l3Expected := expected } dev
  | executed {plaintext : Bytes} {encryption : Option GcmMessage} {outcome : L3Outcome} {dev' : Device}
      {l3State : L3State} (h : Executes K g c dev raw plaintext (.ok (outcome, dev', l3State))) {session : Session}
      (hs : Advances h.keys h.nonce session) (storeDirty : Bool) :
      Handled K g c dev raw frames (some ⟨plaintext, encryption⟩)
        { c.dropSession with session, activeConfig := some (c.configInForce dev), l3State, storeDirty } dev'

/-- What a request can do: reboot, do what `Handled` says, or panic, in
`dispatch` if it got there. -/
def Does (K : Crates) (g : OsRng) (c : Chip) (dev : Device) (raw : Bytes) : Option L3Call × Reply → Prop
  | (call, .ok (frames, c', dev')) =>
    (Reboots raw frames ∧ call = none ∧ (∃ mode, mode ≠ .alarm ∧ c' = c.reboot mode) ∧ dev' = dev) ∨
      (¬ Reboots raw frames ∧ Handled K g c dev raw frames call c' dev')
  | (none, .error _) => True
  | (some call, .error p) => Nonempty (Executes K g c dev raw call.plaintext (.error p))

section Requests

variable {K : Crates} {g : OsRng} {c c' : Chip} {dev : Device} {raw : Bytes}

/-- The frame that `buildResponse` builds. -/
def responseFrame (status : UInt8) (data : Bytes) : Bytes := appendCrc (status :: UInt8.ofNat data.length :: data)

/-- A request other than STARTUP, answered with one frame. -/
theorem answer_does {status : UInt8} {data : Bytes} (hraw : ∀ data, parseRequest raw ≠ .ok ⟨reqStartup, data⟩)
    (h : ∀ frames, Handled K g c dev raw frames none c' dev) : Does K g c dev raw (none, c'.answer dev status data) := by
  unfold Chip.answer
  rcases buildResponse status data with p | f
  · trivial
  · exact .inr ⟨fun hr => hr.startup.elim hraw, h [f]⟩

theorem answerAfterAck_does {status : UInt8} (hraw : ∀ data, parseRequest raw ≠ .ok ⟨reqStartup, data⟩)
    (h : ∀ frames, Handled K g c dev raw frames none c' dev) :
    Does K g c dev raw (none, c'.answerAfterAck dev status) := by
  unfold Chip.answerAfterAck
  rcases buildResponse statusRequestOk [] with p | ack
  · trivial
  · rcases buildResponse status [] with p | f
    · trivial
    · exact .inr ⟨fun hr => hr.startup.elim hraw, h [ack, f]⟩

/-- STARTUP reboots, or is answered GEN_ERR. -/
theorem startup_does {data : Bytes} (hraw : parseRequest raw = .ok ⟨reqStartup, data⟩) :
    Does K g c dev raw (none, c.startup dev data) := by
  have hreboot : ∀ mode, mode ≠ .alarm → Does K g c dev raw (none, (c.reboot mode).answer dev statusRequestOk []) := by
    intro mode hm
    exact .inl ⟨⟨by rw [hraw]; rfl, rfl⟩, rfl, ⟨mode, hm, rfl⟩, rfl⟩
  have hrefuse : Does K g c dev raw (none, c.answer dev statusGenErr []) :=
    .inr ⟨fun hr => absurd hr.2 (by decide), .same⟩
  unfold Chip.startup
  split
  · split
    · exact hreboot .application (by decide)
    · split
      · split
        · trivial
        · refine hreboot _ ?_
          split
          · decide
          · decide
      · exact hrefuse
  · exact hrefuse

theorem sleep_does {data : Bytes} (hraw : ∀ data, parseRequest raw ≠ .ok ⟨reqStartup, data⟩) :
    Does K g c dev raw (none, c.sleep dev data) := by
  unfold Chip.sleep
  split
  · exact answer_does hraw fun _ => .same
  · dsimp only
    split
    · trivial
    · split
      · exact answer_does hraw fun _ => .configured
      · exact answer_does hraw fun _ => .slept

theorem handshake_does {data : Bytes} (hm : c.mode = .application)
    (hraw : ∀ data, parseRequest raw ≠ .ok ⟨reqStartup, data⟩) :
    Does K g c dev raw (none, c.handshake K g dev data) := by
  unfold Chip.handshake
  split
  · exact answer_does hraw fun _ => .same
  · split
    · exact .inr ⟨fun hr => hr.startup.elim hraw, .alarmed hm rfl⟩
    · dsimp only
      split
      · rename_i body session hs
        exact answer_does hraw fun _ => .opened hm hs
      · exact answer_does hraw fun _ => .closed
      · trivial

/-- The chunks of a packet always fit into frames; the last one is marked. -/
theorem resultFrames_concat {last : Bytes} (hlast : last.length ≤ maxL2DataSize) : ∀ {chunks : List Bytes},
    (∀ chunk ∈ chunks, chunk.length ≤ maxL2DataSize) → Chip.resultFrames (chunks ++ [last]) =
      .ok (chunks.map (responseFrame statusResultCont) ++ [responseFrame statusResultOk last])
  | [], _ => by
    simp only [List.nil_append, Chip.resultFrames, buildResponse, if_pos hlast]
    rfl
  | chunk :: chunks, h => by
    have ih := resultFrames_concat hlast fun d hd => h d (List.mem_cons_of_mem chunk hd)
    have hchunk := h chunk List.mem_cons_self
    rw [List.cons_append, Chip.resultFrames, if_neg (by simp), ih, buildResponse, if_pos hchunk]
    rfl

/-- The frames of a packet. -/
theorem resultFrames_chunks {wire : Bytes} (hw : wire ≠ []) : ∃ init last,
    Chip.resultFrames (chunks maxL2DataSize wire) =
      .ok (init.map (responseFrame statusResultCont) ++ [responseFrame statusResultOk last]) ∧
    (init ++ [last]).flatten = wire ∧ ∀ chunk ∈ init ++ [last], chunk.length ≤ maxL2DataSize := by
  have hle : ∀ chunk ∈ chunks maxL2DataSize wire, chunk.length ≤ maxL2DataSize := fun _ h => chunks_length_le h
  have hflat : (chunks maxL2DataSize wire).flatten = wire := chunks_flatten (by decide) _ wire (Nat.le_refl _)
  rcases List.eq_nil_or_concat (chunks maxL2DataSize wire) with h | ⟨init, last, h⟩
  · rw [h] at hflat
    exact absurd hflat.symm hw
  · rw [List.concat_eq_append] at h
    rw [h] at hle hflat ⊢
    refine ⟨init, last, resultFrames_concat (hle last (by simp)) ?_, hflat, hle⟩
    exact fun chunk hc => hle chunk (by simp [hc])

/-- A command that was executed and gave a result. -/
theorem answerResult_does {plaintext result : Bytes} {o : L3Outcome} {dev' : Device} {l3State : L3State}
    (hraw : ∀ data, parseRequest raw ≠ .ok ⟨reqStartup, data⟩)
    (h : Executes K g c dev raw plaintext (.ok (o, dev', l3State))) (storeDirty : Bool) {c₀ : Chip}
    (hc₀ : c₀ = { c.dropSession with
      session := ⟨some { h.keys with nonceCmd := h.nonce }⟩, activeConfig := some (c.configInForce dev), l3State,
      storeDirty }) :
    Does K g c dev raw (c₀.answerResult K dev' plaintext result) := by
  have hhandled : ∀ {frames : List Bytes} {encryption : Option GcmMessage} {session : Session},
      Advances h.keys h.nonce session → Does K g c dev raw (some ⟨plaintext, encryption⟩,
        .ok (frames, { c₀ with session }, dev')) := by
    intro frames encryption session hs
    rw [hc₀]
    exact .inr ⟨fun hr => hr.startup.elim hraw, .executed h hs storeDirty⟩
  have hsession : c₀.session = ⟨some { h.keys with nonceCmd := h.nonce }⟩ := by rw [hc₀]
  unfold Chip.answerResult
  simp only [Session.wrapL3Response, hsession]
  rcases hn : stepNonce h.keys.nonceRes with e | nonce
  · have hdrop : c₀.dropSession = { c₀ with session := {} } := by rw [hc₀]; rfl
    dsimp only
    rw [hdrop]
    exact hhandled (.inl rfl)
  · have hne : [loByte (UInt16.ofNat result.length), hiByte (UInt16.ofNat result.length)] ++
        (GcmMessage.mk h.keys.kRes h.keys.nonceRes result).encrypt K ≠ [] := by simp
    obtain ⟨init, last, hf, -⟩ := resultFrames_chunks hne
    dsimp only
    rw [hf]
    exact hhandled (.inr ⟨nonce, hn, rfl⟩)

theorem packetCommand_does {data packet : Bytes} {c₀ : Chip} (hm : c.mode = .application)
    (hraw : parseRequest raw = .ok ⟨reqEncryptedCmd, data⟩) (hpacket : packet = c.l3Packet ++ data)
    (hc₀ : c₀ = { c with l3Packet := [], l3Expected := 0 }) :
    Does K g c dev raw (c₀.packetCommand K g dev packet) := by
  have hno : ∀ data, parseRequest raw ≠ .ok ⟨reqStartup, data⟩ := by
    intro data' h
    rw [hraw] at h
    cases h
  unfold Chip.packetCommand
  rcases hu : c₀.session.unwrapL3Request K packet with e | ⟨plaintext, session⟩
  · rw [hc₀]
    exact answerAfterAck_does hno fun _ => .closed
  · obtain ⟨keys, lo, hi, ct, nonce, hbody, hlen, hk, hd, hn, rfl⟩ := unwrapL3Request_eq_ok hu
    have hconfig : c₀.configInForce dev = c.configInForce dev := by rw [hc₀]; rfl
    have hp : c₀.personality = c.personality := by rw [hc₀]
    have hl : c₀.l3State = c.l3State := by rw [hc₀]
    have hk' : c.session.keys = some keys := by rw [← hk, hc₀]
    dsimp only [Option.map, Option.getD]
    rw [hconfig, hp, hl]
    rcases hr : dispatch K g dev (c.configInForce dev) c.personality keys.pkeyIndex c.l3State plaintext with
      p | ⟨outcome, dev', l3State⟩
    · exact ⟨⟨keys, data, ct, nonce, hm, hraw, ⟨lo, hi, hpacket ▸ hbody, hlen⟩, hk', hd, hn, hr⟩⟩
    · dsimp only
      rcases outcome with result | _
      · refine answerResult_does (o := .result result) hno
          ⟨keys, data, ct, nonce, hm, hraw, ⟨lo, hi, hpacket ▸ hbody, hlen⟩, hk', hd, hn, hr⟩
          (c.storeDirty || (plaintext.head?.bind CmdId.ofWireId).any mutatesStore) ?_
        rw [hc₀]
        rfl
      · rw [hc₀]
        exact .inr ⟨fun h => h.startup.elim hno, .executed
          ⟨keys, data, ct, nonce, hm, hraw, ⟨lo, hi, hpacket ▸ hbody, hlen⟩, hk', hd, hn, hr⟩ (.inl rfl) _⟩

theorem encryptedCmd_does {chunk : Bytes} (hm : c.mode = .application)
    (hraw : parseRequest raw = .ok ⟨reqEncryptedCmd, chunk⟩) : Does K g c dev raw (c.encryptedCmd K g dev chunk) := by
  have hno : ∀ data, parseRequest raw ≠ .ok ⟨reqStartup, data⟩ := by
    intro data h
    rw [hraw] at h
    cases h
  unfold Chip.encryptedCmd
  split
  · rename_i hs
    have hclosed : { c with l3Packet := [], l3Expected := 0 } = c.dropSession := by
      rcases hk : c.session with ⟨_ | keys⟩
      · rfl
      · rw [hk] at hs
        cases hs
    rw [hclosed]
    exact answer_does hno fun _ => .closed
  · rename_i hs
    rw [Bool.not_eq_false] at hs
    split
    · exact answer_does hno fun _ => .same
    · rename_i hlen
      dsimp only
      generalize (if c.l3Packet = [] then _ else _) = expected
      split
      · rename_i hlt
        refine answer_does hno fun _ => .collected hm hs (fun hnew => ?_) hlt
        rw [not_and, not_lt] at hlen
        exact hlen hnew
      · split
        · exact answerAfterAck_does hno fun _ => .closed
        · exact packetCommand_does hm hraw rfl rfl

/-- What a request can do. -/
theorem process_does (c : Chip) (dev : Device) (raw : Bytes) : Does K g c dev raw (c.process K g dev raw) := by
  unfold Chip.process
  split
  · rename_i hp
    exact answer_does (fun data h => by rw [hp] at h; cases h) fun _ => .same
  · rename_i hp
    exact answer_does (fun data h => by rw [hp] at h; cases h) fun _ => .same
  · rename_i reqId data hp
    by_cases hid : reqId = reqStartup
    · subst hid
      exact startup_does hp
    have hno : ∀ data, parseRequest raw ≠ .ok ⟨reqStartup, data⟩ := by
      intro data' h
      rw [hp] at h
      cases h
      exact hid rfl
    refine iteInduction (fun _ => answer_does hno fun _ => .same) fun _ => ?_
    refine iteInduction (fun _ => ?_) fun _ => ?_
    · split
      · rename_i objectId block
        rcases getInfo K dev (c.mode == .maintenance) objectId block with p | f
        · trivial
        · exact .inr ⟨fun h => h.startup.elim hno, .same⟩
      · exact answer_does hno fun _ => .same
    refine iteInduction (fun _ => ?_) fun _ => ?_
    · split
      · exact answer_does hno fun _ => .same
      · exact answer_does hno fun _ => .same
    refine iteInduction (fun h => absurd h hid) fun _ => ?_
    refine iteInduction (fun _ => answer_does hno fun _ => .same) fun hm => ?_
    rw [not_not] at hm
    refine iteInduction (fun _ => handshake_does hm hno) fun _ => ?_
    refine iteInduction (fun h => encryptedCmd_does hm (h ▸ hp)) fun _ => ?_
    refine iteInduction (fun _ => ?_) fun _ => ?_
    · split
      · exact answer_does hno fun _ => .closed
      · exact answer_does hno fun _ => .same
    exact iteInduction (fun _ => sleep_does hno) fun _ => answer_does hno fun _ => .same

/-- A STARTUP that was answered REQUEST_OK has rebooted the chip. -/
theorem process_reboots {call : Option L3Call} {frames : List Bytes} {dev' : Device}
    (h : c.process K g dev raw = (call, .ok (frames, c', dev'))) (hr : Reboots raw frames) :
    call = none ∧ (∃ mode, mode ≠ .alarm ∧ c' = c.reboot mode) ∧ dev' = dev := by
  have hdoes := process_does (K := K) (g := g) c dev raw
  rw [h] at hdoes
  rcases hdoes with ⟨-, hdoes⟩ | ⟨hn, -⟩
  · exact hdoes
  · exact absurd hr hn

theorem process_handled {call : Option L3Call} {frames : List Bytes} {dev' : Device}
    (h : c.process K g dev raw = (call, .ok (frames, c', dev'))) (hr : ¬ Reboots raw frames) :
    Handled K g c dev raw frames call c' dev' := by
  have hdoes := process_does (K := K) (g := g) c dev raw
  rw [h] at hdoes
  rcases hdoes with ⟨h, -⟩ | ⟨-, hdoes⟩
  · exact absurd h hr
  · exact hdoes

end Requests

/-! ### Events -/

/-- What an event other than a power cycle executed, and what became of the chip. -/
inductive Took (K : Crates) (g : OsRng) (c : Chip) (dev : Device) : List Execution → Sim → Prop
  /-- The front end moved. -/
  | quiet {c' : Chip} (h : c'.core = c.core) (hq : c'.queue <:+ c.queue) : Took K g c dev [] (.ok (c', dev))
  /-- In alarm mode requests are ignored. -/
  | ignored {c' : Chip} (raw : Bytes) (hm : c.mode = .alarm) (h : c'.core = c.core) (hq : c'.queue = c.queue) :
      Took K g c dev [⟨raw, [], none⟩] (.ok (c', dev))
  | resent {c' : Chip} {raw : Bytes} (f : Bytes) (hm : c.mode ≠ .alarm)
      (hraw : parseRequest raw = .ok ⟨reqResend, []⟩) (h : c'.core = c.core) :
      Took K g c dev [⟨raw, [f], none⟩] (.ok (c', dev))
  | panicked {c₀ : Chip} {raw : Bytes} {call : Option L3Call} {p : Panic} (hm : c.mode ≠ .alarm)
      (h₀ : c₀.core = c.core) (hp : c₀.process K g dev raw = (call, .error p)) :
      Took K g c dev [⟨raw, [], call⟩] (.error p)
  | answered {c₀ c₁ c' : Chip} {dev' : Device} {raw : Bytes} {call : Option L3Call} {frames : List Bytes}
      (hm : c.mode ≠ .alarm) (h₀ : c₀.core = c.core) (hp : c₀.process K g dev raw = (call, .ok (frames, c₁, dev')))
      (h : c'.core = c₁.core) (hq : c'.queue = frames) : Took K g c dev [⟨raw, frames, call⟩] (.ok (c', dev'))

section Bus

variable {K : Crates} {g : OsRng} {c c' : Chip} {dev : Device}

/-- Movements of the front end before an event are part of it. -/
theorem Took.of_core {xs : List Execution} {s : Sim} (h : Took K g c' dev xs s) (hc : c'.core = c.core)
    (hq : c'.queue = c.queue) : Took K g c dev xs s := by
  have hmode := mode_of_core hc
  cases h with
  | quiet h hq' => exact .quiet (h.trans hc) (hq ▸ hq')
  | ignored raw hm h hq' => exact .ignored raw (hmode ▸ hm) (h.trans hc) (hq'.trans hq)
  | resent f hm hraw h => exact .resent f (hmode ▸ hm) hraw (h.trans hc)
  | panicked hm h₀ hp => exact .panicked (hmode ▸ hm) (h₀.trans hc) hp
  | answered hm h₀ hp h hq' => exact .answered (hmode ▸ hm) (h₀.trans hc) hp h hq'

/-- The rest of the transaction is ignored. -/
def Sim.ignoreRest (s : Sim) : Sim := s.map fun (c, dev) => ({ c with phase := .noResponse }, dev)

theorem Took.ignoreRest {xs : List Execution} {s : Sim} (h : Took K g c dev xs s) :
    Took K g c dev xs s.ignoreRest := by
  cases h with
  | quiet h hq => exact .quiet h hq
  | ignored raw hm h hq => exact .ignored raw hm h hq
  | resent f hm hraw h => exact .resent f hm hraw h
  | panicked hm h₀ hp => exact .panicked hm h₀ hp
  | answered hm h₀ hp h hq => exact .answered hm h₀ hp h hq

/-- A complete request is ignored, resends a frame, or is processed. -/
theorem execute_took (c : Chip) (dev : Device) (raw : Bytes) :
    Took K g c dev [(c.execute K g dev raw).1] (c.execute K g dev raw).2 := by
  unfold Chip.execute
  dsimp only
  split
  · rename_i hm
    exact .ignored raw hm rfl rfl
  · rename_i hm
    split
    · rename_i f hresend _
      refine .resent f hm ?_ rfl
      split at hresend
      · rename_i reqId data hp
        obtain ⟨rfl, rfl⟩ := of_decide_eq_true hresend
        exact hp
      · cases hresend
    · rcases hp : c.process K g dev raw with ⟨call, p | ⟨frames, c₁, dev'⟩⟩
      · exact .panicked hm rfl hp
      · exact .answered hm rfl hp rfl rfl

/-- After a request the rest of the transaction is ignored. -/
def Sim.Ignoring (s : Sim) : Prop := ∀ c dev, s = .ok (c, dev) → c.phase = .noResponse

/-- A byte of a request completes it, or executes nothing. -/
theorem pushRequestByte_took (c : Chip) (dev : Device) (b : UInt8) :
    (∃ x, (c.pushRequestByte K g dev b).1 = some x ∧ Took K g c dev [x] (c.pushRequestByte K g dev b).2 ∧
      Sim.Ignoring (c.pushRequestByte K g dev b).2) ∨
    ∃ request, c.pushRequestByte K g dev b = (none, .ok ({ c with request }, dev)) := by
  unfold Chip.pushRequestByte
  dsimp only
  generalize (if c.request.length < maxL2FrameSize then _ else _) = request
  split
  · split
    · refine .inl ⟨_, rfl, ?_, ?_⟩
      · have h := execute_took (K := K) (g := g) { c with request := [] } dev request
        exact (h.of_core (c := c) rfl rfl).ignoreRest
      · intro c' dev' h
        rcases hr : (Chip.execute K g { c with request := [] } dev request).2 with p | ⟨c₁, dev₁⟩
        · rw [hr] at h
          cases h
        · rw [hr] at h
          cases h
          rfl
    · exact .inr ⟨request, rfl⟩
  · exact .inr ⟨request, rfl⟩

theorem chipStatus_core (c : Chip) : c.chipStatus.2.core = c.core ∧ c.chipStatus.2.queue = c.queue := by
  unfold Chip.chipStatus
  split
  · exact ⟨rfl, rfl⟩
  · exact ⟨rfl, rfl⟩
  · split
    · exact ⟨rfl, rfl⟩
    · exact ⟨rfl, rfl⟩

theorem poll_core (c : Chip) : c.poll.2.core = c.core ∧ c.poll.2.queue = c.queue := by
  obtain ⟨h1, h2⟩ := chipStatus_core c
  unfold Chip.poll
  dsimp only
  rw [← h1, ← h2]
  split
  · exact ⟨rfl, rfl⟩
  · split
    · exact ⟨rfl, rfl⟩
    · exact ⟨rfl, rfl⟩

/-- The chip and the device after a transfer. -/
def Sim.ofTransfer {α : Type} (r : Except Panic (α × Chip × Device)) : Sim := r.map (·.2)

theorem ofTransfer_map {α : Type} (s : Sim) (a : α) : Sim.ofTransfer (s.map fun (c, dev) => (a, c, dev)) = s := by
  cases s <;> rfl

/-- A byte completes a request, or moves the front end. -/
theorem transferByte_took (c : Chip) (dev : Device) (b : UInt8) :
    (∃ x, (c.transferByte K g dev b).1 = some x ∧ Took K g c dev [x] (.ofTransfer (c.transferByte K g dev b).2) ∧
      Sim.Ignoring (.ofTransfer (c.transferByte K g dev b).2)) ∨
    ∃ out c', c.transferByte K g dev b = (none, .ok (out, c', dev)) ∧ c'.core = c.core ∧ c'.queue = c.queue := by
  unfold Chip.transferByte
  split
  · exact .inr ⟨_, c, rfl, rfl, rfl⟩
  · split
    · exact .inr ⟨_, _, rfl, poll_core c⟩
    · obtain ⟨hc, hq⟩ := chipStatus_core c
      rcases pushRequestByte_took (K := K) (g := g) { c.chipStatus.2 with phase := .request } dev b with
        ⟨x, hx, ht, hi⟩ | ⟨request, hr⟩
      · refine .inl ⟨x, hx, ?_, ?_⟩
        · rw [ofTransfer_map]
          exact ht.of_core hc hq
        · rw [ofTransfer_map]
          exact hi
      · dsimp only
        rw [hr]
        exact .inr ⟨_, _, rfl, hc, hq⟩
  · rcases pushRequestByte_took (K := K) (g := g) c dev b with ⟨x, hx, ht, hi⟩ | ⟨request, hr⟩
    · refine .inl ⟨x, hx, ?_, ?_⟩
      · rw [ofTransfer_map]
        exact ht
      · rw [ofTransfer_map]
        exact hi
    · dsimp only
      rw [hr]
      exact .inr ⟨_, _, rfl, rfl, rfl⟩
  · exact .inr ⟨_, _, rfl, rfl, rfl⟩
  · exact .inr ⟨_, c, rfl, rfl, rfl⟩

/-- Bytes after a request change nothing. -/
theorem transfer_noResponse (hc : c.phase = .noResponse) (dev : Device) : ∀ mosi : Bytes,
    ∃ miso, c.transfer K g dev mosi = ([], .ok (miso, c, dev))
  | [] => ⟨[], rfl⟩
  | b :: mosi => by
    obtain ⟨miso, h⟩ := transfer_noResponse hc dev mosi
    refine ⟨statusNoResp :: miso, ?_⟩
    simp only [Chip.transfer, Chip.transferByte, hc, h]
    rfl

theorem transfer_took : ∀ (mosi : Bytes) (c : Chip) (dev : Device),
    Took K g c dev (c.transfer K g dev mosi).1 (.ofTransfer (c.transfer K g dev mosi).2)
  | [], c, dev => .quiet rfl List.suffix_rfl
  | b :: mosi, c, dev => by
    rcases transferByte_took (K := K) (g := g) c dev b with ⟨x, hx, ht, hi⟩ | ⟨out, c', hb, hc, hq⟩
    · rw [Chip.transfer]
      rcases hr : c.transferByte K g dev b with ⟨x', p | ⟨out, c', dev'⟩⟩
      · rw [hr] at hx ht
        obtain rfl : x' = some x := hx
        exact ht
      · rw [hr] at hx ht hi
        obtain rfl : x' = some x := hx
        obtain ⟨miso, hm⟩ := transfer_noResponse (K := K) (g := g) (hi c' dev' rfl) dev' mosi
        simp only [hm]
        exact ht
    · rw [Chip.transfer, hb]
      have ih := transfer_took mosi c' dev
      dsimp only [Option.toList, List.nil_append]
      refine Took.of_core ?_ hc hq
      generalize c'.transfer K g dev mosi = r at ih
      obtain ⟨xs, p | ⟨miso, c'', dev''⟩⟩ := r
      · exact ih
      · exact ih

theorem csnHigh_core (c : Chip) : c.csnHigh.core = c.core ∧ c.csnHigh.queue <:+ c.queue := by
  unfold Chip.csnHigh
  split
  · split
    · rename_i hq _
      exact ⟨rfl, by rw [hq]; exact List.suffix_cons _ _⟩
    · exact ⟨rfl, List.suffix_rfl⟩
  · exact ⟨rfl, List.suffix_rfl⟩

/-- Every event but a power cycle executes one request, or moves the front end. -/
theorem step_took (c : Chip) (dev : Device) {i : OsRng × SpiEvent} (hi : i.2 ≠ .powerCycle) :
    Took K i.1 c dev (Sim.step K (.ok (c, dev)) i).1.executed (Sim.step K (.ok (c, dev)) i).2 := by
  obtain ⟨g, e⟩ := i
  cases e with
  | csnLow => exact .quiet rfl List.suffix_rfl
  | csnHigh => exact .quiet (csnHigh_core c).1 (csnHigh_core c).2
  | powerCycle => exact absurd rfl hi
  | transfer mosi =>
    have h := transfer_took (K := K) (g := g) mosi c dev
    dsimp only [Sim.step]
    generalize c.transfer K g dev mosi = r at h
    obtain ⟨xs, p | ⟨miso, c', dev'⟩⟩ := r
    · exact h
    · exact h

/-- An event that executes something is a transfer. -/
theorem transfer_of_executed {c : Chip} {d : Device} {i : OsRng × SpiEvent} {x : Execution}
    (h : x ∈ (Sim.step K (.ok (c, d)) i).1.executed) : ∃ mosi, i.2 = .transfer mosi := by
  obtain ⟨g, e⟩ := i
  cases e with
  | transfer mosi => exact ⟨mosi, rfl⟩
  | _ => cases h

end Bus

end TROPIC01
end Simulators
