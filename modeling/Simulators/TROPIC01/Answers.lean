/-
# TROPIC01: every request that arrives is answered

`process` returns response frames for every request, if it does not raise the
alarm: no handler of the chip panics and no response is too long for a frame,
because the configuration in force has all its registers, the pairing key of
the session is one of four, and the device has its shape (`Chip.Ready`).

A request that declares 252 bytes of data or less is executed, and its response
is there to be read. One that declares more fills the buffer of the chip before
it is complete: it is never executed, and whatever was queued before is served
in its place.

Key theorems: `process_replies`, `step_ready`, `complete_requests_answered`.
-/
import Simulators.TROPIC01.Resend

namespace Simulators
namespace TROPIC01

open Handler

/-! ### What requests need -/

/-- What every request finds. -/
structure Chip.Ready (c : Chip) (dev : Device) : Prop where
  shaped : dev.Shaped
  config : ∀ cfg, c.activeConfig = some cfg → cfg.length = configRegisters
  pkey : ∀ keys, c.session.keys = some keys → keys.pkeyIndex.toNat ≤ 3

section Ready

variable {K : Crates} {g : OsRng} {c c' : Chip} {dev dev' : Device}

theorem effectiveConfig_length (hd : dev.Shaped) : dev.effectiveConfig.length = configRegisters := by
  rw [Device.effectiveConfig, List.length_zipWith, hd.rConfig, hd.iConfig, Nat.min_self]

theorem configInForce_length (h : c.Ready dev) : (c.configInForce dev).length = configRegisters := by
  unfold Chip.configInForce
  rcases hc : c.activeConfig with _ | cfg
  · exact effectiveConfig_length h.shaped
  · exact h.config cfg hc

theorem ready_of_core (hc : c'.core = c.core) (h : c.Ready dev) : c'.Ready dev where
  shaped := h.shaped
  config cfg hcfg := h.config cfg ((congrArg Chip.activeConfig hc).symm.trans hcfg)
  pkey keys hk := h.pkey keys (by rw [← session_of_core hc]; exact hk)

theorem ready_of_closed (hd : dev.Shaped) (hs : c.session = {}) (hcfg : c.activeConfig = none) : c.Ready dev where
  shaped := hd
  config cfg h := by
    rw [hcfg] at h
    cases h
  pkey keys h := by
    rw [hs] at h
    cases h

theorem Handled.ready {raw : Bytes} {frames : List Bytes} {call : Option L3Call}
    (h : Handled K g c dev raw frames call c' dev') (hc : c.Ready dev) : c'.Ready dev' := by
  have hforce : ∀ cfg, some (c.configInForce dev) = some cfg → cfg.length = configRegisters := by
    rintro _ ⟨⟩
    exact configInForce_length hc
  have hclosed : ∀ keys, (none : Option SessionKeys) = some keys → keys.pkeyIndex.toNat ≤ 3 := fun _ h => by cases h
  cases h with
  | same => exact hc
  | configured => exact ⟨hc.shaped, hforce, hc.pkey⟩
  | closed => exact ⟨hc.shaped, hc.config, hclosed⟩
  | slept => exact ⟨hc.shaped, hforce, hclosed⟩
  | alarmed _ _ => exact ⟨hc.shaped, hc.config, hclosed⟩
  | opened _ hs =>
    refine ⟨hc.shaped, hc.config, fun keys hk => ?_⟩
    obtain ⟨keys', hk', -, -, hmem⟩ := handshake_keys hs
    obtain rfl : keys' = keys := Option.some.inj (hk'.symm.trans hk)
    obtain ⟨slot, hslot⟩ := Option.isSome_iff_exists.mp (Finmap.lookup_isSome.mpr hmem)
    exact hc.shaped.pairingSlots _ _ hslot
  | collected _ _ _ _ => exact ⟨hc.shaped, hc.config, hc.pkey⟩
  | @executed plaintext _ outcome _ l3State h session hs _ =>
    have hpkey := hc.pkey h.keys h.session
    have hanswers : Answers dev plaintext (.ok (outcome, dev', l3State)) := by
      rw [← h.dispatched]
      exact dispatch_answers hc.shaped (Nat.lt_of_le_of_lt hpkey (by decide))
    obtain ⟨o, dev₁, state, heq, hd, -⟩ := hanswers
    cases heq
    refine ⟨hd, hforce, fun keys hk => ?_⟩
    rcases hs with rfl | ⟨nonce, -, rfl⟩
    · cases hk
    · cases hk
      exact hpkey

def Sim.Ready (s : Sim) : Prop := ∀ c dev, s = .ok (c, dev) → c.Ready dev

theorem took_ready {xs : List Execution} {s : Sim} (h : Took K g c dev xs s) (hc : c.Ready dev) : s.Ready := by
  intro c' dev' hs
  cases h with
  | quiet h _ =>
    cases hs
    exact ready_of_core h hc
  | ignored _ _ h _ =>
    cases hs
    exact ready_of_core h hc
  | resent _ _ _ h =>
    cases hs
    exact ready_of_core h hc
  | panicked _ _ _ => cases hs
  | @answered c₀ c₁ _ _ raw call frames _ h₀ hp h _ =>
    cases hs
    refine ready_of_core h ?_
    by_cases hr : Reboots raw frames
    · obtain ⟨-, ⟨mode, -, rfl⟩, rfl⟩ := process_reboots hp hr
      exact ready_of_closed hc.shaped rfl rfl
    · exact (process_handled hp hr).ready (ready_of_core h₀ hc)

theorem step_ready (s : Sim) (i : OsRng × SpiEvent) (h : s.Ready) : (Sim.step K s i).2.Ready := by
  rcases s with p | ⟨c, dev⟩
  · intro c dev hs
    cases hs
  · by_cases hi : i.2 = .powerCycle
    · intro c' dev' hs
      simp only [Sim.step, hi, Except.ok.injEq, Prod.mk.injEq] at hs
      obtain ⟨rfl, rfl⟩ := hs
      exact ready_of_closed (h c dev rfl).shaped rfl rfl
    · exact took_ready (step_took c dev hi) (h c dev rfl)

end Ready

/-! ### Replies -/

/-- The request is answered, with at least one frame. -/
def Replies (r : Reply) : Prop := ∃ frames c dev, r = .ok (frames, c, dev) ∧ frames ≠ []

/-- AES-GCM adds a tag of 16 bytes. -/
def Crates.SealsTag (K : Crates) : Prop := ∀ key iv aad, (K.gcmEncrypt key iv aad []).length = 16

/-- The handshake that raises the alarm: it asks for a pairing key that there is not. -/
def RaisesAlarm (c : Chip) (raw : Bytes) : Prop :=
  c.mode = .application ∧ c.personality.badPairingIndexAlarms = true ∧ ∃ data,
    parseRequest raw = .ok ⟨reqHandshake, data⟩ ∧ data.length = handshakeReqLen ∧ (3 : UInt8) < (data[32]?).getD 0

section Replies

variable {K : Crates} {g : OsRng} {c : Chip} {dev : Device} {raw data : Bytes}

theorem answer_replies {status : UInt8} (h : data.length ≤ maxL2DataSize) : Replies (c.answer dev status data) := by
  unfold Chip.answer buildResponse
  rw [if_pos h]
  exact ⟨_, _, _, rfl, List.cons_ne_nil _ _⟩

theorem answer_nil_replies {status : UInt8} : Replies (c.answer dev status []) := answer_replies (Nat.zero_le _)

theorem answerAfterAck_replies {status : UInt8} : Replies (c.answerAfterAck dev status) :=
  ⟨_, _, _, rfl, List.cons_ne_nil _ _⟩

/-- A wrapped result is never empty, and its chunks fit into frames. -/
theorem answerResult_replies {plaintext result : Bytes} : Replies (c.answerResult K dev plaintext result).2 := by
  unfold Chip.answerResult Session.wrapL3Response
  rcases c.session.keys with _ | keys
  · exact answerAfterAck_replies
  · dsimp only
    rcases stepNonce keys.nonceRes with e | nonce
    · exact answerAfterAck_replies
    · have hne : [loByte (UInt16.ofNat result.length), hiByte (UInt16.ofNat result.length)] ++
          (GcmMessage.mk keys.kRes keys.nonceRes result).encrypt K ≠ [] := by simp
      obtain ⟨init, last, hframes, -⟩ := resultFrames_chunks hne
      dsimp only
      rw [hframes]
      exact ⟨_, _, _, rfl, List.cons_ne_nil _ _⟩

theorem certBlock_length (block : ℕ) : (certBlock dev block).length = certStoreBlockSize := by
  unfold certBlock
  rw [List.length_append, List.length_replicate, List.length_take]
  omega

theorem bankHeader_length {fwType : UInt8} {version : Bytes} {size : ℕ} (hv : version.length = 4) :
    (bankHeader K dev fwType version size).length ≤ 52 := by
  unfold bankHeader
  split
  · simp [hv, (K.sha256 _).size]
  · simp [hv, (K.sha256 _).size]

/-- What a personality answers from fits into frames. -/
theorem personality_lengths (p : Personality) : p.riscvFwVersion.length = 4 ∧ p.spectFwVersion.length = 4 ∧
    p.bootloaderVersion.length = 4 ∧ p.fwBankHeaderLen ≤ 52 ∧ p.fwLog.length ≤ maxL2DataSize := by
  cases p <;> decide +kernel

theorem fwBank_length (block : UInt8) : (fwBank K dev block).length ≤ 52 := by
  obtain ⟨hriscv, hspect, -, hheader, -⟩ := personality_lengths dev.personality
  unfold fwBank
  dsimp only
  split
  · rwa [List.length_replicate]
  · split
    · exact bankHeader_length hriscv
    · split
      · exact bankHeader_length hspect
      · exact Nat.zero_le _

/-- Every answer to GET_INFO fits into a frame. -/
theorem getInfo_replies {maintenance : Bool} {objectId block : UInt8} (hd : dev.Shaped) :
    Replies ((getInfo K dev maintenance objectId block).map fun f => ([f], c, dev)) := by
  have hbuild : ∀ {status : UInt8} {data : Bytes}, data.length ≤ 252 →
      Replies ((buildResponse status data).map fun f => ([f], c, dev)) := answer_replies
  obtain ⟨hriscv, hspect, hboot, -, -⟩ := personality_lengths dev.personality
  have hbootSpect : dev.personality.bootloaderSpectVersion.length = 4 := rfl
  unfold getInfo
  dsimp only
  split
  · split
    · exact hbuild (by rw [certBlock_length]; decide)
    · exact hbuild (Nat.zero_le _)
  split
  · exact hbuild (by rw [hd.chipId]; decide)
  split
  · refine hbuild ?_
    split <;> omega
  split
  · refine hbuild ?_
    split <;> omega
  split
  · exact hbuild (Nat.le_trans (fwBank_length block) (by decide))
  · exact hbuild (Nat.zero_le _)

theorem startup_replies (h : c.Ready dev) : Replies (c.startup dev data) := by
  unfold Chip.startup
  split
  · refine iteInduction (fun _ => answer_nil_replies) fun _ => ?_
    refine iteInduction (fun _ => ?_) fun _ => answer_nil_replies
    have hlen : 0 < (c.configInForce dev).length := by
      rw [configInForce_length h]
      decide
    rw [List.getElem?_eq_getElem hlen]
    exact answer_nil_replies
  · exact answer_nil_replies

theorem sleep_replies (h : c.Ready dev) : Replies (c.sleep dev data) := by
  unfold Chip.sleep
  refine iteInduction (fun _ => answer_nil_replies) fun _ => ?_
  have hlen : 0x018 / 4 < (c.configInForce dev).length := by
    rw [configInForce_length h]
    decide
  dsimp only
  rw [List.getElem?_eq_getElem hlen]
  exact iteInduction (fun _ => answer_nil_replies) fun _ => answer_nil_replies

theorem sessionHandshake_noPanic (hK : K.SealsTag) (hlen : data.length = handshakeReqLen) :
    (Session.handshake K g dev data).NoPanic := by
  simp only [Session.handshake, aesGcmSealTag, noPanic_bind, noPanic_ensure, noPanic_orRefuse, noPanic_array,
    noPanic_index, noPanic_pure, implies_true, and_true, true_and, List.length_take, hlen, hK _ _ _]
  exact fun _ _ => ⟨by decide, fun _ _ => by decide⟩

theorem sessionHandshake_length {body : Bytes} {s : Session} (h : Session.handshake K g dev data = .ok (body, s)) :
    body.length = 48 := by
  simp only [Session.handshake, bind_eq_ok] at h
  obtain ⟨-, -, ehpub, -, pkeyIndex, -, slot, -, -, -, tag, -, h⟩ := h
  simp only [pure_eq_ok, Except.ok.injEq, Prod.mk.injEq] at h
  obtain ⟨rfl, -⟩ := h
  rw [List.length_append, ByteArr.size, ByteArr.size]

theorem handshake_replies (hK : K.SealsTag) (hraw : parseRequest raw = .ok ⟨reqHandshake, data⟩)
    (hm : c.mode = .application) (hal : ¬ RaisesAlarm c raw) : Replies (c.handshake K g dev data) := by
  unfold Chip.handshake
  refine iteInduction (fun _ => answer_nil_replies) fun hlen => ?_
  rw [not_not] at hlen
  refine iteInduction (fun h => absurd ⟨hm, h.2, data, hraw, hlen, h.1⟩ hal) fun _ => ?_
  dsimp only
  rcases hs : Session.handshake K g dev data with (p | e) | ⟨body, session⟩
  · exact absurd hs (sessionHandshake_noPanic hK hlen p)
  · exact answer_nil_replies
  · exact answer_replies (by rw [sessionHandshake_length hs]; decide)

theorem packetCommand_replies {packet : Bytes} (h : c.Ready dev) : Replies (c.packetCommand K g dev packet).2 := by
  unfold Chip.packetCommand
  rcases hu : c.session.unwrapL3Request K packet with e | ⟨plaintext, session⟩
  · exact answerAfterAck_replies
  · obtain ⟨keys, lo, hi, ct, nonce, -, -, hk, -, -, rfl⟩ := unwrapL3Request_eq_ok hu
    have hkey : keys.pkeyIndex.toNat < 32 := Nat.lt_of_le_of_lt (h.pkey keys hk) (by decide)
    have hanswers : Answers dev plaintext (dispatch K g dev (c.configInForce dev) c.personality keys.pkeyIndex
      c.l3State plaintext) := dispatch_answers h.shaped hkey
    obtain ⟨o, dev', state, hd, -⟩ := hanswers
    dsimp only [Option.map, Option.getD]
    rw [hd]
    rcases o with result | _
    · exact answerResult_replies
    · exact answerAfterAck_replies

theorem encryptedCmd_replies (h : c.Ready dev) : Replies (c.encryptedCmd K g dev data).2 := by
  unfold Chip.encryptedCmd
  split
  · exact answer_nil_replies
  · split
    · exact answer_nil_replies
    · dsimp only
      generalize (if c.l3Packet = [] then _ else _) = expected
      split
      · exact answer_nil_replies
      · split
        · exact answerAfterAck_replies
        · exact packetCommand_replies ⟨h.shaped, h.config, h.pkey⟩

/-- Every request is answered, if it does not raise the alarm. -/
theorem process_replies (hK : K.SealsTag) (h : c.Ready dev) (hal : ¬ RaisesAlarm c raw) :
    Replies (c.process K g dev raw).2 := by
  have hite : ∀ {P : Prop} [Decidable P] {a b : Option L3Call × Reply}, (P → Replies a.2) → (¬ P → Replies b.2) →
      Replies (if P then a else b).2 :=
    iteInduction (motive := fun r : Option L3Call × Reply => Replies r.2)
  unfold Chip.process
  split
  · exact answer_nil_replies
  · exact answer_nil_replies
  · rename_i reqId data hp
    refine hite (fun _ => answer_nil_replies) fun _ => ?_
    refine hite (fun _ => ?_) fun _ => ?_
    · dsimp only
      split
      · exact getInfo_replies h.shaped
      · exact answer_nil_replies
    refine hite (fun _ => ?_) fun _ => ?_
    · exact iteInduction (fun _ => answer_replies (personality_lengths _).2.2.2.2) fun _ => answer_nil_replies
    refine hite (fun _ => startup_replies h) fun _ => ?_
    refine hite (fun _ => answer_nil_replies) fun hm => ?_
    rw [not_not] at hm
    refine hite (fun hid => handshake_replies hK (hid ▸ hp) hm hal) fun _ => ?_
    refine hite (fun _ => encryptedCmd_replies h) fun _ => ?_
    refine hite (fun _ => iteInduction (fun _ => answer_nil_replies) fun _ =>
      answer_nil_replies) fun _ => ?_
    exact hite (fun _ => sleep_replies h) fun _ => answer_nil_replies

end Replies

/-! ### Complete requests -/

/-- The transaction executed the frame and queued its reply, in front of the old responses if it was a RESEND that
could be replayed, and else in their place; the reply says what was wrong with the frame, and it is there to be read. -/
structure Answered (K : Crates) (c : Chip) (frame : Bytes) (r : SpiOutput × Sim) (x : Execution) (c' : Chip)
    (dev' : Device) : Prop where
  executed : r.1.executed = [x]
  raw : x.raw = frame
  after : r.2 = .ok (c', dev')
  queue : c'.queue = x.reply ∨ parseRequest frame = .ok ⟨reqResend, []⟩ ∧ c'.queue = x.reply ++ c.queue
  badCrc : parseRequest frame = .error .badCrc → x.reply = [responseFrame statusCrcErr []]
  malformed : ∀ e, parseRequest frame = .error e → e ≠ .badCrc → x.reply = [responseFrame statusGenErr []]
  /-- What is read next is the first frame of the reply. -/
  served : ∃ f, x.reply.head? = some f ∧
    (∀ bytes s', Reads K r.2 bytes s' → Carries bytes f) ∧
    ∀ polls : List Poll, (∀ p ∈ polls, p.rest.length < f.length) → c'.busyLeft ≤ polls.length → ∀ p : Poll,
      f.length ≤ p.rest.length → ∃ c'', r.2.afterPolls K polls = .ok (c'', dev') ∧ p.Completes c''

section Answered

variable {K : Crates} {g : OsRng} {c : Chip} {dev : Device} {reqId reqLen : UInt8} {rest extra : Bytes}
  {t : Transaction}

/-- A frame that does not parse. -/
theorem process_malformed {raw : Bytes} {e : FrameError} (h : parseRequest raw = .error e) : c.process K g dev raw =
    (none, .ok ([responseFrame (if e = .badCrc then statusCrcErr else statusGenErr) []], c, dev)) := by
  unfold Chip.process
  rw [h]
  cases e <;> rfl

/-- Only a request without an answer leads into alarm mode. -/
theorem process_running {raw : Bytes} {call : Option L3Call} {frames : List Bytes} {c' : Chip} {dev' : Device}
    (h : c.process K g dev raw = (call, .ok (frames, c', dev'))) (hm : c.mode ≠ .alarm) (hne : frames ≠ []) :
    c'.mode ≠ .alarm := by
  by_cases hr : Reboots raw frames
  · obtain ⟨-, ⟨mode, hmode, rfl⟩, -⟩ := process_reboots h hr
    exact hmode
  · cases process_handled h hr with
    | alarmed _ hf => exact absurd hf hne
    | _ => exact hm

/-- A request that was executed is answered, and the chip keeps running. -/
theorem execute_answers (hK : K.SealsTag) (h : c.Ready dev) (hm : c.mode ≠ .alarm) {raw : Bytes}
    (hal : ¬ RaisesAlarm c raw) : ∃ x c' dev', c.execute K g dev raw = (x, .ok (c', dev')) ∧ x.raw = raw ∧
      x.reply ≠ [] ∧ c'.mode ≠ .alarm ∧
      (c'.queue = x.reply ∨ parseRequest raw = .ok ⟨reqResend, []⟩ ∧ c'.queue = x.reply ++ c.queue) ∧
      (parseRequest raw = .error .badCrc → x.reply = [responseFrame statusCrcErr []]) ∧
      (∀ e, parseRequest raw = .error e → e ≠ .badCrc → x.reply = [responseFrame statusGenErr []]) := by
  obtain ⟨frames, c₁, dev₁, hreply, hne⟩ := process_replies (g := g) hK h hal
  rcases hp : c.process K g dev raw with ⟨call, reply⟩
  rw [hp] at hreply
  obtain rfl : reply = .ok (frames, c₁, dev₁) := hreply
  have hprocessed : ∀ e, parseRequest raw = .error e →
      frames = [responseFrame (if e = .badCrc then statusCrcErr else statusGenErr) []] := by
    intro e he
    rw [process_malformed he] at hp
    cases hp
    rfl
  have hrunning := process_running hp hm hne
  unfold Chip.execute
  dsimp only
  rw [if_neg hm]
  split
  · rename_i f hresend hlast
    have hraw : parseRequest raw = .ok ⟨reqResend, []⟩ := by
      split at hresend
      · rename_i reqId data hparse
        obtain ⟨rfl, rfl⟩ := of_decide_eq_true hresend
        exact hparse
      · cases hresend
    refine ⟨_, _, _, rfl, rfl, List.cons_ne_nil _ _, hm, .inr ⟨hraw, rfl⟩, ?_, ?_⟩
    · intro he
      rw [hraw] at he
      cases he
    · intro e he
      rw [hraw] at he
      cases he
  · rw [hp]
    refine ⟨_, _, _, rfl, rfl, hne, hrunning, .inl rfl, fun he => ?_, fun e he hcrc => ?_⟩
    · exact hprocessed _ he
    · exact (hprocessed e he).trans (by rw [if_neg hcrc])

theorem answered_of_fits (hK : K.SealsTag) (h : c.Ready dev) (hm : c.mode ≠ .alarm) (haa : reqId ≠ getResponseReqId)
    (hlen : rest.length = reqLen.toNat + 2) (hal : ¬ RaisesAlarm c (reqId :: reqLen :: rest))
    (ht : t.mosi = reqId :: reqLen :: rest ++ extra) (hfits : reqLen.toNat ≤ 252) :
    ∃ x c' dev', Answered K c (reqId :: reqLen :: rest) (Sim.transact K (.ok (c, dev)) t) x c' dev' := by
  obtain ⟨g, hrequest⟩ := transact_request (K := K) dev hm haa hlen hfits ht
  have hready : (c.receiving []).Ready dev := ready_of_core (c := c) rfl h
  obtain ⟨x, c', dev', hx, hraw, hne, hm', hqueue, hcrc, hgen⟩ := execute_answers (g := g) hK hready hm hal
  obtain ⟨miso, hs⟩ := hrequest x c' dev' hx
  obtain ⟨f, fs, hf⟩ := List.exists_cons_of_ne_nil hne
  have hfront : ∃ queue, c'.queue = f :: queue := by
    rcases hqueue with hq | ⟨-, hq⟩
    · exact ⟨fs, hq.trans hf⟩
    · exact ⟨fs ++ c.queue, hq.trans (by rw [hf]; rfl)⟩
  obtain ⟨queue, hq⟩ := hfront
  refine ⟨x, { c' with phase := .idle, cursor := 0 }, dev', ?_⟩
  rw [hs]
  refine ⟨rfl, hraw, rfl, hqueue, hcrc, hgen, f, by rw [hf]; rfl, fun bytes s' hread => ?_,
    fun polls hshort hbusy p hlong => ?_⟩
  · obtain ⟨f', queue', -, hq', hcarries, -⟩ := hread.front dev'
    have hsame : f :: queue = f' :: queue' := hq.symm.trans hq'
    cases hsame
    exact hcarries
  · obtain ⟨c'', hafter, -, hcompletes⟩ := completes_of_polls (K := K) dev'
      (c := { c' with phase := .idle, cursor := 0 }) hlong hm' hq hshort hbusy
    exact ⟨c'', hafter, hcompletes⟩

/-- A request that declares too much is not executed, and the old responses stay. -/
theorem not_answered_of_overlong (hm : c.mode ≠ .alarm) (haa : reqId ≠ getResponseReqId)
    (ht : t.mosi = reqId :: reqLen :: rest ++ extra) (hlong : 252 < reqLen.toNat) :
    ¬ ∃ x c' dev', Answered K c (reqId :: reqLen :: rest) (Sim.transact K (.ok (c, dev)) t) x c' dev' := by
  rintro ⟨x, c', dev', h⟩
  obtain ⟨miso, hs⟩ := transact_overlong (K := K) dev hm haa hlong ht
  have hx := h.executed
  rw [hs] at hx
  cases hx

end Answered

/-- Every complete request to a chip that is not in alarm mode, and that is not the handshake that raises the
alarm, is answered if and only if it declares 252 bytes of data or less. -/
theorem complete_requests_answered (K : Crates) (hK : K.SealsTag) (p : Personality) (dev₀ : Device) (hd : dev₀.Shaped)
    (inputs : List (OsRng × SpiEvent)) {c : Chip} {dev : Device}
    (h : (outputs (Sim.step K) (.ok (Chip.new p, dev₀)) inputs).2 = .ok (c, dev)) (hm : c.mode ≠ .alarm)
    (reqId reqLen : UInt8) (rest extra : Bytes) (hlen : rest.length = reqLen.toNat + 2) (haa : reqId ≠ getResponseReqId)
    (hal : ¬ RaisesAlarm c (reqId :: reqLen :: rest)) (t : Transaction)
    (ht : t.mosi = reqId :: reqLen :: rest ++ extra) :
    (∃ x c' dev', Answered K c (reqId :: reqLen :: rest) (Sim.transact K (.ok (c, dev)) t) x c' dev') ↔
      reqLen.toNat ≤ 252 := by
  have hready : c.Ready dev := by
    have hnew : Sim.Ready (.ok (Chip.new p, dev₀)) := by
      rintro _ _ ⟨⟩
      exact ready_of_closed hd rfl rfl
    exact outputs_invariant (I := Sim.Ready) step_ready inputs _ hnew c dev h
  constructor
  · intro hanswered
    by_contra hlong
    exact not_answered_of_overlong hm haa ht (Nat.lt_of_not_le hlong) hanswered
  · exact answered_of_fits hK hready hm haa hlen hal ht

/-- AES-GCM with tags of zeros. -/
def zeroTagCrates : Crates := { Crates.recorded [] [] [] [] with gcmEncrypt := fun _ _ _ m => m ++ List.replicate 16 0 }

/-- The frame in one piece. -/
def sendFrame (frame : Bytes) : Transaction := ⟨fun _ => 0, [(fun _ => 0, frame)]⟩

theorem sendFrame_mosi (frame : Bytes) : (sendFrame frame).mosi = frame := List.append_nil _

/-- GET_LOG, the first request to a fresh chip. -/
theorem getLog_answered : (∃ x c' dev', Answered zeroTagCrates (Chip.new .fw220) (appendCrc [reqGetLog, 0])
    (Sim.transact zeroTagCrates (.ok (Chip.new .fw220, freshDevice)) (sendFrame (appendCrc [reqGetLog, 0])))
    x c' dev') ↔ UInt8.toNat 0 ≤ 252 := by
  refine complete_requests_answered zeroTagCrates (fun _ _ _ => rfl) .fw220 freshDevice (provision_shaped _ _ _ _) []
    rfl (by decide) reqGetLog 0 [_, _] [] rfl (by decide) ?_ _ ((sendFrame_mosi _).trans (List.append_nil _).symm)
  rintro ⟨-, -, data, hdata, -⟩
  have hparse : parseRequest (appendCrc [reqGetLog, 0]) = .ok ⟨reqGetLog, []⟩ := parseRequest_appendCrc (Nat.zero_le _)
  have hsame := hparse.symm.trans hdata
  rw [Except.ok.injEq, Request.mk.injEq] at hsame
  exact absurd hsame.1 (by decide)

/-- A complete GET_INFO frame that declares 253 bytes of data. -/
def longGetInfo : Bytes := reqGetInfo :: 253 :: List.replicate 255 0

/-- It is not executed, and nothing is there to be read. -/
theorem longGetInfo_unanswered : (253 : UInt8).toNat + 2 = (List.replicate 255 (0 : UInt8)).length ∧
    ¬ RaisesAlarm (Chip.new .fw220) longGetInfo ∧
    (∃ c miso, Sim.transact zeroTagCrates (.ok (Chip.new .fw220, freshDevice)) (sendFrame longGetInfo) =
      (⟨miso, []⟩, .ok (c, freshDevice)) ∧ ∀ bytes s', ¬ Reads zeroTagCrates (.ok (c, freshDevice)) bytes s') ∧
    ¬ ∃ x c' dev', Answered zeroTagCrates (Chip.new .fw220) longGetInfo
      (Sim.transact zeroTagCrates (.ok (Chip.new .fw220, freshDevice)) (sendFrame longGetInfo)) x c' dev' := by
  have hmosi : (sendFrame longGetInfo).mosi = reqGetInfo :: 253 :: List.replicate 255 0 ++ [] :=
    (sendFrame_mosi _).trans (List.append_nil _).symm
  refine ⟨by rw [List.length_replicate]; rfl, ?_, ?_, ?_⟩
  · rintro ⟨-, -, data, hdata, -⟩
    have hoverflow : parseRequest longGetInfo = .error .overflow := by decide +kernel
    rw [hoverflow] at hdata
    cases hdata
  · obtain ⟨miso, h⟩ := transact_overlong (K := zeroTagCrates) freshDevice (c := Chip.new .fw220) (by decide)
      (by decide) (by decide) hmosi
    refine ⟨_, miso, h, fun bytes s' hread => ?_⟩
    obtain ⟨f, queue, _, hq, -⟩ := hread.front freshDevice
    cases hq
  · exact not_answered_of_overlong (by decide) (by decide) hmosi (by decide)

end TROPIC01
end Simulators
