/-
# TROPIC01: L3 packets in pieces

A packet reaches the chip in Encrypted_Cmd requests of at most 252 bytes. `Fed`
is a run of SPI events that delivers pieces, with GET_INFO, GET_LOG and RESEND
in between. Every piece but the last one is answered REQUEST_CONT, and the last
one has the effect of the packet delivered whole (`Transparent`).

A packet is complete with its last byte. A piece without data that follows is
the start of another packet, which is refused (`trailing_piece_not_transparent`).

Key theorems: `fed_state`, `transport_transparent`.
-/
import Simulators.TROPIC01.Invariant
import Simulators.TROPIC01.Tunnel

namespace Simulators
namespace TROPIC01

/-! ### Packets and pieces -/

/-- `[size][ciphertext][tag]`. -/
def Legal (packet : Bytes) : Prop :=
  ∃ lo hi ct, packet = lo :: hi :: ct ∧ ct.length = (u16Le lo hi).toNat + l3TagLen

/-- The data of a request. -/
def Execution.data (x : Execution) : Bytes :=
  match parseRequest x.raw with
  | .ok r => r.data
  | .error _ => []

def Execution.IsPiece (x : Execution) : Prop := parseRequest x.raw = .ok ⟨reqEncryptedCmd, x.data⟩

/-- The requests that may come between pieces. -/
def Execution.Interleaves (x : Execution) : Prop :=
  ∃ reqId ∈ [reqGetInfo, reqGetLog, reqResend], parseRequest x.raw = .ok ⟨reqId, x.data⟩

/-- Events that deliver pieces, the executions listed, with other requests in between. -/
inductive Fed (K : Crates) (s : Sim) : List Execution → Sim → Prop
  | start : Fed K s [] s
  | other {xs : List Execution} {s' : Sim} (h : Fed K s xs s') {i : OsRng × SpiEvent} (hi : i.2 ≠ .powerCycle)
      (hx : ∀ x ∈ (Sim.step K s' i).1.executed, x.Interleaves) : Fed K s xs (Sim.step K s' i).2
  | piece {xs : List Execution} {s' : Sim} (h : Fed K s xs s') {i : OsRng × SpiEvent} {x : Execution}
      (hx : (Sim.step K s' i).1.executed = [x]) (hp : x.IsPiece) : Fed K s (xs ++ [x]) (Sim.step K s' i).2

/-- The bytes that were delivered. -/
def delivered (xs : List Execution) : Bytes := xs.flatMap (·.data)

/-- The pieces `xs` and the last piece `x`, which took the system to `after`,
do what `packet` does when `chip` takes it as one piece. -/
structure Transparent (K : Crates) (g : OsRng) (c : Chip) (dev : Device) (packet : Bytes) (xs : List Execution)
    (x : Execution) (after : Sim) : Prop where
  cont : ∀ y ∈ xs, y.reply = [responseFrame statusRequestCont []]
  call : x.call = (c.encryptedCmd K g dev packet).1
  whole : match (c.encryptedCmd K g dev packet).2 with
    | .error p => after = .error p
    | .ok (frames, c₁, dev₁) => x.reply = frames ∧ ∃ c', after = .ok (c', dev₁) ∧ c'.queue = frames ∧
        c'.session = c₁.session ∧ c'.l3State = c₁.l3State
  /-- The frames of an encrypted result. -/
  result : ∀ plaintext m c' dev', x.call = some ⟨plaintext, some m⟩ → after = .ok (c', dev') →
    c'.session.isOpen = true → ∃ init last, x.reply = responseFrame statusRequestOk [] ::
        (init.map (responseFrame statusResultCont) ++ [responseFrame statusResultOk last]) ∧
      (init ++ [last]).flatten = [loByte (UInt16.ofNat m.plaintext.length), hiByte (UInt16.ofNat m.plaintext.length)] ++
        m.encrypt K ∧
      ∀ chunk ∈ init ++ [last], chunk.length ≤ maxL2DataSize

section Pieces

variable {K : Crates} {g : OsRng} {c : Chip} {dev : Device} {packet chunk raw : Bytes}

theorem process_encryptedCmd (hm : c.mode = .application) (hraw : parseRequest raw = .ok ⟨reqEncryptedCmd, chunk⟩) :
    c.process K g dev raw = c.encryptedCmd K g dev chunk := by
  unfold Chip.process
  simp only [hraw]
  rw [if_neg (by decide), if_neg (by decide), if_neg (by decide), if_neg (by decide), if_neg (by rw [hm]; decide),
    if_neg (by decide), if_pos trivial]

/-- GET_INFO, GET_LOG and RESEND leave the chip alone. -/
theorem process_interleaves {reqId : UInt8} {data : Bytes} {call : Option L3Call} {frames : List Bytes} {c' : Chip}
    {dev' : Device} (hid : reqId ∈ [reqGetInfo, reqGetLog, reqResend]) (hraw : parseRequest raw = .ok ⟨reqId, data⟩)
    (h : c.process K g dev raw = (call, .ok (frames, c', dev'))) : c' = c ∧ dev' = dev := by
  have hframe : ∀ {r : Except Panic Bytes}, (none, r.map fun f => ([f], c, dev)) = (call, .ok (frames, c', dev')) →
      c' = c ∧ dev' = dev := by
    intro r ha
    rw [Prod.mk.injEq] at ha
    rcases r with p | f
    · cases ha.2
    · cases ha.2
      exact ⟨rfl, rfl⟩
  unfold Chip.process at h
  rw [hraw] at h
  simp only [List.mem_cons, List.not_mem_nil, or_false] at hid
  rcases hid with rfl | rfl | rfl
  · rcases data with _ | ⟨objectId, _ | ⟨block, _ | ⟨b, data⟩⟩⟩
    · exact hframe h
    · exact hframe h
    · exact hframe h
    · exact hframe h
  · rcases data with _ | ⟨b, data⟩
    · exact hframe h
    · exact hframe (r := buildResponse statusGenErr []) h
  · exact hframe h

/-- The size that the first piece of a packet announces. -/
theorem expected_of_first {rest : Bytes} (hlegal : Legal packet) (h2 : 2 ≤ chunk.length) (h : chunk ++ rest = packet) :
    l3SizeLen + (u16Le (chunk.headD 0) ((chunk[1]?).getD 0)).toNat + l3TagLen = packet.length := by
  obtain ⟨lo, hi, ct, rfl, hlen⟩ := hlegal
  match chunk, h2, h with
  | a :: b :: cs, _, h =>
    simp only [List.cons_append, List.cons.injEq] at h
    obtain ⟨rfl, rfl, rfl⟩ := h
    simp only [List.headD_cons, List.getElem?_cons_succ, List.getElem?_cons_zero, Option.getD_some, l3SizeLen,
      List.length_cons, hlen]
    omega

/-- No packet is being put together. -/
def Chip.cleared (c : Chip) : Chip := { c with l3Packet := [], l3Expected := 0 }

/-- A piece of the packet: its size is known from the first piece on. -/
structure Continues (c : Chip) (packet chunk rest : Bytes) : Prop where
  isOpen : c.session.isOpen = true
  first : c.l3Packet = [] → 2 ≤ chunk.length
  expected : c.l3Packet ≠ [] → c.l3Expected = packet.length
  bytes : c.l3Packet ++ chunk ++ rest = packet

theorem encryptedCmd_eq {rest : Bytes} (hlegal : Legal packet) (h : Continues c packet chunk rest) :
    c.encryptedCmd K g dev chunk =
      if (c.l3Packet ++ chunk).length < packet.length then
        (none, .ok ([responseFrame statusRequestCont []],
          { c with l3Packet := c.l3Packet ++ chunk, l3Expected := packet.length }, dev))
      else c.cleared.packetCommand K g dev (c.l3Packet ++ chunk) := by
  have hexpected : (if c.l3Packet = [] then
      l3SizeLen + (u16Le (chunk.headD 0) ((chunk[1]?).getD 0)).toNat + l3TagLen else c.l3Expected) = packet.length := by
    split
    · rename_i hnil
      have hbytes := h.bytes
      rw [hnil, List.nil_append] at hbytes
      exact expected_of_first hlegal (h.first hnil) hbytes
    · exact h.expected ‹_›
  have hsize : ¬ (c.l3Packet = [] ∧ chunk.length < l3SizeLen) := by
    rintro ⟨hnil, hlt⟩
    have := h.first hnil
    simp only [l3SizeLen] at hlt
    omega
  unfold Chip.encryptedCmd
  rw [if_neg (by rw [h.isOpen]; decide), if_neg hsize]
  dsimp only
  rw [hexpected]
  by_cases hlt : (c.l3Packet ++ chunk).length < packet.length
  · rw [if_pos hlt, if_pos hlt]
    rfl
  · have hle : (c.l3Packet ++ chunk).length ≤ packet.length := by
      rw [← h.bytes]
      exact (List.prefix_append _ rest).length_le
    rw [if_neg hlt, if_neg hlt, if_neg (by omega)]
    rfl

/-- Executing a packet does not depend on the front end. -/
theorem packetCommand_core (c : Chip) (dev : Device) (packet : Bytes) :
    c.core.packetCommand K g dev packet = ((c.packetCommand K g dev packet).1,
      (c.packetCommand K g dev packet).2.map fun (frames, c', dev') => (frames, c'.core, dev')) := by
  unfold Chip.packetCommand
  have hsession : c.core.session = c.session := rfl
  rw [hsession]
  rcases c.session.unwrapL3Request K packet with e | ⟨plaintext, session⟩
  · rfl
  · have hconfig : c.core.configInForce dev = c.configInForce dev := rfl
    have hp : c.core.personality = c.personality := rfl
    have hl : c.core.l3State = c.l3State := rfl
    dsimp only
    rw [hconfig, hp, hl]
    rcases dispatch K g dev (c.configInForce dev) c.personality _ c.l3State plaintext with
      p | ⟨result | _, dev', l3State⟩
    · rfl
    · dsimp only [Chip.answerResult]
      generalize session.wrapL3Response K result = w
      obtain ⟨encryption, e | ⟨wire, session'⟩⟩ := w
      · rfl
      · dsimp only
        rcases buildResponse statusRequestOk [] with p | ack
        · rfl
        · rcases Chip.resultFrames (chunks maxL2DataSize wire) with p | frames
          · rfl
          · rfl
    · rfl

/-- The frames of a result that was encrypted. -/
theorem packetCommand_result {plaintext : Bytes} {m : GcmMessage} {frames : List Bytes} {c' : Chip} {dev' : Device}
    (h : c.packetCommand K g dev packet = (some ⟨plaintext, some m⟩, .ok (frames, c', dev')))
    (hopen : c'.session.isOpen = true) :
    ∃ init last, frames = responseFrame statusRequestOk [] ::
        (init.map (responseFrame statusResultCont) ++ [responseFrame statusResultOk last]) ∧
      (init ++ [last]).flatten = [loByte (UInt16.ofNat m.plaintext.length), hiByte (UInt16.ofNat m.plaintext.length)] ++
        m.encrypt K ∧
      ∀ chunk ∈ init ++ [last], chunk.length ≤ maxL2DataSize := by
  unfold Chip.packetCommand at h
  rcases hu : c.session.unwrapL3Request K packet with e | ⟨plaintext', session⟩
  · rw [hu] at h
    cases h
  · obtain ⟨keys, -, -, -, nonce, -, -, -, -, -, rfl⟩ := unwrapL3Request_eq_ok hu
    rw [hu] at h
    dsimp only [Option.map, Option.getD] at h
    generalize dispatch K g dev (c.configInForce dev) c.personality keys.pkeyIndex c.l3State plaintext' = r at h
    rcases r with p | ⟨result | _, dev'', l3State⟩
    · cases h
    · dsimp only [Chip.answerResult, Session.wrapL3Response] at h
      rcases hn : stepNonce keys.nonceRes with e | nonce'
      · rw [hn] at h
        rw [Prod.mk.injEq] at h
        cases h.2
        cases hopen
      · rw [hn] at h
        dsimp only at h
        have hne : [loByte (UInt16.ofNat result.length), hiByte (UInt16.ofNat result.length)] ++
            (GcmMessage.mk keys.kRes keys.nonceRes result).encrypt K ≠ [] := by simp
        obtain ⟨init, last, hf, hflat, hle⟩ := resultFrames_chunks hne
        rw [hf, Prod.mk.injEq] at h
        obtain ⟨hcall, hreply⟩ := h
        cases hcall
        cases hreply
        exact ⟨init, last, rfl, hflat, hle⟩
    · cases h

end Pieces

/-! ### A run of pieces -/

section Fed

variable {K : Crates} {c c' : Chip} {dev : Device} {packet : Bytes}

/-- The chip after some pieces of the packet. -/
structure Collecting (c : Chip) (packet bytes : Bytes) (c' : Chip) : Prop where
  core : c'.core = { c with l3Packet := bytes, l3Expected := c'.l3Expected }.core
  expected : bytes ≠ [] → c'.l3Expected = packet.length

theorem Collecting.continues {bytes chunk rest : Bytes} (h : Collecting c packet bytes c')
    (hopen : c.session.isOpen = true) (hfirst : bytes = [] → 2 ≤ chunk.length) (hbytes : bytes ++ chunk ++ rest = packet) :
    Continues c' packet chunk rest := by
  have hpacket : c'.l3Packet = bytes := l3Packet_of_core h.core
  refine ⟨?_, ?_, ?_, ?_⟩
  · rw [session_of_core h.core]
    exact hopen
  · rw [hpacket]
    exact hfirst
  · rw [hpacket]
    exact h.expected
  · rw [hpacket]
    exact hbytes

theorem Collecting.of_core {bytes : Bytes} {c'' : Chip} (h : Collecting c packet bytes c') (hc : c''.core = c'.core) :
    Collecting c packet bytes c'' := by
  have he := l3Expected_of_core hc
  refine ⟨?_, ?_⟩
  · rw [he]
    exact hc.trans h.core
  · rw [he]
    exact h.expected

/-- A request between two pieces. -/
theorem took_interleaves {g : OsRng} {xs : List Execution} {s : Sim} (h : Took K g c dev xs s)
    (hx : ∀ x ∈ xs, x.Interleaves) : (∃ p, s = .error p) ∨ ∃ c', s = .ok (c', dev) ∧ c'.core = c.core := by
  cases h with
  | quiet h _ => exact .inr ⟨_, rfl, h⟩
  | ignored _ _ h _ => exact .inr ⟨_, rfl, h⟩
  | resent _ _ _ h => exact .inr ⟨_, rfl, h⟩
  | panicked _ _ _ => exact .inl ⟨_, rfl⟩
  | answered _ h₀ hp h _ =>
    obtain ⟨reqId, hid, hraw⟩ := hx _ List.mem_cons_self
    obtain ⟨rfl, rfl⟩ := process_interleaves hid hraw hp
    exact .inr ⟨_, rfl, h.trans h₀⟩

/-- A piece is taken as `encryptedCmd` takes its data. -/
theorem took_piece {g : OsRng} {x : Execution} {s : Sim} (h : Took K g c dev [x] s) (hm : c.mode = .application)
    (hx : x.IsPiece) : ∃ c₀ : Chip, c₀.core = c.core ∧ x.call = (c₀.encryptedCmd K g dev x.data).1 ∧
      match (c₀.encryptedCmd K g dev x.data).2 with
      | .error p => s = .error p
      | .ok (frames, c₁, dev₁) => x.reply = frames ∧ ∃ c', s = .ok (c', dev₁) ∧ c'.core = c₁.core ∧ c'.queue = frames := by
  cases h with
  | ignored _ halarm _ _ =>
    rw [hm] at halarm
    cases halarm
  | resent _ _ hraw _ =>
    rw [Execution.IsPiece, hraw] at hx
    cases hx
  | panicked _ h₀ hp =>
    rw [process_encryptedCmd ((mode_of_core h₀).trans hm) hx] at hp
    exact ⟨_, h₀, by rw [hp], by rw [hp]⟩
  | @answered c₀ c₁ c' dev' raw call frames _ h₀ hp h hq =>
    rw [process_encryptedCmd ((mode_of_core h₀).trans hm) hx] at hp
    exact ⟨c₀, h₀, by rw [hp], by rw [hp]; exact ⟨rfl, c', rfl, h, hq⟩⟩

theorem step_piece {s s' : Sim} {i : OsRng × SpiEvent} {x : Execution} (hx : (Sim.step K s i).1.executed = [x])
    (hs : s = .ok (c, dev)) (hs' : s' = (Sim.step K s i).2) : Took K i.1 c dev [x] s' := by
  subst hs hs'
  have hmem : x ∈ (Sim.step K (.ok (c, dev)) i).1.executed := by
    rw [hx]
    exact List.mem_cons_self
  obtain ⟨mosi, hi⟩ := transfer_of_executed hmem
  rw [← hx]
  exact step_took c dev (by rw [hi]; simp)

theorem delivered_concat (xs : List Execution) (x : Execution) : delivered (xs ++ [x]) = delivered xs ++ x.data := by
  simp [delivered]

/-- The piece that has the size is the first of all. -/
theorem first_piece {xs : List Execution} {x : Execution} (h : ∀ y ∈ (xs ++ [x]).head?, 2 ≤ y.data.length) :
    (∀ y ∈ xs.head?, 2 ≤ y.data.length) ∧ (delivered xs = [] → 2 ≤ x.data.length) := by
  rcases xs with _ | ⟨y, ys⟩
  · exact ⟨(fun _ hy => by cases hy), fun _ => h x rfl⟩
  · have hy := h y rfl
    refine ⟨fun z hz => h z hz, fun hd => ?_⟩
    rw [delivered, List.flatMap_cons, List.append_eq_nil_iff] at hd
    rw [hd.1] at hy
    simp at hy

/-- After some pieces of the packet, each was answered REQUEST_CONT and the chip has collected them. -/
theorem fed_state (hopen : c.session.isOpen = true) (hm : c.mode = .application) (hempty : c.l3Packet = [])
    (hlegal : Legal packet) {xs : List Execution} {s : Sim} (h : Fed K (.ok (c, dev)) xs s) :
    ∀ rest, rest ≠ [] → delivered xs ++ rest = packet → (∀ x ∈ xs.head?, 2 ≤ x.data.length) →
      (∀ y ∈ xs, y.reply = [responseFrame statusRequestCont []]) ∧
      ((∃ p, s = .error p) ∨ ∃ c', s = .ok (c', dev) ∧ Collecting c packet (delivered xs) c') := by
  induction h with
  | start =>
    intro rest _ _ _
    refine ⟨(fun _ hy => by cases hy), .inr ⟨c, rfl, ⟨?_, fun hne => absurd rfl hne⟩⟩⟩
    show c.core = { c with l3Packet := [], l3Expected := c.l3Expected }.core
    rw [← hempty]
  | @other xs s' h i hi hx ih =>
    intro rest hrest hbytes hfirst
    obtain ⟨hcont, ⟨p, rfl⟩ | ⟨c', rfl, hc'⟩⟩ := ih rest hrest hbytes hfirst
    · exact ⟨hcont, .inl ⟨p, rfl⟩⟩
    · refine ⟨hcont, ?_⟩
      rcases took_interleaves (step_took c' dev hi) hx with ⟨p, hp⟩ | ⟨c'', hs, hcore⟩
      · exact .inl ⟨p, hp⟩
      · exact .inr ⟨c'', hs, hc'.of_core hcore⟩
  | @piece xs s' h i x hx hp ih =>
    intro rest hrest hbytes hfirst
    rw [delivered_concat] at hbytes ⊢
    obtain ⟨hfirst', hnil⟩ := first_piece hfirst
    obtain ⟨hcont, ⟨p, rfl⟩ | ⟨c', rfl, hc'⟩⟩ := ih (x.data ++ rest) (by simp [hrest]) (by rw [← hbytes]; simp) hfirst'
    · cases hx
    · have hmode : c'.mode = .application := (mode_of_core hc'.core).trans hm
      obtain ⟨c₀, h₀, -, hwhole⟩ := took_piece (step_piece hx rfl rfl) hmode hp
      have hc₀ := hc'.of_core h₀
      have hcontinues : Continues c₀ packet x.data rest := hc₀.continues hopen hnil hbytes
      have hlt : (c₀.l3Packet ++ x.data).length < packet.length := by
        have hpos := List.length_pos_iff.mpr hrest
        have hlen := congrArg List.length hcontinues.bytes
        rw [List.length_append] at hlen
        omega
      rw [encryptedCmd_eq hlegal hcontinues, if_pos hlt] at hwhole
      obtain ⟨hreply, c'', hs, hcore, -⟩ := hwhole
      refine ⟨?_, .inr ⟨c'', hs, ?_, fun _ => l3Expected_of_core hcore⟩⟩
      · intro y hy
        rcases List.mem_append.mp hy with hy | hy
        · exact hcont y hy
        · rw [List.mem_singleton.mp hy, hreply]
      · calc c''.core
            = { c₀.core with l3Packet := c₀.l3Packet ++ x.data, l3Expected := packet.length } := hcore
          _ = { c.core with l3Packet := c₀.l3Packet ++ x.data, l3Expected := packet.length } := by rw [hc₀.core]; rfl
          _ = { c.core with l3Packet := delivered xs ++ x.data, l3Expected := c''.l3Expected } := by
            rw [l3Packet_of_core hc₀.core, l3Expected_of_core hcore]

/-- The same command, the same panic, or the same frames and device and the same core. -/
theorem packetCommand_agree {g : OsRng} (dev : Device) (packet : Bytes) (hc : c'.core = c.core) :
    (c'.packetCommand K g dev packet).1 = (c.packetCommand K g dev packet).1 ∧
      match (c.packetCommand K g dev packet).2 with
      | .error p => (c'.packetCommand K g dev packet).2 = .error p
      | .ok (frames, c₁, dev₁) => ∃ c₂, (c'.packetCommand K g dev packet).2 = .ok (frames, c₂, dev₁) ∧ c₂.core = c₁.core := by
  have h' := packetCommand_core (K := K) (g := g) c' dev packet
  rw [hc, packetCommand_core, Prod.mk.injEq] at h'
  obtain ⟨hcall, hreply⟩ := h'
  refine ⟨hcall.symm, ?_⟩
  rcases hr : (c.packetCommand K g dev packet).2 with p | ⟨frames, c₁, dev₁⟩
  · rcases hr' : (c'.packetCommand K g dev packet).2 with p' | r
    · rw [hr, hr'] at hreply
      cases hreply
      rfl
    · rw [hr, hr'] at hreply
      cases hreply
  · rcases hr' : (c'.packetCommand K g dev packet).2 with p' | ⟨frames', c₂, dev₂⟩
    · rw [hr, hr'] at hreply
      cases hreply
    · rw [hr, hr'] at hreply
      simp only [Except.map, Except.ok.injEq, Prod.mk.injEq] at hreply
      obtain ⟨rfl, hcore, rfl⟩ := hreply
      exact ⟨c₂, rfl, hcore.symm⟩

/-- The last piece does what the whole packet does. -/
theorem last_piece {g : OsRng} {x : Execution} {xs : List Execution} {s : Sim} (hopen : c.session.isOpen = true)
    (hm : c.mode = .application) (hempty : c.l3Packet = []) (hlegal : Legal packet)
    (hc' : Collecting c packet (delivered xs) c') (ht : Took K g c' dev [x] s) (hx : x.IsPiece)
    (hbytes : delivered xs ++ x.data = packet) (hnil : delivered xs = [] → 2 ≤ x.data.length)
    (hcont : ∀ y ∈ xs, y.reply = [responseFrame statusRequestCont []]) : Transparent K g c dev packet xs x s := by
  have hlen : 2 ≤ packet.length := by
    obtain ⟨lo, hi, ct, rfl, -⟩ := hlegal
    simp
  have hwhole : c.encryptedCmd K g dev packet = c.cleared.packetCommand K g dev packet := by
    have hcontinues : Continues c packet packet [] :=
      ⟨hopen, fun _ => hlen, fun hne => absurd hempty hne, by rw [hempty]; simp⟩
    rw [encryptedCmd_eq hlegal hcontinues, hempty, List.nil_append, if_neg (lt_irrefl _)]
  obtain ⟨c₀, h₀, hcall, hreply⟩ := took_piece ht ((mode_of_core hc'.core).trans hm) hx
  have hc₀ := hc'.of_core h₀
  have hcontinues : Continues c₀ packet x.data [] := hc₀.continues hopen hnil (by rw [List.append_nil]; exact hbytes)
  have hfull : c₀.l3Packet ++ x.data = packet := by
    have := hcontinues.bytes
    rwa [List.append_nil] at this
  have hcore : c₀.cleared.core = c.cleared.core := by
    show { c₀.core with l3Packet := [], l3Expected := 0 } = c.cleared.core
    rw [hc₀.core]
    rfl
  rw [encryptedCmd_eq hlegal hcontinues, hfull, if_neg (lt_irrefl _)] at hcall hreply
  obtain ⟨hcall', hagree⟩ := packetCommand_agree (K := K) (g := g) dev packet hcore
  rw [hcall', ← hwhole] at hcall
  rw [← hwhole] at hagree
  rcases hr : c.encryptedCmd K g dev packet with ⟨call, p | ⟨frames, c₁, dev₁⟩⟩
  · rw [hr] at hagree
    rw [hagree] at hreply
    obtain rfl : s = .error p := hreply
    exact ⟨hcont, hcall, by rw [hr], fun _ _ _ _ _ hs => by cases hs⟩
  · rw [hr] at hagree
    obtain ⟨c₂, hc₂, hcore₂⟩ := hagree
    rw [hc₂] at hreply
    obtain ⟨hframes, c₃, rfl, hcore₃, hqueue⟩ := hreply
    have hcore₁ := hcore₃.trans hcore₂
    have hsession := session_of_core hcore₁
    refine ⟨hcont, hcall, ?_, ?_⟩
    · rw [hr]
      exact ⟨hframes, c₃, rfl, hqueue, hsession, l3State_of_core hcore₁⟩
    · intro plaintext m c₄ dev₄ hm hs hstill
      cases hs
      rw [hr] at hcall
      obtain rfl : call = some ⟨plaintext, some m⟩ := hcall.symm.trans hm
      rw [hwhole] at hr
      rw [hframes]
      exact packetCommand_result hr (hsession ▸ hstill)

end Fed

/-- In every reachable state with an open session and no packet begun: a legal
packet delivered in pieces, the first of at least two bytes and the last one not
empty, with GET_INFO, GET_LOG and RESEND in between, has every piece but the
last answered REQUEST_CONT, and the last one does what the packet does whole. -/
theorem transport_transparent (K : Crates) (p : Personality) (dev₀ : Device) (inputs : List (OsRng × SpiEvent))
    {c : Chip} {dev : Device} (h : (outputs (Sim.step K) (.ok (Chip.new p, dev₀)) inputs).2 = .ok (c, dev))
    (hopen : c.session.isOpen = true) (hempty : c.l3Packet = []) {packet : Bytes} (hlegal : Legal packet)
    {xs : List Execution} {s : Sim} (hfed : Fed K (.ok (c, dev)) xs s) {i : OsRng × SpiEvent} {x : Execution}
    (hx : (Sim.step K s i).1.executed = [x]) (hpiece : x.IsPiece) (hbytes : delivered (xs ++ [x]) = packet)
    (hfirst : ∀ y ∈ (xs ++ [x]).head?, 2 ≤ y.data.length) (hlast : x.data ≠ []) :
    Transparent K i.1 c dev packet xs x (Sim.step K s i).2 := by
  have hsound : c.Sound := outputs_invariant step_sound inputs _ (new_sound p dev₀) c dev h
  have hm : c.mode = .application := hsound.session hopen
  rw [delivered_concat] at hbytes
  obtain ⟨hfirst', hnil⟩ := first_piece hfirst
  obtain ⟨hcont, ⟨q, rfl⟩ | ⟨c', rfl, hc'⟩⟩ := fed_state hopen hm hempty hlegal hfed x.data hlast hbytes hfirst'
  · cases hx
  · exact last_piece hopen hm hempty hlegal hc' (step_piece hx rfl rfl) hpiece hbytes hnil hcont

/-! The Ping of `Tunnel`, in two pieces, and as one piece followed by an empty one. -/

def pingPacket : Bytes := [0x01, 0x00] ++ pingCiphertext

def firstPieceFrame : Bytes := [0x04, 0x05] ++ pingPacket.take 5 ++ [0x40, 0x43]
def lastPieceFrame : Bytes := [0x04, 0x0e] ++ pingPacket.drop 5 ++ [0x36, 0xa9]
def emptyPieceFrame : Bytes := [0x04, 0x00, 0x03, 0x98]

/-- The session is open, and so is a transaction. -/
def readySim : Sim := .ok (openChip.csnHigh.csnLow, pairedDevice)

theorem openingEvents_ready :
    (outputs (Sim.step pingCrates) (.ok (Chip.new .fw220, pairedDevice)) openingEvents).2 = readySim := by
  decide +kernel

/-- A frame, and the transaction for the next one. -/
def afterFrame (frame : Bytes) : Sim :=
  (outputs (Sim.step pingCrates) readySim
    ([.transfer frame, .csnHigh, .csnLow].map fun e => (countingRng, e))).2

theorem fed_afterFrame {frame : Bytes} {x : Execution}
    (hx : (Sim.step pingCrates readySim (countingRng, .transfer frame)).1.executed = [x]) (hp : x.IsPiece) :
    Fed pingCrates readySim [x] (afterFrame frame) := by
  have hquiet : ∀ (s : Sim) (e : SpiEvent), e = .csnHigh ∨ e = .csnLow →
      ∀ y ∈ (Sim.step pingCrates s (countingRng, e)).1.executed, y.Interleaves := by
    rintro (q | ⟨c, dev⟩) e (rfl | rfl) y hy <;> cases hy
  have hpiece := Fed.piece Fed.start hx hp
  have hhigh := hpiece.other (i := (countingRng, .csnHigh)) (by simp) (hquiet _ _ (.inl rfl))
  exact hhigh.other (i := (countingRng, .csnLow)) (by simp) (hquiet _ _ (.inr rfl))

def firstPiece : Execution := ⟨firstPieceFrame, [[0x03, 0x00, 0x00, 0x0a]], none⟩

def lastPiece : Execution :=
  ⟨lastPieceFrame, [[0x01, 0x00, 0x03, 0x86], [0x02, 0x13, 0x01, 0x00] ++ pongCiphertext ++ [0x98, 0x75]],
    some ⟨[0x01], some ⟨pingKeys.kRes, nonceAt 0, [0xc3]⟩⟩⟩

theorem legal_pingPacket : Legal pingPacket := ⟨0x01, 0x00, pingCiphertext, rfl, by decide +kernel⟩

theorem firstPiece_executed :
    (Sim.step pingCrates readySim (countingRng, .transfer firstPieceFrame)).1.executed = [firstPiece] := by
  decide +kernel

theorem lastPiece_executed :
    (Sim.step pingCrates (afterFrame firstPieceFrame) (countingRng, .transfer lastPieceFrame)).1.executed =
      [lastPiece] := by
  decide +kernel

theorem ping_in_pieces : ∃ xs s x, Fed pingCrates readySim xs s ∧ delivered (xs ++ [x]) = pingPacket ∧
    Transparent pingCrates countingRng openChip.csnHigh.csnLow pairedDevice pingPacket xs x
      (Sim.step pingCrates s (countingRng, .transfer lastPieceFrame)).2 := by
  have hfed := fed_afterFrame firstPiece_executed (by unfold Execution.IsPiece; decide +kernel)
  have hbytes : delivered ([firstPiece] ++ [lastPiece]) = pingPacket := by decide +kernel
  refine ⟨[firstPiece], _, lastPiece, hfed, hbytes, ?_⟩
  refine transport_transparent pingCrates .fw220 pairedDevice openingEvents openingEvents_ready rfl rfl legal_pingPacket
    hfed lastPiece_executed (by unfold Execution.IsPiece; decide +kernel) hbytes ?_ (by decide +kernel)
  intro y hy
  cases hy
  decide +kernel

def wholePiece : Execution := ⟨pingFrame, lastPiece.reply, lastPiece.call⟩
def emptyPiece : Execution := ⟨emptyPieceFrame, [[0x7f, 0x00, 0x06, 0x02]], none⟩

theorem wholePiece_executed :
    (Sim.step pingCrates readySim (countingRng, .transfer pingFrame)).1.executed = [wholePiece] := by
  decide +kernel

/-- A last piece without data comes after the packet: the piece before it was not answered REQUEST_CONT. -/
theorem trailing_piece_not_transparent : ∃ xs s i x,
    (outputs (Sim.step pingCrates) (.ok (Chip.new .fw220, pairedDevice)) openingEvents).2 = readySim ∧
    Fed pingCrates readySim xs s ∧
    (Sim.step pingCrates s i).1.executed = [x] ∧ x.IsPiece ∧ Legal pingPacket ∧ delivered (xs ++ [x]) = pingPacket ∧
    (∀ y ∈ (xs ++ [x]).head?, 2 ≤ y.data.length) ∧ x.data = [] ∧
    ¬ Transparent pingCrates countingRng openChip.csnHigh.csnLow pairedDevice pingPacket xs x
      (Sim.step pingCrates s i).2 := by
  refine ⟨[wholePiece], afterFrame pingFrame, (countingRng, .transfer emptyPieceFrame), emptyPiece,
    openingEvents_ready, fed_afterFrame wholePiece_executed (by unfold Execution.IsPiece; decide +kernel), by decide +kernel,
    by unfold Execution.IsPiece; decide +kernel, legal_pingPacket, by decide +kernel, ?_, by decide +kernel, ?_⟩
  · intro y hy
    cases hy
    decide +kernel
  · intro h
    exact absurd (h.cont wholePiece (List.mem_singleton_self _)) (by decide +kernel)

end TROPIC01
end Simulators
