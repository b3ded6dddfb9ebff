/-
# TROPIC01: the TCP server

`tcp_proto.rs` and `bin/tcp_server.rs`: the framing of libtropic's TCP HAL,
and the server that holds one chip and one store for all its connections.

A frame stands for one event of the SPI bus, or for none (`TcpFrame.event`);
`busStep` is the chip as its hosts see it over TCP. The server is that chip:
besides it there is only the flag that says when the store has to be saved.
It is looked at after every transfer, so the file is never behind the device
(`TcpSim.Saved`): a server that is killed and started again on its store has
lost nothing.

The file is modelled by the device that was written to it.

Key theorems: `transfer_clean`, `step_dirty`, `tcp_server_is_the_chip`.
-/
import Simulators.Lib.Server
import Simulators.TROPIC01.Answers
import Simulators.TROPIC01.Transport

namespace Simulators
namespace TROPIC01

/-! ### `tcp_proto.rs` -/

def tagAndLenSize : ℕ := 3
def maxPayloadLen : ℕ := 1 + 1 + 252 + 2

inductive TcpTag
  | spiDriveCsnLow
  | spiDriveCsnHigh
  | spiSend
  | powerOn
  | powerOff
  | wait
  | resetTarget
  | invalid
  | unsupported
deriving DecidableEq, Repr

def TcpTag.toU8 : TcpTag → UInt8
  | spiDriveCsnLow => 0x01
  | spiDriveCsnHigh => 0x02
  | spiSend => 0x03
  | powerOn => 0x04
  | powerOff => 0x05
  | wait => 0x06
  | resetTarget => 0x10
  | invalid => 0xFD
  | unsupported => 0xFE

def TcpTag.fromU8 (v : UInt8) : TcpTag :=
  if v = 0x01 then spiDriveCsnLow
  else if v = 0x02 then spiDriveCsnHigh
  else if v = 0x03 then spiSend
  else if v = 0x04 then powerOn
  else if v = 0x05 then powerOff
  else if v = 0x06 then wait
  else if v = 0x10 then resetTarget
  else if v = 0xFD then invalid
  else if v = 0xFE then unsupported
  else invalid

@[simp] theorem TcpTag.fromU8_toU8 (tag : TcpTag) : fromU8 tag.toU8 = tag := by cases tag <;> decide

structure TcpFrame where
  tag : UInt8
  payload : Bytes
deriving DecidableEq, Repr

namespace TcpFrame

def new (tag : TcpTag) (payload : Bytes) : TcpFrame := ⟨tag.toU8, payload⟩

/-- `read_from`, on the bytes that have arrived. -/
def readFrom : Bytes → Arrival TcpFrame
  | tag :: lo :: hi :: rest =>
    let len := (u16Le lo hi).toNat
    if maxPayloadLen < len then .fails
    else if rest.length < len then .waits
    else .message ⟨tag, rest.take len⟩ (rest.drop len)
  | _ => .waits

/-- `write_to`: nothing if the payload is too large. -/
def writeTo (f : TcpFrame) : Option Bytes :=
  if maxPayloadLen < f.payload.length then none
  else
    let len := UInt16.ofNat f.payload.length
    some ([f.tag, loByte len, hiByte len] ++ f.payload)

/-- The frames on a connection. -/
def framing : Framing TcpFrame where
  next := readFrom
  shorter {b rest m} h := by
    unfold readFrom at h
    split at h
    · dsimp only at h
      split_ifs at h
      cases h
      simp only [List.length_drop, List.length_cons]
      omega
    · cases h
  message_append {b rest m} c h := by
    unfold readFrom at h
    split at h
    · rename_i tag lo hi bytes
      dsimp only at h
      split_ifs at h with hmax hlen
      cases h
      have hle : (u16Le lo hi).toNat ≤ bytes.length := not_lt.mp hlen
      show readFrom (tag :: lo :: hi :: (bytes ++ c)) = _
      unfold readFrom
      dsimp only
      rw [if_neg hmax, if_neg (by rw [List.length_append]; omega), List.take_append_of_le_length hle,
        List.drop_append_of_le_length hle]
    · cases h
  fails_append {b} c h := by
    unfold readFrom at h
    split at h
    · rename_i tag lo hi bytes
      dsimp only at h
      split_ifs at h with hmax
      show readFrom (tag :: lo :: hi :: (bytes ++ c)) = _
      unfold readFrom
      dsimp only
      rw [if_pos hmax]
    · cases h

theorem writeTo_eq_some {f : TcpFrame} {out : Bytes} : f.writeTo = some out ↔
    f.payload.length ≤ maxPayloadLen ∧
      f.tag :: loByte (UInt16.ofNat f.payload.length) :: hiByte (UInt16.ofNat f.payload.length) :: f.payload = out := by
  unfold writeTo
  split
  · rename_i h
    simp only [reduceCtorEq, false_iff, not_and]
    omega
  · rename_i h
    simp [not_lt.mp h]

/-- A frame that was written is read back, whatever follows. -/
theorem readFrom_writeTo {f : TcpFrame} {out : Bytes} (h : f.writeTo = some out) (c : Bytes) :
    readFrom (out ++ c) = .message f c := by
  obtain ⟨hlen, rfl⟩ := writeTo_eq_some.mp h
  have hsize : (u16Le (loByte (UInt16.ofNat f.payload.length)) (hiByte (UInt16.ofNat f.payload.length))).toNat =
      f.payload.length := by
    have hlt : f.payload.length < 2 ^ 16 := Nat.lt_of_le_of_lt hlen (by decide)
    rw [u16Le, be16_bytes, UInt16.ofNat_toNat, UInt16.toNat_ofNat']
    exact Nat.mod_eq_of_lt hlt
  show readFrom (f.tag :: _ :: _ :: (f.payload ++ c)) = _
  unfold readFrom
  dsimp only
  rw [hsize, if_neg (not_lt.mpr hlen), if_neg (by rw [List.length_append]; omega), List.take_left, List.drop_left]

end TcpFrame

/-! ### `bin/tcp_server.rs` -/

/-- The chip, the device in its store, and the device in the file. -/
structure TcpSim where
  chip : Chip
  device : Device
  file : Device

/-- `take_store_dirty`. -/
def Chip.takeStoreDirty (c : Chip) : Bool × Chip := (c.storeDirty, { c with storeDirty := false })

/-- `handle_tcp_frame`: the reply, if the connection goes on. -/
def handleTcpFrame (K : Crates) (sim : TcpSim) (g : OsRng) (frame : TcpFrame) :
    Except Panic (TcpSim × Option TcpFrame) :=
  let tag := TcpTag.fromU8 frame.tag
  match tag with
  | .spiDriveCsnLow => .ok ({ sim with chip := sim.chip.csnLow }, some (.new .spiDriveCsnLow []))
  | .spiDriveCsnHigh => .ok ({ sim with chip := sim.chip.csnHigh }, some (.new .spiDriveCsnHigh []))
  | .spiSend =>
    match sim.chip.transfer K g sim.device frame.payload with
    | (_, .error p) => .error p
    | (_, .ok (miso, chip, device)) =>
      let (dirty, chip) := chip.takeStoreDirty
      .ok (⟨chip, device, if dirty then device else sim.file⟩, some (.new .spiSend miso))
  | .powerOn | .powerOff | .resetTarget => .ok ({ sim with chip := sim.chip.powerCycle }, some (.new tag []))
  | .wait => .ok (sim, some (.new .wait []))
  | .invalid | .unsupported => .ok (sim, none)

/-- `handle_connection`, one frame. -/
def tcpServer (K : Crates) : Server TcpSim Unit OsRng TcpFrame Panic where
  framing := TcpFrame.framing
  fresh := ()
  handle sim _ g frame :=
    (handleTcpFrame K sim g frame).map fun (sim, reply) => (sim, (reply.bind TcpFrame.writeTo).map ((), ·))

/-! ### The chip behind the server -/

/-- What a frame does on the SPI bus. -/
def TcpFrame.event (f : TcpFrame) : Option SpiEvent :=
  match TcpTag.fromU8 f.tag with
  | .spiDriveCsnLow => some .csnLow
  | .spiDriveCsnHigh => some .csnHigh
  | .spiSend => some (.transfer f.payload)
  | .powerOn | .powerOff | .resetTarget => some .powerCycle
  | .wait | .invalid | .unsupported => none

/-- Whether a frame ends its connection. -/
def TcpFrame.Unexpected (f : TcpFrame) : Prop :=
  TcpTag.fromU8 f.tag = .invalid ∨ TcpTag.fromU8 f.tag = .unsupported

instance (f : TcpFrame) : Decidable f.Unexpected := inferInstanceAs (Decidable (_ ∨ _))

/-- The chip as its hosts see it: a frame is answered with its tag and MISO. -/
def busStep {ι : Type} (K : Crates) (s : Sim) (c : Call ι OsRng TcpFrame) : Option TcpFrame × Sim :=
  match c.message.event with
  | some e => (some ⟨c.message.tag, (Sim.step K s (c.rng, e)).1.miso⟩, (Sim.step K s (c.rng, e)).2)
  | none => (if c.message.Unexpected then none else some ⟨c.message.tag, []⟩, s)

/-! ### The flag is only written -/

/-- The chip without the flag. -/
def Chip.clean (c : Chip) : Chip := { c with storeDirty := false }

section Clean

variable {K : Crates} {g : OsRng} (c : Chip) (dev : Device)

def Reply.clean (r : Reply) : Reply := r.map fun (frames, c, dev) => (frames, c.clean, dev)

theorem answer_clean (status : UInt8) (data : Bytes) :
    (c.clean.answer dev status data).clean = (c.answer dev status data).clean := by
  unfold Chip.answer
  cases buildResponse status data <;> rfl

theorem answerAfterAck_clean (status : UInt8) :
    (c.clean.answerAfterAck dev status).clean = (c.answerAfterAck dev status).clean := rfl

theorem handshake_clean (data : Bytes) :
    (c.clean.handshake K g dev data).clean = (c.handshake K g dev data).clean := by
  have hp : c.clean.personality = c.personality := rfl
  unfold Chip.handshake
  rw [hp]
  split
  · exact answer_clean c dev _ _
  · split
    · rfl
    · dsimp only
      rcases Session.handshake K g dev data with (p | e) | ⟨body, session⟩
      · rfl
      · exact answer_clean { c with l3Packet := [], l3Expected := 0, session := {} } dev _ _
      · exact answer_clean { c with l3Packet := [], l3Expected := 0, session } dev _ _

theorem startup_clean (data : Bytes) : (c.clean.startup dev data).clean = (c.startup dev data).clean := by
  have hcfg : c.clean.configInForce dev = c.configInForce dev := rfl
  unfold Chip.startup
  rw [hcfg]
  split
  · split
    · exact answer_clean (c.reboot .application) dev _ _
    · split
      · rcases (c.configInForce dev)[0]? with _ | reg
        · rfl
        · exact answer_clean (c.reboot _) dev _ _
      · exact answer_clean c dev _ _
  · exact answer_clean c dev _ _

theorem sleep_clean (data : Bytes) : (c.clean.sleep dev data).clean = (c.sleep dev data).clean := by
  have hcfg : c.clean.configInForce dev = c.configInForce dev := rfl
  unfold Chip.sleep
  rw [hcfg]
  split
  · exact answer_clean c dev _ _
  · dsimp only
    rcases (c.configInForce dev)[0x018 / 4]? with _ | reg
    · rfl
    · dsimp only
      split
      · exact answer_clean { c with activeConfig := some (c.configInForce dev) } dev _ _
      · exact answer_clean (Chip.dropSession { c with activeConfig := some (c.configInForce dev) }) dev _ _

/-- The same command and the same reply, but for the flag. -/
structure SameButFlag (r r' : Option L3Call × Reply) : Prop where
  call : r.1 = r'.1
  reply : r.2.clean = r'.2.clean

variable {c dev} in
theorem SameButFlag.of_reply {call : Option L3Call} {r r' : Reply} (h : r.clean = r'.clean) :
    SameButFlag (call, r) (call, r') := ⟨rfl, h⟩

theorem answer_same (status : UInt8) (data : Bytes) :
    SameButFlag (none, c.clean.answer dev status data) (none, c.answer dev status data) :=
  .of_reply (answer_clean c dev status data)

theorem packetCommand_clean (packet : Bytes) :
    SameButFlag (c.clean.packetCommand K g dev packet) (c.packetCommand K g dev packet) := by
  have hsession : c.clean.session = c.session := rfl
  have hcfg : c.clean.configInForce dev = c.configInForce dev := rfl
  have hp : c.clean.personality = c.personality := rfl
  have hl : c.clean.l3State = c.l3State := rfl
  unfold Chip.packetCommand
  rw [hsession, hcfg, hp, hl]
  rcases c.session.unwrapL3Request K packet with e | ⟨plaintext, session⟩
  · exact ⟨rfl, rfl⟩
  · dsimp only
    rcases dispatch K g dev (c.configInForce dev) c.personality _ c.l3State plaintext with
      p | ⟨result | _, dev', l3State⟩
    · exact ⟨rfl, rfl⟩
    · dsimp only [Chip.answerResult]
      rcases session.wrapL3Response K result with ⟨encryption, e | ⟨wire, session'⟩⟩
      · exact ⟨rfl, rfl⟩
      · dsimp only
        rcases Chip.resultFrames (chunks maxL2DataSize wire) with p | frames
        · exact ⟨rfl, rfl⟩
        · exact ⟨rfl, rfl⟩
    · exact ⟨rfl, rfl⟩

theorem encryptedCmd_clean (chunk : Bytes) :
    SameButFlag (c.clean.encryptedCmd K g dev chunk) (c.encryptedCmd K g dev chunk) := by
  have hsession : c.clean.session = c.session := rfl
  have hpacket : c.clean.l3Packet = c.l3Packet := rfl
  have hexpected : c.clean.l3Expected = c.l3Expected := rfl
  unfold Chip.encryptedCmd
  rw [hsession, hpacket, hexpected]
  split
  · exact answer_same { c with l3Packet := [], l3Expected := 0 } dev _ _
  · split
    · exact answer_same c dev _ _
    · dsimp only
      generalize (if c.l3Packet = [] then _ else _) = expected
      split
      · exact answer_same { c with l3Packet := c.l3Packet ++ chunk, l3Expected := expected } dev _ _
      · split
        · exact ⟨rfl, rfl⟩
        · exact packetCommand_clean { c with l3Packet := [], l3Expected := 0 } dev (c.l3Packet ++ chunk)

theorem process_clean (raw : Bytes) :
    SameButFlag (c.clean.process K g dev raw) (c.process K g dev raw) := by
  have hmode : c.clean.mode = c.mode := rfl
  have hp : c.clean.personality = c.personality := rfl
  unfold Chip.process
  rw [hmode, hp]
  split
  · exact answer_same c dev _ _
  · exact answer_same c dev _ _
  · split
    · exact answer_same c dev _ _
    split
    · refine .of_reply ?_
      split
      · generalize getInfo K dev (c.mode == .maintenance) _ _ = r
        cases r <;> rfl
      · exact answer_clean c dev _ _
    split
    · refine .of_reply ?_
      split
      · exact answer_clean c dev _ _
      · exact answer_clean c dev _ _
    split
    · exact .of_reply (startup_clean c dev _)
    split
    · exact answer_same c dev _ _
    split
    · exact .of_reply (handshake_clean c dev _)
    split
    · exact encryptedCmd_clean c dev _
    split
    · refine .of_reply ?_
      split
      · exact answer_clean c.dropSession dev _ _
      · exact answer_clean c dev _ _
    split
    · exact .of_reply (sleep_clean c dev _)
    · exact answer_same c dev _ _

/-- The chip without the flag, if it did not panic. -/
def Sim.clean (s : Sim) : Sim := s.map fun (c, dev) => (c.clean, dev)

theorem Reply.clean_ok {r : Reply} {frames : List Bytes} {c' : Chip} {dev' : Device}
    (h : r.clean = Reply.clean (.ok (frames, c', dev'))) :
    ∃ c'', r = .ok (frames, c'', dev') ∧ c''.clean = c'.clean := by
  rcases r with p | ⟨frames', c'', dev''⟩
  · cases h
  · simp only [Reply.clean, Except.map, Except.ok.injEq, Prod.mk.injEq] at h
    obtain ⟨rfl, hc, rfl⟩ := h
    exact ⟨c'', rfl, hc⟩

theorem execute_clean (raw : Bytes) : (c.clean.execute K g dev raw).1 = (c.execute K g dev raw).1 ∧
    Sim.clean (c.clean.execute K g dev raw).2 = Sim.clean (c.execute K g dev raw).2 := by
  have hmode : c.clean.mode = c.mode := rfl
  have hlast : c.clean.lastResponse = c.lastResponse := rfl
  unfold Chip.execute
  rw [hmode, hlast]
  dsimp only
  split
  · exact ⟨rfl, rfl⟩
  · split
    · exact ⟨rfl, rfl⟩
    · obtain ⟨hcall, hreply⟩ := process_clean (K := K) (g := g) c dev raw
      rcases hp : c.process K g dev raw with ⟨call, p | ⟨frames, c', dev'⟩⟩
      · rcases hp' : c.clean.process K g dev raw with ⟨call', p' | r'⟩
        · rw [hp, hp'] at hcall hreply
          dsimp only at hcall
          cases hreply
          subst hcall
          exact ⟨rfl, rfl⟩
        · rw [hp, hp'] at hreply
          cases hreply
      · rcases hp' : c.clean.process K g dev raw with ⟨call', r'⟩
        rw [hp, hp'] at hcall hreply
        obtain ⟨c'', rfl, hc⟩ := Reply.clean_ok hreply
        dsimp only at hcall
        subst hcall
        refine ⟨rfl, ?_⟩
        show Except.ok (({ c''.clean with queue := frames, busyLeft := _ } : Chip), dev') =
          Except.ok (({ c'.clean with queue := frames, busyLeft := _ } : Chip), dev')
        have hbusy : c''.busyPolls = c'.busyPolls := by
          have h : c''.clean.busyPolls = c'.clean.busyPolls := by rw [hc]
          exact h
        rw [hc, hbusy]

theorem ignoreRest_clean (s : Sim) : s.ignoreRest.clean = s.clean.ignoreRest := by
  rcases s with p | ⟨c, dev⟩
  · rfl
  · rfl

theorem pushRequestByte_clean (b : UInt8) :
    (c.clean.pushRequestByte K g dev b).1 = (c.pushRequestByte K g dev b).1 ∧
      Sim.clean (c.clean.pushRequestByte K g dev b).2 = Sim.clean (c.pushRequestByte K g dev b).2 := by
  have hrequest : c.clean.request = c.request := rfl
  unfold Chip.pushRequestByte
  rw [hrequest]
  dsimp only
  generalize (if c.request.length < maxL2FrameSize then _ else _) = request
  split
  · split
    · obtain ⟨hx, hs⟩ := execute_clean (K := K) (g := g) { c with request := [] } dev request
      refine ⟨congrArg some hx, ?_⟩
      show Sim.clean (Sim.ignoreRest (Chip.execute K g (Chip.clean { c with request := [] }) dev request).2) =
        Sim.clean (Sim.ignoreRest (Chip.execute K g { c with request := [] } dev request).2)
      rw [ignoreRest_clean, ignoreRest_clean, hs]
    · exact ⟨rfl, rfl⟩
  · exact ⟨rfl, rfl⟩

theorem chipStatus_clean : c.clean.chipStatus = (c.chipStatus.1, c.chipStatus.2.clean) := by
  have hmode : c.clean.mode = c.mode := rfl
  have hfresh : c.clean.alarmFresh = c.alarmFresh := rfl
  unfold Chip.chipStatus
  rw [hmode, hfresh]
  split
  · rfl
  · rfl
  · split
    · rfl
    · rfl

theorem poll_clean : c.clean.poll = (c.poll.1, c.poll.2.clean) := by
  unfold Chip.poll
  rw [chipStatus_clean]
  dsimp only
  have hmode : c.chipStatus.2.clean.mode = c.chipStatus.2.mode := rfl
  have hqueue : c.chipStatus.2.clean.queue = c.chipStatus.2.queue := rfl
  have hbusy : c.chipStatus.2.clean.busyLeft = c.chipStatus.2.busyLeft := rfl
  rw [hmode, hqueue, hbusy]
  split
  · rfl
  · split
    · rfl
    · rfl

/-- MISO, and the chip and device behind it without the flag. -/
def cleanTransfer {α : Type} (r : Except Panic (α × Chip × Device)) : Except Panic (α × Chip × Device) :=
  r.map fun (a, c, dev) => (a, c.clean, dev)

theorem cleanTransfer_map {α : Type} (s : Sim) (a : α) :
    cleanTransfer (s.map fun (c, dev) => (a, c, dev)) = s.clean.map fun (c, dev) => (a, c, dev) := by
  rcases s with p | ⟨c, dev⟩
  · rfl
  · rfl

theorem transferByte_clean (b : UInt8) :
    (c.clean.transferByte K g dev b).1 = (c.transferByte K g dev b).1 ∧
      cleanTransfer (c.clean.transferByte K g dev b).2 = cleanTransfer (c.transferByte K g dev b).2 := by
  have hphase : c.clean.phase = c.phase := rfl
  unfold Chip.transferByte
  rw [hphase]
  split
  · exact ⟨rfl, rfl⟩
  · split
    · rw [poll_clean]
      exact ⟨rfl, rfl⟩
    · rw [chipStatus_clean]
      obtain ⟨hx, hs⟩ := pushRequestByte_clean (K := K) (g := g) { c.chipStatus.2 with phase := .request } dev b
      refine ⟨hx, ?_⟩
      dsimp only
      rw [cleanTransfer_map, cleanTransfer_map]
      exact congrArg _ hs
  · obtain ⟨hx, hs⟩ := pushRequestByte_clean (K := K) (g := g) c dev b
    refine ⟨hx, ?_⟩
    dsimp only
    rw [cleanTransfer_map, cleanTransfer_map, hs]
  · exact ⟨rfl, rfl⟩
  · exact ⟨rfl, rfl⟩

theorem cleanTransfer_ok {α : Type} {r : Except Panic (α × Chip × Device)} {a : α} {c' : Chip} {dev' : Device}
    (h : cleanTransfer r = cleanTransfer (.ok (a, c', dev'))) :
    ∃ c'', r = .ok (a, c'', dev') ∧ c''.clean = c'.clean := by
  rcases r with p | ⟨a', c'', dev''⟩
  · cases h
  · simp only [cleanTransfer, Except.map, Except.ok.injEq, Prod.mk.injEq] at h
    obtain ⟨rfl, hc, rfl⟩ := h
    exact ⟨c'', rfl, hc⟩

theorem transfer_clean : ∀ (mosi : Bytes) {c c' : Chip} (dev : Device),
    c.clean = c'.clean → (c.transfer K g dev mosi).1 = (c'.transfer K g dev mosi).1 ∧
      cleanTransfer (c.transfer K g dev mosi).2 = cleanTransfer (c'.transfer K g dev mosi).2
  | [], c, c', dev, h => ⟨rfl, by simp only [Chip.transfer, cleanTransfer, Except.map, h]⟩
  | b :: mosi, c, c', dev, h => by
    have hbyte : (c.transferByte K g dev b).1 = (c'.transferByte K g dev b).1 ∧
        cleanTransfer (c.transferByte K g dev b).2 = cleanTransfer (c'.transferByte K g dev b).2 := by
      obtain ⟨hx, hr⟩ := transferByte_clean (K := K) (g := g) c dev b
      obtain ⟨hx', hr'⟩ := transferByte_clean (K := K) (g := g) c' dev b
      rw [h] at hx hr
      exact ⟨hx.symm.trans hx', hr.symm.trans hr'⟩
    unfold Chip.transfer
    obtain ⟨hx, hr⟩ := hbyte
    rcases hb' : c'.transferByte K g dev b with ⟨x', p | ⟨out, c₁', dev'⟩⟩
    · rcases hb : c.transferByte K g dev b with ⟨x, p' | r⟩
      · rw [hb, hb'] at hx hr
        cases hr
        dsimp only at hx ⊢
        rw [hx]
        exact ⟨rfl, rfl⟩
      · rw [hb, hb'] at hr
        cases hr
    · rcases hb : c.transferByte K g dev b with ⟨x, r⟩
      rw [hb, hb'] at hx hr
      obtain ⟨c₁, rfl, hc⟩ := cleanTransfer_ok hr
      dsimp only at hx ⊢
      subst hx
      obtain ⟨hxs, hrest⟩ := transfer_clean mosi dev' hc
      rcases ht' : c₁'.transfer K g dev' mosi with ⟨xs', p | ⟨miso, c₂', dev''⟩⟩
      · rcases ht : c₁.transfer K g dev' mosi with ⟨xs, p' | r⟩
        · rw [ht, ht'] at hxs hrest
          cases hrest
          dsimp only at hxs ⊢
          rw [hxs]
          exact ⟨rfl, rfl⟩
        · rw [ht, ht'] at hrest
          cases hrest
      · rcases ht : c₁.transfer K g dev' mosi with ⟨xs, r⟩
        rw [ht, ht'] at hxs hrest
        obtain ⟨c₂, rfl, hc'⟩ := cleanTransfer_ok hrest
        dsimp only at hxs ⊢
        subst hxs
        exact ⟨rfl, by simp only [Except.map, cleanTransfer, hc']⟩

theorem csnHigh_clean : c.clean.csnHigh = c.csnHigh.clean := by
  have hphase : c.clean.phase = c.phase := rfl
  have hqueue : c.clean.queue = c.queue := rfl
  have hcursor : c.clean.cursor = c.cursor := rfl
  unfold Chip.csnHigh
  rw [hphase, hqueue, hcursor]
  split
  · split
    · rfl
    · rfl
  · rfl

/-- The bus cannot see the flag. -/
theorem step_clean {s s' : Sim} (h : s.clean = s'.clean) (i : OsRng × SpiEvent) :
    (Sim.step K s i).1 = (Sim.step K s' i).1 ∧ (Sim.step K s i).2.clean = (Sim.step K s' i).2.clean := by
  obtain ⟨g, e⟩ := i
  rcases s with p | ⟨c, dev⟩
  · rcases s' with p' | ⟨c', dev'⟩
    · cases h
      exact ⟨rfl, rfl⟩
    · cases h
  · rcases s' with p' | ⟨c', dev'⟩
    · cases h
    · have hboth : c.clean = c'.clean ∧ dev = dev' := by
        simpa only [Sim.clean, Except.map, Except.ok.injEq, Prod.mk.injEq] using h
      obtain ⟨hc, rfl⟩ := hboth
      cases e with
      | csnLow =>
        refine ⟨rfl, ?_⟩
        show (Except.ok (c.clean.csnLow, dev) : Sim) = .ok (c'.clean.csnLow, dev)
        rw [hc]
      | csnHigh =>
        refine ⟨rfl, ?_⟩
        show (Except.ok (c.csnHigh.clean, dev) : Sim) = .ok (c'.csnHigh.clean, dev)
        rw [← csnHigh_clean, hc, csnHigh_clean]
      | powerCycle =>
        refine ⟨rfl, ?_⟩
        show (Except.ok (c.clean.powerCycle, dev) : Sim) = .ok (c'.clean.powerCycle, dev)
        rw [hc]
      | transfer mosi =>
        obtain ⟨hxs, hr⟩ := transfer_clean (K := K) (g := g) mosi dev hc
        dsimp only [Sim.step]
        rcases ht' : c'.transfer K g dev mosi with ⟨xs', p | ⟨miso, c₁', dev₁⟩⟩
        · rcases ht : c.transfer K g dev mosi with ⟨xs, p' | r⟩
          · rw [ht, ht'] at hxs hr
            cases hr
            dsimp only at hxs ⊢
            rw [hxs]
            exact ⟨rfl, rfl⟩
          · rw [ht, ht'] at hr
            cases hr
        · rcases ht : c.transfer K g dev mosi with ⟨xs, r⟩
          rw [ht, ht'] at hxs hr
          obtain ⟨c₁, rfl, hc₁⟩ := cleanTransfer_ok hr
          dsimp only at hxs ⊢
          subst hxs
          exact ⟨rfl, by simp only [Sim.clean, Except.map, hc₁]⟩

end Clean

/-! ### The store is saved whenever it has changed -/

/-- The flag is up if it was, and after every change to the device. -/
def Marks (c : Chip) (dev : Device) (c' : Chip) (dev' : Device) : Prop :=
  c.storeDirty = true ∨ dev' ≠ dev → c'.storeDirty = true

section Marks

variable {K : Crates} {g : OsRng} {c c' c'' : Chip} {dev dev' dev'' : Device}

theorem marks_same (h : c'.storeDirty = c.storeDirty) : Marks c dev c' dev := by
  rintro (hd | hne)
  · rw [h, hd]
  · exact absurd rfl hne

theorem Marks.trans (h : Marks c dev c' dev') (h' : Marks c' dev' c'' dev'') : Marks c dev c'' dev'' := by
  rintro (hd | hne)
  · exact h' (.inl (h (.inl hd)))
  · by_cases hdev : dev' = dev
    · exact h' (.inr (hdev ▸ hne))
    · exact h' (.inl (h (.inr hdev)))

def Reply.Marks (c : Chip) (dev : Device) (r : Reply) : Prop :=
  ∀ frames c' dev', r = .ok (frames, c', dev') → TROPIC01.Marks c dev c' dev'

theorem answer_marks {status : UInt8} {data : Bytes} (h : c'.storeDirty = c.storeDirty) :
    (c'.answer dev status data).Marks c dev := by
  intro frames c₁ dev₁ heq
  unfold Chip.answer at heq
  rcases hb : buildResponse status data with p | f
  · rw [hb] at heq
    cases heq
  · rw [hb] at heq
    cases heq
    exact marks_same h

theorem answerResult_flag {plaintext result : Bytes} {frames : List Bytes}
    (h : (c.answerResult K dev plaintext result).2 = .ok (frames, c', dev')) :
    c'.storeDirty = c.storeDirty ∧ dev' = dev := by
  unfold Chip.answerResult at h
  rcases hw : c.session.wrapL3Response K result with ⟨encryption, e | ⟨wire, session⟩⟩
  · rw [hw] at h
    cases h
    exact ⟨rfl, rfl⟩
  · rw [hw] at h
    dsimp only at h
    rcases hf : Chip.resultFrames (chunks maxL2DataSize wire) with p | fs
    · rw [hf] at h
      cases h
    · rw [hf] at h
      cases h
      exact ⟨rfl, rfl⟩

/-- A command that changes the device is one of those listed. -/
theorem packetCommand_marks {packet : Bytes} (h : c.Ready dev) : (c.packetCommand K g dev packet).2.Marks c dev := by
  intro frames c₁ dev₁ heq
  unfold Chip.packetCommand at heq
  rcases hu : c.session.unwrapL3Request K packet with e | ⟨plaintext, session⟩
  · rw [hu] at heq
    cases heq
    exact marks_same rfl
  · obtain ⟨keys, lo, hi, ct, nonce, -, -, hk, -, -, rfl⟩ := unwrapL3Request_eq_ok hu
    have hkey : keys.pkeyIndex.toNat < 32 := Nat.lt_of_le_of_lt (h.pkey keys hk) (by decide)
    obtain ⟨o, dev', state, hd, -, -, hmut⟩ : Answers dev plaintext
        (dispatch K g dev (c.configInForce dev) c.personality keys.pkeyIndex c.l3State plaintext) :=
      dispatch_answers h.shaped hkey
    have hdirty : dev' ≠ dev → (plaintext.head?.bind CmdId.ofWireId).any mutatesStore = true := by
      intro hne
      obtain ⟨id, hid, hm⟩ := hmut hne
      rw [hid]
      exact hm
    have hmarks : ∀ c₂ : Chip,
        c₂.storeDirty = (c.storeDirty || (plaintext.head?.bind CmdId.ofWireId).any mutatesStore) →
        Marks c dev c₂ dev' := by
      rintro c₂ h₂ (hd | hne)
      · rw [h₂, hd, Bool.true_or]
      · rw [h₂, hdirty hne, Bool.or_true]
    rw [hu] at heq
    dsimp only [Option.map, Option.getD] at heq
    rw [hd] at heq
    rcases o with result | _
    · obtain ⟨hflag, rfl⟩ := answerResult_flag heq
      exact hmarks _ hflag
    · cases heq
      exact hmarks _ rfl

theorem encryptedCmd_marks {chunk : Bytes} (h : c.Ready dev) : (c.encryptedCmd K g dev chunk).2.Marks c dev := by
  unfold Chip.encryptedCmd
  split
  · dsimp only
    exact answer_marks rfl
  · split
    · dsimp only
      exact answer_marks rfl
    · dsimp only
      generalize (if c.l3Packet = [] then _ else _) = expected
      split
      · dsimp only
        exact answer_marks rfl
      · split
        · intro frames c₁ dev₁ heq
          cases heq
          exact marks_same rfl
        · have hready : Chip.Ready { c with l3Packet := [], l3Expected := 0 } dev := ⟨h.shaped, h.config, h.pkey⟩
          intro frames c₁ dev₁ heq
          exact packetCommand_marks hready frames c₁ dev₁ heq

theorem process_marks {raw : Bytes} (h : c.Ready dev) : (c.process K g dev raw).2.Marks c dev := by
  intro frames c₁ dev₁ heq
  rcases hp : c.process K g dev raw with ⟨call, r⟩
  rw [hp] at heq
  dsimp only at heq
  subst heq
  by_cases hr : Reboots raw frames
  · obtain ⟨-, ⟨mode, -, rfl⟩, rfl⟩ := process_reboots hp hr
    exact marks_same rfl
  · rcases process_handled hp hr with _ | _ | _ | _ | _ | _ | _ | ⟨hx, _, _⟩
    · exact marks_same rfl
    · exact marks_same rfl
    · exact marks_same rfl
    · exact marks_same rfl
    · exact marks_same rfl
    · exact marks_same rfl
    · exact marks_same rfl
    · rw [process_encryptedCmd hx.mode hx.request] at hp
      exact encryptedCmd_marks h frames _ _ (congrArg Prod.snd hp)

def Sim.Marks (c : Chip) (dev : Device) (s : Sim) : Prop := ∀ c' dev', s = .ok (c', dev') → TROPIC01.Marks c dev c' dev'

theorem execute_marks {raw : Bytes} (h : c.Ready dev) : Sim.Marks c dev (c.execute K g dev raw).2 := by
  intro c₁ dev₁ heq
  unfold Chip.execute at heq
  dsimp only at heq
  split at heq
  · cases heq
    exact marks_same rfl
  · split at heq
    · cases heq
      exact marks_same rfl
    · rcases hp : c.process K g dev raw with ⟨call, p | ⟨frames, c₂, dev₂⟩⟩
      · rw [hp] at heq
        cases heq
      · rw [hp] at heq
        cases heq
        exact process_marks h frames c₂ _ (congrArg Prod.snd hp)

theorem pushRequestByte_marks {b : UInt8} (h : c.Ready dev) : Sim.Marks c dev (c.pushRequestByte K g dev b).2 := by
  unfold Chip.pushRequestByte
  dsimp only
  generalize (if c.request.length < maxL2FrameSize then _ else _) = request
  have hkeep : Sim.Marks c dev (.ok ({ c with request }, dev)) := by
    intro c₁ dev₁ heq
    cases heq
    exact marks_same rfl
  split
  · split
    · have hready : Chip.Ready { c with request := [] } dev := ⟨h.shaped, h.config, h.pkey⟩
      have hx : Sim.Marks _ dev (Chip.execute K g { c with request := [] } dev request).2 := execute_marks hready
      intro c₁ dev₁ heq
      rcases hr : (Chip.execute K g { c with request := [] } dev request).2 with p | ⟨c₂, dev₂⟩
      · rw [hr] at heq
        cases heq
      · rw [hr] at heq
        cases heq
        exact hx c₂ _ hr
    · exact hkeep
  · exact hkeep

theorem chipStatus_flag (c : Chip) : c.chipStatus.2.storeDirty = c.storeDirty := by
  unfold Chip.chipStatus
  split
  · rfl
  · rfl
  · split
    · rfl
    · rfl

theorem poll_flag (c : Chip) : c.poll.2.storeDirty = c.storeDirty := by
  have h := chipStatus_flag c
  unfold Chip.poll
  dsimp only
  split
  · exact h
  · split
    · exact h
    · exact h

theorem ofTransfer_marks {α : Type} {s : Sim} {a : α} (h : Sim.Marks c dev s) :
    Sim.Marks c dev (.ofTransfer (s.map fun (c, dev) => (a, c, dev))) := by
  rw [ofTransfer_map]
  exact h

theorem transferByte_marks {b : UInt8} (h : c.Ready dev) :
    Sim.Marks c dev (.ofTransfer (c.transferByte K g dev b).2) := by
  have hkeep : ∀ {out : UInt8} {c₁ : Chip}, c₁.storeDirty = c.storeDirty →
      Sim.Marks c dev (.ofTransfer (.ok (out, c₁, dev))) := by
    intro out c₁ hc c₂ dev₂ heq
    cases heq
    exact marks_same hc
  unfold Chip.transferByte
  split
  · exact hkeep rfl
  · split
    · exact hkeep (poll_flag c)
    · have hcore : Chip.core { c.chipStatus.2 with phase := .request } = c.core := (chipStatus_core c).1
      have hpush := pushRequestByte_marks (K := K) (g := g) (b := b) (ready_of_core hcore h)
      refine ofTransfer_marks fun c₁ dev₁ heq => ?_
      exact (marks_same (chipStatus_flag c)).trans (hpush c₁ dev₁ heq)
  · exact ofTransfer_marks (pushRequestByte_marks h)
  · exact hkeep rfl
  · exact hkeep rfl

/-- What a transferred byte leaves is ready for the next. -/
theorem transferByte_ready {b : UInt8} (h : c.Ready dev) : Sim.Ready (.ofTransfer (c.transferByte K g dev b).2) := by
  rcases transferByte_took (K := K) (g := g) c dev b with ⟨x, -, ht, -⟩ | ⟨out, c₁, hb, hc, -⟩
  · exact took_ready ht h
  · rw [hb]
    intro c₂ dev₂ heq
    cases heq
    exact ready_of_core hc h

theorem transfer_marks : ∀ (mosi : Bytes) {c : Chip} {dev : Device}, c.Ready dev →
    Sim.Marks c dev (.ofTransfer (c.transfer K g dev mosi).2)
  | [], c, dev, _ => by
    intro c₁ dev₁ heq
    cases heq
    exact marks_same rfl
  | b :: mosi, c, dev, h => by
    have hbyte := transferByte_marks (K := K) (g := g) (b := b) h
    have hready := transferByte_ready (K := K) (g := g) (b := b) h
    unfold Chip.transfer
    rcases hb : c.transferByte K g dev b with ⟨x, p | ⟨out, c₁, dev₁⟩⟩
    · intro c₂ dev₂ heq
      cases heq
    · rw [hb] at hbyte hready
      have ih := transfer_marks mosi (hready c₁ dev₁ rfl)
      intro c₂ dev₂ heq
      dsimp only at heq
      rcases ht : c₁.transfer K g dev₁ mosi with ⟨xs, p | ⟨miso, c₃, dev₃⟩⟩
      · rw [ht] at heq
        cases heq
      · rw [ht] at heq ih
        cases heq
        exact (hbyte c₁ dev₁ rfl).trans (ih _ _ rfl)

/-! ### No request brings the server down -/

/-- Raising the alarm is an answer, too. -/
theorem process_noPanic (hK : K.SealsTag) (h : c.Ready dev) (raw : Bytes) :
    ∃ frames c' dev', (c.process K g dev raw).2 = .ok (frames, c', dev') := by
  by_cases hal : RaisesAlarm c raw
  · obtain ⟨hm, hp, data, hraw, hlen, hidx⟩ := hal
    refine ⟨[], { c.dropSession with mode := .alarm, alarmFresh := true }, dev, ?_⟩
    unfold Chip.process
    simp only [hraw]
    rw [if_neg (by decide), if_neg (by decide), if_neg (by decide), if_neg (by decide), if_neg (by rw [hm]; decide),
      if_pos trivial]
    unfold Chip.handshake
    rw [if_neg (by rw [hlen]; decide), if_pos ⟨hidx, hp⟩]
  · obtain ⟨frames, c', dev', hr, -⟩ := process_replies (g := g) hK h hal
    exact ⟨frames, c', dev', hr⟩

theorem took_noPanic (hK : K.SealsTag) (h : c.Ready dev) {xs : List Execution} {s : Sim} (ht : Took K g c dev xs s) :
    ∃ c' dev', s = .ok (c', dev') := by
  cases ht with
  | quiet _ _ => exact ⟨_, _, rfl⟩
  | ignored _ _ _ _ => exact ⟨_, _, rfl⟩
  | resent _ _ _ _ => exact ⟨_, _, rfl⟩
  | answered _ _ _ _ _ => exact ⟨_, _, rfl⟩
  | @panicked c₀ raw call p _ h₀ hp =>
    obtain ⟨frames, c', dev', hr⟩ := process_noPanic (g := g) hK (ready_of_core h₀ h) raw
    rw [hp] at hr
    cases hr

end Marks

/-! ### The server is the chip -/

section Server

variable {K : Crates}

/-- Between two frames: the chip is ready, and everything has been saved. -/
structure TcpSim.Saved (sim : TcpSim) : Prop where
  ready : sim.chip.Ready sim.device
  flag : sim.chip.storeDirty = false
  file : sim.file = sim.device

/-- The server and the chip behind it. -/
structure TcpSim.Shows (sim : TcpSim) (s : Sim) : Prop extends sim.Saved where
  chip : s.clean = .ok (sim.chip, sim.device)

theorem toU8_of_fromU8 {v : UInt8} {tag : TcpTag} (h : TcpTag.fromU8 v = tag) (hne : tag ≠ .invalid) :
    tag.toU8 = v := by
  subst h
  unfold TcpTag.fromU8 at hne ⊢
  split_ifs at hne ⊢ with h1 h2 h3 h4 h5 h6 h7 h8 h9
  · exact h1.symm
  · exact h2.symm
  · exact h3.symm
  · exact h4.symm
  · exact h5.symm
  · exact h6.symm
  · exact h7.symm
  · exact absurd rfl hne
  · exact h9.symm
  · exact absurd rfl hne

theorem clean_of_flag {c : Chip} (h : c.storeDirty = false) : c.clean = c := by
  unfold Chip.clean
  rw [← h]

/-- A step of the bus, taken on either side. -/
theorem step_shows (hK : K.SealsTag) {sim : TcpSim} {s : Sim} (h : sim.Shows s) (g : OsRng) (e : SpiEvent) :
    ∃ c' dev', (Sim.step K (.ok (sim.chip, sim.device)) (g, e)).2 = .ok (c', dev') ∧ c'.Ready dev' ∧
      (Sim.step K s (g, e)).1 = (Sim.step K (.ok (sim.chip, sim.device)) (g, e)).1 ∧
      (Sim.step K s (g, e)).2.clean = .ok (c'.clean, dev') := by
  have hready : Sim.Ready (.ok (sim.chip, sim.device)) := by
    intro c dev heq
    cases heq
    exact h.ready
  have hsame : s.clean = Sim.clean (.ok (sim.chip, sim.device)) := by
    rw [h.chip]
    simp only [Sim.clean, Except.map, clean_of_flag h.flag]
  obtain ⟨hout, hclean⟩ := step_clean (K := K) hsame (g, e)
  obtain ⟨c', dev', hs⟩ : ∃ c' dev', (Sim.step K (.ok (sim.chip, sim.device)) (g, e)).2 = .ok (c', dev') := by
    by_cases he : e = .powerCycle
    · subst he
      exact ⟨_, _, rfl⟩
    · exact took_noPanic hK h.ready (step_took (i := (g, e)) sim.chip sim.device he)
  refine ⟨c', dev', hs, step_ready _ (g, e) hready c' dev' hs, hout, ?_⟩
  rw [hclean, hs]
  rfl

theorem miso_length (s : Sim) (g : OsRng) (e : SpiEvent) {mosi : Bytes}
    (he : ∀ bytes, e = .transfer bytes → bytes = mosi) : (Sim.step K s (g, e)).1.miso.length ≤ mosi.length := by
  have htransfer : ∀ (bytes : Bytes) (c : Chip) (dev : Device) (miso : Bytes) (c' : Chip) (dev' : Device),
      (c.transfer K g dev bytes).2 = .ok (miso, c', dev') → miso.length = bytes.length := by
    intro bytes
    induction bytes with
    | nil =>
      intro c dev miso c' dev' hr
      cases hr
      rfl
    | cons b bytes ih =>
      intro c dev miso c' dev' hr
      unfold Chip.transfer at hr
      rcases hb : c.transferByte K g dev b with ⟨x, p | ⟨out, c₁, dev₁⟩⟩
      · rw [hb] at hr
        cases hr
      · rw [hb] at hr
        dsimp only at hr
        rcases ht : c₁.transfer K g dev₁ bytes with ⟨xs, p | ⟨miso', c₂, dev₂⟩⟩
        · rw [ht] at hr
          cases hr
        · rw [ht] at hr
          cases hr
          have hlen := ih c₁ dev₁ miso' _ _ (congrArg Prod.snd ht)
          rw [List.length_cons, List.length_cons, hlen]
  rcases s with p | ⟨c, dev⟩
  · exact Nat.zero_le _
  · cases e with
    | csnLow => exact Nat.zero_le _
    | csnHigh => exact Nat.zero_le _
    | powerCycle => exact Nat.zero_le _
    | transfer bytes =>
      obtain rfl := he bytes rfl
      dsimp only [Sim.step]
      rcases ht : c.transfer K g dev bytes with ⟨xs, p | ⟨miso, c', dev'⟩⟩
      · exact Nat.zero_le _
      · exact Nat.le_of_eq (htransfer bytes c dev miso c' dev' (congrArg Prod.snd ht))

/-- An event of the bus, once what has changed is saved. -/
theorem bus_shows {ι : Type} (hK : K.SealsTag) {sim : TcpSim} {s : Sim} (h : sim.Shows s) {c : Call ι OsRng TcpFrame}
    {e : SpiEvent} (he : c.message.event = some e) {c' : Chip} {dev' file : Device}
    (hs : (Sim.step K (.ok (sim.chip, sim.device)) (c.rng, e)).2 = .ok (c', dev')) (hfile : file = dev') :
    (busStep K s c).1 = some ⟨c.message.tag, (Sim.step K (.ok (sim.chip, sim.device)) (c.rng, e)).1.miso⟩ ∧
      TcpSim.Shows ⟨c'.clean, dev', file⟩ (busStep K s c).2 := by
  obtain ⟨c₁, dev₁, hs₁, hready, hout, hclean⟩ := step_shows hK h c.rng e
  obtain ⟨rfl, rfl⟩ : c₁ = c' ∧ dev₁ = dev' := by
    rw [hs] at hs₁
    cases hs₁
    exact ⟨rfl, rfl⟩
  simp only [busStep, he, hout]
  exact ⟨trivial, ⟨⟨hready.shaped, hready.config, hready.pkey⟩, rfl, hfile⟩, hclean⟩

/-- What the server makes of a frame is what the chip makes of it. -/
theorem handle_shows {ι : Type} (hK : K.SealsTag) {sim : TcpSim} {s : Sim} (h : sim.Shows s)
    (c : Call ι OsRng TcpFrame) : ∃ sim', handleTcpFrame K sim c.rng c.message = .ok (sim', (busStep K s c).1) ∧
      sim'.Shows (busStep K s c).2 := by
  -- A frame that moves the chip, and saves nothing.
  have hmove : ∀ {tag : TcpTag} {e : SpiEvent} {c' : Chip}, TcpTag.fromU8 c.message.tag = tag → tag ≠ .invalid →
      c.message.event = some e → c'.storeDirty = false →
      Sim.step K (.ok (sim.chip, sim.device)) (c.rng, e) = ({}, .ok (c', sim.device)) →
      ∃ sim', Except.ok (({ sim with chip := c' } : TcpSim), some (TcpFrame.new tag [])) =
        (.ok (sim', (busStep K s c).1) : Except Panic _) ∧ sim'.Shows (busStep K s c).2 := by
    intro tag e c' ht hne he hflag hs
    obtain ⟨hreply, hshows⟩ := bus_shows hK h he (congrArg Prod.snd hs) h.file
    rw [clean_of_flag hflag] at hshows
    refine ⟨_, ?_, hshows⟩
    rw [hreply, hs, TcpFrame.new, toU8_of_fromU8 ht hne]
  have hstay : c.message.event = none → sim.Shows (busStep K s c).2 := by
    intro he
    simp only [busStep, he]
    exact h
  have hflag := h.flag
  have hcsnHigh : sim.chip.csnHigh.storeDirty = false := by
    have hclean := csnHigh_clean sim.chip
    rw [clean_of_flag hflag] at hclean
    rw [hclean]
    rfl
  unfold handleTcpFrame
  rcases ht : TcpTag.fromU8 c.message.tag
  case spiDriveCsnLow =>
    exact hmove (e := .csnLow) ht (by decide) (by rw [TcpFrame.event, ht]) hflag rfl
  case spiDriveCsnHigh =>
    exact hmove (e := .csnHigh) ht (by decide) (by rw [TcpFrame.event, ht]) hcsnHigh rfl
  case powerOn =>
    exact hmove (e := .powerCycle) ht (by decide) (by rw [TcpFrame.event, ht]) rfl rfl
  case powerOff =>
    exact hmove (e := .powerCycle) ht (by decide) (by rw [TcpFrame.event, ht]) rfl rfl
  case resetTarget =>
    exact hmove (e := .powerCycle) ht (by decide) (by rw [TcpFrame.event, ht]) rfl rfl
  case wait =>
    have he : c.message.event = none := by rw [TcpFrame.event, ht]
    have hexpected : ¬ c.message.Unexpected := by
      unfold TcpFrame.Unexpected
      rw [ht]
      decide
    refine ⟨sim, ?_, hstay he⟩
    simp only [busStep, he, if_neg hexpected]
    rw [TcpFrame.new, toU8_of_fromU8 ht (by decide)]
  case invalid =>
    have he : c.message.event = none := by rw [TcpFrame.event, ht]
    have hexpected : c.message.Unexpected := .inl ht
    refine ⟨sim, ?_, hstay he⟩
    simp only [busStep, he, if_pos hexpected]
  case unsupported =>
    have he : c.message.event = none := by rw [TcpFrame.event, ht]
    have hexpected : c.message.Unexpected := .inr ht
    refine ⟨sim, ?_, hstay he⟩
    simp only [busStep, he, if_pos hexpected]
  case spiSend =>
    have he : c.message.event = some (.transfer c.message.payload) := by rw [TcpFrame.event, ht]
    have hmarks := transfer_marks (K := K) (g := c.rng) c.message.payload h.ready
    obtain ⟨c', dev', hs, -⟩ := step_shows hK h c.rng (.transfer c.message.payload)
    rcases htr : sim.chip.transfer K c.rng sim.device c.message.payload with ⟨xs, p | ⟨miso, c₁, dev₁⟩⟩
    · dsimp only [Sim.step] at hs
      rw [htr] at hs
      cases hs
    · have hstep : Sim.step K (.ok (sim.chip, sim.device)) (c.rng, .transfer c.message.payload) =
          ({ miso, executed := xs }, .ok (c₁, dev₁)) := by
        rw [Sim.step]
        dsimp only
        rw [htr]
      rw [htr] at hmarks
      have hfile : (if c₁.storeDirty then dev₁ else sim.file) = dev₁ := by
        split
        · rfl
        · rename_i hclean
          rw [h.file]
          by_contra hne
          exact hclean (hmarks c₁ dev₁ rfl (.inr fun heq => hne heq.symm))
      obtain ⟨hreply, hshows⟩ := bus_shows hK h he (congrArg Prod.snd hstep) hfile
      refine ⟨_, ?_, hshows⟩
      rw [hreply, hstep, ← toU8_of_fromU8 ht (by decide)]
      rfl

/-- A reply is no longer than the frame it answers. -/
def Reply.Written (frame : TcpFrame) (out : Option Bytes) (reply : Option TcpFrame) : Prop :=
  out = reply.bind TcpFrame.writeTo ∧ ∀ f, reply = some f → f.payload.length ≤ frame.payload.length

theorem busStep_length {ι : Type} {s : Sim} {c : Call ι OsRng TcpFrame} {f : TcpFrame}
    (h : (busStep K s c).1 = some f) : f.payload.length ≤ c.message.payload.length := by
  unfold busStep at h
  split at h
  · rename_i e he
    cases h
    refine miso_length s c.rng e fun bytes hb => ?_
    subst hb
    unfold TcpFrame.event at he
    split at he
    all_goals cases he
    rfl
  · dsimp only at h
    split at h
    · cases h
    · cases h
      exact Nat.zero_le _

theorem serialStep_shows {ι : Type} [DecidableEq ι] (hK : K.SealsTag) {v : Shared TcpSim Unit ι} {s : Sim}
    (h : v.1.Shows s) (c : Call ι OsRng TcpFrame) :
    ∃ v', (tcpServer K).serialStep v c = .ok ((busStep K s c).1.bind TcpFrame.writeTo, v') ∧
      v'.1.Shows (busStep K s c).2 := by
  obtain ⟨sim', hh, hshows⟩ := handle_shows hK h c
  have hhandle : (tcpServer K).handle v.1 (v.2 c.conn) c.rng c.message =
      .ok (sim', ((busStep K s c).1.bind TcpFrame.writeTo).map ((), ·)) := by
    show (handleTcpFrame K v.1 c.rng c.message).map _ = _
    rw [hh]
    rfl
  unfold Server.serialStep
  rw [hhandle]
  cases (busStep K s c).1.bind TcpFrame.writeTo with
  | none => exact ⟨_, rfl, hshows⟩
  | some out => exact ⟨_, rfl, hshows⟩

theorem readFrom_length {b rest : Bytes} {f : TcpFrame} (h : TcpFrame.readFrom b = .message f rest) :
    f.payload.length ≤ maxPayloadLen := by
  unfold TcpFrame.readFrom at h
  split at h
  · dsimp only at h
    split_ifs at h with hmax hlen
    cases h
    rw [List.length_take]
    exact Nat.le_trans (Nat.min_le_left _ _) (not_lt.mp hmax)
  · cases h

theorem reads_reply {frame : TcpFrame} {out : Option Bytes} {reply : Option TcpFrame}
    (hlen : frame.payload.length ≤ maxPayloadLen) (h : Reply.Written frame out reply) :
    TcpFrame.framing.Reads reply (out.getD []) := by
  obtain ⟨rfl, hreply⟩ := h
  cases reply with
  | none => rfl
  | some f =>
    intro c
    have hwrite := TcpFrame.writeTo_eq_some.mpr ⟨Nat.le_trans (hreply f rfl) hlen, rfl⟩
    rw [Option.bind_some, hwrite]
    exact TcpFrame.readFrom_writeTo hwrite c

/-- However the connections of the server cut their bytes and take turns: nothing panics, the file is never behind
the device, and there is one history of the chip that all of them have seen, each its own part of it, with nothing
lost, made up or out of order. -/
theorem tcp_server_is_the_chip {ι : Type} [DecidableEq ι] (K : Crates) (hK : K.SealsTag) (p : Personality)
    (busyPolls : ℕ) (dev₀ : Device) (hd : dev₀.Shaped) (es : List (ServerEvent ι OsRng)) :
    let chip₀ := { Chip.new p with busyPolls }
    let sys := (tcpServer K).after ⟨chip₀, dev₀, dev₀⟩ es
    sys.poison = none ∧ sys.shared.file = sys.shared.device ∧ ∃ calls : List (Call ι OsRng TcpFrame),
      let history := steps (busStep K) (.ok (chip₀, dev₀)) calls
      (outputs (busStep K) (.ok (chip₀, dev₀)) calls).2.clean = .ok (sys.shared.chip, sys.shared.device) ∧
      ∀ i, TcpFrame.framing.Parses (received es i) ((ofConn i history).map (·.input.message)) (sys.conns i).input ∧
        TcpFrame.framing.Parses (sys.conns i).output ((ofConn i history).filterMap (·.output)) [] := by
  intro chip₀ sys
  have h₀ : TcpSim.Shows ⟨chip₀, dev₀, dev₀⟩ (.ok (chip₀, dev₀)) :=
    ⟨⟨ready_of_closed hd rfl rfl, rfl, rfl⟩, rfl⟩
  have hpoison : sys.poison = none ∧ sys.shared.Saved := by
    refine Server.never_poisoned (I := fun v : Shared TcpSim Unit ι => v.1.Saved) (fun v c hv => ?_) h₀.toSaved es
    have hshows : v.1.Shows (.ok (v.1.chip, v.1.device)) :=
      ⟨hv, by simp only [Sim.clean, Except.map, clean_of_flag hv.flag]⟩
    obtain ⟨v', hs, hv'⟩ := serialStep_shows hK hshows c
    exact ⟨_, v', hs, hv'.toSaved⟩
  have hrun := (tcpServer K).run_serial ⟨chip₀, dev₀, dev₀⟩ es
  have hstep : ∀ {v : Shared TcpSim Unit ι} {c : Call ι OsRng TcpFrame} {out : Option Bytes} {v' : Shared TcpSim Unit ι}
      {s : Sim}, v.1.Shows s → (tcpServer K).serialStep v c = .ok (out, v') →
      Reply.Written c.message out (busStep K s c).1 ∧ v'.1.Shows (busStep K s c).2 := by
    intro v c out v' s hv hs
    obtain ⟨v'', hs', hv''⟩ := serialStep_shows hK hv c
    rw [hs] at hs'
    cases hs'
    exact ⟨⟨rfl, fun f hf => busStep_length hf⟩, hv''⟩
  obtain ⟨hlog, hend⟩ := hrun.simulated (R := fun v s => v.1.Shows s) (Q := fun c => Reply.Written c.message) hstep h₀
  refine ⟨hpoison.1, hpoison.2.file, _, hend.chip, fun i => ?_⟩
  obtain ⟨hparses, houtput⟩ := (tcpServer K).run_connection ⟨chip₀, dev₀, dev₀⟩ es i
  have hconn := ofConn_matches i hlog
  refine ⟨?_, ?_⟩
  · rw [matches_messages hconn]
    exact hparses
  · rw [houtput]
    refine TcpFrame.framing.parses_replies hconn fun e he e' hm => reads_reply ?_ hm.2
    exact hparses.forall (P := fun f => f.payload.length ≤ maxPayloadLen) readFrom_length _
      (List.mem_map_of_mem he)

def noRng : OsRng := fun _ => 0

/-- One host selects the chip, the other clocks GET_LOG into it; their bytes arrive in pieces. -/
def twoHosts : List (ServerEvent Bool OsRng) :=
  [.arrive false [0x01], .arrive true [0x06, 0x04, 0x00, 0x01], .turn false noRng, .arrive false [0x00, 0x00],
    .turn true noRng, .turn false noRng,
    .arrive true ([0x00, 0x00, 0x00, 0x03, 0x04, 0x00] ++ appendCrc [reqGetLog, 0]), .turn true noRng,
    .turn true noRng, .hangup false]

set_option maxRecDepth 2000 in
theorem twoHosts_served :
    let chip₀ := { Chip.new .fw220 with busyPolls := 1 }
    let sys := (tcpServer zeroTagCrates).after ⟨chip₀, freshDevice, freshDevice⟩ twoHosts
    (sys.conns false).output = [0x01, 0x00, 0x00] ∧
    (sys.conns true).output = [0x06, 0x00, 0x00, 0x03, 0x04, 0x00, 0x01, 0xff, 0xff, 0xff] ∧
    sys.poison = none ∧ sys.shared.file = sys.shared.device ∧ ∃ calls : List (Call Bool OsRng TcpFrame),
      let history := steps (busStep zeroTagCrates) (.ok (chip₀, freshDevice)) calls
      (outputs (busStep zeroTagCrates) (.ok (chip₀, freshDevice)) calls).2.clean =
        .ok (sys.shared.chip, sys.shared.device) ∧
      ∀ i,
        TcpFrame.framing.Parses (received twoHosts i) ((ofConn i history).map (·.input.message)) (sys.conns i).input ∧
        TcpFrame.framing.Parses (sys.conns i).output ((ofConn i history).filterMap (·.output)) [] :=
  ⟨by decide +kernel, by decide +kernel,
    tcp_server_is_the_chip zeroTagCrates (fun _ _ _ => rfl) .fw220 1 freshDevice (provision_shaped _ _ _ _) twoHosts⟩

end Server

end TROPIC01
end Simulators
