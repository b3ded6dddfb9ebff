/-
# SE050: the TCP server

`bin/tcp_server.rs`: every connection has a T=1 responder of its own, and all
of them share the object store. The chunks of a response wait in a queue, and
a frame of the host is answered by at most one frame of the queue; the others
follow as the host asks for them.

What a connection may rely on is stated one level up, on commands and resets
(`commandStep`): a host that reads a response to its end before it goes on
(`Polite`) has its APDUs executed one at a time, each on the store as the
other connections left it, with its own secure channel, and it reads the
response to each of them, whatever the frames were cut into
(`connections_exchange_apdus`).
-/
import Simulators.Lib.Server
import Simulators.SE050.Framing

namespace Simulators
namespace SE050

open T1Responder

/-! ### Frames on a stream -/

/-- The header, with the length in its last byte, then the payload and the CRC. -/
def readFrame : Bytes → Arrival Bytes
  | nad :: pcb :: len :: rest =>
    if rest.length < len.toNat + 2 then .waits
    else .message (nad :: pcb :: len :: rest.take (len.toNat + 2)) (rest.drop (len.toNat + 2))
  | _ => .waits

theorem readFrame_eq_message {b m rest : Bytes} : readFrame b = .message m rest ↔
    ∃ nad pcb len body, b = nad :: pcb :: len :: body ∧ len.toNat + 2 ≤ body.length ∧
      m = nad :: pcb :: len :: body.take (len.toNat + 2) ∧ rest = body.drop (len.toNat + 2) := by
  unfold readFrame
  split
  · rename_i nad pcb len body
    constructor
    · intro h
      split_ifs at h with hlen
      cases h
      exact ⟨nad, pcb, len, body, rfl, not_lt.mp hlen, rfl, rfl⟩
    · rintro ⟨nad', pcb', len', body', heq, hlen, rfl, rfl⟩
      cases heq
      rw [if_neg (not_lt.mpr hlen)]
  · rename_i hne
    constructor
    · intro h
      cases h
    · rintro ⟨nad, pcb, len, body, rfl, -⟩
      exact absurd rfl (hne nad pcb len body)

theorem readFrame_ne_fails (b : Bytes) : readFrame b ≠ .fails := by
  unfold readFrame
  split
  · split_ifs <;> exact nofun
  · exact nofun

def frames : Framing Bytes where
  next := readFrame
  shorter h := by
    obtain ⟨nad, pcb, len, body, rfl, -, -, rfl⟩ := readFrame_eq_message.mp h
    simp only [List.length_drop, List.length_cons]
    omega
  message_append c h := by
    obtain ⟨nad, pcb, len, body, rfl, hlen, rfl, rfl⟩ := readFrame_eq_message.mp h
    refine readFrame_eq_message.mpr ⟨nad, pcb, len, body ++ c, rfl, ?_, ?_, ?_⟩
    · rw [List.length_append]
      omega
    · rw [List.take_append_of_le_length hlen]
    · rw [List.drop_append_of_le_length hlen]
  fails_append c h := absurd h (readFrame_ne_fails _)

/-- A frame carries the length of its payload. -/
theorem readFrame_frameChunks {nad : UInt8} {ft : FrameType} {payload : Bytes} (h : payload.length ≤ 255) (c : Bytes) :
    readFrame ((frameChunks nad ft payload).flatten ++ c) = .message (frameChunks nad ft payload).flatten c := by
  have hto : (UInt8.ofNat payload.length).toNat = payload.length := by
    rw [UInt8.toNat_ofNat']
    omega
  have hlen : ∀ crc : UInt16, (payload ++ [loByte crc, hiByte crc]).length = payload.length + 2 := by simp
  simp only [frameChunks, buildFrame, List.flatten_cons, List.flatten_nil, List.append_nil, List.cons_append,
    List.nil_append]
  refine readFrame_eq_message.mpr ⟨nad, encodePcb ft, UInt8.ofNat payload.length, _, rfl, ?_, ?_, ?_⟩
  · rw [hto, List.length_append, hlen]
    omega
  · rw [hto, ← hlen, List.take_left]
  · rw [hto, ← hlen, List.drop_left]

/-! ### The server -/

/-- What the thread of a connection holds. -/
structure Link where
  t1 : T1Responder
  pendingChunks : List Bytes

/-- The loop that writes: a header and its payload, and it goes on only when nothing is left. -/
def writePending : List Bytes → Bytes × List Bytes
  | respHeader :: respPayloadCrc :: pending =>
    if pending.isEmpty = false then (respHeader ++ respPayloadCrc, pending) else (respHeader ++ respPayloadCrc, [])
  | pending => ([], pending)

/-- `handle_connection`, one frame. -/
def handleFrame (K : Crates) (store : ObjectStore) (link : Link) (env : Env) (frame : Bytes) :
    Except Panic (ObjectStore × Option (Link × Bytes)) :=
  match link.t1.processFrame K env store frame with
  | .error p => .error p
  | .ok (responseChunks, t1, store) =>
    let (out, pendingChunks) := writePending (link.pendingChunks ++ responseChunks)
    .ok (store, some (⟨t1, pendingChunks⟩, out))

def tcpServer (K : Crates) : Server ObjectStore Link Env Bytes Panic where
  framing := frames
  fresh := ⟨.new 0x5A, []⟩
  handle := handleFrame K

/-! ### Commands -/

/-- What of a responder a command can see or change. -/
structure Channel where
  scp03 : Scp03State
  selectedSsd : Bool
deriving DecidableEq

def T1Responder.channel (t : T1Responder) : Channel := ⟨t.scp03, t.selectedSsd⟩

/-- The responder with another channel. -/
def T1Responder.carry (t : T1Responder) (c : Channel) : T1Responder :=
  { t with scp03 := c.scp03, selectedSsd := c.selectedSsd }

@[simp] theorem carry_channel (t : T1Responder) (c : Channel) : (t.carry c).channel = c := rfl
@[simp] theorem channel_carry (t : T1Responder) : t.carry t.channel = t := rfl
@[simp] theorem carry_scp03 (t : T1Responder) (c : Channel) : (t.carry c).scp03 = c.scp03 := rfl
@[simp] theorem carry_selectedSsd (t : T1Responder) (c : Channel) : (t.carry c).selectedSsd = c.selectedSsd := rfl

/-- No secure channel, and no Security Domain selected. -/
def Channel.closed : Channel := (T1Responder.new 0x5A).channel

/-- A responder with the channel, and nothing under way. -/
def Channel.responder (c : Channel) : T1Responder := (T1Responder.new 0x5A).carry c

inductive Request
  | apdu (bytes : Bytes)
  /-- A soft reset or a resync. -/
  | reset
deriving DecidableEq

/-- A command APDU is executed, and answered. -/
def commandStep (K : Crates) (s : ObjectStore × Channel) (i : Env × Request) :
    Except Panic (Bytes × (ObjectStore × Channel)) :=
  match i.2 with
  | .apdu bytes =>
    match processApdu K i.1 s.1 s.2.responder bytes with
    | .error p => .error p
    | .ok (resp, t, store) => .ok (resp.toBytes, store, t.channel)
  | .reset => .ok ([], s.1, .closed)

/-- The others execute a command on the store, with a channel of their own, or do not touch it. -/
def Elsewhere (K : Crates) (s s' : ObjectStore × Channel) : Prop :=
  s'.2 = s.2 ∧ (s'.1 = s.1 ∨ ∃ c i o c', commandStep K (s.1, c) i = .ok (o, (s'.1, c')))

/-! ### What a host makes of its frames -/

/-- A frame of the host, and the frame that answered it. -/
abbrev Frame := Event (ObjectStore × Link) (Env × Bytes) (Option Bytes)

/-- A request, and the response to it. -/
abbrev Reply := Event (ObjectStore × Channel) (Env × Request) Bytes

structure Host where
  /-- The pieces of an APDU that were sent. -/
  sent : Bytes := []
  /-- A response that is not read to its end. -/
  reading : Option Reply := none
  done : List Reply := []

namespace Host

/-- A frame of the response. -/
def read (h : Host) (c : Reply) (frame : Bytes) : Option Host :=
  match parseFrame frame with
  | some ⟨_, .iFrame _ more, payload⟩ =>
    let c := { c with output := c.output ++ payload }
    some (if more then { h with reading := some c } else { h with reading := none, done := h.done ++ [c] })
  | _ => none

/-- None where the answer is not what T=1 prescribes. -/
def step (h : Host) (e : Frame) : Option Host :=
  let (env, data) := e.input
  let pre := (e.pre.1, e.pre.2.t1.channel)
  match h.reading with
  | some c => h.read c (e.output.getD [])
  | none =>
    match parseFrame data with
    | some ⟨_, .iFrame _ true, payload⟩ => some { h with sent := h.sent ++ payload }
    | some ⟨_, .iFrame _ false, payload⟩ =>
      { h with sent := [] }.read ⟨pre, (env, .apdu (h.sent ++ payload)), []⟩ (e.output.getD [])
    | some ⟨_, .sFrame code false, _⟩ =>
      if code = t1SInterfaceSoftReset ∨ code = 0x00 then
        some { h with sent := [], done := h.done ++ [⟨pre, (env, .reset), []⟩] }
      else some h
    | _ => some h

/-- The requests so far; of a response that is being read, `rest` is still to come. -/
def log (h : Host) (rest : Bytes) : List Reply :=
  h.done ++ (h.reading.map fun c => { c with output := c.output ++ rest }).toList

/-- What the host knows after its frames. -/
def after (log : List Frame) : Option Host := log.foldlM step {}

end Host

/-- The frame is part of a response, and more of it follows. -/
def moreFollows (frame : Bytes) : Bool :=
  match parseFrame frame with
  | some ⟨_, .iFrame _ more, _⟩ => more
  | _ => false

/-- An R-frame. -/
def isPoll (data : Bytes) : Bool :=
  match frameTypeOf data with
  | some (.rFrame _ _) => true
  | _ => false

/-- While more of a response follows, the host asks for it and for nothing else. -/
def Polite (log : List Frame) : Prop :=
  log.IsChain fun e e' => moreFollows (e.output.getD []) = true → isPoll e'.input.2 = true

/-! ### The responder behind a command -/

section Carry

variable (K : Crates) (env : Env) (s : ObjectStore) (base base' : T1Responder) (c : Channel) (apdu : Bytes)

/-- A result with the channel in another responder. -/
def recarry {α : Type} (base : T1Responder) : T1Result α → T1Result α
  | .error p => .error p
  | .ok (a, t, s) => .ok (a, base.carry t.channel, s)

/-- What `noteSelect` does to the channel. -/
theorem noteSelect_carry (cla ins : UInt8) : ∃ c',
    (base.carry c).noteSelect cla ins apdu = base.carry c' ∧ (base'.carry c).noteSelect cla ins apdu = base'.carry c' := by
  unfold noteSelect
  split
  · exact ⟨⟨_, _⟩, rfl, rfl⟩
  · exact ⟨c, rfl, rfl⟩

theorem initializeUpdate_carry : ∃ resp c', (base.carry c).initializeUpdate K env s apdu = (resp, base.carry c') ∧
    (base'.carry c).initializeUpdate K env s apdu = (resp, base'.carry c') := by
  unfold initializeUpdate
  split
  · exact ⟨_, ⟨_, _⟩, rfl, rfl⟩
  · exact ⟨_, c, rfl, rfl⟩

theorem wrappedCommand_carry :
    wrappedCommand K env s (base.carry c) apdu = recarry base (wrappedCommand K env s (base'.carry c) apdu) := by
  unfold wrappedCommand
  simp only [carry_scp03, carry_selectedSsd]
  cases c.scp03 with
  | idle => rfl
  | pending _ => rfl
  | active sess =>
    dsimp only
    rcases sess.unwrapCommand K apdu with (_ | _) | ⟨inner, sess⟩
    · rfl
    · rfl
    · dsimp only
      rcases innerCommand K env s c.selectedSsd inner with _ | ⟨resp, s'⟩
      · rfl
      · dsimp only
        rcases sess.wrapResponse K resp with (_ | e) | _
        · rfl
        · exact e.elim
        · rfl

theorem plainCommand_carry :
    plainCommand K env s (base.carry c) apdu = recarry base (plainCommand K env s (base'.carry c) apdu) := by
  unfold plainCommand
  rcases ParsedApdu.parse apdu with _ | a
  · rfl
  · dsimp only
    rcases dispatch K env a s false with _ | _ <;> rfl

/-- A command sees and changes the channel, and nothing else of the responder. -/
theorem processApdu_carry :
    processApdu K env s (base.carry c) apdu = recarry base (processApdu K env s (base'.carry c) apdu) := by
  unfold processApdu
  split
  · rename_i cla ins p1 p2 rest
    obtain ⟨c₁, h₁, h₁'⟩ := noteSelect_carry base base' c (cla :: ins :: p1 :: p2 :: rest) cla ins
    obtain ⟨resp, c₂, h₂, h₂'⟩ := initializeUpdate_carry K env s base base' c₁
      (cla :: ins :: p1 :: p2 :: rest)
    dsimp only
    simp only [h₁, h₁', h₂, h₂', carry_scp03, wrappedCommand_carry K env s base base',
      plainCommand_carry K env s base base']
    repeat' split
    all_goals rfl
  · exact plainCommand_carry K env s base base' c _

end Carry

/-! ### Frames on their way to the host -/

theorem parsePcb_encodePcb_rFrame (seq : SeqBit) : parsePcb (encodePcb (.rFrame seq.val 0)) = some (.rFrame seq.val 0) := by
  obtain ⟨_, rfl | rfl⟩ := seq <;> decide

theorem parsePcb_encodePcb_sFrame (code : UInt8) :
    parsePcb (encodePcb (.sFrame code true)) = some (.sFrame (code &&& 0x1F) true) := by
  obtain ⟨⟨c⟩⟩ := code
  revert c
  decide +kernel

theorem writePending_frameChunks (nad : UInt8) (ft : FrameType) (payload : Bytes) :
    writePending (frameChunks nad ft payload) = ((frameChunks nad ft payload).flatten, []) := by
  simp [frameChunks, writePending]

/-- One frame goes out, and the others wait. -/
theorem writePending_framesOf (nad : UInt8) (seq : SeqBit) (piece : Bytes) (ps : List Bytes) :
    writePending (framesOf nad seq (piece :: ps)).1 =
      ((frameChunks nad (.iFrame seq.val (!ps.isEmpty)) piece).flatten, (framesOf nad seq.toggle ps).1) := by
  cases ps with
  | nil => simp [framesOf, frameChunks, writePending]
  | cons p ps => simp [framesOf, frameChunks, writePending]

section Reading

variable {nad : UInt8} {seq : SeqBit} {more : Bool} {piece : Bytes}

theorem parseFrame_iFrame (h : piece.length ≤ 254) :
    parseFrame (frameChunks nad (.iFrame seq.val more) piece).flatten = some ⟨nad, .iFrame seq.val more, piece⟩ :=
  parseFrame_frameChunks (parsePcb_encodePcb_iFrame seq more) (by omega)

theorem moreFollows_iFrame (h : piece.length ≤ 254) :
    moreFollows (frameChunks nad (.iFrame seq.val more) piece).flatten = more := by
  rw [moreFollows, parseFrame_iFrame h]

/-- The host reads a frame of a response, of which the pieces `ps` are still to come. -/
theorem Host.read_iFrame (h : Host) (c : Reply) (nad : UInt8) (seq : SeqBit) (ps : List Bytes)
    (hp : piece.length ≤ 254) : ∃ h',
    h.read c (frameChunks nad (.iFrame seq.val (!ps.isEmpty)) piece).flatten = some h' ∧ h'.sent = h.sent ∧
      h'.reading.isSome = !ps.isEmpty ∧
      h'.log ps.flatten = h.done ++ [{ c with output := c.output ++ (piece :: ps).flatten }] := by
  unfold Host.read
  rw [parseFrame_iFrame hp]
  cases ps with
  | nil => exact ⟨_, rfl, rfl, rfl, by simp [Host.log]⟩
  | cons p ps => exact ⟨_, rfl, rfl, rfl, by simp [Host.log]⟩

end Reading

/-! ### Host and connection -/

/-- What the queue and the buffer of a connection hold: the response that the host has not read yet (`rest`), and
the pieces of an APDU that it has sent. -/
structure Host.Tracks (h : Host) (rest : Bytes) (link : Link) : Prop where
  waiting : ∃ nad seq ps, link.pendingChunks = (framesOf nad seq ps).1 ∧ (∀ piece ∈ ps, piece.length ≤ 254) ∧
    rest = ps.flatten ∧ h.reading.isSome = !ps.isEmpty
  buffer : link.t1.apduReassembly = h.sent

/-- A frame is a request, or none. -/
def Taken (K : Crates) (before after : List Reply) (st st' : ObjectStore × Channel) : Prop :=
  after = before ∧ st' = st ∨
    ∃ k out, after = before ++ [⟨st, k, out⟩] ∧ commandStep K st k = .ok (out, st')

/-- The host knows what to make of the answer, and it has as many requests answered as the connection. -/
def Host.Understands (K : Crates) (h : Host) (rest : Bytes) (e : Frame) (next : ObjectStore × Link) : Prop :=
  ∃ h' rest', h.step e = some h' ∧ h'.Tracks rest' next.2 ∧ moreFollows (e.output.getD []) = h'.reading.isSome ∧
    Taken K (h.log rest) (h'.log rest') (e.pre.1, e.pre.2.t1.channel) (next.1, next.2.t1.channel)

section Step

variable {K : Crates} {env : Env} {data : Bytes} {store store' : ObjectStore} {link link' : Link} {h : Host}
  {rest : Bytes} {o : Option Bytes}

/-- The step of a connection, from what the responder does. -/
theorem localStep_eq {chunks : List Bytes} {t : T1Responder} {s : ObjectStore}
    (hf : link.t1.processFrame K env store data = .ok (chunks, t, s)) :
    (tcpServer K).localStep (store, link) (env, data) =
      .ok (some (writePending (link.pendingChunks ++ chunks)).1, s,
        ⟨t, (writePending (link.pendingChunks ++ chunks)).2⟩) := by
  have hhandle : (tcpServer K).handle store link env data = handleFrame K store link env data := rfl
  simp only [Server.localStep, hhandle, handleFrame, hf]

/-- A frame was processed, and the queue written from. -/
theorem localStep_eq_ok {i : Env × Bytes} (h : (tcpServer K).localStep (store, link) i = .ok (o, (store', link'))) :
    ∃ chunks t, link.t1.processFrame K i.1 store i.2 = .ok (chunks, t, store') ∧
      o = some (writePending (link.pendingChunks ++ chunks)).1 ∧
      link' = ⟨t, (writePending (link.pendingChunks ++ chunks)).2⟩ := by
  obtain ⟨env, data⟩ := i
  have hhandle : (tcpServer K).handle store link env data = handleFrame K store link env data := rfl
  rcases hf : processFrame K env store link.t1 data with p | ⟨chunks, t, s⟩
  · simp only [Server.localStep, hhandle, handleFrame, hf] at h
    cases h
  · rw [localStep_eq hf] at h
    cases h
    exact ⟨chunks, t, rfl, rfl, rfl⟩

/-- Nothing waits for a host that is not reading. -/
theorem Host.Tracks.nothing_waits (ht : h.Tracks rest link) (hr : h.reading = none) :
    link.pendingChunks = [] ∧ rest = [] := by
  obtain ⟨nad, seq, ps, hpending, -, hrest, hps⟩ := ht.waiting
  rw [hr, Option.isSome_none] at hps
  have hnil : ps = [] := by simpa using hps.symm
  subst hnil
  exact ⟨hpending, hrest⟩

theorem Host.log_of_idle (hr : h.reading = none) : h.log rest = h.done := by simp [Host.log, hr]

/-- The host is not reading, and a frame comes that is answered by at most one frame. -/
theorem Host.Tracks.idle {h' : Host} {t : T1Responder} {chunks : List Bytes} (hr : h'.reading = none)
    (hbuf : t.apduReassembly = h'.sent) (hwrite : (writePending chunks).2 = []) :
    h'.Tracks [] ⟨t, (writePending chunks).2⟩ :=
  ⟨⟨0, .zero, [], hwrite, by simp, rfl, by rw [hr]; rfl⟩, hbuf⟩

/-- A poll of a host that is reading: the next frame of the response. -/
theorem Host.Tracks.follows_poll {c : Reply} (ht : h.Tracks rest link) (hr : h.reading = some c) (hpoll : isPoll data = true)
    (hs : (tcpServer K).localStep (store, link) (env, data) = .ok (o, (store', link'))) :
    h.Understands K rest ⟨(store, link), (env, data), o⟩ (store', link') := by
  have hframe : link.t1.processFrame K env store data = .ok ([], link.t1, store) := by
    unfold isPoll frameTypeOf at hpoll
    unfold processFrame
    split at hpoll
    · rename_i hft
      obtain ⟨f, hf, hft⟩ := Option.map_eq_some_iff.mp hft
      simp only [hf, hft]
    · cases hpoll
  obtain ⟨nad, seq, ps, hpending, hsmall, rfl, hps⟩ := ht.waiting
  rw [hr, Option.isSome_some] at hps
  obtain ⟨piece, ps, rfl⟩ : ∃ piece ps', ps = piece :: ps' := List.exists_cons_of_ne_nil (by simpa using hps.symm)
  have hpiece := hsmall piece List.mem_cons_self
  rw [localStep_eq hframe, List.append_nil, hpending, writePending_framesOf] at hs
  cases hs
  obtain ⟨h', hread, hsent, hreading, hlog⟩ := h.read_iFrame c nad seq ps hpiece
  refine ⟨h', ps.flatten, ?_, ⟨?_, ?_⟩, ?_, .inl ⟨?_, rfl⟩⟩
  · simp only [Host.step, hr]
    exact hread
  · exact ⟨nad, seq.toggle, ps, rfl, fun p hp => hsmall p (List.mem_cons_of_mem _ hp), rfl, hreading⟩
  · exact ht.buffer.trans hsent.symm
  · rw [hreading]
    exact moreFollows_iFrame hpiece
  · rw [hlog]
    simp [Host.log, hr]

/-- The last piece of an APDU: it is executed, and the first frame of the response goes out. -/
theorem Host.Tracks.follows_last {nad seq : UInt8} {payload : Bytes} (ht : h.Tracks rest link) (hr : h.reading = none)
    (hdata : parseFrame data = some ⟨nad, .iFrame seq false, payload⟩)
    (hs : (tcpServer K).localStep (store, link) (env, data) = .ok (o, (store', link'))) :
    h.Understands K rest ⟨(store, link), (env, data), o⟩ (store', link') := by
  obtain ⟨hpending, -⟩ := ht.nothing_waits hr
  have hcarry := processApdu_carry K env store
    { link.t1 with iseqRcv := link.t1.iseqRcv.toggle, apduReassembly := [] } (T1Responder.new 0x5A) link.t1.channel
    (h.sent ++ payload)
  have hapdu : processFrame K env store link.t1 data =
      match processApdu K env store link.t1.channel.responder (h.sent ++ payload) with
      | .error p => .error p
      | .ok (resp, t, s) =>
        let t := { link.t1 with iseqRcv := link.t1.iseqRcv.toggle, apduReassembly := [] }.carry t.channel
        .ok ((t.buildResponseFrames resp.toBytes).1, (t.buildResponseFrames resp.toBytes).2, s) := by
    unfold processFrame
    rw [hdata]
    simp only [handleIFrame, ht.buffer, Bool.false_eq_true, if_false]
    have hbase : ({ link.t1 with iseqRcv := link.t1.iseqRcv.toggle, apduReassembly := [] } : T1Responder) =
      { link.t1 with iseqRcv := link.t1.iseqRcv.toggle, apduReassembly := [] }.carry link.t1.channel := rfl
    rw [hbase, hcarry]
    unfold Channel.responder
    generalize processApdu K env store ((T1Responder.new 0x5A).carry link.t1.channel) (h.sent ++ payload) = r
    rcases r with _ | ⟨resp, t, s⟩ <;> rfl
  rcases hr' : processApdu K env store link.t1.channel.responder (h.sent ++ payload) with p | ⟨resp, t, s⟩
  · rw [hr'] at hapdu
    obtain ⟨chunks, t, hf, -⟩ := localStep_eq_ok hs
    rw [hapdu] at hf
    cases hf
  · rw [hr'] at hapdu
    rw [localStep_eq hapdu, hpending, List.nil_append] at hs
    cases hs
    obtain ⟨piece, ps, hpieces⟩ := List.exists_cons_of_ne_nil (pieces_ne_nil resp.toBytes)
    have hpiece : piece.length ≤ 254 := pieces_length_le (hpieces ▸ List.mem_cons_self)
    have hframes : (buildResponseFrames
        ({ link.t1 with iseqRcv := link.t1.iseqRcv.toggle, apduReassembly := [] }.carry t.channel) resp.toBytes).1 =
        (framesOf link.t1.nadSe2hd link.t1.iseqSnd (piece :: ps)).1 := by rw [← hpieces]; rfl
    dsimp only
    rw [hframes, writePending_framesOf]
    obtain ⟨h', hread, hsent, hreading, hlog⟩ := Host.read_iFrame { h with sent := [] }
      ⟨(store, link.t1.channel), (env, .apdu (h.sent ++ payload)), []⟩ link.t1.nadSe2hd link.t1.iseqSnd ps hpiece
    refine ⟨h', ps.flatten, ?_, ⟨?_, hsent.symm⟩, ?_, .inr ⟨(env, .apdu (h.sent ++ payload)), resp.toBytes, ?_, ?_⟩⟩
    · simp only [Host.step, hr, hdata]
      exact hread
    · refine ⟨_, _, ps, rfl, fun p hp => ?_, rfl, hreading⟩
      exact pieces_length_le (hpieces ▸ List.mem_cons_of_mem piece hp)
    · rw [hreading]
      exact moreFollows_iFrame hpiece
    · rw [hlog, Host.log_of_idle hr, ← hpieces, pieces_flatten]
      rfl
    · simp only [commandStep, hr']
      rfl

/-- A piece of an APDU, with more to come: an acknowledgement. -/
theorem Host.Tracks.follows_more {nad seq : UInt8} {payload : Bytes} (ht : h.Tracks rest link) (hr : h.reading = none)
    (hdata : parseFrame data = some ⟨nad, .iFrame seq true, payload⟩)
    (hs : (tcpServer K).localStep (store, link) (env, data) = .ok (o, (store', link'))) :
    h.Understands K rest ⟨(store, link), (env, data), o⟩ (store', link') := by
  obtain ⟨hpending, -⟩ := ht.nothing_waits hr
  have hframe : processFrame K env store link.t1 data =
      .ok (frameChunks link.t1.nadSe2hd (.rFrame link.t1.iseqRcv.toggle.val 0) [],
        { link.t1 with iseqRcv := link.t1.iseqRcv.toggle, apduReassembly := h.sent ++ payload }, store) := by
    unfold processFrame
    rw [hdata]
    simp only [handleIFrame, ht.buffer, if_true]
  rw [localStep_eq hframe, hpending, List.nil_append] at hs
  cases hs
  refine ⟨{ h with sent := h.sent ++ payload }, [], ?_, ?_, ?_, .inl ⟨?_, rfl⟩⟩
  · simp only [Host.step, hr, hdata]
  · refine Host.Tracks.idle hr rfl ?_
    rw [writePending_frameChunks]
  · rw [writePending_frameChunks, Option.getD_some, moreFollows,
      parseFrame_chunks (parsePcb_encodePcb_rFrame _) (Nat.zero_le _), hr]
    rfl
  · rw [Host.log_of_idle hr, Host.log_of_idle (h := { h with sent := h.sent ++ payload }) hr]

/-- What a request for a service answers is no part of a response. -/
theorem handleSRequest_chunks (t : T1Responder) (code : UInt8) : ∃ payload,
    (t.handleSRequest code).1 = frameChunks t.nadSe2hd (.sFrame code true) payload ∧
      moreFollows (frameChunks t.nadSe2hd (.sFrame code true) payload).flatten = false := by
  have hmore : ∀ payload : Bytes, payload.length ≤ 255 →
      moreFollows (frameChunks t.nadSe2hd (.sFrame code true) payload).flatten = false := by
    intro payload hlen
    rw [moreFollows, parseFrame_chunks (parsePcb_encodePcb_sFrame code) hlen]
  unfold handleSRequest
  split_ifs
  · exact ⟨atrData, rfl, hmore _ (by decide)⟩
  · exact ⟨[], rfl, hmore _ (by decide)⟩
  · exact ⟨atrData, rfl, hmore _ (by decide)⟩
  · exact ⟨[], rfl, hmore _ (by decide)⟩

/-- A reset forgets the pieces that were sent, and closes the channel; the other services change nothing. -/
theorem handleSRequest_responder (t : T1Responder) (code : UInt8) : (t.handleSRequest code).2 =
    if code = t1SInterfaceSoftReset ∨ code = 0x00 then t.reset else t := by
  unfold handleSRequest
  by_cases h1 : code = t1SInterfaceSoftReset
  · rw [if_pos h1, if_pos (.inl h1)]
  · by_cases h2 : code = 0x00
    · rw [if_neg h1, if_pos h2, if_pos (.inr h2)]
    · rw [if_neg h1, if_neg h2, if_neg (not_or.mpr ⟨h1, h2⟩)]
      split_ifs <;> rfl

/-- A request for a service. -/
theorem Host.Tracks.follows_service {nad code : UInt8} {payload : Bytes} (ht : h.Tracks rest link) (hr : h.reading = none)
    (hdata : parseFrame data = some ⟨nad, .sFrame code false, payload⟩)
    (hs : (tcpServer K).localStep (store, link) (env, data) = .ok (o, (store', link'))) :
    h.Understands K rest ⟨(store, link), (env, data), o⟩ (store', link') := by
  obtain ⟨hpending, -⟩ := ht.nothing_waits hr
  obtain ⟨answer, hchunks, hmore⟩ := handleSRequest_chunks link.t1 code
  have hframe : processFrame K env store link.t1 data =
      .ok (frameChunks link.t1.nadSe2hd (.sFrame code true) answer, (link.t1.handleSRequest code).2, store) := by
    unfold processFrame
    rw [hdata, ← hchunks]
  rw [localStep_eq hframe, hpending, List.nil_append] at hs
  cases hs
  rw [handleSRequest_responder]
  by_cases hcode : code = t1SInterfaceSoftReset ∨ code = 0x00
  · rw [if_pos hcode]
    refine ⟨{ h with sent := [], done := h.done ++ [⟨(store, link.t1.channel), (env, .reset), []⟩] }, [], ?_, ?_, ?_,
      .inr ⟨(env, .reset), [], ?_, rfl⟩⟩
    · simp only [Host.step, hr, hdata, if_pos hcode]
    · refine Host.Tracks.idle hr rfl ?_
      rw [writePending_frameChunks]
    · rw [writePending_frameChunks, Option.getD_some, hmore, hr]
      rfl
    · rw [Host.log_of_idle hr]
      exact Host.log_of_idle hr
  · rw [if_neg hcode]
    refine ⟨h, [], ?_, ?_, ?_, .inl ⟨?_, rfl⟩⟩
    · simp only [Host.step, hr, hdata, if_neg hcode]
    · refine Host.Tracks.idle hr ht.buffer ?_
      rw [writePending_frameChunks]
    · rw [writePending_frameChunks, Option.getD_some, hmore, hr]
      rfl
    · rw [Host.log_of_idle hr, Host.log_of_idle hr]

/-- A frame that is not for the responder. -/
theorem Host.Tracks.follows_nothing (ht : h.Tracks rest link) (hr : h.reading = none)
    (hstep : h.step ⟨(store, link), (env, data), o⟩ = some h)
    (hframe : processFrame K env store link.t1 data = .ok ([], link.t1, store))
    (hs : (tcpServer K).localStep (store, link) (env, data) = .ok (o, (store', link'))) :
    h.Understands K rest ⟨(store, link), (env, data), o⟩ (store', link') := by
  obtain ⟨hpending, hrest⟩ := ht.nothing_waits hr
  rw [localStep_eq hframe, hpending, List.append_nil] at hs
  cases hs
  refine ⟨h, rest, hstep, ?_, ?_, .inl ⟨rfl, rfl⟩⟩
  · rw [hrest]
    exact Host.Tracks.idle hr ht.buffer rfl
  · rw [hr]
    rfl

/-- A frame of a polite host. -/
theorem Host.Tracks.follows (ht : h.Tracks rest link) (hpoll : h.reading.isSome = true → isPoll data = true)
    (hs : (tcpServer K).localStep (store, link) (env, data) = .ok (o, (store', link'))) :
    h.Understands K rest ⟨(store, link), (env, data), o⟩ (store', link') := by
  rcases hr : h.reading with _ | c
  · rcases hdata : parseFrame data with _ | ⟨nad, ft, payload⟩
    · refine ht.follows_nothing hr ?_ ?_ hs
      · simp only [Host.step, hr, hdata]
      · simp only [processFrame, hdata]
    · cases ft with
      | iFrame seq more =>
        cases more with
        | true => exact ht.follows_more hr hdata hs
        | false => exact ht.follows_last hr hdata hs
      | rFrame seq err =>
        refine ht.follows_nothing hr ?_ ?_ hs
        · simp only [Host.step, hr, hdata]
        · simp only [processFrame, hdata]
      | sFrame code isResponse =>
        cases isResponse with
        | true =>
          refine ht.follows_nothing hr ?_ ?_ hs
          · simp only [Host.step, hr, hdata]
          · simp only [processFrame, hdata]
        | false => exact ht.follows_service hr hdata hs
  · exact ht.follows_poll hr (hpoll (by rw [hr]; rfl)) hs

end Step

/-! ### A connection among the others -/

section Server

variable {K : Crates} {ι : Type} [DecidableEq ι]

theorem commandStep_of_processApdu {env : Env} {t t' : T1Responder} {bytes : Bytes} {resp : ApduResponse}
    {s s' : ObjectStore} (h : processApdu K env s t bytes = .ok (resp, t', s')) :
    commandStep K (s, t.channel) (env, .apdu bytes) = .ok (resp.toBytes, (s', t'.channel)) := by
  have hcarry : processApdu K env s t bytes = recarry t (processApdu K env s t.channel.responder bytes) :=
    processApdu_carry K env s t (T1Responder.new 0x5A) t.channel bytes
  rw [hcarry] at h
  unfold recarry at h
  split at h
  · cases h
  · rename_i hp
    cases h
    simp only [commandStep, hp, carry_channel]

/-- A frame leaves the store alone, or has one command executed. -/
theorem processFrame_store {env : Env} {t t' : T1Responder} {data : Bytes} {out : List Bytes} {s s' : ObjectStore}
    (h : processFrame K env s t data = .ok (out, t', s')) :
    s' = s ∨ ∃ c i o c', commandStep K (s, c) i = .ok (o, (s', c')) := by
  unfold processFrame at h
  split at h
  · cases h
    exact .inl rfl
  · split at h
    · cases h
      exact .inl rfl
    · rename_i more _
      unfold handleIFrame at h
      dsimp only at h
      split at h
      · cases h
        exact .inl rfl
      · split at h
        · cases h
        · rename_i hr
          cases h
          exact .inr ⟨_, _, _, _, commandStep_of_processApdu hr⟩
    · cases h
      exact .inl rfl
    · cases h
      exact .inl rfl

theorem localStep_store {store store' : ObjectStore} {link link' : Link} {i : Env × Bytes} {o : Option Bytes}
    (h : (tcpServer K).localStep (store, link) i = .ok (o, (store', link'))) :
    store' = store ∨ ∃ c i o c', commandStep K (store, c) i = .ok (o, (store', c')) := by
  obtain ⟨chunks, t, hf, -, -⟩ := localStep_eq_ok h
  exact processFrame_store hf

/-- A connection and its host after some frames. -/
def InStep (K : Crates) (store₀ : ObjectStore) (past : List Frame) (s : ObjectStore × Link) : Prop :=
  ∃ h rest, Host.after past = some h ∧ h.Tracks rest s.2 ∧
    (past.getLast?.any fun e => moreFollows (e.output.getD [])) = h.reading.isSome ∧
    Amid (commandStep K) (Elsewhere K) (store₀, .closed) (h.log rest) (s.1, s.2.t1.channel)

theorem polite_concat {past : List Frame} {e : Frame} (h : Polite (past ++ [e])) :
    Polite past ∧ ((past.getLast?.any fun e => moreFollows (e.output.getD [])) = true → isPoll e.input.2 = true) := by
  obtain ⟨hpast, -, hlast⟩ := List.isChain_append.mp h
  refine ⟨hpast, fun hmore => ?_⟩
  obtain ⟨last, hl, hm⟩ := (Option.any_eq_true _ _).mp hmore
  exact hlast last hl e rfl hm

theorem InStep.own {store₀ : ObjectStore} {past : List Frame} {s s' : ObjectStore × Link} {i : Env × Bytes}
    {o : Option Bytes} (h : InStep K store₀ past s) (hs : (tcpServer K).localStep s i = .ok (o, s'))
    (hpoll : (past.getLast?.any fun e => moreFollows (e.output.getD [])) = true → isPoll i.2 = true) :
    InStep K store₀ (past ++ [⟨s, i, o⟩]) s' := by
  obtain ⟨host, rest, hafter, htracks, hmore, hamid⟩ := h
  obtain ⟨host', rest', hstep, htracks', hmore', htaken⟩ := htracks.follows (fun hr => hpoll (hmore.trans hr)) hs
  refine ⟨host', rest', ?_, htracks', ?_, ?_⟩
  · have hprev : past.foldlM Host.step {} = some host := hafter
    rw [Host.after, List.foldlM_append, hprev]
    simpa using hstep
  · rw [List.getLast?_append]
    exact hmore'
  · rcases htaken with ⟨hlog, hst⟩ | ⟨k, out, hlog, hst⟩
    · rw [hlog, hst]
      exact hamid
    · rw [hlog]
      exact hamid.own hst

/-- What a polite host and its connection have gone through, whatever the others did. -/
theorem amid_inStep {store₀ : ObjectStore} {log : List Frame} {s : ObjectStore × Link}
    (h : Amid (tcpServer K).localStep (tcpServer K).Others (store₀, (tcpServer K).fresh) log s) :
    Polite log → InStep K store₀ log s := by
  refine h.history (I := fun log s => Polite log → InStep K store₀ log s) (fun past s i o s' ih hs hp => ?_)
    (fun past s s' ih he hp => ?_) fun _ => ?_
  · obtain ⟨hpast, hpoll⟩ := polite_concat hp
    exact (ih hpast).own hs hpoll
  · obtain ⟨host, rest, hafter, htracks, hmore, hamid⟩ := ih hp
    obtain ⟨hown, k, i, o, k', hlocal⟩ := he
    refine ⟨host, rest, hafter, hown ▸ htracks, hmore, hamid.env ⟨?_, localStep_store hlocal⟩⟩
    rw [hown]
  · exact ⟨{}, [], rfl, ⟨⟨0, .zero, [], rfl, by simp, rfl, rfl⟩, rfl⟩, rfl, .nil⟩

/-! ### What goes out is frames -/

/-- The chunks of frames that the host can read. -/
def Whole (chunks : List Bytes) : Prop :=
  ∃ fs : List T1Frame, chunks = fs.flatMap (fun f => frameChunks f.nad f.frameType f.payload) ∧
    ∀ f ∈ fs, f.payload.length ≤ 254

theorem whole_nil : Whole [] := ⟨[], rfl, by simp⟩

theorem Whole.append {q q' : List Bytes} (h : Whole q) (h' : Whole q') : Whole (q ++ q') := by
  obtain ⟨fs, rfl, hfs⟩ := h
  obtain ⟨fs', rfl, hfs'⟩ := h'
  refine ⟨fs ++ fs', List.flatMap_append.symm, fun f hf => ?_⟩
  exact (List.mem_append.mp hf).elim (hfs f) (hfs' f)

theorem whole_frameChunks (nad : UInt8) (ft : FrameType) {payload : Bytes} (h : payload.length ≤ 254) :
    Whole (frameChunks nad ft payload) :=
  ⟨[⟨nad, ft, payload⟩], (List.append_nil _).symm, by simpa using h⟩

theorem whole_framesOf (nad : UInt8) : ∀ (ps : List Bytes) (seq : SeqBit), (∀ p ∈ ps, p.length ≤ 254) →
    Whole (framesOf nad seq ps).1
  | [], _, _ => whole_nil
  | p :: ps, seq, h =>
    (whole_frameChunks nad _ (h p List.mem_cons_self)).append
      (whole_framesOf nad ps seq.toggle fun q hq => h q (List.mem_cons_of_mem p hq))

theorem handleSRequest_whole (t : T1Responder) (code : UInt8) : Whole (t.handleSRequest code).1 := by
  unfold handleSRequest
  split_ifs <;> exact whole_frameChunks _ _ (by decide)

/-- The responder builds whole frames. -/
theorem processFrame_whole {env : Env} {s s' : ObjectStore} {t t' : T1Responder} {data : Bytes} {out : List Bytes}
    (h : processFrame K env s t data = .ok (out, t', s')) : Whole out := by
  unfold processFrame at h
  split at h
  · cases h
    exact whole_nil
  · split at h
    · cases h
      exact handleSRequest_whole _ _
    · unfold handleIFrame at h
      dsimp only at h
      split at h
      · cases h
        exact whole_frameChunks _ _ (Nat.zero_le _)
      · split at h
        · cases h
        · cases h
          exact whole_framesOf _ _ _ fun p hp => pieces_length_le hp
    · cases h
      exact whole_nil
    · cases h
      exact whole_nil

/-- The frame that answered a frame, if there is one. -/
def answer (o : Option Bytes) : Option Bytes := o.filter (· ≠ [])

theorem frameChunks_flatten_ne_nil (nad : UInt8) (ft : FrameType) (payload : Bytes) :
    (frameChunks nad ft payload).flatten ≠ [] := by
  simp [frameChunks, buildFrame]

/-- At most one frame goes out, and whole frames stay. -/
theorem Whole.write {q : List Bytes} (h : Whole q) :
    Whole (writePending q).2 ∧ frames.Reads (answer (some (writePending q).1)) (writePending q).1 := by
  obtain ⟨fs, rfl, hfs⟩ := h
  cases fs with
  | nil => exact ⟨whole_nil, rfl⟩
  | cons f fs =>
    have hwrite : writePending ((f :: fs).flatMap fun f => frameChunks f.nad f.frameType f.payload) =
        ((frameChunks f.nad f.frameType f.payload).flatten,
          fs.flatMap fun f => frameChunks f.nad f.frameType f.payload) := by
      cases fs with
      | nil => exact writePending_frameChunks f.nad f.frameType f.payload
      | cons g gs => simp [frameChunks, writePending]
    have hanswer : answer (some (frameChunks f.nad f.frameType f.payload).flatten) =
        some (frameChunks f.nad f.frameType f.payload).flatten := by
      rw [answer, Option.filter_some, if_pos (decide_eq_true (frameChunks_flatten_ne_nil _ _ _))]
    have hlen := hfs f List.mem_cons_self
    rw [hwrite, hanswer]
    exact ⟨⟨fs, rfl, fun g hg => hfs g (List.mem_cons_of_mem f hg)⟩, fun c => readFrame_frameChunks (by omega) c⟩

theorem localStep_whole {store store' : ObjectStore} {link link' : Link} {i : Env × Bytes} {o : Option Bytes}
    (hw : Whole link.pendingChunks) (h : (tcpServer K).localStep (store, link) i = .ok (o, (store', link'))) :
    Whole link'.pendingChunks ∧ frames.Reads (answer o) (o.getD []) := by
  obtain ⟨chunks, t, hf, rfl, rfl⟩ := localStep_eq_ok h
  exact (hw.append (processFrame_whole hf)).write

/-- However the connections cut their bytes and take turns: a connection is sent whole frames, at most one for each
frame it sends. If its host reads every response to its end, it has its requests answered one after the other, each
from the store that the others left and from the channel that its own requests left. -/
theorem connections_exchange_apdus (K : Crates) (store₀ : ObjectStore) (es : List (ServerEvent ι Env)) (i : ι) :
    let sys := (tcpServer K).after store₀ es
    let log := (ofConn i ((tcpServer K).handled store₀ es)).map (Server.seenBy i)
    frames.Parses (received es i) (log.map (·.input.2)) (sys.conns i).input ∧
      frames.Parses (sys.conns i).output (log.filterMap fun e => answer e.output) [] ∧
      (Polite log → ∃ h rest, Host.after log = some h ∧
        Amid (commandStep K) (Elsewhere K) (store₀, .closed) (h.log rest)
          (sys.shared, (sys.conns i).own.t1.channel) ∧
        (h.reading = none → rest = [])) := by
  intro sys log
  have hrun := (tcpServer K).run_serial store₀ es
  obtain ⟨hparses, houtput⟩ := (tcpServer K).run_connection store₀ es i
  refine ⟨?_, ?_, fun hp => ?_⟩
  · rw [List.map_map]
    exact hparses
  · have hwhole : ∀ v c o v', (∀ j : ι, Whole (v.2 j).pendingChunks) → (tcpServer K).serialStep v c = .ok (o, v') →
        ∀ j, Whole (v'.2 j).pendingChunks := by
      intro v c o v' hv hs j
      obtain ⟨own, hlocal, hown⟩ := Server.serialStep_local hs
      rw [hown]
      by_cases hj : j = c.conn
      · rw [hj, Function.update_self]
        exact (localStep_whole (hv c.conn) hlocal).1
      · rw [Function.update_of_ne hj]
        exact hv j
    rw [houtput, List.filterMap_map]
    refine frames.parses_flatMap fun e he => ?_
    obtain ⟨hmem, -⟩ := List.mem_filter.mp he
    obtain ⟨hpre, v', hs⟩ := hrun.step_of_mem hwhole (fun _ => whole_nil) hmem
    obtain ⟨own, hlocal, -⟩ := Server.serialStep_local hs
    exact (localStep_whole (hpre e.input.conn) hlocal).2
  · obtain ⟨h, rest, hafter, htracks, -, hamid⟩ := amid_inStep (Server.run_amid hrun i) hp
    exact ⟨h, rest, hafter, hamid, fun hr => (htracks.nothing_waits hr).2⟩

def frameBytes (ft : FrameType) (payload : Bytes) : Bytes := (frameChunks 0x5A ft payload).flatten

/-- 300 random bytes. -/
def getRandom : Bytes := [0x80, 0x04, 0x00, 0x49, 0x04, 0x41, 0x02, 0x01, 0x2C]

/-- One connection asks for random bytes in two pieces and reads the response in two frames; another one resets its
own responder in between. -/
def twoHosts : List (ServerEvent Bool Env) :=
  [.arrive false (frameBytes (.iFrame 0 true) (getRandom.take 5)), .arrive true (frameBytes (.sFrame 0x0F false) []),
    .turn false Env.unset, .turn true Env.unset, .arrive false (frameBytes (.iFrame 1 false) (getRandom.drop 5)),
    .turn false Env.unset, .arrive false (frameBytes (.rFrame 1 0) []), .turn false Env.unset]

instance (log : List Frame) : Decidable (Polite log) := inferInstanceAs (Decidable (List.IsChain _ _))

set_option maxRecDepth 4000 in
theorem twoHosts_exchange :
    let sys := (tcpServer Crates.blank).after ObjectStore.new twoHosts
    let log := (ofConn false ((tcpServer Crates.blank).handled ObjectStore.new twoHosts)).map (Server.seenBy false)
    (Host.after log).map (fun h => h.done.map fun e => (e.input.2, e.output.length)) =
        some [(.apdu getRandom, 306)] ∧
      ∃ h rest, Host.after log = some h ∧
        Amid (commandStep Crates.blank) (Elsewhere Crates.blank) (ObjectStore.new, .closed) (h.log rest)
          (sys.shared, (sys.conns false).own.t1.channel) ∧
        (h.reading = none → rest = []) := by
  intro sys log
  have hpolite : Polite log := by decide +kernel
  exact ⟨by decide +kernel, (connections_exchange_apdus Crates.blank ObjectStore.new twoHosts false).2.2 hpolite⟩

end Server

end SE050
end Simulators
