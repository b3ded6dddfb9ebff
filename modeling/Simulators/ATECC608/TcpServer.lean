/-
# ATECC608: the TCP server

`bin/tcp_server.rs`: every connection has a session of its own, and all of
them share the device in the store, which is saved after every packet.

On the wire a word address comes first; only `0x03` has a packet behind it.
Wake and idle are silent and keep TempKey and the SHA context, sleep clears
them. The other connections can change the device between two packets, but
not the session (`Server.run_amid`): what SHA End, Sign and Verify answer on a
connection follows from what that connection has sent, no matter what the
others do (`connections_follow_their_own_history`).

The file is modelled by the device that was written to it.
-/
import Simulators.Lib.Server
import Simulators.ATECC608.Volatile

namespace Simulators
namespace ATECC608

/-! ### Framing -/

/-- `read_and_dispatch`, the packet: the count includes itself. Responses have the same form. -/
def readPacket : Bytes → Arrival Bytes
  | [] => .waits
  | count :: bytes =>
    if count = 0 then .fails
    else if bytes.length < count.toNat - 1 then .waits
    else .message (count :: bytes.take (count.toNat - 1)) (bytes.drop (count.toNat - 1))

/-- What a connection sends. -/
inductive Word
  /-- Wake or idle. -/
  | silent
  | sleep
  | command (packet : Bytes)
deriving DecidableEq, Repr

/-- `handle_connection`, the word address and what comes with it. -/
def readWord : Bytes → Arrival Word
  | [] => .waits
  | wordAddr :: rest =>
    if wordAddr = 0x00 ∨ wordAddr = 0x02 then .message .silent rest
    else if wordAddr = 0x01 then .message .sleep rest
    else if wordAddr = 0x03 then
      match readPacket rest with
      | .waits => .waits
      | .fails => .fails
      | .message packet rest => .message (.command packet) rest
    else .fails

section Framing

variable {b rest : Bytes} {count : UInt8}

theorem readPacket_eq_message {packet : Bytes} : readPacket b = .message packet rest ↔
    ∃ count bytes, b = count :: bytes ∧ count ≠ 0 ∧ count.toNat - 1 ≤ bytes.length ∧
      packet = count :: bytes.take (count.toNat - 1) ∧ rest = bytes.drop (count.toNat - 1) := by
  unfold readPacket
  rcases b with _ | ⟨count, bytes⟩
  · simp
  · dsimp only
    constructor
    · intro h
      split_ifs at h with h0 hlen
      cases h
      exact ⟨count, bytes, rfl, h0, not_lt.mp hlen, rfl, rfl⟩
    · rintro ⟨count', bytes', heq, h0, hlen, rfl, rfl⟩
      cases heq
      rw [if_neg h0, if_neg (not_lt.mpr hlen)]

theorem readPacket_eq_fails : readPacket b = .fails ↔ ∃ bytes, b = 0 :: bytes := by
  unfold readPacket
  rcases b with _ | ⟨count, bytes⟩
  · simp
  · dsimp only
    split_ifs with h0 hlen
    · simp [h0]
    · simp [h0]
    · simp [h0]

/-- Packets on a stream. -/
def packets : Framing Bytes where
  next := readPacket
  shorter h := by
    obtain ⟨count, bytes, rfl, -, -, -, rfl⟩ := readPacket_eq_message.mp h
    simp only [List.length_drop, List.length_cons]
    omega
  message_append c h := by
    obtain ⟨count, bytes, rfl, h0, hlen, rfl, rfl⟩ := readPacket_eq_message.mp h
    refine readPacket_eq_message.mpr ⟨count, bytes ++ c, rfl, h0, ?_, ?_, ?_⟩
    · rw [List.length_append]
      omega
    · rw [List.take_append_of_le_length hlen]
    · rw [List.drop_append_of_le_length hlen]
  fails_append c h := by
    obtain ⟨bytes, rfl⟩ := readPacket_eq_fails.mp h
    exact readPacket_eq_fails.mpr ⟨bytes ++ c, rfl⟩

/-- Words on a stream. -/
def words : Framing Word where
  next := readWord
  shorter {b rest m} h := by
    unfold readWord at h
    split at h
    · cases h
    · split_ifs at h
      · cases h
        simp
      · cases h
        simp
      · split at h
        · cases h
        · cases h
        · rename_i packet more hp
          cases h
          have hlt := packets.shorter hp
          rw [List.length_cons]
          omega
  message_append {b rest m} c h := by
    unfold readWord at h
    split at h
    · cases h
    · rename_i wordAddr bytes
      show readWord (wordAddr :: (bytes ++ c)) = _
      unfold readWord
      dsimp only
      split_ifs at h ⊢
      · cases h
        rfl
      · cases h
        rfl
      · split at h
        · cases h
        · cases h
        · rename_i packet more hp
          cases h
          have happend := packets.message_append c hp
          have hread : readPacket (bytes ++ c) = .message packet (rest ++ c) := happend
          rw [hread]
  fails_append {b} c h := by
    unfold readWord at h
    split at h
    · cases h
    · rename_i wordAddr bytes
      show readWord (wordAddr :: (bytes ++ c)) = _
      unfold readWord
      dsimp only
      split_ifs at h ⊢
      · split at h
        · cases h
        · rename_i hp
          have hread : readPacket (bytes ++ c) = .fails := packets.fails_append c hp
          rw [hread]
        · cases h
      · rfl

theorem readPacket_counted {bytes : Bytes} (h : count.toNat = bytes.length + 1) (c : Bytes) :
    readPacket (count :: bytes ++ c) = .message (count :: bytes) c := by
  have hlen : count.toNat - 1 = bytes.length := by omega
  have h0 : count ≠ 0 := by
    rintro rfl
    simp at h
  refine readPacket_eq_message.mpr ⟨count, bytes ++ c, rfl, h0, ?_, ?_, ?_⟩
  · rw [hlen, List.length_append]
    omega
  · rw [hlen, List.take_left]
  · rw [hlen, List.drop_left]

/-- A response carries its length in front. -/
theorem readPacket_response {body response : Bytes} (h : buildResponse body = .ok response) (c : Bytes) :
    readPacket (response ++ c) = .message response c := by
  unfold buildResponse at h
  dsimp only at h
  split at h
  · rename_i hle
    cases h
    refine readPacket_counted ?_ c
    have hlen : (body ++ crc16Le (UInt8.ofNat (1 + body.length + 2) :: body)).length = body.length + 2 := by
      rw [List.length_append]
      rfl
    show _ = (body ++ crc16Le (UInt8.ofNat (1 + body.length + 2) :: body)).length + 1
    rw [UInt8.toNat_ofNat', Nat.mod_eq_of_lt (by omega), hlen]
    omega
  · cases h

end Framing

/-! ### The server -/

/-- The device in the store, and the device in the file. -/
structure Store where
  device : Device
  file : Device

/-- A word. Only a packet takes the lock; as no packet panics, this makes no difference. -/
def handleWord (K : Crates) (store : Store) (session : Session) (g : Rng) :
    Word → Except Panic (Store × Option (Session × Bytes))
  | .silent => .ok (store, some (session, []))
  | .sleep => .ok (store, some (session.volatileReset, []))
  | .command packet =>
    match dispatch K g store.device session packet with
    | .error p => .error p
    | .ok (resp, device, session) => .ok (⟨device, device⟩, some (session, resp))

def tcpServer (K : Crates) : Server Store Session Rng Word Panic where
  framing := words
  fresh := {}
  handle := handleWord K

/-- What of an event reaches the session. -/
def signalled (e : Event (Store × Session) (Rng × Word) (Option Bytes)) : Option Moment :=
  match e.input with
  | (g, .command packet) => some ⟨(e.pre.1.device, e.pre.2), .packet g packet, e.output⟩
  | (_, .sleep) => some ⟨(e.pre.1.device, e.pre.2), .sleep, none⟩
  | (_, .silent) => none

section Server

variable {K : Crates} {ι : Type} [DecidableEq ι]

/-- The others may have changed the device. -/
def SameSession (st st' : Device × Session) : Prop := st'.2 = st.2

theorem localStep_signals {s s' : Store × Session} {i : Rng × Word} {o : Option Bytes}
    (h : (tcpServer K).localStep s i = .ok (o, s')) :
    signalled ⟨s, i, o⟩ = none ∧ SameSession (s.1.device, s.2) (s'.1.device, s'.2) ∨
      ∃ k u, signalled ⟨s, i, o⟩ = some ⟨(s.1.device, s.2), k, u⟩ ∧
        signal K (s.1.device, s.2) k = .ok (u, (s'.1.device, s'.2)) := by
  obtain ⟨g, w⟩ := i
  have hhandle : (tcpServer K).handle s.1 s.2 g w = handleWord K s.1 s.2 g w := rfl
  cases w with
  | silent =>
    simp only [Server.localStep, hhandle, handleWord] at h
    cases h
    exact .inl ⟨rfl, rfl⟩
  | sleep =>
    simp only [Server.localStep, hhandle, handleWord] at h
    cases h
    exact .inr ⟨.sleep, none, rfl, rfl⟩
  | command packet =>
    rcases hd : dispatch K g s.1.device s.2 packet with p | ⟨resp, device, session⟩
    · simp only [Server.localStep, hhandle, handleWord, hd] at h
      cases h
    · simp only [Server.localStep, hhandle, handleWord, hd] at h
      cases h
      exact .inr ⟨.packet g packet, some resp, rfl, by simp only [signal, hd, Except.map]⟩

/-- What a connection has sent, and its session, whatever the others have done to the device. -/
theorem amid_signals {v v' : Shared Store Session ι} {log : List (Server.Handling Store Session Rng Word ι)}
    (h : Run (tcpServer K).serialStep v log v') (i : ι) :
    Amid (signal K) SameSession (v.1.device, v.2 i) (((ofConn i log).map (Server.seenBy i)).filterMap signalled)
      (v'.1.device, v'.2 i) :=
  (Server.run_amid h i).filterMap (f := fun s : Store × Session => (s.1.device, s.2))
    (fun _ _ _ _ hs => localStep_signals hs) fun _ _ he => he.1

/-- The registers of the session follow the history of the connection alone. -/
theorem amid_follows {d : Device} {log : List Moment} {st : Device × Session}
    (h : Amid (signal K) SameSession (d, {}) log st) {past rest : List Moment} {e : Moment}
    (hlog : log = past ++ e :: rest) : Follows K past e := by
  obtain ⟨hpast, next, hs⟩ := h.mid hlog
  refine follows_of_registers (fun data => ?_) (fun n => ?_) hs
  · exact hpast.register (fun st => st.2.sha) (fun _ _ _ _ hs => signal_sha hs)
      (fun _ _ he => congrArg Session.sha he) rfl data
  · rw [← Session.nonceBytes_eq_some]
    exact hpast.register (fun st => st.2.nonceBytes) (fun _ _ _ _ hs => signal_nonce hs)
      (fun _ _ he => congrArg Session.nonceBytes he) rfl n.bytes

/-- A word is handled, and the store is saved. -/
theorem serialStep_saves {v : Shared Store Session ι} (h : v.1.file = v.1.device ∧ v.1.device.slots.length = numSlots)
    (c : Call ι Rng Word) : ∃ o v', (tcpServer K).serialStep v c = .ok (o, v') ∧
      v'.1.file = v'.1.device ∧ v'.1.device.slots.length = numSlots := by
  obtain ⟨i, g, w⟩ := c
  have hhandle : (tcpServer K).handle v.1 (v.2 i) g w = handleWord K v.1 (v.2 i) g w := rfl
  unfold Server.serialStep
  rw [hhandle]
  cases w with
  | silent => exact ⟨_, _, rfl, h⟩
  | sleep => exact ⟨_, _, rfl, h⟩
  | command packet =>
    obtain ⟨resp, device, session, hd⟩ := dispatch_returns (K := K) (g := g) (s := v.2 i) h.2 packet
    refine ⟨some resp, (⟨device, device⟩, Function.update v.2 i session), by simp only [handleWord, hd], rfl, ?_⟩
    rcases dispatch_update hd with rfl | ⟨cmd, -, hu⟩
    · exact h.2
    · exact hu.slots_length.trans h.2

theorem dispatch_carries {g : Rng} {d d' : Device} {s s' : Session} {raw response : Bytes}
    (h : dispatch K g d s raw = .ok (response, d', s')) : ∃ body, Carries response body := by
  rcases dispatch_cases h with ⟨⟨sw, -, hsw⟩, -⟩ | ⟨-, cmd, body, -, -, hbody⟩
  · exact ⟨[sw], hsw⟩
  · exact ⟨body, hbody⟩

/-- A packet is sent its response, and the other words nothing. -/
theorem reads_response {s s' : Store × Session} {i : Rng × Word} {o : Option Bytes}
    (h : (tcpServer K).localStep s i = .ok (o, s')) :
    packets.Reads ((signalled ⟨s, i, o⟩).bind (·.output)) (o.getD []) := by
  obtain ⟨g, w⟩ := i
  have hhandle : (tcpServer K).handle s.1 s.2 g w = handleWord K s.1 s.2 g w := rfl
  cases w with
  | silent =>
    simp only [Server.localStep, hhandle, handleWord] at h
    cases h
    rfl
  | sleep =>
    simp only [Server.localStep, hhandle, handleWord] at h
    cases h
    rfl
  | command packet =>
    rcases hd : dispatch K g s.1.device s.2 packet with p | ⟨resp, device, session⟩
    · simp only [Server.localStep, hhandle, handleWord, hd] at h
      cases h
    · simp only [Server.localStep, hhandle, handleWord, hd] at h
      cases h
      obtain ⟨body, hbody⟩ := dispatch_carries hd
      exact readPacket_response hbody

/-- The packets and sleeps of a connection, in order, each with the device it found. -/
def momentsOf (i : ι) (log : List (Server.Handling Store Session Rng Word ι)) : List Moment :=
  ((ofConn i log).map (Server.seenBy i)).filterMap signalled

/-- However the connections cut their bytes and take turns: nothing panics, the file is the device, every connection
is sent the responses to its own packets, and these follow from what the connection itself has sent. -/
theorem connections_follow_their_own_history (K : Crates) (d₀ : Device) (h16 : d₀.slots.length = numSlots)
    (es : List (ServerEvent ι Rng)) :
    let sys := (tcpServer K).after ⟨d₀, d₀⟩ es
    let log := (tcpServer K).handled ⟨d₀, d₀⟩ es
    sys.poison = none ∧ sys.shared.file = sys.shared.device ∧ ∀ i,
      words.Parses (received es i) ((ofConn i log).map (·.input.message)) (sys.conns i).input ∧
      packets.Parses (sys.conns i).output ((momentsOf i log).filterMap (·.output)) [] ∧
      (∀ past e rest, momentsOf i log = past ++ e :: rest → Follows K past e) ∧
      (K.Lawful → RoundTrips K (momentsOf i log)) := by
  intro sys log
  have hrun := (tcpServer K).run_serial ⟨d₀, d₀⟩ es
  have hstart : (⟨d₀, d₀⟩ : Store).file = d₀ ∧ d₀.slots.length = numSlots := ⟨rfl, h16⟩
  obtain ⟨hpoison, hfile, -⟩ : sys.poison = none ∧ sys.shared.file = sys.shared.device ∧
      sys.shared.device.slots.length = numSlots :=
    Server.never_poisoned (I := fun v : Shared Store Session ι => v.1.file = v.1.device ∧
      v.1.device.slots.length = numSlots) (fun v c hv => serialStep_saves hv c) hstart es
  refine ⟨hpoison, hfile, fun i => ?_⟩
  obtain ⟨hparses, houtput⟩ := (tcpServer K).run_connection ⟨d₀, d₀⟩ es i
  have hfollows : ∀ past e rest, momentsOf i log = past ++ e :: rest → Follows K past e :=
    fun _ _ _ hlog => amid_follows (amid_signals hrun i) hlog
  refine ⟨hparses, ?_, hfollows, fun hK => run_roundTrips hK hfollows⟩
  rw [houtput, momentsOf, List.filterMap_filterMap, List.filterMap_map]
  refine packets.parses_flatMap fun e he => ?_
  obtain ⟨hmem, hconn⟩ := List.mem_filter.mp he
  obtain ⟨-, t, hs⟩ := hrun.step_of_mem (I := fun _ => True) (fun _ _ _ _ _ _ => trivial) trivial hmem
  obtain ⟨own, hlocal, -⟩ := Server.serialStep_local hs
  have hi : e.input.conn = i := of_decide_eq_true hconn
  rw [hi] at hlocal
  exact reads_response hlocal

def shaWord (p1 : UInt8) (data : Bytes) : Bytes := 0x03 :: Command.frame ⟨opSha, p1, 0, data⟩

/-- One connection hashes; another one sleeps in between, and asks for a digest without having started. -/
def twoHashers : List (ServerEvent Bool Rng) :=
  [.arrive false ((shaWord 0x00 []).take 3), .arrive true (0x01 :: shaWord 0x02 []), .turn false fun _ => 0,
    .arrive false ((shaWord 0x00 []).drop 3 ++ shaWord 0x02 sampleMessage), .turn false fun _ => 0,
    .turn true fun _ => 0, .turn true fun _ => 0, .turn false fun _ => 0]

set_option maxRecDepth 2000 in
theorem twoHashers_follow :
    let sys := (tcpServer sampleCrates).after ⟨partlyLocked 0x55, partlyLocked 0x55⟩ twoHashers
    let log := (tcpServer sampleCrates).handled ⟨partlyLocked 0x55, partlyLocked 0x55⟩ twoHashers
    (buildResponse [statusExecutionError]).toOption = some (sys.conns true).output ∧
    sys.poison = none ∧ sys.shared.file = sys.shared.device ∧ ∀ i,
      words.Parses (received twoHashers i) ((ofConn i log).map (·.input.message)) (sys.conns i).input ∧
      packets.Parses (sys.conns i).output ((momentsOf i log).filterMap (·.output)) [] ∧
      (∀ past e rest, momentsOf i log = past ++ e :: rest → Follows sampleCrates past e) ∧
      RoundTrips sampleCrates (momentsOf i log) := by
  refine ⟨by decide +kernel, ?_⟩
  obtain ⟨hpoison, hfile, hconns⟩ :=
    connections_follow_their_own_history sampleCrates (partlyLocked 0x55) (by decide) twoHashers
  refine ⟨hpoison, hfile, fun i => ?_⟩
  obtain ⟨hparses, hreplies, hfollows, hround⟩ := hconns i
  exact ⟨hparses, hreplies, hfollows, hround sampleCrates_lawful⟩

end Server

end ATECC608
end Simulators
