/-
# SE050: the I2C transport

`transport.rs`: the simulated device behind the I2C traits. A write hands a
frame to the responder and queues the chunks of the answer, a read takes one
chunk of the queue into the driver's buffer.

The driver reads a frame in two parts, the header and what the header says
comes after it. For such a driver the bus and a TCP connection are the same
(`i2c_exchanges_like_tcp`): the buffers always fit the chunks, and the queue
holds back the same frames.
-/
import Simulators.SE050.TcpServer

namespace Simulators
namespace SE050

open T1Responder

inductive SimError
  | noData
  | bufferTooSmall
  | protocolError
deriving DecidableEq, Repr

structure Se050Simulator where
  t1 : T1Responder
  store : ObjectStore
  readChunks : List Bytes

namespace Se050Simulator

def new : Se050Simulator := ⟨.new 0x5A, .new, []⟩

def write (K : Crates) (d : Se050Simulator) (env : Env) (data : Bytes) : Except Panic Se050Simulator :=
  match d.t1.processFrame K env d.store data with
  | .error p => .error p
  | .ok (responseChunks, t1, store) => .ok ⟨t1, store, d.readChunks ++ responseChunks⟩

/-- The buffer after the read: what does not fit is lost, what is not written to stays. -/
def read (d : Se050Simulator) (buf : Bytes) : Except SimError (Bytes × Se050Simulator) :=
  match d.readChunks with
  | [] => .error .noData
  | chunk :: readChunks =>
    .ok (if chunk.length > buf.length then chunk.take buf.length else chunk ++ buf.drop chunk.length,
      { d with readChunks })

end Se050Simulator

/-- The driver reads a frame, with zeroed buffers: the header, and as much as it announces. -/
def driverRead (d : Se050Simulator) : Except SimError (Bytes × Se050Simulator) :=
  match d.read (List.replicate 3 0) with
  | .error e => .error e
  | .ok (header, d) =>
    match d.read (List.replicate ((header.getD 2 0).toNat + 2) 0) with
    | .error e => .error e
    | .ok (payloadCrc, d) => .ok (header ++ payloadCrc, d)

/-- The driver writes a frame, and reads one if there is one. -/
def i2cStep (K : Crates) (d : Se050Simulator) (i : Env × Bytes) : Except Panic (Option Bytes × Se050Simulator) :=
  match d.write K i.1 i.2 with
  | .error p => .error p
  | .ok d =>
    match driverRead d with
    | .error _ => .ok (some [], d)
    | .ok (frame, d) => .ok (some frame, d)

/-- A connection, as a device on the bus. -/
def onBus (s : ObjectStore × Link) : Se050Simulator := ⟨s.2.t1, s.1, s.2.pendingChunks⟩

/-- A buffer of the length of the chunk takes the chunk. -/
theorem read_fitting {d : Se050Simulator} {chunk : Bytes} {cs : List Bytes} {n : ℕ} (h : d.readChunks = chunk :: cs)
    (hn : chunk.length = n) : d.read (List.replicate n 0) = .ok (chunk, { d with readChunks := cs }) := by
  subst hn
  simp only [Se050Simulator.read, h, List.length_replicate, gt_iff_lt, lt_irrefl, if_false, List.drop_replicate,
    Nat.sub_self, List.replicate_zero, List.append_nil]

/-- The driver takes the frame that the server would write. -/
theorem driverRead_eq {d : Se050Simulator} (hw : Whole d.readChunks) :
    driverRead d = .error .noData ∧ writePending d.readChunks = ([], d.readChunks) ∨
      driverRead d = .ok ((writePending d.readChunks).1, { d with readChunks := (writePending d.readChunks).2 }) := by
  obtain ⟨fs, hq, hfs⟩ := hw
  cases fs with
  | nil =>
    have hnil : d.readChunks = [] := hq
    left
    rw [hnil]
    refine ⟨?_, rfl⟩
    simp only [driverRead, Se050Simulator.read, hnil]
  | cons f fs =>
    have hlen := hfs f List.mem_cons_self
    have hto : (UInt8.ofNat f.payload.length).toNat = f.payload.length := by
      rw [UInt8.toNat_ofNat']
      omega
    obtain ⟨header, payloadCrc, hchunks, hheader, hpayload⟩ : ∃ header payloadCrc,
        frameChunks f.nad f.frameType f.payload = [header, payloadCrc] ∧ header.length = 3 ∧
          payloadCrc.length = (header.getD 2 0).toNat + 2 := by
      refine ⟨_, _, rfl, rfl, ?_⟩
      show (f.payload ++ [_, _]).length = (UInt8.ofNat f.payload.length).toNat + 2
      rw [hto, List.length_append]
      rfl
    have hq' : d.readChunks = header :: payloadCrc :: fs.flatMap fun f => frameChunks f.nad f.frameType f.payload := by
      rw [hq, List.flatMap_cons, hchunks]
      rfl
    right
    have hwrite : writePending d.readChunks =
        (header ++ payloadCrc, fs.flatMap fun f => frameChunks f.nad f.frameType f.payload) := by
      rw [hq', writePending]
      cases fs with
      | nil => rfl
      | cons g gs => rfl
    simp only [driverRead, read_fitting hq' hheader]
    rw [read_fitting rfl hpayload, hwrite]

/-- A frame on the bus is a frame of a connection. -/
theorem i2cStep_onBus (K : Crates) {s : ObjectStore × Link} (hw : Whole s.2.pendingChunks) (i : Env × Bytes) :
    i2cStep K (onBus s) i = ((tcpServer K).localStep s i).map fun r => (r.1, onBus r.2) := by
  obtain ⟨store, link⟩ := s
  obtain ⟨env, data⟩ := i
  have hhandle : (tcpServer K).handle store link env data = handleFrame K store link env data := rfl
  rcases hf : processFrame K env store link.t1 data with p | ⟨chunks, t, store'⟩
  · simp only [i2cStep, Se050Simulator.write, onBus, Server.localStep, hhandle, handleFrame, hf]
    rfl
  · have hwhole : Whole (link.pendingChunks ++ chunks) := hw.append (processFrame_whole hf)
    rw [localStep_eq hf]
    simp only [i2cStep, Se050Simulator.write, onBus, hf]
    rcases driverRead_eq (d := ⟨t, store', link.pendingChunks ++ chunks⟩) hwhole with ⟨hread, hwrite⟩ | hread
    · rw [hread, hwrite]
      rfl
    · rw [hread]
      rfl

/-- On the bus a driver reads what a connection of the server would be sent, frame by frame, and the device panics on
the same frames. -/
theorem i2c_exchanges_like_tcp (K : Crates) (frames : List (Env × Bytes)) :
    runAll (i2cStep K) .new frames =
      (runAll (tcpServer K).localStep (.new, (tcpServer K).fresh) frames).map fun r => (r.1, onBus r.2) := by
  have h : ∀ (frames : List (Env × Bytes)) (s : ObjectStore × Link), Whole s.2.pendingChunks →
      runAll (i2cStep K) (onBus s) frames =
        (runAll (tcpServer K).localStep s frames).map fun r => (r.1, onBus r.2) := by
    intro frames
    induction frames with
    | nil => exact fun _ _ => rfl
    | cons i frames ih =>
      intro s hw
      simp only [runAll, i2cStep_onBus K hw]
      rcases hs : (tcpServer K).localStep s i with p | ⟨o, s'⟩
      · rfl
      · have htail := ih s' (localStep_whole hw hs).1
        simp only [Except.map, htail]
        rcases runAll (tcpServer K).localStep s' frames with _ | _ <;> rfl
  exact h frames (.new, (tcpServer K).fresh) whole_nil

end SE050
end Simulators
