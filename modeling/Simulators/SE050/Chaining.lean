/-
# SE050: chaining is transparent

An APDU may arrive in any number of I-frames, with frames in between that are
no part of it: frames that do not parse, R-frames, S-responses and GetATR
requests. `Segments env inputs apdu` says that the frames of `inputs` carry
`apdu` in this way and that its last piece arrives with `env`. The device
then answers as if the APDU had been handed to `processApdu` at once
(`chaining_transparent`).
-/
import Simulators.Lib.Run
import Simulators.SE050.T1

namespace Simulators
namespace SE050

open T1Responder

/-! ### What the host reads -/

/-- The payloads of the frames of a response, each frame being two chunks. -/
def responseBytes : List Bytes → Bytes
  | _ :: payloadCrc :: rest => payloadCrc.take (payloadCrc.length - 2) ++ responseBytes rest
  | _ => []

theorem responseBytes_frameChunks (nad : UInt8) (ft : FrameType) (payload : Bytes) (rest : List Bytes) :
    responseBytes (frameChunks nad ft payload ++ rest) = payload ++ responseBytes rest := by
  simp [frameChunks, buildFrame, responseBytes]

theorem responseBytes_framesOf (nad : UInt8) : ∀ (cs : List Bytes) (seq : SeqBit),
    responseBytes (framesOf nad seq cs).1 = cs.flatten
  | [], _ => rfl
  | c :: cs, seq => by
    simp only [framesOf, responseBytes_frameChunks, responseBytes_framesOf nad cs, List.flatten_cons]

/-- The frames of a response carry the response. -/
theorem responseBytes_buildResponseFrames (t : T1Responder) (response : Bytes) :
    responseBytes (t.buildResponseFrames response).1 = response := by
  simp only [buildResponseFrames, responseBytes_framesOf]
  split
  · simp
  · exact chunks_flatten (by decide) _ response (Nat.le_refl _)

/-- What the host reads of a frame. -/
theorem parseFrame_chunks {nad : UInt8} {ft ft' : FrameType} {payload : Bytes}
    (hft : parsePcb (encodePcb ft) = some ft') (hlen : payload.length ≤ 255) :
    parseFrame (frameChunks nad ft payload).flatten = some ⟨nad, ft', payload⟩ := by
  have hto : (UInt8.ofNat payload.length).toNat = payload.length := by
    rw [UInt8.toNat_ofNat']
    omega
  simp only [frameChunks, buildFrame, List.flatten_cons, List.flatten_nil, List.append_nil, List.cons_append,
    List.nil_append, parseFrame, hto, List.drop_left, List.take_left, word_hiByte_loByte, ne_eq, not_true_eq_false,
    if_false, hft, Option.map_some]

/-- A frame the device builds is parsed by the host. -/
theorem parseFrame_frameChunks {nad : UInt8} {ft : FrameType} {payload : Bytes}
    (hft : parsePcb (encodePcb ft) = some ft) (hlen : payload.length ≤ 255) :
    parseFrame (frameChunks nad ft payload).flatten = some ⟨nad, ft, payload⟩ :=
  parseFrame_chunks hft hlen

/-! ### Frames of an APDU -/

/-- The type of a frame that parses. -/
def frameTypeOf (data : Bytes) : Option FrameType := (parseFrame data).map (·.frameType)

/-- A frame that is no part of an APDU and does not reset the responder. -/
def isNoise (data : Bytes) : Bool :=
  match frameTypeOf data with
  | none => true
  | some (.rFrame _ _) => true
  | some (.sFrame code isResponse) => isResponse || code == 0x07
  | some (.iFrame _ _) => false

inductive Segments (env : Env) : List (Env × Bytes) → Bytes → Prop
  | last {data payload : Bytes} {nad seq : UInt8} {noise : List (Env × Bytes)}
      (h : parseFrame data = some ⟨nad, .iFrame seq false, payload⟩) (hn : ∀ i ∈ noise, isNoise i.2 = true) :
      Segments env ((env, data) :: noise) payload
  | more {env' : Env} {data payload apdu : Bytes} {nad seq : UInt8} {rest : List (Env × Bytes)}
      (h : parseFrame data = some ⟨nad, .iFrame seq true, payload⟩) (hr : Segments env rest apdu) :
      Segments env ((env', data) :: rest) (payload ++ apdu)
  | noise {env' : Env} {data apdu : Bytes} {rest : List (Env × Bytes)} (h : isNoise data = true)
      (hr : Segments env rest apdu) : Segments env ((env', data) :: rest) apdu

/-- One R-frame with the given number. -/
def IsAck (nad : UInt8) (seq : SeqBit) (out : List Bytes) : Prop :=
  out = frameChunks nad (.rFrame seq.val 0) [] ∧ parseFrame out.flatten = some ⟨nad, .rFrame seq.val 0, []⟩

theorem isAck_frameChunks (nad : UInt8) (seq : SeqBit) : IsAck nad seq (frameChunks nad (.rFrame seq.val 0) []) := by
  refine ⟨rfl, parseFrame_frameChunks ?_ (by simp)⟩
  obtain ⟨_, rfl | rfl⟩ := seq
  · decide
  · decide

/-- Every I-frame but the last is answered by one R-frame with the number the
responder expects next, and the last one by the response. -/
def Answered (nad : UInt8) (response : Bytes) : SeqBit → List (Env × Bytes) → List (List Bytes) → Prop
  | _, [], [] => True
  | seq, i :: is, o :: os =>
    match frameTypeOf i.2 with
    | some (.iFrame _ true) => IsAck nad seq.toggle o ∧ Answered nad response seq.toggle is os
    | some (.iFrame _ false) => responseBytes o = response ∧ Answered nad response seq.toggle is os
    | _ => Answered nad response seq is os
  | _, _, _ => False

theorem answered_noise {nad : UInt8} {response : Bytes} {seq : SeqBit} {i : Env × Bytes} {is : List (Env × Bytes)}
    {o : List Bytes} {os : List (List Bytes)} (hi : isNoise i.2 = true) (h : Answered nad response seq is os) :
    Answered nad response seq (i :: is) (o :: os) := by
  unfold isNoise at hi
  unfold Answered
  generalize frameTypeOf i.2 = ft at hi
  rcases ft with _ | (_ | _ | _)
  · exact h
  · exact absurd hi Bool.false_ne_true
  · exact h
  · exact h

/-! ### The transport fields -/

/-- The responder with another expected number and reassembly buffer. -/
def T1Responder.link (t : T1Responder) (seq : SeqBit) (buf : Bytes) : T1Responder :=
  { t with iseqRcv := seq, apduReassembly := buf }

@[simp] theorem link_scp03 (t : T1Responder) (seq : SeqBit) (buf : Bytes) : (t.link seq buf).scp03 = t.scp03 := rfl
@[simp] theorem link_selectedSsd (t : T1Responder) (seq : SeqBit) (buf : Bytes) :
    (t.link seq buf).selectedSsd = t.selectedSsd := rfl

/-- A result with other transport fields in the responder. -/
def relink {α : Type} (seq : SeqBit) (buf : Bytes) : T1Result α → T1Result α
  | .error p => .error p
  | .ok (a, t, s) => .ok (a, t.link seq buf, s)

section Link

variable {K : Crates} {env : Env} {s : ObjectStore} (t : T1Responder) (seq : SeqBit) (buf apdu : Bytes)

theorem noteSelect_link (cla ins : UInt8) :
    (t.link seq buf).noteSelect cla ins apdu = (t.noteSelect cla ins apdu).link seq buf := by
  unfold noteSelect
  split <;> rfl

theorem initializeUpdate_link :
    (t.link seq buf).initializeUpdate K env s apdu =
      ((t.initializeUpdate K env s apdu).1, (t.initializeUpdate K env s apdu).2.link seq buf) := by
  unfold initializeUpdate
  split <;> rfl

theorem wrappedCommand_link :
    wrappedCommand K env s (t.link seq buf) apdu = relink seq buf (wrappedCommand K env s t apdu) := by
  unfold wrappedCommand
  rw [link_scp03, link_selectedSsd]
  cases t.scp03 with
  | idle => rfl
  | pending _ => rfl
  | active sess =>
    dsimp only
    rcases sess.unwrapCommand K apdu with (_ | _) | ⟨inner, sess⟩
    · rfl
    · rfl
    · dsimp only
      rcases innerCommand K env s t.selectedSsd inner with _ | ⟨resp, s'⟩
      · rfl
      · dsimp only
        rcases sess.wrapResponse K resp with (_ | e) | _
        · rfl
        · exact e.elim
        · rfl

theorem plainCommand_link :
    plainCommand K env s (t.link seq buf) apdu = relink seq buf (plainCommand K env s t apdu) := by
  unfold plainCommand
  rcases ParsedApdu.parse apdu with _ | a
  · rfl
  · dsimp only
    rcases dispatch K env a s false with _ | _ <;> rfl

/-- The processing of an APDU neither reads nor changes the transport fields. -/
theorem processApdu_link :
    processApdu K env s (t.link seq buf) apdu = relink seq buf (processApdu K env s t apdu) := by
  unfold processApdu
  split
  · rename_i cla ins _ _ _
    simp only [noteSelect_link, link_scp03, initializeUpdate_link, wrappedCommand_link, plainCommand_link]
    repeat' split
    all_goals rfl
  · exact plainCommand_link t seq buf _

end Link

/-! ### Frames in turn -/

section Frames

variable {K : Crates} {env : Env} {s : ObjectStore} {t : T1Responder} {data : Bytes}

theorem processFrame_noise (K : Crates) (env : Env) (s : ObjectStore) (t : T1Responder) (h : isNoise data = true) :
    ∃ out, processFrame K env s t data = .ok (out, t, s) := by
  unfold isNoise frameTypeOf at h
  unfold processFrame
  generalize parseFrame data = f at h
  rcases f with _ | ⟨nad, ft, payload⟩
  · exact ⟨_, rfl⟩
  · cases ft with
    | iFrame _ _ => exact absurd h Bool.false_ne_true
    | rFrame _ _ => exact ⟨_, rfl⟩
    | sFrame code isResponse =>
      cases isResponse with
      | true => exact ⟨_, rfl⟩
      | false =>
        obtain rfl : code = 0x07 := by simpa using h
        exact ⟨_, rfl⟩

theorem processFrame_more {nad seq : UInt8} {payload : Bytes} (r : SeqBit) (buf : Bytes)
    (h : parseFrame data = some ⟨nad, .iFrame seq true, payload⟩) :
    processFrame K env s (t.link r buf) data =
      .ok (frameChunks t.nadSe2hd (.rFrame r.toggle.val 0) [], t.link r.toggle (buf ++ payload), s) := by
  unfold processFrame
  rw [h]
  rfl

/-- The last I-frame processes what has been collected. -/
theorem processFrame_last {nad seq : UInt8} {payload : Bytes} (r : SeqBit) (buf : Bytes)
    (h : parseFrame data = some ⟨nad, .iFrame seq false, payload⟩) :
    processFrame K env s (t.link r buf) data =
      match processApdu K env s t (buf ++ payload) with
      | .error p => .error p
      | .ok (resp, t', s') =>
        .ok (((t'.link r.toggle []).buildResponseFrames resp.toBytes).1,
          ((t'.link r.toggle []).buildResponseFrames resp.toBytes).2, s') := by
  have hl := @processApdu_link K env s t r.toggle [] (buf ++ payload)
  unfold processFrame
  rw [h]
  simp only [handleIFrame, link, Bool.false_eq_true, if_false]
  simp only [link] at hl
  rw [hl]
  rcases processApdu K env s t (buf ++ payload) with _ | ⟨resp, t', s'⟩ <;> rfl

/-- Frames that are no part of an APDU change nothing. -/
theorem runAll_noise (K : Crates) (nad : UInt8) (response : Bytes) (seq : SeqBit) (d : Device) :
    ∀ noise : List (Env × Bytes), (∀ i ∈ noise, isNoise i.2 = true) →
      ∃ outs, runAll (Device.step K) d noise = .ok (outs, d) ∧ Answered nad response seq noise outs
  | [], _ => ⟨[], rfl, trivial⟩
  | i :: is, h => by
    have hi := h i List.mem_cons_self
    obtain ⟨out, hout⟩ := processFrame_noise K i.1 d.2 d.1 hi
    obtain ⟨outs, hrun, hans⟩ := runAll_noise K nad response seq d is fun j hj => h j (List.mem_cons_of_mem i hj)
    refine ⟨out :: outs, ?_, ?_⟩
    · exact runAll_cons hout hrun
    · exact answered_noise hi hans

/-- The frames of an APDU, from a responder that has collected `buf` of it. -/
theorem runAll_segments_ok {inputs : List (Env × Bytes)} {apdu : Bytes} (h : Segments env inputs apdu)
    {resp : ApduResponse} {t' : T1Responder} {s' : ObjectStore} :
    ∀ (r : SeqBit) (buf : Bytes), processApdu K env s t (buf ++ apdu) = .ok (resp, t', s') →
      ∃ outs d, runAll (Device.step K) (t.link r buf, s) inputs = .ok (outs, d) ∧ d.2 = s' ∧
        d.1.scp03 = t'.scp03 ∧ d.1.selectedSsd = t'.selectedSsd ∧ d.1.apduReassembly = [] ∧
        Answered t.nadSe2hd resp.toBytes r inputs outs := by
  induction h with
  | @last data payload _ _ noise h hn =>
    intro r buf hp
    have hstep := @processFrame_last K env s t data _ _ payload r buf h
    rw [hp] at hstep
    obtain ⟨outs, hrun, hans⟩ := runAll_noise K t.nadSe2hd resp.toBytes r.toggle
      (((t'.link r.toggle []).buildResponseFrames resp.toBytes).2, s') noise hn
    refine ⟨_, _, runAll_cons hstep hrun, rfl, rfl, rfl, rfl, ?_⟩
    simp only [Answered, frameTypeOf, h, Option.map_some]
    exact ⟨responseBytes_buildResponseFrames _ _, hans⟩
  | @more env' data payload apdu _ _ rest h _ ih =>
    intro r buf hp
    rw [← List.append_assoc] at hp
    have hstep := @processFrame_more K env' s t data _ _ payload r buf h
    obtain ⟨outs, d, hrun, hd, h1, h2, h3, hans⟩ := ih r.toggle (buf ++ payload) hp
    refine ⟨_, d, runAll_cons hstep hrun, hd, h1, h2, h3, ?_⟩
    simp only [Answered, frameTypeOf, h, Option.map_some]
    exact ⟨isAck_frameChunks _ _, hans⟩
  | @noise env' data apdu rest h _ ih =>
    intro r buf hp
    obtain ⟨out, hout⟩ := processFrame_noise K env' s (t.link r buf) h
    obtain ⟨outs, d, hrun, hd, h1, h2, h3, hans⟩ := ih r buf hp
    refine ⟨_, d, runAll_cons hout hrun, hd, h1, h2, h3, ?_⟩
    exact answered_noise h hans

theorem runAll_segments_error {inputs : List (Env × Bytes)} {apdu : Bytes} (h : Segments env inputs apdu) {p : Panic} :
    ∀ (r : SeqBit) (buf : Bytes), processApdu K env s t (buf ++ apdu) = .error p →
      runAll (Device.step K) (t.link r buf, s) inputs = .error p := by
  induction h with
  | last h _ =>
    intro r buf hp
    simp only [runAll, Device.step, processFrame_last r buf h, hp]
  | more h _ ih =>
    intro r buf hp
    rw [← List.append_assoc] at hp
    simp only [runAll, Device.step, processFrame_more r buf h, ih r.toggle _ hp]
  | @noise env' _ _ _ h _ ih =>
    intro r buf hp
    obtain ⟨out, hout⟩ := processFrame_noise K env' s (t.link r buf) h
    simp only [runAll, Device.step, hout, ih r buf hp]

end Frames

/-- From an empty reassembly buffer, the frames of an APDU do what
`processApdu` does with the whole of it: the same panic, or the same response,
store, channel and selection, with one R-frame for each I-frame but the last
and an empty buffer afterwards. -/
theorem chaining_transparent (K : Crates) {env : Env} {inputs : List (Env × Bytes)} {apdu : Bytes}
    (h : Segments env inputs apdu) (t : T1Responder) (s : ObjectStore) (hbuf : t.apduReassembly = []) :
    (∀ p, processApdu K env s t apdu = .error p → runAll (Device.step K) (t, s) inputs = .error p) ∧
      ∀ resp t' s', processApdu K env s t apdu = .ok (resp, t', s') →
        ∃ outs d, runAll (Device.step K) (t, s) inputs = .ok (outs, d) ∧ d.2 = s' ∧
          d.1.scp03 = t'.scp03 ∧ d.1.selectedSsd = t'.selectedSsd ∧ d.1.apduReassembly = [] ∧
          Answered t.nadSe2hd resp.toBytes t.iseqRcv inputs outs := by
  have ht : t.link t.iseqRcv [] = t := by
    rw [← hbuf]
    rfl
  refine ⟨fun p hp => ?_, fun resp t' s' hp => ?_⟩
  · rw [← ht]
    exact runAll_segments_error h t.iseqRcv [] hp
  · have hrun := runAll_segments_ok h t.iseqRcv [] hp
    rwa [ht] at hrun

/-- GetVersion in two frames, with a frame of a wrong CRC and a GetATR request in between. -/
def versionFrames : List (Env × Bytes) :=
  [(Env.unset, (frameChunks 0x5A (.iFrame 0 true) [0x80, 0x04]).flatten), (Env.unset, [0x5A, 0x00, 0x00, 0x00, 0x00]),
    (Env.unset, (frameChunks 0x5A (.sFrame 0x07 false) []).flatten),
    (Env.unset, (frameChunks 0x5A (.iFrame 1 false) [0x00, 0x20]).flatten)]

theorem versionFrames_answered :
    ∃ outs d, runAll (Device.step Crates.blank) (T1Responder.new 0x5A, ObjectStore.new) versionFrames = .ok (outs, d) ∧
      d.2 = ObjectStore.new ∧ d.1.scp03 = .idle ∧ d.1.selectedSsd = false ∧ d.1.apduReassembly = [] ∧
      Answered 0xA5 (handleGetVersion .v7_2_0).toBytes .zero versionFrames outs := by
  have h1 : parseFrame (frameChunks 0x5A (.iFrame 0 true) [0x80, 0x04]).flatten =
      some ⟨0x5A, .iFrame 0 true, [0x80, 0x04]⟩ := by decide +kernel
  have h2 : parseFrame (frameChunks 0x5A (.iFrame 1 false) [0x00, 0x20]).flatten =
      some ⟨0x5A, .iFrame 1 false, [0x00, 0x20]⟩ := by decide +kernel
  have hseg : Segments Env.unset versionFrames ([0x80, 0x04] ++ [0x00, 0x20]) :=
    .more h1 (.noise (by decide +kernel) (.noise (by decide +kernel) (.last h2 (by simp))))
  exact (chaining_transparent Crates.blank hseg (T1Responder.new 0x5A) ObjectStore.new rfl).2 _ _ _ rfl

end SE050
end Simulators
