/-
# SE050: a response is split into frames

`build_response_frames` sends a response of at most 254 bytes as one I-frame
and walks over a longer one with an offset (`responseLoop`). Both give one frame
for each piece of the response (`framesOf`), and the host's parser reads the
pieces back, in order, with alternating numbers and the more-bit on all but the
last.

Key theorems: `buildResponseFrames_loop`, `response_frames`.
-/
import Simulators.SE050.Chaining

namespace Simulators
namespace SE050

open T1Responder

/-! ### The loop of the source -/

/-- `while offset < response_bytes.len()`: the chunks pushed so far, the number and the offset. -/
def responseLoop (nad : UInt8) (response : Bytes) : ℕ → ℕ → SeqBit → List Bytes → List Bytes × SeqBit
  | 0, _, seq, out => (out, seq)
  | fuel + 1, offset, seq, out =>
    if offset < response.length then
      let remaining := response.length - offset
      let chunkLen := min remaining maxPayload
      let isLast : Bool := response.length ≤ offset + chunkLen
      let piece := (response.drop offset).take chunkLen
      responseLoop nad response fuel (offset + chunkLen) seq.toggle
        (out ++ frameChunks nad (.iFrame seq.val (!isLast)) piece)
    else (out, seq)

theorem chunks_isEmpty {n : ℕ} (hn : 0 < n) (b : Bytes) : (chunks n b).isEmpty = decide (b.length = 0) := by
  by_cases hb : b = []
  · subst hb
    rfl
  · rw [chunks_eq_cons hn hb, List.isEmpty_cons, decide_eq_false (mt List.length_eq_zero_iff.mp hb)]

/-- The last piece is the one that reaches the end of the response. -/
theorem responseLoop_eq (nad : UInt8) (response : Bytes) (fuel offset : ℕ) (seq : SeqBit) (out : List Bytes)
    (h : response.length ≤ fuel + offset) : responseLoop nad response fuel offset seq out =
      (out ++ (framesOf nad seq (chunks maxPayload (response.drop offset))).1,
        (framesOf nad seq (chunks maxPayload (response.drop offset))).2) := by
  have hmax : 0 < maxPayload := by decide
  induction fuel generalizing offset seq out with
  | zero =>
    rw [List.drop_eq_nil_of_le (by omega)]
    simp [responseLoop, framesOf]
  | succ fuel ih =>
    by_cases hoff : offset < response.length
    · have hne : response.drop offset ≠ [] := by
        intro hnil
        have := List.drop_eq_nil_iff.mp hnil
        omega
      have hpiece : (response.drop offset).take (min (response.length - offset) maxPayload) =
          (response.drop offset).take maxPayload := by
        rw [List.take_eq_take_iff, List.length_drop]
        omega
      have hlast : (chunks maxPayload ((response.drop offset).drop maxPayload)).isEmpty =
          decide (response.length ≤ offset + min (response.length - offset) maxPayload) := by
        rw [chunks_isEmpty hmax, List.length_drop, List.length_drop]
        apply decide_eq_decide.mpr
        omega
      have hrest : chunks maxPayload (response.drop (offset + min (response.length - offset) maxPayload)) =
          chunks maxPayload ((response.drop offset).drop maxPayload) := by
        rw [List.drop_drop]
        by_cases hle : response.length - offset ≤ maxPayload
        · rw [List.drop_eq_nil_of_le (by omega), List.drop_eq_nil_of_le (by omega)]
        · rw [Nat.min_eq_right (by omega)]
      rw [responseLoop, if_pos hoff, ih _ _ _ (by omega), hrest, chunks_eq_cons hmax hne, framesOf]
      simp only [hpiece, hlast, List.append_assoc]
    · rw [responseLoop, if_neg hoff, List.drop_eq_nil_of_le (by omega)]
      simp [framesOf]

/-- The frames are those of the source's loop, or the single one of its shortcut. -/
theorem buildResponseFrames_loop (t : T1Responder) (response : Bytes) : t.buildResponseFrames response =
    if response.length ≤ maxPayload then
      (frameChunks t.nadSe2hd (.iFrame t.iseqSnd.val false) response, { t with iseqSnd := t.iseqSnd.toggle })
    else
      ((responseLoop t.nadSe2hd response response.length 0 t.iseqSnd []).1,
        { t with iseqSnd := (responseLoop t.nadSe2hd response response.length 0 t.iseqSnd []).2 }) := by
  rw [responseLoop_eq _ _ _ _ _ _ (by omega), List.drop_zero, List.nil_append]
  by_cases h : response.length ≤ maxPayload
  · simp only [buildResponseFrames, if_pos h, framesOf, List.isEmpty_nil, Bool.not_true, List.append_nil]
  · simp only [buildResponseFrames, if_neg h]

/-! ### What the host reads back -/

/-- The pieces of a response. -/
def pieces (response : Bytes) : List Bytes :=
  if response.length ≤ maxPayload then [response] else chunks maxPayload response

theorem pieces_flatten (response : Bytes) : (pieces response).flatten = response := by
  unfold pieces
  split
  · simp
  · exact chunks_flatten (by decide) _ response (Nat.le_refl _)

theorem pieces_length_le {response piece : Bytes} (h : piece ∈ pieces response) : piece.length ≤ 254 := by
  unfold pieces at h
  split at h
  · rename_i hle
    rw [List.mem_singleton.mp h]
    exact hle
  · exact chunks_length_le h

theorem pieces_ne_nil (response : Bytes) : pieces response ≠ [] := by
  unfold pieces
  split
  · exact List.cons_ne_nil _ _
  · rename_i hlt
    have hne : response ≠ [] := by
      rintro rfl
      exact hlt (Nat.zero_le _)
    rw [chunks_eq_cons (by decide) hne]
    exact List.cons_ne_nil _ _

theorem parsePcb_encodePcb_iFrame (seq : SeqBit) (multi : Bool) :
    parsePcb (encodePcb (.iFrame seq.val multi)) = some (.iFrame seq.val multi) := by
  obtain ⟨v, rfl | rfl⟩ := seq <;> cases multi <;> decide

/-- The frame of the `i`-th of `pieces`: its number and its more-bit depend on `i` only. -/
def frameAt (nad : UInt8) (seq : SeqBit) (cs : List Bytes) (i : Fin cs.length) : Bytes × Bytes :=
  buildFrame nad (.iFrame (SeqBit.toggle^[i] seq).val (i + 1 ≠ cs.length)) cs[i]

theorem framesOf_eq (nad : UInt8) (seq : SeqBit) (cs : List Bytes) :
    framesOf nad seq cs =
      ((List.ofFn (frameAt nad seq cs)).flatMap (fun f => [f.1, f.2]), SeqBit.toggle^[cs.length] seq) := by
  induction cs generalizing seq with
  | nil => rfl
  | cons c cs ih =>
    have hmore : (!cs.isEmpty) = decide ((0 : ℕ) + 1 ≠ (c :: cs).length) := by
      cases cs <;> simp
    have htail : (fun i : Fin cs.length => frameAt nad seq (c :: cs) i.succ) = frameAt nad seq.toggle cs := by
      funext i
      simp [frameAt, Function.iterate_succ_apply]
    rw [framesOf, ih, List.ofFn_succ, List.flatMap_cons, htail, List.length_cons, Function.iterate_succ_apply, hmore]
    rfl

/-- The response goes out as pairs of a header and a payload with its CRC. The `i`-th of `n` pairs is an I-frame with
the `i`-th payload, whose number is the old one toggled `i` times and whose more-bit is set unless it is the last. -/
theorem response_frames (t : T1Responder) (response : Bytes) :
    ∃ (n : ℕ) (frames : Fin n → Bytes × Bytes) (payloads : Fin n → Bytes), 0 < n ∧
      t.buildResponseFrames response =
        ((List.ofFn frames).flatMap (fun f => [f.1, f.2]), { t with iseqSnd := SeqBit.toggle^[n] t.iseqSnd }) ∧
      (List.ofFn payloads).flatten = response ∧
      ∀ i, (frames i).1.length = 3 ∧ (frames i).2.length = (payloads i).length + 2 ∧ (payloads i).length ≤ 254 ∧
        parseFrame ((frames i).1 ++ (frames i).2) = some ⟨t.nadSe2hd,
          .iFrame (SeqBit.toggle^[i] t.iseqSnd).val (decide (i.val + 1 < n)), payloads i⟩ := by
  refine ⟨(pieces response).length, frameAt t.nadSe2hd t.iseqSnd (pieces response), (pieces response).get,
    List.length_pos_of_ne_nil (pieces_ne_nil response), ?_, ?_, ?_⟩
  · show ((framesOf t.nadSe2hd t.iseqSnd (pieces response)).1,
      { t with iseqSnd := (framesOf t.nadSe2hd t.iseqSnd (pieces response)).2 }) = _
    rw [framesOf_eq]
  · rw [List.ofFn_get]
    exact pieces_flatten response
  · intro i
    have hlen : (pieces response)[i].length ≤ 254 := pieces_length_le (List.getElem_mem i.isLt)
    have hmore : decide (i.val + 1 ≠ (pieces response).length) = decide (i.val + 1 < (pieces response).length) := by
      have := i.isLt
      apply decide_eq_decide.mpr
      omega
    refine ⟨rfl, by simp [frameAt, buildFrame], hlen, ?_⟩
    have hpcb := parsePcb_encodePcb_iFrame (SeqBit.toggle^[i] t.iseqSnd) (i.val + 1 ≠ (pieces response).length)
    have hsplit : (frameAt t.nadSe2hd t.iseqSnd (pieces response) i).1 ++
        (frameAt t.nadSe2hd t.iseqSnd (pieces response) i).2 =
          (frameChunks t.nadSe2hd (.iFrame (SeqBit.toggle^[i] t.iseqSnd).val (i.val + 1 ≠ (pieces response).length))
            (pieces response)[i]).flatten := by
      simp [frameAt, frameChunks]
    rw [← hmore, hsplit]
    exact parseFrame_frameChunks hpcb (Nat.le_trans hlen (by decide))

end SE050
end Simulators
