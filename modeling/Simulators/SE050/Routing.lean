/-
# SE050: what a frame can do

`ApduStep` lists the ways in which the responder can process a command APDU,
each with its response, the channel and the store after it, and
`processApdu_step` shows that there is no other. `processFrame_step` lifts it
to frames: a frame completes an APDU and processes it, resets the responder,
or changes neither channel nor store.
-/
import Simulators.SE050.Chaining
import Simulators.SE050.Transition

namespace Simulators
namespace SE050

open T1Responder

/-! ### Commands in an APDU -/

/-- The name in a plain SELECT. -/
def plainSelect (apdu : Bytes) : Option Bytes :=
  match ParsedApdu.parse apdu with
  | .ok a => if a.cla = 0x00 ∧ a.ins = 0xA4 then some a.data else none
  | .error _ => none

/-- The command that the session unwraps from an APDU with the secure-messaging bit. -/
def Session.innerApdu (K : Crates) (sess : Session) : Bytes → Option ParsedApdu
  | cla :: rest =>
    if cla &&& 0x04 ≠ 0 then
      match sess.unwrapCommand K (cla :: rest) with
      | .ok (inner, _) => some inner
      | .error _ => none
    else none
  | [] => none

/-- The command in an APDU that arrives over the active channel. -/
def T1Responder.innerApdu (K : Crates) (t : T1Responder) (apdu : Bytes) : Option ParsedApdu :=
  match t.scp03 with
  | .active sess => sess.innerApdu K apdu
  | _ => none

theorem parse_eq_ok {apdu : Bytes} {a : ParsedApdu} (h : ParsedApdu.parse apdu = .ok a) :
    ∃ p1 p2 rest, apdu = a.cla :: a.ins :: p1 :: p2 :: rest := by
  unfold ParsedApdu.parse at h
  split at h
  · cases h
    exact ⟨_, _, _, rfl⟩
  · cases h
    exact ⟨_, _, _, rfl⟩
  · split at h
    · cases h
      exact ⟨_, _, _, rfl⟩
    · split at h
      · cases h
      · cases h
        exact ⟨_, _, _, rfl⟩
  · split at h
    · cases h
    · cases h
      exact ⟨_, _, _, rfl⟩
  · cases h

/-- A class byte that the dispatcher does not know is refused. -/
theorem dispatch_of_cla {K : Crates} {env : Env} {a : ParsedApdu} {s : ObjectStore} {active : Bool}
    (hs : ¬ (a.cla = 0x00 ∧ a.ins = 0xA4)) (h : a.cla ≠ 0x80 ∧ a.cla ≠ 0x84) :
    dispatch K env a s active = .ok (.error swInsNotSupported, s) := by
  simp only [dispatch, dispatchCmd, if_neg hs, if_pos h]
  rfl

/-! ### APDUs -/

/-- How an APDU can be processed. -/
inductive ApduStep (K : Crates) (env : Env) (s : ObjectStore) (t : T1Responder) (apdu : Bytes) :
    ApduResponse → T1Responder → ObjectStore → Prop
  /-- SELECT, also one that names nothing. -/
  | select {a : ParsedApdu} (hp : ParsedApdu.parse apdu = .ok a) (hs : plainSelect apdu = some a.data) :
      ApduStep K env s t apdu (handleSelect a env.version) { t with scp03 := .idle, selectedSsd := selectsSsd a } s
  /-- A SELECT that does not parse. -/
  | badSelect (hs : plainSelect apdu = none) (hi : t.innerApdu K apdu = none) :
      ApduStep K env s t apdu (.error 0x6700) { t with scp03 := .idle, selectedSsd := false } s
  /-- A refusal or INITIALIZE UPDATE: no channel opens. -/
  | stay (r : ApduResponse) {st : Scp03State} (hst : st.isActive = true → t.scp03.isActive = true)
      (hs : plainSelect apdu = none) (hi : t.innerApdu K apdu = none) :
      ApduStep K env s t apdu r { t with scp03 := st } s
  | authenticate {p : Pending} {sess : Session} (ht : t.scp03 = .pending p) (ha : authenticate K p apdu = .ok sess)
      (hc : ∃ rest, apdu = 0x84 :: 0x82 :: rest) (hs : plainSelect apdu = none) (hi : t.innerApdu K apdu = none) :
      ApduStep K env s t apdu .success { t with scp03 := .active sess } s
  | wrapped {sess sess₁ sess₂ : Session} {inner : ParsedApdu} {resp out : ApduResponse} {s' : ObjectStore}
      (ht : t.scp03 = .active sess) (hu : sess.unwrapCommand K apdu = .ok (inner, sess₁))
      (hi : t.innerApdu K apdu = some inner) (hs : plainSelect apdu = none)
      (hc : innerCommand K env s t.selectedSsd inner = .ok (resp, s'))
      (hw : sess₁.wrapResponse K resp = .ok (out, sess₂)) :
      ApduStep K env s t apdu out { t with scp03 := .active sess₂ } s'
  /-- A plain command while no channel is active and none is required. -/
  | plain {a : ParsedApdu} {resp : ApduResponse} {s' : ObjectStore} (hp : ParsedApdu.parse apdu = .ok a)
      (hcla : a.cla = 0x80) (ht : t.scp03.isActive = false) (hr : s.scpRequired = false)
      (hd : dispatch K env a s false = .ok (resp, s')) (hs : plainSelect apdu = none)
      (hi : t.innerApdu K apdu = none) :
      ApduStep K env s t apdu resp t s'

section Apdu

variable {K : Crates} {env : Env} {s s' : ObjectStore} {t t' : T1Responder} {apdu : Bytes} {r : ApduResponse}

/-- A refusal that changes nothing. -/
theorem ApduStep.same (r : ApduResponse) (hs : plainSelect apdu = none) (hi : t.innerApdu K apdu = none) :
    ApduStep K env s t apdu r t s :=
  @ApduStep.stay K env s t apdu r t.scp03 id hs hi

theorem plainSelect_of_ne {cla ins : UInt8} {rest : Bytes} (h : ¬ (cla = 0x00 ∧ ins = 0xA4)) :
    plainSelect (cla :: ins :: rest) = none := by
  unfold plainSelect
  split
  · rename_i a ha
    obtain ⟨_, _, _, heq⟩ := parse_eq_ok ha
    simp only [List.cons.injEq] at heq
    rw [← heq.1, ← heq.2.1, if_neg h]
  · rfl

theorem innerApdu_of_bit {cla : UInt8} {rest : Bytes} (h : ¬ cla &&& 0x04 ≠ 0) :
    t.innerApdu K (cla :: rest) = none := by
  unfold T1Responder.innerApdu Session.innerApdu
  split
  · exact if_neg h
  · rfl

/-- A SELECT brings nothing over the channel. -/
theorem innerApdu_of_plainSelect {name : Bytes} (h : plainSelect apdu = some name) : t.innerApdu K apdu = none := by
  unfold plainSelect at h
  cases hp : ParsedApdu.parse apdu with
  | error e =>
    rw [hp] at h
    cases h
  | ok a =>
    rw [hp] at h
    by_cases hc : a.cla = 0x00 ∧ a.ins = 0xA4
    · obtain ⟨p1, p2, rest, rfl⟩ := parse_eq_ok hp
      apply innerApdu_of_bit
      rw [hc.1]
      decide
    · have hnone : (if a.cla = 0x00 ∧ a.ins = 0xA4 then some a.data else none) = some name := h
      rw [if_neg hc] at hnone
      cases hnone

theorem innerApdu_of_inactive (h : t.scp03.isActive = false) : t.innerApdu K apdu = none := by
  unfold T1Responder.innerApdu
  split
  · rename_i heq
    rw [heq] at h
    exact absurd h (by simp [Scp03State.isActive])
  · rfl

theorem wrappedCommand_step {cla : UInt8} {rest : Bytes} (hb : cla &&& 0x04 ≠ 0)
    (hs : plainSelect (cla :: rest) = none) (h : wrappedCommand K env s t (cla :: rest) = .ok (r, t', s')) :
    ApduStep K env s t (cla :: rest) r t' s' := by
  unfold wrappedCommand at h
  split at h
  · rename_i sess hact
    split at h
    · cases h
    · rename_i hu
      cases h
      exact .stay _ (by simp [Scp03State.isActive]) hs (by
        simp only [T1Responder.innerApdu, Session.innerApdu, hact, hu, ite_self])
    · rename_i inner sess₁ hu
      split at h
      · cases h
      · rename_i resp s₁ hc
        split at h
        · cases h
        · rename_i out sess₂ hw
          cases h
          exact .wrapped hact hu (by simp only [T1Responder.innerApdu, Session.innerApdu, hact, hu, if_pos hb]) hs hc hw
  · rename_i hact
    cases h
    have hin : t.innerApdu K (cla :: rest) = none := by
      unfold T1Responder.innerApdu
      split
      · rename_i sess hs
        exact absurd hs (hact sess)
      · rfl
    exact .same _ hs hin

/-- A plain APDU that is no SELECT. -/
theorem plainCommand_step {cla ins : UInt8} {rest : Bytes} (hs : ¬ (cla = 0x00 ∧ ins = 0xA4))
    (hb : ¬ cla &&& 0x04 ≠ 0) (ht : ¬ (cla = 0x80 ∧ t.scp03.isActive = true))
    (hr : ¬ (cla = 0x80 ∧ s.scpRequired = true))
    (h : plainCommand K env s t (cla :: ins :: rest) = .ok (r, t', s')) :
    ApduStep K env s t (cla :: ins :: rest) r t' s' := by
  have hsel : plainSelect (cla :: ins :: rest) = none := plainSelect_of_ne hs
  have hin : t.innerApdu K (cla :: ins :: rest) = none := innerApdu_of_bit hb
  unfold plainCommand at h
  split at h
  · rename_i a hp
    obtain ⟨_, _, _, heq⟩ := parse_eq_ok hp
    simp only [List.cons.injEq] at heq
    obtain ⟨hcla, hins, -⟩ := heq
    by_cases h80 : cla = 0x80
    · split at h
      · cases h
      · rename_i hd
        cases h
        exact .plain hp (hcla ▸ h80) (by simpa [h80] using ht) (by simpa [h80] using hr) hd hsel hin
    · -- the secure-messaging bit excludes `84`
      have h84 : cla ≠ 0x84 := by
        rintro rfl
        exact hb (by decide)
      rw [dispatch_of_cla (hcla ▸ hins ▸ hs) ⟨hcla ▸ h80, hcla ▸ h84⟩] at h
      cases h
      exact .same _ hsel hin
  · cases h
    exact .same _ hsel hin

/-- SELECT. -/
theorem select_step {rest : Bytes}
    (h : plainCommand K env s (t.noteSelect 0x00 0xA4 (0x00 :: 0xA4 :: rest)) (0x00 :: 0xA4 :: rest) = .ok (r, t', s')) :
    ApduStep K env s t (0x00 :: 0xA4 :: rest) r t' s' := by
  unfold plainCommand noteSelect at h
  rw [if_pos ⟨rfl, rfl⟩] at h
  split at h
  · rename_i a hp
    obtain ⟨_, _, _, heq⟩ := parse_eq_ok hp
    simp only [List.cons.injEq] at heq
    have hsel : a.cla = 0x00 ∧ a.ins = 0xA4 := ⟨heq.1.symm, heq.2.1.symm⟩
    have hd : dispatch K env a s false = .ok (handleSelect a env.version, s) := by
      simp only [dispatch, dispatchCmd, if_pos hsel]
      rfl
    rw [hd] at h
    cases h
    exact .select hp (by simp only [plainSelect, hp, if_pos hsel])
  · rename_i hp
    cases h
    exact .badSelect (by simp only [plainSelect, hp]) (innerApdu_of_bit (by decide))

theorem initializeUpdate_step {cla ins : UInt8} {rest : Bytes} (hs : plainSelect (cla :: ins :: rest) = none)
    (hi : t.innerApdu K (cla :: ins :: rest) = none) :
    ApduStep K env s t (cla :: ins :: rest) (t.initializeUpdate K env s (cla :: ins :: rest)).1
      (t.initializeUpdate K env s (cla :: ins :: rest)).2 s := by
  unfold initializeUpdate
  split
  · refine .stay _ ?_ hs hi
    unfold initializeUpdateWithConfig
    split
    · simp [Scp03State.isActive]
    · split <;> simp [Scp03State.isActive]
  · exact .same _ hs hi

theorem externalAuthenticate_step {rest : Bytes}
    (hs : plainSelect (0x84 :: 0x82 :: rest) = none) (hi : t.innerApdu K (0x84 :: 0x82 :: rest) = none) :
    ApduStep K env s t (0x84 :: 0x82 :: rest) (t.scp03.externalAuthenticate K (0x84 :: 0x82 :: rest)).1
      { t with scp03 := (t.scp03.externalAuthenticate K (0x84 :: 0x82 :: rest)).2 } s := by
  unfold Scp03State.externalAuthenticate
  split
  · rename_i p ht
    split
    · rename_i sess ha
      exact .authenticate ht ha ⟨rest, rfl⟩ hs hi
    · exact .stay _ (by simp [Scp03State.isActive]) hs hi
  · exact .same _ hs hi

/-- An APDU of fewer than four bytes is refused. -/
theorem short_step (hlen : ∀ cla ins p1 p2 rest, apdu ≠ cla :: ins :: p1 :: p2 :: rest)
    (h : plainCommand K env s t apdu = .ok (r, t', s')) : ApduStep K env s t apdu r t' s' := by
  have hsel : plainSelect apdu = none := by
    unfold plainSelect
    split
    · rename_i a ha
      obtain ⟨_, _, _, heq⟩ := parse_eq_ok ha
      exact absurd heq (hlen _ _ _ _ _)
    · rfl
  have hin : t.innerApdu K apdu = none := by
    unfold T1Responder.innerApdu Session.innerApdu Session.unwrapCommand
    repeat' split
    all_goals simp_all
  unfold plainCommand at h
  split at h
  · rename_i a ha
    obtain ⟨_, _, _, heq⟩ := parse_eq_ok ha
    exact absurd heq (hlen _ _ _ _ _)
  · cases h
    exact .same _ hsel hin

/-- An APDU is processed in no other way. -/
theorem processApdu_step (h : processApdu K env s t apdu = .ok (r, t', s')) : ApduStep K env s t apdu r t' s' := by
  unfold processApdu at h
  split at h
  · rename_i cla ins p1 p2 rest
    by_cases hsel : cla = 0x00 ∧ ins = 0xA4
    · obtain ⟨rfl, rfl⟩ := hsel
      exact select_step h
    · have hnote : t.noteSelect cla ins (cla :: ins :: p1 :: p2 :: rest) = t := if_neg hsel
      have hs : plainSelect (cla :: ins :: p1 :: p2 :: rest) = none := plainSelect_of_ne hsel
      simp only [hnote] at h
      split at h
      · rename_i hc
        obtain ⟨rfl, rfl⟩ := hc
        cases h
        exact initializeUpdate_step hs (innerApdu_of_bit (by decide))
      · split at h
        · rename_i hc
          obtain ⟨rfl, rfl, hact⟩ := hc
          cases h
          exact externalAuthenticate_step hs (innerApdu_of_inactive hact)
        · split at h
          · rename_i hb
            exact wrappedCommand_step hb hs h
          · rename_i hb
            split at h
            · cases h
              exact .stay _ (by simp [Scp03State.isActive]) hs (innerApdu_of_bit hb)
            · rename_i hact
              split at h
              · cases h
                exact .same _ hs (innerApdu_of_bit hb)
              · rename_i hreq
                exact plainCommand_step hsel hb hact hreq h
  · rename_i hlen
    exact short_step hlen h

end Apdu

/-! ### Frames -/

/-- The APDU that a frame completes. -/
def completedApdu (t : T1Responder) (data : Bytes) : Option Bytes :=
  match parseFrame data with
  | some ⟨_, .iFrame _ false, payload⟩ => some (t.apduReassembly ++ payload)
  | _ => none

/-- An interface soft reset or a resync. -/
def isReset (data : Bytes) : Bool :=
  match frameTypeOf data with
  | some (.sFrame code false) => code == t1SInterfaceSoftReset || code == 0x00
  | _ => false

/-- How a frame can be processed. -/
inductive FrameStep (K : Crates) (env : Env) (s : ObjectStore) (t : T1Responder) (data : Bytes) (out : List Bytes) :
    T1Responder → ObjectStore → Prop
  | apdu {apdu : Bytes} {r : ApduResponse} {t₁ t' : T1Responder} {s' : ObjectStore} (hc : completedApdu t data = some apdu)
      (hr : isReset data = false) (hs : ApduStep K env s t apdu r t₁ s') (ho : responseBytes out = r.toBytes)
      (hch : t'.scp03 = t₁.scp03) (hsel : t'.selectedSsd = t₁.selectedSsd) : FrameStep K env s t data out t' s'
  | reset (hc : completedApdu t data = none) (hr : isReset data = true) : FrameStep K env s t data out t.reset s
  | keep {t' : T1Responder} (hc : completedApdu t data = none) (hr : isReset data = false)
      (hch : t'.scp03 = t.scp03) (hsel : t'.selectedSsd = t.selectedSsd) : FrameStep K env s t data out t' s

section Frame

variable {K : Crates} {env : Env} {s s' : ObjectStore} {t t' : T1Responder} {data : Bytes} {out : List Bytes}

theorem handleSRequest_step {f : T1Frame} {code : UInt8} (hp : parseFrame data = some f)
    (hf : f.frameType = .sFrame code false) :
    FrameStep K env s t data (t.handleSRequest code).1 (t.handleSRequest code).2 s := by
  obtain ⟨nad, ft, payload⟩ := f
  cases hf
  have hc : completedApdu t data = none := by simp only [completedApdu, hp]
  have hr : isReset data = (code == t1SInterfaceSoftReset || code == 0x00) := by
    simp only [isReset, frameTypeOf, hp, Option.map_some]
  unfold handleSRequest
  split
  · rename_i h0
    exact .reset hc (by rw [hr, h0]; rfl)
  · rename_i hF
    split
    · rename_i h0
      exact .reset hc (by rw [hr, h0]; rfl)
    · rename_i h0
      have hno : isReset data = false := by
        rw [hr]
        simp [hF, h0]
      split
      · exact .keep hc hno rfl rfl
      · exact .keep hc hno rfl rfl

theorem handleIFrame_step {f : T1Frame} {seq : UInt8} {multi : Bool} (hp : parseFrame data = some f)
    (hf : f.frameType = .iFrame seq multi) (h : handleIFrame K env s t multi f.payload = .ok (out, t', s')) :
    FrameStep K env s t data out t' s' := by
  obtain ⟨nad, ft, payload⟩ := f
  cases hf
  have hr : isReset data = false := by simp only [isReset, frameTypeOf, hp, Option.map_some]
  cases multi with
  | true =>
    cases h
    exact .keep (by simp only [completedApdu, hp]) hr rfl rfl
  | false =>
    have hl := @processApdu_link K env s t t.iseqRcv.toggle [] (t.apduReassembly ++ payload)
    simp only [link] at hl
    simp only [handleIFrame, Bool.false_eq_true, if_false, hl] at h
    have hc : completedApdu t data = some (t.apduReassembly ++ payload) := by simp only [completedApdu, hp]
    rcases hq : processApdu K env s t (t.apduReassembly ++ payload) with _ | ⟨resp, t₁, s₁⟩
    · rw [hq] at h
      cases h
    · rw [hq] at h
      cases h
      exact .apdu hc hr (processApdu_step hq) (responseBytes_buildResponseFrames _ _) rfl rfl

/-- A frame is processed in no other way. -/
theorem processFrame_step (h : processFrame K env s t data = .ok (out, t', s')) :
    FrameStep K env s t data out t' s' := by
  unfold processFrame at h
  split at h
  · rename_i hp
    cases h
    exact .keep (by simp only [completedApdu, hp]) (by simp only [isReset, frameTypeOf, hp, Option.map_none]) rfl rfl
  · rename_i f hp
    have hother : ∀ ft, f.frameType = ft → (∀ seq multi, ft ≠ .iFrame seq multi) → (∀ code, ft ≠ .sFrame code false) →
        completedApdu t data = none ∧ isReset data = false := by
      obtain ⟨nad, ft, payload⟩ := f
      rintro ft' rfl hi hs
      cases ft with
      | iFrame seq multi => exact absurd rfl (hi seq multi)
      | rFrame _ _ => simp only [completedApdu, isReset, frameTypeOf, hp, Option.map_some, and_self]
      | sFrame code isResponse =>
        cases isResponse with
        | false => exact absurd rfl (hs code)
        | true => simp only [completedApdu, isReset, frameTypeOf, hp, Option.map_some, and_self]
    split at h
    · rename_i code hf
      cases h
      exact handleSRequest_step hp hf
    · rename_i hf
      exact handleIFrame_step hp hf h
    · rename_i hf
      obtain ⟨hc, hr⟩ := hother _ hf (by simp) (by simp)
      cases h
      exact .keep hc hr rfl rfl
    · rename_i hf
      obtain ⟨hc, hr⟩ := hother _ hf (by simp) (by simp)
      cases h
      exact .keep hc hr rfl rfl

end Frame

end SE050
end Simulators
