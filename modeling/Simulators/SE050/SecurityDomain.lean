/-
# SE050: PUT KEY and the selected application

PUT KEY is meant for the Security Domain. The responder remembers in
`selectedSsd` what the last plain SELECT named, but a SELECT can also arrive
inside of the secure channel, where the dispatcher answers it without the
responder's notice. So the Security Domain is the last application that was
selected whenever PUT KEY succeeds, as long as no SELECT of the IoT applet
comes over the channel while the flag is set (`putKey_after_ssd`).
-/
import Simulators.SE050.Authentication

namespace Simulators
namespace SE050

open Handler T1Responder

/-! ### The history of a run -/

def ParsedApdu.isSelect (a : ParsedApdu) : Bool := a.cla == 0x00 && a.ins == 0xA4
def ParsedApdu.isPutKey (a : ParsedApdu) : Bool := a.cla == 0x80 && a.ins == 0xD8

/-- The response ends in `9000`. -/
def answeredOk (out : List Bytes) : Bool :=
  (responseBytes out).drop ((responseBytes out).length - 2) == [0x90, 0x00]

namespace DeviceEvent

variable (K : Crates) (e : DeviceEvent)

/-- The APDU that the frame completes. -/
def apdu : Option Bytes := completedApdu e.pre.1 e.input.2

/-- The command that arrives over the channel. -/
def inner : Option ParsedApdu := e.apdu.bind (e.pre.1.innerApdu K)

/-- The name in a SELECT that is answered `9000`, plain or over the channel. -/
def selected : Option Bytes :=
  if answeredOk e.output then
    (e.apdu.bind plainSelect).or ((e.inner K).bind fun a => if a.isSelect then some a.data else none)
  else none

/-- A PUT KEY over the channel that is answered with success. -/
def putsKey : Bool := (e.inner K).any (·.isPutKey) && answeredOk e.output

/-- A SELECT of the IoT applet over the channel, while the flag says Security Domain. -/
def selectsAppletInside : Bool :=
  e.pre.1.selectedSsd && (e.inner K).any fun a => a.isSelect && a.data == se050Aid

end DeviceEvent

/-- The name in the last SELECT, of those answered `9000` since the last reset or resync. -/
def lastSelect (K : Crates) (log : List DeviceEvent) : Option Bytes :=
  log.foldl (fun last e => if isReset e.input.2 then none else (e.selected K).or last) none

theorem lastSelect_concat (K : Crates) (log : List DeviceEvent) (e : DeviceEvent) :
    lastSelect K (log ++ [e]) = if isReset e.input.2 then none else (e.selected K).or (lastSelect K log) := by
  simp only [lastSelect, List.foldl_append, List.foldl_cons, List.foldl_nil]

/-! ### Responses -/

section Responses

variable {K : Crates}

theorem answeredOk_iff {out : List Bytes} {r : ApduResponse} (h : responseBytes out = r.toBytes) :
    answeredOk out = true ↔ r.sw = swNoError := by
  have hd : (responseBytes out).drop ((responseBytes out).length - 2) = [hiByte r.sw, loByte r.sw] := by
    rw [h]
    simp [ApduResponse.toBytes]
  simp only [answeredOk, hd, beq_iff_eq]
  constructor
  · intro h9
    simp only [List.cons.injEq, and_true] at h9
    rw [← word_hiByte_loByte r.sw, h9.1, h9.2]
    rfl
  · intro h9
    rw [h9]
    decide

/-- A wrapped response of success wraps a response of success. -/
theorem wrapResponse_success {s s' : Session} {resp out : ApduResponse} (h : s.wrapResponse K resp = .ok (out, s'))
    (hsw : out.sw = swNoError) : resp.sw = swNoError := by
  unfold Session.wrapResponse at h
  split at h
  · rename_i hc
    exact hc.2
  · cases h
    exact hsw

/-- A SELECT that succeeds names the applet or the Security Domain. -/
theorem handleSelect_success {a : ParsedApdu} {v : AppletVersion} (h : (handleSelect a v).sw = swNoError) :
    a.data = se050Aid ∨ a.data = ssdAid := by
  unfold handleSelect at h
  split at h
  · rename_i hd
    exact .inl hd
  · split at h
    · rename_i hd
      exact .inr (by simpa [selectsSsd] using hd)
    · exact absurd h (by decide)

/-- Inside of the channel, SELECT is answered by the dispatcher. -/
theorem innerCommand_select {env : Env} {s s' : ObjectStore} {ssd : Bool} {a : ParsedApdu} {resp : ApduResponse}
    (ha : a.isSelect = true) (h : innerCommand K env s ssd a = .ok (resp, s')) : resp = handleSelect a env.version := by
  simp only [ParsedApdu.isSelect, Bool.and_eq_true, beq_iff_eq] at ha
  have hput : ¬ (a.cla = 0x80 ∧ a.ins = 0xD8) := by
    rintro ⟨h1, -⟩
    rw [ha.1] at h1
    exact absurd h1 (by decide)
  simp only [innerCommand, if_neg hput, dispatch, dispatchCmd, if_pos ha] at h
  cases h
  rfl

/-- PUT KEY succeeds only while the flag is set. -/
theorem innerCommand_putKey {env : Env} {s s' : ObjectStore} {ssd : Bool} {a : ParsedApdu} {resp : ApduResponse}
    (ha : a.isPutKey = true) (h : innerCommand K env s ssd a = .ok (resp, s')) (hsw : resp.sw = swNoError) :
    ssd = true := by
  simp only [ParsedApdu.isPutKey, Bool.and_eq_true, beq_iff_eq] at ha
  cases ssd with
  | true => rfl
  | false =>
    simp only [innerCommand, if_pos ha, Bool.false_eq_true, if_false] at h
    cases h
    exact absurd hsw (by decide)

end Responses

/-! ### Steps and runs -/

section Runs

variable {K : Crates}

/-- The events that complete no SELECT leave the history alone. -/
theorem selected_none {e : DeviceEvent} (hp : e.apdu.bind plainSelect = none)
    (hi : ∀ a, e.inner K = some a → a.isSelect = true → answeredOk e.output = false) : e.selected K = none := by
  unfold DeviceEvent.selected
  split
  · rename_i hok
    rw [hp, Option.none_or]
    rcases h : e.inner K with _ | a
    · rfl
    · cases hs : a.isSelect with
      | false => simp [hs]
      | true =>
        rw [hi a h hs] at hok
        cases hok
  · rfl

/-- If the flag is set after an APDU, the APDU selected the Security Domain,
or the flag was set and nothing else was selected. -/
theorem selectedSsd_of_apduStep {e : DeviceEvent} {apdu : Bytes} {r : ApduResponse} {t' : T1Responder}
    {s' : ObjectStore}
    (hc : e.apdu = some apdu) (h : ApduStep K e.input.1 e.pre.2 e.pre.1 apdu r t' s')
    (ho : responseBytes e.output = r.toBytes) (hbad : e.selectsAppletInside K = false) (hsel : t'.selectedSsd = true) :
    e.selected K = some ssdAid ∨ e.pre.1.selectedSsd = true ∧ e.selected K = none := by
  have hinner : e.inner K = e.pre.1.innerApdu K apdu := by rw [DeviceEvent.inner, hc, Option.bind_some]
  have hplain : e.apdu.bind plainSelect = plainSelect apdu := by rw [hc, Option.bind_some]
  have hquiet : plainSelect apdu = none → e.pre.1.innerApdu K apdu = none → e.selected K = none := by
    intro h1 h2
    refine selected_none (hplain.trans h1) ?_
    intro a ha
    rw [hinner, h2] at ha
    cases ha
  cases h with
  | @select a hp hs =>
    have hdata : a.data = ssdAid := by simpa [selectsSsd] using hsel
    have hsw : (handleSelect a e.input.1.version).sw = swNoError := by
      unfold handleSelect
      rw [hdata, if_neg (by decide), if_pos hsel]
      rfl
    left
    rw [DeviceEvent.selected, if_pos ((answeredOk_iff ho).mpr hsw), hplain, hs, hdata]
    rfl
  | badSelect => cases hsel
  | stay _ _ hs hi => exact .inr ⟨hsel, hquiet hs hi⟩
  | authenticate _ _ _ hs hi => exact .inr ⟨hsel, hquiet hs hi⟩
  | plain _ _ _ _ _ hs hi => exact .inr ⟨hsel, hquiet hs hi⟩
  | @wrapped _ _ _ a resp out _ ht hu hi hs hcmd hw =>
    have hflag : e.pre.1.selectedSsd = true := hsel
    by_cases hok : answeredOk e.output = true ∧ a.isSelect = true
    · -- the dispatcher accepted a SELECT: of the Security Domain, as the applet is excluded
      have hsw := wrapResponse_success hw ((answeredOk_iff ho).mp hok.1)
      rw [innerCommand_select hok.2 hcmd] at hsw
      have hdata : a.data = ssdAid := by
        refine (handleSelect_success hsw).resolve_left ?_
        intro happlet
        simp [DeviceEvent.selectsAppletInside, hinner, hi, hflag, hok.2, happlet] at hbad
      left
      rw [DeviceEvent.selected, if_pos hok.1, hplain, hs, Option.none_or, hinner, hi, Option.bind_some,
        if_pos hok.2, hdata]
    · right
      refine ⟨hflag, selected_none (hplain.trans hs) ?_⟩
      intro a' ha' hsel'
      rw [hinner, hi] at ha'
      cases ha'
      by_contra hne
      exact hok ⟨by simpa using hne, hsel'⟩

/-- One frame: a set flag names the last SELECT. -/
theorem selectedSsd_step {d d' : Device} {i : Env × Bytes} {out : List Bytes} {log : List DeviceEvent}
    (h : Device.step K d i = .ok (out, d')) (hbad : DeviceEvent.selectsAppletInside K ⟨d, i, out⟩ = false)
    (hinv : d.1.selectedSsd = true → lastSelect K log = some ssdAid) (hsel : d'.1.selectedSsd = true) :
    lastSelect K (log ++ [⟨d, i, out⟩]) = some ssdAid := by
  rw [lastSelect_concat]
  obtain ⟨t, s⟩ := d
  obtain ⟨t', s'⟩ := d'
  cases processFrame_step h with
  | apdu hc hr hs ho _ hsel₁ =>
    rw [hsel₁] at hsel
    dsimp only
    rw [hr, if_neg Bool.false_ne_true]
    rcases selectedSsd_of_apduStep (e := ⟨(t, s), i, out⟩) hc hs ho hbad hsel with h1 | ⟨h1, h2⟩
    · rw [h1]
      rfl
    · rw [h2, hinv h1]
      rfl
  | reset => cases hsel
  | keep hc hr _ hsel₁ =>
    rw [hsel₁] at hsel
    have hnone : DeviceEvent.selected K ⟨(t, s), i, out⟩ = none := by
      refine selected_none ?_ ?_
      · rw [DeviceEvent.apdu, hc]
        rfl
      · intro a ha
        rw [DeviceEvent.inner, DeviceEvent.apdu, hc] at ha
        cases ha
    dsimp only
    rw [hr, if_neg Bool.false_ne_true, hnone, hinv hsel]
    rfl

/-- A run: the same, behind what has already happened. -/
theorem selectedSsd_run {d d' : Device} {log : List DeviceEvent} (h : Run (Device.step K) d log d') :
    ∀ past : List DeviceEvent, (d.1.selectedSsd = true → lastSelect K past = some ssdAid) →
      (∀ e ∈ log, e.selectsAppletInside K = false) → d'.1.selectedSsd = true →
      lastSelect K (past ++ log) = some ssdAid := by
  induction h with
  | nil s =>
    intro past hinv _ hsel
    rw [List.append_nil]
    exact hinv hsel
  | @cons s s₁ s' i o log h _ ih =>
    intro past hinv hbad hsel
    have hstep := selectedSsd_step h (hbad _ List.mem_cons_self) hinv
    have hrest := ih (past ++ [⟨s, i, o⟩]) hstep (fun e he => hbad e (List.mem_cons_of_mem _ he)) hsel
    rwa [List.append_assoc] at hrest

/-- PUT KEY succeeds only with the flag set. -/
theorem putsKey_flag {e : DeviceEvent} {d' : Device} (h : Device.step K e.pre e.input = .ok (e.output, d'))
    (hput : e.putsKey K = true) : e.pre.1.selectedSsd = true := by
  obtain ⟨⟨t, s⟩, i, out⟩ := e
  obtain ⟨t', s'⟩ := d'
  simp only [DeviceEvent.putsKey, Bool.and_eq_true, Option.any_eq_true] at hput
  obtain ⟨⟨a, ha, hkey⟩, hok⟩ := hput
  cases processFrame_step h with
  | @apdu apdu r _ _ _ hc _ hs ho =>
    have hi : t.innerApdu K apdu = some a := by
      rw [DeviceEvent.inner, DeviceEvent.apdu, hc] at ha
      exact ha
    have hnone : t.innerApdu K apdu ≠ none := by
      rw [hi]
      simp
    cases hs with
    | select _ hs => exact absurd (innerApdu_of_plainSelect hs) hnone
    | badSelect _ hno => exact absurd hno hnone
    | stay _ _ _ hno => exact absurd hno hnone
    | authenticate _ _ _ _ hno => exact absurd hno hnone
    | plain _ _ _ _ _ _ hno => exact absurd hno hnone
    | @wrapped _ _ _ b _ _ _ _ _ hb _ hcmd hw =>
      rw [hi] at hb
      cases hb
      exact innerCommand_putKey hkey hcmd (wrapResponse_success hw ((answeredOk_iff ho).mp hok))
  | reset hc => simp [DeviceEvent.inner, DeviceEvent.apdu, hc] at ha
  | keep hc => simp [DeviceEvent.inner, DeviceEvent.apdu, hc] at ha

end Runs

/-- In every run of a fresh responder in which no SELECT of the IoT applet
comes over the channel while the flag is set: when a PUT KEY succeeds, the
last SELECT that was answered `9000` since the last reset or resync named the
Security Domain. -/
theorem putKey_after_ssd (K : Crates) {nad : UInt8} {s : ObjectStore} {log : List DeviceEvent} {d' : Device}
    (hrun : Run (Device.step K) (T1Responder.new nad, s) log d') (hlog : ∀ e ∈ log, e.selectsAppletInside K = false)
    {past rest : List DeviceEvent} {e : DeviceEvent} (hsplit : log = past ++ e :: rest) (hput : e.putsKey K = true) :
    lastSelect K past = some ssdAid := by
  subst hsplit
  obtain ⟨d, hpast, hrest⟩ := hrun.split
  cases hrest with
  | cons hstep _ =>
    have hflag := putsKey_flag hstep hput
    have hbad : ∀ e ∈ past, e.selectsAppletInside K = false := fun e he => hlog e (List.mem_append_left _ he)
    exact selectedSsd_run hpast [] (fun h => by cases h) hbad hflag

/-! The handshake of the tests at level `01` after a SELECT of the Security Domain. -/

def selectSsdApdu : Bytes := toBe 16 0x00a404000bd276000085304a434f9003

/-- SELECT of the IoT applet, wrapped. -/
def wrappedSelect : Bytes := toBe 29 0x04a4040018a00000039654530000000103000000003d79ec1d481728f8

/-- PUT KEY up to its MAC: three keys under the DEK with their check values. -/
def putKeyHead : List Bytes :=
  [toBe 29 0x84d80b814e0c8811108c64b4628c1fdcffe00ef50f79bdc59703504a77,
    toBe 23 0x881110693f3c2e0dda15cb29a2c1cd80a3430203f2a8df,
    toBe 23 0x881110e5fccb929452e0aef783e446c35765a803d7d0e4]

/-- PUT KEY in four frames. -/
def putKeyFrames (seq : UInt8) (mac : Bytes) : List (Env × Bytes) :=
  List.zipWith (fun q piece => (challengeEnv, (frameChunks 0x5A (.iFrame q true) piece).flatten))
    [seq, seq ^^^ 1, seq] putKeyHead ++ [apduFrame (seq ^^^ 1) mac]

def newEnc : Bytes := toBe 16 0x404142434445464748494a4b4c4d4e4f
def newMac : Bytes := toBe 16 0x505152535455565758595a5b5c5d5e5f
def newDek : Bytes := toBe 16 0x606162636465666768696a6b6c6d6e6f

def rotationMacs : List Recorded :=
  [⟨sessionMac, toBe 29 0x8482010010ad5e484a81d592d9, toBe 16 0x8e2d8c269bd36523c499da9e0645a058⟩,
    ⟨sessionMac, toBe 37 0x8e2d8c269bd36523c499da9e0645a05804a4040018a0000003965453000000010300000000,
      toBe 16 0x3d79ec1d481728f8e998a6879fa295c5⟩,
    ⟨sessionMac, toBe 16 0x3d79ec1d481728f8e998a6879fa295c5 ++ putKeyHead.flatten, toBe 16 0xf9d231e4dc07b7778e700829f3dd07e9⟩,
    ⟨sessionMac, toBe 16 0x8e2d8c269bd36523c499da9e0645a058 ++ putKeyHead.flatten, toBe 16 0x85633d8a6a64875da07cc424150f65cf⟩]

def rotationBlocks : List Recorded :=
  [⟨se050eDek, newEnc, toBe 16 0x8c64b4628c1fdcffe00ef50f79bdc597⟩,
    ⟨se050eDek, newMac, toBe 16 0x693f3c2e0dda15cb29a2c1cd80a34302⟩,
    ⟨se050eDek, newDek, toBe 16 0xe5fccb929452e0aef783e446c35765a8⟩,
    ⟨newEnc, List.replicate 16 0x01, toBe 16 0x504a77e6e457dd861e066f7804281a5f⟩,
    ⟨newMac, List.replicate 16 0x01, toBe 16 0xf2a8dfba08bd54f2a35b80cc24bc0b11⟩,
    ⟨newDek, List.replicate 16 0x01, toBe 16 0xd7d0e41ecce159c0bfef1f1c0f8c738b⟩]

def rotationCrates : Crates := Crates.recorded (handshakeMacs ++ rotationMacs) rotationBlocks

/-- SELECT of the Security Domain, the handshake, and PUT KEY. -/
def rotationFrames : List (Env × Bytes) :=
  [apduFrame 0 selectSsdApdu, apduFrame 1 initializeUpdateApdu, apduFrame 0 externalAuthenticateApdu] ++
    putKeyFrames 1 (toBe 8 0x85633d8a6a64875d)

/-- The same with a SELECT of the IoT applet over the channel in between. -/
def reselectFrames : List (Env × Bytes) :=
  [apduFrame 0 selectSsdApdu, apduFrame 1 initializeUpdateApdu, apduFrame 0 externalAuthenticateApdu,
    apduFrame 1 wrappedSelect] ++ putKeyFrames 0 (toBe 8 0xf9d231e4dc07b777)

theorem rotation_after_ssd :
    ∃ (past : List DeviceEvent) (e : DeviceEvent) (d' : Device), Run (Device.step rotationCrates) (T1Responder.new 0x5A, ObjectStore.new) (past ++ [e]) d' ∧
      e.putsKey rotationCrates = true ∧ lastSelect rotationCrates past = some ssdAid := by
  have hrun : (trace (Device.step rotationCrates) (T1Responder.new 0x5A, ObjectStore.new) rotationFrames).map
      (testLast fun past (e : DeviceEvent) _ => e.putsKey rotationCrates &&
        (past ++ [e]).all fun e : DeviceEvent => !e.selectsAppletInside rotationCrates) = .ok true := by
    decide +kernel
  obtain ⟨past, e, d', h, htest⟩ := exists_run_of_trace hrun
  simp only [Bool.and_eq_true, List.all_eq_true, Bool.not_eq_true'] at htest
  exact ⟨past, e, d', h, htest.1, putKey_after_ssd rotationCrates h htest.2 rfl htest.1⟩

/-- PUT KEY replaces the keys although the IoT applet was the last selected. -/
theorem putKey_after_applet :
    ∃ (past : List DeviceEvent) (e : DeviceEvent) (d' : Device), Run (Device.step rotationCrates) (T1Responder.new 0x5A, ObjectStore.new) (past ++ [e]) d' ∧
      e.putsKey rotationCrates = true ∧ e.pre.2.platformScp = none ∧
      d'.2.platformScp = some ⟨0x0C, newEnc, newMac, newDek⟩ ∧ lastSelect rotationCrates past = some se050Aid := by
  have hrun : (trace (Device.step rotationCrates) (T1Responder.new 0x5A, ObjectStore.new) reselectFrames).map
      (testLast fun past (e : DeviceEvent) (d' : Device) => e.putsKey rotationCrates && (e.pre.2.platformScp == none &&
        (d'.2.platformScp == some ⟨0x0C, newEnc, newMac, newDek⟩ &&
          lastSelect rotationCrates past == some se050Aid))) = .ok true := by
    decide +kernel
  obtain ⟨past, e, d', h, htest⟩ := exists_run_of_trace hrun
  simp only [Bool.and_eq_true, beq_iff_eq] at htest
  exact ⟨past, e, d', h, htest⟩

end SE050
end Simulators
