/-
# SE050: digests and MACs in several steps

A digest or a MAC that is computed over Init, Updates and a Final gives what
its one-shot command gives on the concatenated inputs, whatever other commands
come in between (`multistep_eq_oneshot`). What is running on a crypto object is
read off the commands so far (`running`), and the context that the store keeps
for it stands for exactly that (`tracks`).

Key definitions: `Computation`, `Running`, `running`, `Computation.compute`.
-/
import Simulators.SE050.Atomic
import Simulators.SE050.Contexts
import Simulators.SE050.Refusals

namespace Simulators
namespace SE050

open Handler

instance : Fintype ContextKind := ⟨{.digest, .cipher, .mac}, fun k => by cases k <;> decide⟩

/-! ### What is running -/

/-- What an Init fixes. -/
inductive Computation
  | digest (algo : UInt8)
  | mac (algo : UInt8) (validate : Bool) (keyId : ObjectId)
deriving DecidableEq, Repr

def Computation.kind : Computation → ContextKind
  | .digest _ => .digest
  | .mac .. => .mac

def Computation.keyId : Computation → Option ObjectId
  | .digest _ => none
  | .mac _ _ keyId => some keyId

/-- A computation and its inputs so far, one after the other. -/
structure Running where
  what : Computation
  fed : Bytes
deriving DecidableEq, Repr

def Running.feed (r : Running) (input : Bytes) : Running := { r with fed := r.fed ++ input }

/-- The tag of an Update's and a Final's input. -/
def ContextKind.inputTag : ContextKind → UInt8
  | .digest => tag3
  | .cipher => tag3
  | .mac => tag1

namespace ParsedApdu

/-- The crypto object that an Init, Update or Final is addressed to. -/
def stepTarget (a : ParsedApdu) : Option UInt16 := cryptoIdOf a.tlvsOrDefault tag2

/-- The crypto object that DeleteCryptoObject names. -/
def deletedCryptoObj (a : ParsedApdu) : Option UInt16 := cryptoIdOf a.tlvsOrDefault tag1

/-- The input of an Update or Final. -/
def input (a : ParsedApdu) (k : ContextKind) : Bytes := (valueOf a.tlvsOrDefault k.inputTag).getD []

/-- What an accepted Init starts on a crypto object with the algorithm `algo`. A cipher is no digest and no MAC. -/
def starts (a : ParsedApdu) (algo : UInt8) : ContextKind → Option Running
  | .digest => some ⟨.digest algo, []⟩
  | .cipher => none
  | .mac => (objectIdOf a.tlvsOrDefault tag1).map fun keyId => ⟨.mac algo (a.p2 == p2MacValidate) keyId, []⟩

end ParsedApdu

/-- The algorithm of a crypto object when the command came. -/
def StoreEvent.algo (e : StoreEvent) (cid : UInt16) : UInt8 :=
  ((e.pre.cryptoObjectTypes.lookup cid).map (·.2)).getD 0

/-- What is running on a crypto object after one more command. -/
def Running.after (cid : UInt16) (run : Option Running) (e : StoreEvent) : Option Running :=
  let a := e.input.apdu
  if a.IsDeleteAll then none
  else if a.IsDeleteCryptoObj ∧ e.Accepted ∧ a.deletedCryptoObj = some cid then none
  else if a.stepTarget ≠ some cid then run
  else if ∃ k, a.IsFinal k then none
  else if ¬ e.Accepted then run
  else if a.IsInit .digest then a.starts (e.algo cid) .digest
  else if a.IsInit .cipher then a.starts (e.algo cid) .cipher
  else if a.IsInit .mac then a.starts (e.algo cid) .mac
  else if a.IsStep .digest p2Update then run.map (·.feed (a.input .digest))
  else if a.IsStep .mac p2Update then run.map (·.feed (a.input .mac))
  else run

/-- What is running on a crypto object after the commands so far: what its latest accepted Init started, with the
inputs of its accepted Updates since. -/
def running (cid : UInt16) (log : List StoreEvent) : Option Running := log.foldl (Running.after cid) none

theorem running_concat (cid : UInt16) (log : List StoreEvent) (e : StoreEvent) :
    running cid (log ++ [e]) = Running.after cid (running cid log) e := by
  rw [running, List.foldl_append]
  rfl

/-- The digest or MAC that a context stands for. -/
def CryptoObjectState.running : CryptoObjectState → Option Running
  | .digest algo data => some ⟨.digest algo, data⟩
  | .cipher .. => none
  | .mac algo validate keyId data => some ⟨.mac algo validate keyId, data⟩

/-- The context of every crypto object stands for what is running on it. -/
def Tracks (log : List StoreEvent) (s : ObjectStore) : Prop :=
  ∀ cid, (s.cryptoObjects.lookup cid).bind (·.running) = running cid log

section Steps

variable {K : Crates} {env : Env} {apdu : ParsedApdu} {a : Bool} {s s' : ObjectStore} {r : ApduResponse}
  {tlvs : List Tlv} {cid : UInt16} {k : ContextKind}

theorem stepTarget_eq (h : apdu.tlvs = .ok tlvs) : apdu.stepTarget = cryptoIdOf tlvs tag2 := by
  rw [ParsedApdu.stepTarget, ParsedApdu.tlvsOrDefault_eq h]

/-- A command that names a crypto object has TLVs. -/
theorem exists_tlvs_of_stepTarget (h : apdu.stepTarget = some cid) :
    ∃ tlvs, apdu.tlvs = .ok tlvs ∧ cryptoIdOf tlvs tag2 = some cid := by
  unfold ParsedApdu.stepTarget ParsedApdu.tlvsOrDefault at h
  cases hp : apdu.parseTlvs with
  | ok tlvs =>
    rw [hp] at h
    exact ⟨tlvs, ParsedApdu.tlvs_eq_ok.mpr hp, h⟩
  | error e =>
    rw [hp] at h
    cases h

/-- A context changes only by a command that names it. -/
theorem ContextEffect.lookup_of_elsewhere (h : ContextEffect K apdu s r s') (hall : ¬ apdu.IsDeleteAll)
    (hdel : ¬ (apdu.IsDeleteCryptoObj ∧ r.sw = swNoError ∧ apdu.deletedCryptoObj = some cid))
    (hstep : apdu.stepTarget ≠ some cid ∨ ¬ ∃ k, apdu.IsFinal k ∨
      r.sw = swNoError ∧ (apdu.IsInit k ∨ apdu.IsStep k p2Update)) :
    s'.cryptoObjects.lookup cid = s.cryptoObjects.lookup cid := by
  -- an Init, Update or Final that has an effect names another crypto object
  have hother : ∀ (k : ContextKind) (tlvs : List Tlv) (cid' : UInt16), apdu.tlvs = .ok tlvs →
      cryptoIdOf tlvs tag2 = some cid' →
      apdu.IsFinal k ∨ r.sw = swNoError ∧ (apdu.IsInit k ∨ apdu.IsStep k p2Update) → cid ≠ cid' := by
    rintro k tlvs cid' ht hcid hc rfl
    rcases hstep with hstep | hstep
    · exact hstep ((stepTarget_eq ht).trans hcid)
    · exact hstep ⟨k, hc⟩
  cases h with
  | keeps ho => rw [ho]
  | starts hc ht hcid => exact Finmap.lookup_insert_of_ne _ (hother _ _ _ ht hcid (.inr ⟨rfl, .inl hc⟩))
  | advances hc ht hcid _ hadv =>
    exact Finmap.lookup_insert_of_ne _ (hother _ _ _ ht hcid (.inr ⟨hadv.accepted, .inr hc⟩))
  | ends hc ht hcid => exact Finmap.lookup_erase_ne (hother _ _ _ ht hcid (.inl hc))
  | creates => rfl
  | @deletes cid' tlvs hc ht hcid =>
    have hne : cid ≠ cid' := by
      rintro rfl
      refine hdel ⟨hc, rfl, ?_⟩
      rw [ParsedApdu.deletedCryptoObj, ParsedApdu.tlvsOrDefault_eq ht, hcid]
    exact Finmap.lookup_erase_ne hne
  | clears hc => exact absurd hc hall

/-! ### One command -/

theorem after_of_init (hc : apdu.IsInit k) (hd : dispatch K env apdu s a = .ok (r, s')) (hr : r.sw = swNoError)
    (ht : apdu.stepTarget = some cid) : (s'.cryptoObjects.lookup cid).bind (·.running) =
      apdu.starts (((s.cryptoObjectTypes.lookup cid).map (·.2)).getD 0) k := by
  rw [dispatch, dispatchCmd_init hc] at hd
  obtain ⟨-, tlvs, cid', subtype, c, htlvs, hcid, hsub, hstart, rfl⟩ :=
    initHandler_eq_ok (accepted hd (initHandler_refuses k) hr)
  obtain rfl : cid' = cid := by
    rw [stepTarget_eq htlvs, hcid] at ht
    exact Option.some.inj ht
  have hlookup : (s.setContext cid' c).cryptoObjects.lookup cid' = some c := Finmap.lookup_insert _
  rw [hlookup, Option.bind_some, hsub]
  cases hstart with
  | digest => rfl
  | cipher => rfl
  | mac hk =>
    rw [ParsedApdu.starts, ParsedApdu.tlvsOrDefault_eq htlvs, hk]
    rfl

theorem after_of_update (hc : apdu.IsStep k p2Update) (hk : k ≠ .cipher)
    (hd : dispatch K env apdu s a = .ok (r, s')) (hr : r.sw = swNoError) (ht : apdu.stepTarget = some cid) :
    (s'.cryptoObjects.lookup cid).bind (·.running) =
      ((s.cryptoObjects.lookup cid).bind (·.running)).map (·.feed (apdu.input k)) := by
  rw [dispatch, dispatchCmd_update hc] at hd
  obtain ⟨tlvs, cid', c, c', htlvs, hcid, hl, hkind, hadv, rfl⟩ :=
    updateHandler_eq_ok (accepted hd (updateHandler_refuses k) hr)
  obtain rfl : cid' = cid := by
    rw [stepTarget_eq htlvs, hcid] at ht
    exact Option.some.inj ht
  have hlookup : (s.setContext cid' c').cryptoObjects.lookup cid' = some c' := Finmap.lookup_insert _
  rw [hlookup, hl, Option.bind_some, Option.bind_some]
  cases hadv with
  | digest hin =>
    subst hkind
    rw [ParsedApdu.input, ParsedApdu.tlvsOrDefault_eq htlvs]
    simp only [CryptoObjectState.running, CryptoObjectState.kind, ContextKind.inputTag, hin, Option.map_some,
      Option.getD_some, Running.feed]
  | cipher => exact absurd hkind.symm hk
  | mac =>
    subst hkind
    rw [ParsedApdu.input, ParsedApdu.tlvsOrDefault_eq htlvs]
    rfl

/-- An Update of a cipher changes no digest and no MAC. -/
theorem after_of_cipherUpdate (hc : apdu.IsStep .cipher p2Update)
    (hd : dispatch K env apdu s a = .ok (r, s')) (hr : r.sw = swNoError) (ht : apdu.stepTarget = some cid) :
    (s'.cryptoObjects.lookup cid).bind (·.running) = (s.cryptoObjects.lookup cid).bind (·.running) := by
  rw [dispatch, dispatchCmd_update hc] at hd
  obtain ⟨tlvs, cid', c, c', htlvs, hcid, hl, hkind, hadv, rfl⟩ :=
    updateHandler_eq_ok (accepted hd (updateHandler_refuses .cipher) hr)
  obtain rfl : cid' = cid := by
    rw [stepTarget_eq htlvs, hcid] at ht
    exact Option.some.inj ht
  have hlookup : (s.setContext cid' c').cryptoObjects.lookup cid' = some c' := Finmap.lookup_insert _
  rw [hlookup, hl]
  cases hadv with
  | digest => cases hkind
  | cipher => rfl
  | mac => cases hkind

theorem refuses_finish {h : Cmd ApduResponse} {Q : UInt16 → Prop} : (finish s h).Refuses Q := by
  unfold finish
  split
  · exact refuses_ok
  · exact refuses_ok
  · exact refuses_panic

/-- A Final that names a crypto object is refused only if nothing runs there. -/
theorem lookup_of_finalHandler_refuse {sw : UInt16} (ht : apdu.tlvs = .ok tlvs)
    (hcid : cryptoIdOf tlvs tag2 = some cid) (h : finalHandler K apdu s k = refuse sw) :
    s.cryptoObjects.lookup cid = none := by
  by_contra hne
  obtain ⟨c, hl⟩ := Option.ne_none_iff_exists'.mp hne
  have hno : (finalHandler K apdu s k).Refuses fun _ => False := by
    cases k with
    | digest => simp only [finalHandler, handleDigestFinal, ht, hcid, hl, orRefuse, ok_bind, refuses_finish]
    | cipher => simp only [finalHandler, handleCipherFinal, ht, hcid, hl, orRefuse, ok_bind, refuses_finish]
    | mac => simp only [finalHandler, handleMacFinal, ht, hcid, hl, orRefuse, ok_bind, refuses_finish]
  exact hno sw h

/-- After a Final nothing runs on the crypto object it names. -/
theorem after_of_final (hc : apdu.IsFinal k) (hd : dispatch K env apdu s a = .ok (r, s'))
    (ht : apdu.stepTarget = some cid) : s'.cryptoObjects.lookup cid = none := by
  rw [dispatch, dispatchCmd_final hc] at hd
  rcases settle_eq_ok.mp hd with hok | ⟨sw, hrefuse, -, rfl⟩
  · obtain ⟨tlvs, cid', c, htlvs, hcid, -, rfl⟩ := finalHandler_eq_ok hok
    obtain rfl : cid' = cid := by
      rw [stepTarget_eq htlvs, hcid] at ht
      exact Option.some.inj ht
    exact Finmap.lookup_erase _ _
  · obtain ⟨tlvs, htlvs, hcid⟩ := exists_tlvs_of_stepTarget ht
    exact lookup_of_finalHandler_refuse htlvs hcid hrefuse

/-- After an accepted deletion nothing runs on the crypto object it names. -/
theorem after_of_deleteCryptoObj (hc : apdu.IsDeleteCryptoObj) (hd : dispatch K env apdu s a = .ok (r, s'))
    (hr : r.sw = swNoError) (ht : apdu.deletedCryptoObj = some cid) : s'.cryptoObjects.lookup cid = none := by
  rw [dispatch, dispatchCmd_deleteCryptoObj hc] at hd
  obtain ⟨-, tlvs, cid', htlvs, hcid, rfl⟩ :=
    handleCryptoObjDelete_eq_ok (accepted hd handleCryptoObjDelete_refuses hr)
  rw [ParsedApdu.deletedCryptoObj, ParsedApdu.tlvsOrDefault_eq htlvs, hcid, Option.some.injEq] at ht
  subst ht
  exact Finmap.lookup_erase _ _

/-- The context stands for what is running after the command, too. -/
theorem running_after (hd : dispatch K env apdu s a = .ok (r, s')) :
    (s'.cryptoObjects.lookup cid).bind (·.running) =
      Running.after cid ((s.cryptoObjects.lookup cid).bind (·.running)) ⟨s, ⟨env, apdu, a⟩, r⟩ := by
  have heffect := (dispatch_handled hd).contextEffect
  simp only [Running.after, StoreEvent.Accepted]
  by_cases hall : apdu.IsDeleteAll
  · rw [dispatch, dispatchCmd_deleteAll hall] at hd
    cases hd
    rw [if_pos hall, ObjectStore.clear_cryptoObjects, Finmap.lookup_empty]
    rfl
  rw [if_neg hall]
  by_cases hdel : apdu.IsDeleteCryptoObj ∧ r.sw = swNoError ∧ apdu.deletedCryptoObj = some cid
  · rw [if_pos hdel]
    obtain ⟨hc, hr, ht⟩ := hdel
    rw [after_of_deleteCryptoObj hc hd hr ht]
    rfl
  rw [if_neg hdel]
  by_cases ht : apdu.stepTarget = some cid
  swap
  · rw [if_pos ht, heffect.lookup_of_elsewhere hall hdel (.inl ht)]
  rw [if_neg (not_not.mpr ht)]
  by_cases hfinal : ∃ k, apdu.IsFinal k
  · obtain ⟨k, hk⟩ := hfinal
    rw [if_pos ⟨k, hk⟩, after_of_final hk hd ht]
    rfl
  rw [if_neg hfinal]
  by_cases hr : r.sw = swNoError
  swap
  · rw [if_pos hr]
    refine congrArg (Option.bind · _) (heffect.lookup_of_elsewhere hall hdel (.inr ?_))
    rintro ⟨k, hk | ⟨hacc, -⟩⟩
    · exact hfinal ⟨k, hk⟩
    · exact hr hacc
  rw [if_neg (not_not.mpr hr)]
  by_cases hdigest : apdu.IsInit .digest
  · rw [if_pos hdigest]
    exact after_of_init hdigest hd hr ht
  rw [if_neg hdigest]
  by_cases hcipher : apdu.IsInit .cipher
  · rw [if_pos hcipher]
    exact after_of_init hcipher hd hr ht
  rw [if_neg hcipher]
  by_cases hmac : apdu.IsInit .mac
  · rw [if_pos hmac]
    exact after_of_init hmac hd hr ht
  rw [if_neg hmac]
  by_cases hudigest : apdu.IsStep .digest p2Update
  · rw [if_pos hudigest]
    exact after_of_update hudigest (by decide) hd hr ht
  rw [if_neg hudigest]
  by_cases humac : apdu.IsStep .mac p2Update
  · rw [if_pos humac]
    exact after_of_update humac (by decide) hd hr ht
  rw [if_neg humac]
  by_cases hucipher : apdu.IsStep .cipher p2Update
  · exact after_of_cipherUpdate hucipher hd hr ht
  refine congrArg (Option.bind · _) (heffect.lookup_of_elsewhere hall hdel (.inr ?_))
  rintro ⟨k, hk | ⟨-, hk | hk⟩⟩
  · exact hfinal ⟨k, hk⟩
  · cases k with
    | digest => exact hdigest hk
    | cipher => exact hcipher hk
    | mac => exact hmac hk
  · cases k with
    | digest => exact hudigest hk
    | cipher => exact hucipher hk
    | mac => exact humac hk

/-- After any commands, the contexts stand for what is running. -/
theorem tracks {log : List StoreEvent} (h : Run (execute K) .new log s) : Tracks log s := by
  refine h.history (I := Tracks) ?_ ?_
  · intro past s c r s' htrack hstep cid
    rw [running_concat, ← htrack cid]
    exact running_after hstep
  · intro cid
    rfl

/-! ### The one-shot commands -/

/-- The computation itself, with the TLVs of the command that asks for its result: MACs to validate are in Tag5. -/
def Computation.compute (K : Crates) (s : ObjectStore) (tlvs : List Tlv) (data : Bytes) :
    Computation → Cmd ApduResponse
  | .digest algo => do
    let hash ← orRefuse swWrongData (computeHash K algo data)
    return .successWithTlvs [⟨tag1, hash⟩]
  | .mac algo validate keyId => do
    let expected ← expectedMac tlvs validate
    let keyObj ← orRefuse swConditionsNotSatisfied (s.get keyId)
    let mac ← computeMac K algo keyObj data
    return macResponse mac expected

/-- DigestOneShot, MACGenerateOneShot or MACValidateOneShot for a computation on `data`. -/
def Computation.IsOneshot (c : Computation) (apdu : ParsedApdu) (tlvs : List Tlv) (data : Bytes) : Prop :=
  apdu.tlvs = .ok tlvs ∧ match c with
  | .digest algo => apdu.IsStep .digest p2Oneshot ∧ byteOf tlvs tag1 = some algo ∧ (valueOf tlvs tag2).getD [] = data
  | .mac algo validate keyId =>
    apdu.IsStep .mac (if validate then p2ValidateOneshot else p2GenerateOneshot) ∧ objectIdOf tlvs tag1 = some keyId ∧
      byteOf tlvs tag2 = some algo ∧ (valueOf tlvs tag3).getD [] = data

section Oneshot

variable {c : Computation} {data : Bytes} {t : ObjectStore} {tlvs' : List Tlv}

theorem expectedMac_congr (h : valueOf tlvs' tag5 = valueOf tlvs tag5) (validate : Bool) :
    expectedMac tlvs' validate = expectedMac tlvs validate := by
  unfold expectedMac
  rw [h]

/-- A computation reads its key and the MAC to validate, and nothing else. -/
theorem compute_congr (hkey : ∀ keyId, c.keyId = some keyId → t.get keyId = s.get keyId)
    (htag : valueOf tlvs' tag5 = valueOf tlvs tag5) : c.compute K t tlvs' data = c.compute K s tlvs data := by
  cases c with
  | digest algo => rfl
  | mac algo validate keyId =>
    rw [Computation.compute, Computation.compute, expectedMac_congr htag, hkey keyId rfl]

theorem dispatchCmd_oneshot (h : c.IsOneshot apdu tlvs data) :
    dispatchCmd K env apdu s a = readOnly s (c.compute K s tlvs data) := by
  cases c with
  | digest algo =>
    obtain ⟨htlvs, hc, halgo, rfl⟩ := h
    have hone : handleDigestOneshot K apdu =
        (Computation.digest algo).compute K s tlvs ((valueOf tlvs tag2).getD []) := by
      simp only [handleDigestOneshot, htlvs, halgo, orRefuse, ok_bind, Computation.compute]
    rw [dispatchCmd_kind hc.1 hc.2.1, dispatchKind, dispatchDigest, if_pos hc.2.2, hone]
  | mac algo validate keyId =>
    obtain ⟨htlvs, hc, hkey, halgo, rfl⟩ := h
    have hone : handleMacOneshot K apdu s validate =
        (Computation.mac algo validate keyId).compute K s tlvs ((valueOf tlvs tag3).getD []) := by
      simp only [handleMacOneshot, htlvs, hkey, halgo, orRefuse, ok_bind, Computation.compute]
    rw [dispatchCmd_kind hc.1 hc.2.1, dispatchKind, dispatchMac]
    cases validate with
    | false =>
      have hp2 : apdu.p2 = p2GenerateOneshot := hc.2.2
      rw [if_pos hp2, hone]
    | true =>
      have hp2 : apdu.p2 = p2ValidateOneshot := hc.2.2
      rw [if_neg (hp2 ▸ by decide), if_pos hp2, hone]

/-- A Final carries out what is running. -/
theorem finalHandler_running {x : CryptoObjectState} {run : Running} (ht : apdu.tlvs = .ok tlvs)
    (hcid : cryptoIdOf tlvs tag2 = some cid) (hl : s.cryptoObjects.lookup cid = some x)
    (hrun : x.running = some run) (hk : run.what.kind = k) :
    finalHandler K apdu s k =
      finish (s.dropContext cid) (run.what.compute K s tlvs (run.fed ++ apdu.input k)) := by
  subst hk
  cases x with
  | digest algo data =>
    cases hrun
    simp only [finalHandler, Computation.kind, handleDigestFinal, ht, hcid, hl, orRefuse, ok_bind, ParsedApdu.input,
      ParsedApdu.tlvsOrDefault_eq ht, ContextKind.inputTag, Computation.compute]
  | cipher => cases hrun
  | mac algo validate keyId data =>
    cases hrun
    simp only [finalHandler, Computation.kind, handleMacFinal, ht, hcid, hl, orRefuse, ok_bind, ParsedApdu.input,
      ParsedApdu.tlvsOrDefault_eq ht, ContextKind.inputTag, Computation.compute]
    rfl

/-- What a handler answers over a changed store, it answers over any other. -/
theorem settle_readOnly_of_finish {h : Cmd ApduResponse} {s₁ : ObjectStore}
    (hd : settle ApduResponse.error s (finish s₁ h) = .ok (r, s')) :
    settle ApduResponse.error t (readOnly t h) = .ok (r, t) := by
  rcases h with (p | sw) | x
  · cases hd
  · cases hd
    rfl
  · cases hd
    rfl

end Oneshot

/-- A Final answers as the computation does in any store with the same key. -/
theorem settle_compute_of_final {x : CryptoObjectState} {run : Running} (hc : apdu.IsFinal k)
    (hd : dispatch K env apdu s a = .ok (r, s')) (ht : apdu.stepTarget = some cid)
    (hl : s.cryptoObjects.lookup cid = some x) (hrun : x.running = some run) (hk : run.what.kind = k) {t : ObjectStore}
    (hkey : ∀ keyId, run.what.keyId = some keyId → t.get keyId = s.get keyId) {tlvs : List Tlv}
    (htag : valueOf tlvs tag5 = valueOf apdu.tlvsOrDefault tag5) :
    settle ApduResponse.error t (readOnly t (run.what.compute K t tlvs (run.fed ++ apdu.input k))) = .ok (r, t) := by
  obtain ⟨tlvs', htlvs, hcid⟩ := exists_tlvs_of_stepTarget ht
  rw [ParsedApdu.tlvsOrDefault_eq htlvs] at htag
  rw [dispatch, dispatchCmd_final hc, finalHandler_running htlvs hcid hl hrun hk] at hd
  rw [compute_congr hkey htag]
  exact settle_readOnly_of_finish hd

/-- A Final is refused where nothing of its kind runs. -/
theorem dispatch_final_idle (hc : apdu.IsFinal k) (hk : k ≠ .cipher) (hd : dispatch K env apdu s a = .ok (r, s'))
    (ht : apdu.stepTarget = some cid)
    (hno : ∀ run, (s.cryptoObjects.lookup cid).bind (·.running) = some run → run.what.kind ≠ k) :
    r = .error swConditionsNotSatisfied := by
  obtain ⟨tlvs, htlvs, hcid⟩ := exists_tlvs_of_stepTarget ht
  cases hl : s.cryptoObjects.lookup cid with
  | none =>
    rw [dispatch, dispatchCmd_final hc] at hd
    cases k with
    | digest =>
      simp only [finalHandler, handleDigestFinal, htlvs, hcid, hl, orRefuse, ok_bind, refuse_bind] at hd
      cases hd
      rfl
    | cipher => exact absurd rfl hk
    | mac =>
      simp only [finalHandler, handleMacFinal, htlvs, hcid, hl, orRefuse, ok_bind, refuse_bind] at hd
      cases hd
      rfl
  | some x =>
    have hkind : x.kind ≠ k := by
      rintro rfl
      rw [hl] at hno
      cases x with
      | digest algo data => exact hno _ rfl rfl
      | cipher => exact hk rfl
      | mac algo validate keyId data => exact hno _ rfl rfl
    have hmis : dispatch K env apdu s a = .ok (.error swConditionsNotSatisfied, s.dropContext cid) :=
      dispatch_misaddressed hc (finalTarget_eq_some.mpr ⟨tlvs, htlvs, hcid⟩) hl hkind
    rw [hmis] at hd
    cases hd
    rfl

end Steps

/-- In every run a Final answers what the one-shot command answers, for the same algorithm, key and MAC to validate,
on the inputs since the latest Init, one after the other; and it is refused if nothing of its kind is running. The
one-shot may be executed in any store in which the key is what it is at the Final. Inputs that together are too long
for one command give what the same computation gives on them. -/
theorem multistep_eq_oneshot (K : Crates) {past rest : List StoreEvent} {e : StoreEvent} {s : ObjectStore}
    (h : Run (execute K) .new (past ++ e :: rest) s) {k : ContextKind} (hk : k ≠ .cipher)
    (hf : e.input.apdu.IsFinal k) {cid : UInt16} (ht : e.input.apdu.stepTarget = some cid) :
    (∀ run, running cid past = some run → run.what.kind = k →
      ∀ t : ObjectStore, (∀ keyId, run.what.keyId = some keyId → t.get keyId = e.pre.get keyId) →
        ∀ tlvs, valueOf tlvs tag5 = valueOf e.input.apdu.tlvsOrDefault tag5 →
          settle .error t (readOnly t (run.what.compute K t tlvs (run.fed ++ e.input.apdu.input k))) =
              .ok (e.output, t) ∧
            ∀ (oneshot : ParsedApdu) (env : Env) (a : Bool),
              run.what.IsOneshot oneshot tlvs (run.fed ++ e.input.apdu.input k) →
              dispatch K env oneshot t a = .ok (e.output, t)) ∧
      ((∀ run, running cid past = some run → run.what.kind ≠ k) → e.output = .error swConditionsNotSatisfied) := by
  obtain ⟨next, hpast, hstep, -⟩ := h.mid
  have htrack := tracks hpast cid
  refine ⟨?_, ?_⟩
  · intro run hrun hkind t hkey tlvs htag
    rw [← htrack] at hrun
    obtain ⟨x, hl, hx⟩ := Option.bind_eq_some_iff.mp hrun
    have hcompute := settle_compute_of_final hf hstep ht hl hx hkind hkey htag
    refine ⟨hcompute, ?_⟩
    intro oneshot env a ho
    rw [dispatch, dispatchCmd_oneshot ho]
    exact hcompute
  · intro hno
    rw [← htrack] at hno
    exact dispatch_final_idle hf hk hstep ht hno

/-- A digest on `0001` and an HMAC on `0002`, in turns. -/
def twoStreams : List Command :=
  [⟨0x80, 0x01, 0x10, 0x00, [0x41, 0x02, 0, 1, 0x42, 0x01, 0x01, 0x43, 0x01, 0x04], none⟩,
    ⟨0x80, 0x01, 0x10, 0x00, [0x41, 0x02, 0, 2, 0x42, 0x01, 0x03, 0x43, 0x01, 0x19], none⟩,
    ⟨0x80, 0x01, 0x05, 0x00, [0x41, 0x04, 0, 0, 0, 9, 0x43, 0x01, 0x2B], none⟩,
    ⟨0x80, 0x03, 0x00, 0x0B, [0x42, 0x02, 0, 1], none⟩,
    ⟨0x80, 0x03, 0x0D, 0x03, [0x41, 0x04, 0, 0, 0, 9, 0x42, 0x02, 0, 2], none⟩,
    ⟨0x80, 0x03, 0x00, 0x0C, [0x42, 0x02, 0, 1, 0x43, 0x01, 0x61], none⟩,
    ⟨0x80, 0x03, 0x0D, 0x0C, [0x42, 0x02, 0, 2, 0x41, 0x01, 0x62], none⟩,
    ⟨0x80, 0x03, 0x00, 0x0D, [0x42, 0x02, 0, 1, 0x43, 0x01, 0x63], none⟩,
    ⟨0x80, 0x03, 0x0D, 0x0D, [0x42, 0x02, 0, 2, 0x41, 0x01, 0x64], none⟩].map fun apdu => ⟨.unset, apdu, false⟩

/-- MACGenerateOneShot on the two pieces of the HMAC. -/
def macOneshot : ParsedApdu :=
  ⟨0x80, 0x03, 0x0D, 0x45, encodeTlvs [⟨tag1, [0, 0, 0, 9]⟩, ⟨tag2, [0x19]⟩, ⟨tag3, [0x62, 0x64]⟩], none⟩

theorem twoStreams_mac_eq_oneshot : ∃ past e s, Run (execute .blank) .new (past ++ [e]) s ∧
    running 2 past = some ⟨.mac 0x19 false ⟨0, 0, 0, 9⟩, [0x62]⟩ ∧
    dispatch .blank .unset macOneshot e.pre false = .ok (e.output, e.pre) := by
  have hrun : (trace (execute .blank) .new twoStreams).map (testLast fun past e _ =>
      running 2 past == some ⟨.mac 0x19 false ⟨0, 0, 0, 9⟩, [0x62]⟩ && (decide (e.input.apdu.IsFinal .mac) &&
        (e.input.apdu.stepTarget == some 2 && (e.input.apdu.input .mac == [0x64] &&
          valueOf e.input.apdu.tlvsOrDefault tag5 == none)))) = .ok true := by
    decide +kernel
  obtain ⟨past, e, s, h, htest⟩ := exists_run_of_trace hrun
  simp only [Bool.and_eq_true, beq_iff_eq, decide_eq_true_eq] at htest
  obtain ⟨hrunning, hf, ht, hin, htag⟩ := htest
  obtain ⟨hone, -⟩ := multistep_eq_oneshot .blank h (by decide) hf ht
  refine ⟨past, e, s, h, hrunning, ?_⟩
  refine (hone _ hrunning rfl e.pre (fun _ _ => rfl) [⟨tag1, [0, 0, 0, 9]⟩, ⟨tag2, [0x19]⟩, ⟨tag3, [0x62, 0x64]⟩]
    htag.symm).2 macOneshot .unset false ?_
  rw [hin]
  exact ⟨rfl, by decide, rfl, rfl, rfl⟩

end SE050
end Simulators
