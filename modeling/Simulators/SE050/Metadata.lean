/-
# SE050: the metadata of objects

The policy of an object is kept in its metadata, which is recorded when the
object is created and goes when it is deleted. An HMAC key keeps the header of
its policy a second time, in the object itself, and that copy is written anew
with every WriteHMACKey, also over an object whose metadata stays. The two
copies agree in every state of a run if and only if no command rewrites the
header (`metadata_lifecycle`).

Key definitions: `ObjectStore.Covered`, `ObjectStore.HeadersMatch`, `ParsedApdu.RewritesHeader`.
-/
import Simulators.SE050.Refusals

namespace Simulators
namespace SE050

open Handler

/-- The policy header of an object, from its metadata. -/
def ObjectStore.headerOf (s : ObjectStore) (id : ObjectId) : Option UInt32 :=
  ((s.metadata.lookup id).bind (·.policy)).bind arHeaderUnion

/-- Metadata belongs to an object. -/
def ObjectStore.Covered (s : ObjectStore) : Prop := ∀ id m, s.metadata.lookup id = some m → s.get id ≠ none

theorem ObjectStore.Covered.lookup_none {s : ObjectStore} {id : ObjectId} (hs : s.Covered) (h : s.get id = none) :
    s.metadata.lookup id = none := by
  by_contra hne
  obtain ⟨m, hm⟩ := Option.ne_none_iff_exists'.mp hne
  exact hs id m hm h

/-- The header of every HMAC key is that of its metadata. -/
def ObjectStore.HeadersMatch (s : ObjectStore) : Prop :=
  ∀ id key header, s.get id = some (.hmacKey key header) → header = s.headerOf id

namespace ParsedApdu

/-- DeleteSecureObject of the object, or DeleteAll. -/
def Deletes (a : ParsedApdu) (id : ObjectId) : Prop :=
  a.IsDeleteAll ∨ (a.IsDeleteObject ∧ a.objectTarget = some id)

/-- A well-formed WriteHMACKey over an object that may be written, with a policy of another header than the one in the
metadata of the object, or with none where the metadata has one. -/
def RewritesHeader (a : ParsedApdu) (s : ObjectStore) : Prop :=
  a.IsWrite p1Hmac ∧ ∃ tlvs id policy key, a.tlvs = .ok tlvs ∧ objectIdOf tlvs tag1 = some id ∧
    valueOf tlvs tagPolicy ≠ some [] ∧ policyOf tlvs = .ok policy ∧ valueOf tlvs tag3 = some key ∧ key ≠ [] ∧
    s.get id ≠ none ∧ s.policyAllows id policyObjAllowWrite = true ∧ policy.bind arHeaderUnion ≠ s.headerOf id

end ParsedApdu

section Write

variable (s : ObjectStore) (id id' : ObjectId) (obj : SecureObject) (policy : Option Bytes) (origin : UInt8)

/-- A write to an object leaves all metadata alone. -/
theorem write_metadata_of_exists (h : s.get id ≠ none) : (s.write id obj policy origin).metadata = s.metadata := by
  obtain ⟨old, hold⟩ := Option.ne_none_iff_exists'.mp h
  rw [write_of_some s id obj policy origin hold, ObjectStore.insert_metadata]

/-- A write that creates an object records metadata for it, and for no other. -/
theorem write_metadata_of_ne (h : id' ≠ id) :
    (s.write id obj policy origin).metadata.lookup id' = s.metadata.lookup id' := by
  by_cases hex : s.get id = none
  · rw [write_of_none s id obj policy origin hex, ObjectStore.setCreationMetadata, ObjectStore.persist_metadata,
      ObjectStore.insert_metadata]
    by_cases hm : id ∈ s.metadata
    · rw [if_pos hm]
    · rw [if_neg hm, Finmap.lookup_insert_of_ne _ h]
  · rw [write_metadata_of_exists s id obj policy origin hex]

theorem write_metadata_of_new (h : s.get id = none) (hm : s.metadata.lookup id = none) :
    (s.write id obj policy origin).metadata.lookup id = some ⟨policy, origin⟩ := by
  have hnot : id ∉ s.metadata := Finmap.lookup_eq_none.mp hm
  rw [write_of_none s id obj policy origin h, ObjectStore.setCreationMetadata, ObjectStore.persist_metadata,
    ObjectStore.insert_metadata, if_neg hnot, Finmap.lookup_insert]

end Write

section Remove

variable (s : ObjectStore) (id : ObjectId)

theorem remove_metadata_self (h : s.get id ≠ none) : (s.remove id).2.metadata.lookup id = none := by
  obtain ⟨obj, hobj⟩ := Option.ne_none_iff_exists'.mp h
  have hlookup : s.objects.lookup id = some obj := hobj
  rw [ObjectStore.remove, hlookup]
  exact (congrArg (Finmap.lookup id) (ObjectStore.persist_metadata _)).trans (Finmap.lookup_erase _ _)

@[simp] theorem clear_metadata : s.clear.metadata = ∅ := ObjectStore.persist_metadata _

end Remove

section Steps

variable {K : Crates} {env : Env} {apdu : ParsedApdu} {a : Bool} {s s' : ObjectStore} {r : ApduResponse}
  {id : ObjectId}

/-- Every command keeps metadata with its object. -/
theorem ObjectEffect.covered (hs : s.Covered) (h : ObjectEffect K env apdu s r s') : s'.Covered := by
  intro id' m hm
  cases h with
  | keeps ho hmeta =>
    rw [hmeta] at hm
    have hold := hs id' m hm
    rwa [ObjectStore.get, ← ho] at hold
  | @writes c _ id obj origin =>
    rw [get_write]
    by_cases hid : id' = id
    · rw [if_pos hid]
      exact Option.some_ne_none obj
    · rw [write_metadata_of_ne s id id' obj _ _ hid] at hm
      rw [if_neg hid]
      exact hs id' m hm
  | @derives q id obj =>
    rw [ObjectStore.insert_metadata] at hm
    rw [ObjectStore.get_insert]
    by_cases hid : id' = id
    · rw [if_pos hid]
      exact Option.some_ne_none obj
    · rw [if_neg hid]
      exact hs id' m hm
  | @deletes id _ _ hex =>
    by_cases hid : id' = id
    · rw [hid, remove_metadata_self s id hex] at hm
      cases hm
    · rw [ObjectStore.remove_metadata_lookup s id id' hid] at hm
      rw [ObjectStore.get_remove, if_neg hid]
      exact hs id' m hm
  | clears =>
    rw [clear_metadata, Finmap.lookup_empty] at hm
    cases hm

/-- The metadata of an object stays as it is, and the object is there, unless a command deletes it. -/
theorem ObjectEffect.metadata_kept (h : ObjectEffect K env apdu s r s') (hex : s.get id ≠ none)
    (hno : r.sw = swNoError → ¬ apdu.Deletes id) :
    s'.metadata.lookup id = s.metadata.lookup id ∧ s'.get id ≠ none := by
  cases h with
  | keeps ho hmeta =>
    rw [hmeta]
    refine ⟨rfl, ?_⟩
    rwa [ObjectStore.get, ho]
  | @writes c _ id' obj origin =>
    rw [get_write]
    by_cases hid : id = id'
    · subst hid
      rw [write_metadata_of_exists s id obj _ _ hex, if_pos rfl]
      exact ⟨rfl, Option.some_ne_none obj⟩
    · rw [write_metadata_of_ne s id' id obj _ _ hid, if_neg hid]
      exact ⟨rfl, hex⟩
  | @derives q id' obj =>
    rw [ObjectStore.insert_metadata, ObjectStore.get_insert]
    by_cases hid : id = id'
    · rw [if_pos hid]
      exact ⟨rfl, Option.some_ne_none obj⟩
    · rw [if_neg hid]
      exact ⟨rfl, hex⟩
  | @deletes id' hc ht =>
    have hid : id ≠ id' := by
      rintro rfl
      exact hno rfl (.inr ⟨hc, ht⟩)
    rw [ObjectStore.remove_metadata_lookup s id' id hid, ObjectStore.get_remove, if_neg hid]
    exact ⟨rfl, hex⟩
  | clears hc => exact absurd (.inl hc) (hno rfl)

theorem metadata_kept_of_run {log : List StoreEvent} (h : Run (execute K) s log s') (hex : s.get id ≠ none)
    (hno : ∀ e ∈ log, e.Accepted → ¬ e.input.apdu.Deletes id) : s'.metadata.lookup id = s.metadata.lookup id := by
  induction h with
  | nil s => rfl
  | cons hstep _ ih =>
    obtain ⟨hmeta, hex'⟩ := (dispatch_handled hstep).objectEffect.metadata_kept hex (hno _ List.mem_cons_self)
    rw [ih hex' fun e he => hno e (List.mem_cons_of_mem _ he), hmeta]

/-- A command that creates an object gives it the policy it attaches; ECDH attaches none. -/
theorem ObjectEffect.metadata_new (hs : s.Covered) (h : ObjectEffect K env apdu s r s') (hnew : s.get id = none)
    (hget : s'.get id ≠ none) :
    (¬ apdu.IsEcdh → ∃ origin, s'.metadata.lookup id = some ⟨apdu.policy, origin⟩) ∧
      (apdu.IsEcdh → s'.metadata.lookup id = none) := by
  have hm := hs.lookup_none hnew
  cases h with
  | keeps ho _ =>
    rw [ObjectStore.get, ho] at hget
    exact absurd hnew hget
  | @writes c _ id' obj origin hc _ _ _ _ =>
    have hid : id = id' := by
      by_contra hid
      rw [get_write, if_neg hid] at hget
      exact hget hnew
    subst hid
    refine ⟨fun _ => ⟨origin, write_metadata_of_new s id obj _ _ hnew hm⟩, ?_⟩
    intro hecdh
    have hins := hc.1.2.symm.trans hecdh.1.2
    exact absurd hins (by decide)
  | derives hc =>
    rw [ObjectStore.insert_metadata]
    exact ⟨fun hno => absurd hc hno, fun _ => hm⟩
  | @deletes id' =>
    rw [ObjectStore.get_remove] at hget
    by_cases hid : id = id'
    · rw [if_pos hid] at hget
      exact absurd rfl hget
    · rw [if_neg hid] at hget
      exact absurd hnew hget
  | clears =>
    rw [ObjectStore.get_clear] at hget
    exact absurd rfl hget

/-! ### The two copies of a header -/

theorem headerOf_congr (h : s'.metadata.lookup id = s.metadata.lookup id) : s'.headerOf id = s.headerOf id := by
  rw [ObjectStore.headerOf, h, ObjectStore.headerOf]

/-- A WriteHMACKey that was accepted over an object is well formed and was allowed. -/
theorem rewritesHeader_of_ok (hc : apdu.IsWrite p1Hmac) (ht : apdu.writeTarget = some id) (hex : s.get id ≠ none)
    (h : handleWriteHmacKey apdu s = .ok (r, s')) (hne : apdu.policy.bind arHeaderUnion ≠ s.headerOf id) :
    apdu.RewritesHeader s := by
  simp only [handleWriteHmacKey, bind_eq_ok, ensure_eq_ok, orRefuse_eq_ok] at h
  obtain ⟨tlvs, htlvs, id', hid, -, hempty, policy, hp, -, hmay, key, hkey, -, hne', -⟩ := h
  have hid' : id' = id := by
    rw [writeTarget_eq hc (by decide) htlvs, hid] at ht
    exact Option.some.inj ht
  subst hid'
  have hallow := (mayWrite_iff s id' hex).mp hmay
  rw [policy_eq htlvs hp] at hne
  exact ⟨hc, tlvs, id', policy, key, htlvs, hid, hempty, hp, hkey, hne', hex, hallow, hne⟩

/-- A WriteHMACKey that does not rewrite a header stores the key with the one that its metadata has then. -/
theorem header_of_write {cred : UInt8} {h : Cmd (ApduResponse × ObjectStore)} {key : Bytes} {header : Option UInt32}
    {origin : UInt8} (hcov : s.Covered) (hno : ¬ apdu.RewritesHeader s) (hc : apdu.IsWrite cred)
    (hw : WriteHandler K env apdu s cred h) (hr : h = .ok (r, s')) (ht : apdu.writeTarget = some id)
    (hheader : (SecureObject.hmacKey key header).HeaderFrom apdu) :
    header = (s.write id (.hmacKey key header) apdu.policy origin).headerOf id := by
  obtain ⟨hhmac, rfl⟩ := hheader header rfl
  by_cases hnew : s.get id = none
  · have hm := hcov.lookup_none hnew
    rw [ObjectStore.headerOf, write_metadata_of_new s id _ _ _ hnew hm]
    rfl
  · rw [headerOf_congr (congrArg (Finmap.lookup id) (write_metadata_of_exists s id _ _ _ hnew))]
    by_contra hne
    apply hno
    have hcred : cred = p1Hmac := hc.2.symm.trans hhmac.2
    subst hcred
    cases hw with
    | hmac => exact rewritesHeader_of_ok hhmac ht hnew hr hne

/-- A command that does not rewrite a header keeps the copies equal. -/
theorem ObjectEffect.headersMatch (hs : s.HeadersMatch) (hcov : s.Covered) (hno : ¬ apdu.RewritesHeader s)
    (h : ObjectEffect K env apdu s r s') : s'.HeadersMatch := by
  intro id' key header hget
  cases h with
  | keeps ho hmeta =>
    rw [ObjectStore.get, ho] at hget
    rw [headerOf_congr (congrArg (Finmap.lookup id') hmeta)]
    exact hs id' key header hget
  | @writes c _ id obj origin hc hw hr ht hheader =>
    rw [get_write] at hget
    by_cases hid : id' = id
    · subst hid
      rw [if_pos rfl, Option.some.injEq] at hget
      subst hget
      exact header_of_write hcov hno hc hw hr ht hheader
    · rw [if_neg hid] at hget
      rw [headerOf_congr (write_metadata_of_ne s id id' obj _ _ hid)]
      exact hs id' key header hget
  | @derives q id obj _ _ hd =>
    rw [headerOf_congr (congrArg (Finmap.lookup id') (s.insert_metadata id obj))]
    rw [ObjectStore.get_insert] at hget
    by_cases hid : id' = id
    · subst hid
      rw [if_pos rfl, Option.some.injEq] at hget
      subst hget
      -- a derived secret takes the place of an HMAC key only, and keeps its header
      obtain ⟨-, ⟨old, header', hold, -, heq⟩ | ⟨-, heq⟩⟩ := hd
      · cases heq
        exact hs id' old header hold
      · cases heq
    · rw [if_neg hid] at hget
      exact hs id' key header hget
  | @deletes id =>
    rw [ObjectStore.get_remove] at hget
    by_cases hid : id' = id
    · rw [if_pos hid] at hget
      cases hget
    · rw [if_neg hid] at hget
      rw [headerOf_congr (ObjectStore.remove_metadata_lookup s id id' hid)]
      exact hs id' key header hget
  | clears =>
    rw [ObjectStore.get_clear] at hget
    cases hget

/-- A command that rewrites a header leaves the copies different. -/
theorem not_headersMatch_of_rewrites (h : apdu.RewritesHeader s) (hd : dispatch K env apdu s a = .ok (r, s')) :
    ¬ s'.HeadersMatch := by
  obtain ⟨hc, tlvs, id, policy, key, htlvs, hid, hempty, hp, hkey, hne', hex, hallow, hne⟩ := h
  have hexists : s.existsId id = true := by
    rw [s.existsId_eq]
    exact Option.isSome_iff_ne_none.mpr hex
  have hmay := (mayWrite_iff s id hex).mpr hallow
  have hok : handleWriteHmacKey apdu s =
      .ok (.success, s.insert id (.hmacKey key (policy.bind arHeaderUnion))) := by
    simp only [handleWriteHmacKey, htlvs, ok_bind, hid, orRefuse, ensure, if_pos hempty, hp, if_pos hmay, hkey,
      if_pos hne', if_pos hexists, pure_eq_ok]
  rw [dispatch, dispatchCmd_write hc (.hmac : WriteHandler K env apdu s p1Hmac _), hok] at hd
  cases hd
  intro hmatch
  have hsame := hmatch id key _ (s.get_insert_self id _)
  rw [headerOf_congr (congrArg (Finmap.lookup id) (s.insert_metadata id _))] at hsame
  exact hne hsame

end Steps

/-! ### Runs -/

theorem ObjectStore.new_covered : ObjectStore.new.Covered := by
  intro id m hm
  rw [ObjectStore.new, Finmap.lookup_empty] at hm
  cases hm

theorem ObjectStore.new_headersMatch : ObjectStore.new.HeadersMatch := by
  intro id key header hget
  rw [ObjectStore.get, ObjectStore.new, Finmap.lookup_empty] at hget
  cases hget

theorem execute_covered (K : Crates) (s : ObjectStore) (c : Command) (r : ApduResponse) (s' : ObjectStore)
    (hs : s.Covered) (h : execute K s c = .ok (r, s')) : s'.Covered :=
  (dispatch_handled h).objectEffect.covered hs

theorem covered_of_run {K : Crates} {log : List StoreEvent} {s : ObjectStore} (h : Run (execute K) .new log s) :
    s.Covered := by
  refine h.invariant (P := fun _ => True) ?_ (fun _ _ => trivial) ObjectStore.new_covered
  intro s c r s' hs _ hstep
  exact execute_covered K s c r s' hs hstep

/-- The copies agree all through a run if and only if no command of it rewrites a header. -/
theorem headersMatch_iff {K : Crates} {log : List StoreEvent} {s : ObjectStore} (h : Run (execute K) .new log s) :
    (∀ past rest t, log = past ++ rest → Run (execute K) .new past t → t.HeadersMatch) ↔
      ∀ e ∈ log, ¬ e.input.apdu.RewritesHeader e.pre := by
  constructor
  · intro hmatch e he hrw
    obtain ⟨past, rest, rfl⟩ := List.append_of_mem he
    obtain ⟨next, hpast, hstep, -⟩ := h.mid
    have hone : Run (execute K) .new (past ++ [e]) next := hpast.append (.cons hstep (.nil next))
    apply not_headersMatch_of_rewrites hrw hstep
    exact hmatch (past ++ [e]) rest next (by rw [List.append_assoc, List.singleton_append]) hone
  · intro hno past rest t hlog hpast
    subst hlog
    have hboth : t.HeadersMatch ∧ t.Covered := by
      apply hpast.invariant (I := fun s => s.HeadersMatch ∧ s.Covered)
        (P := fun e => ¬ e.input.apdu.RewritesHeader e.pre)
      · intro s c r s' hs hnot hstep
        have heffect := (dispatch_handled hstep).objectEffect
        exact ⟨heffect.headersMatch hs.1 hs.2 hnot, heffect.covered hs.2⟩
      · intro e he
        exact hno e (List.mem_append_left rest he)
      · exact ⟨ObjectStore.new_headersMatch, ObjectStore.new_covered⟩
    exact hboth.1

/-- After any commands, metadata belongs to an object; while the object is not deleted its metadata stays as it is; an
object that is created anew takes the policy of the command that creates it; and the headers that HMAC keys keep are
those of their metadata, all through the run, if and only if no command of the run rewrites one. -/
theorem metadata_lifecycle (K : Crates) {log : List StoreEvent} {s : ObjectStore}
    (h : Run (execute K) .new log s) :
    s.Covered ∧
    (∀ past mid rest t u id, log = past ++ mid ++ rest → Run (execute K) .new past t → Run (execute K) t mid u →
      t.get id ≠ none → (∀ e ∈ mid, e.Accepted → ¬ e.input.apdu.Deletes id) →
      u.metadata.lookup id = t.metadata.lookup id) ∧
    (∀ e ∈ log, ∀ t id, execute K e.pre e.input = .ok (e.output, t) → e.pre.get id = none → t.get id ≠ none →
      (¬ e.input.apdu.IsEcdh → ∃ origin, t.metadata.lookup id = some ⟨e.input.apdu.policy, origin⟩) ∧
        (e.input.apdu.IsEcdh → t.metadata.lookup id = none)) ∧
    ((∀ past rest t, log = past ++ rest → Run (execute K) .new past t → t.HeadersMatch) ↔
      ∀ e ∈ log, ¬ e.input.apdu.RewritesHeader e.pre) := by
  refine ⟨covered_of_run h, ?_, ?_, headersMatch_iff h⟩
  · intro past mid rest t u id _ _ hmid hex hno
    exact metadata_kept_of_run hmid hex hno
  · intro e he t id hstep hnew hget
    have hpre := h.step_of_mem (execute_covered K) ObjectStore.new_covered he
    exact (dispatch_handled hstep).objectEffect.metadata_new hpre.1 hnew hget

/-- WriteHMACKey with a policy that allows to write and delete the key. -/
def createHmac : ParsedApdu :=
  ⟨0x80, 0x01, 0x05, 0x00,
    [0x11, 0x09, 8, 0, 0, 0, 0, 0x00, 0x14, 0x00, 0x00, 0x41, 0x04, 0, 0, 0, 9, 0x43, 0x02, 1, 2], none⟩

/-- WriteHMACKey for the same key, without a policy. -/
def overwriteHmac : ParsedApdu := ⟨0x80, 0x01, 0x05, 0x00, [0x41, 0x04, 0, 0, 0, 9, 0x43, 0x02, 3, 4], none⟩

theorem createHmac_headersMatch : ∃ log s, Run (execute .blank) .new log s ∧
    s.get ⟨0, 0, 0, 9⟩ = some (.hmacKey [1, 2] (some 0x00140000)) ∧ s.HeadersMatch := by
  have hrun : (trace (execute .blank) .new [⟨.unset, createHmac, false⟩]).map (testLast fun past e s =>
      past.isEmpty && e.pre.get ⟨0, 0, 0, 9⟩ == none && e.input.apdu == createHmac &&
        s.get ⟨0, 0, 0, 9⟩ == some (.hmacKey [1, 2] (some 0x00140000))) = .ok true := by
    decide +kernel
  obtain ⟨past, e, s, h, htest⟩ := exists_run_of_trace hrun
  simp only [Bool.and_eq_true, beq_iff_eq, List.isEmpty_iff] at htest
  obtain ⟨⟨⟨rfl, hnew⟩, hinput⟩, hget⟩ := htest
  refine ⟨_, s, h, hget, ?_⟩
  obtain ⟨-, -, -, hiff⟩ := metadata_lifecycle .blank h
  apply hiff.mpr _ _ [] s (List.append_nil _).symm h
  intro f hf
  rw [List.nil_append, List.mem_singleton] at hf
  subst hf
  -- the command creates its object, so there is no header to rewrite
  rintro ⟨-, tlvs, id, policy, key, htlvs, hid, -, -, -, -, hex, -⟩
  rw [hinput] at htlvs
  have htarget := (objectTarget_eq htlvs).trans hid
  obtain rfl : id = ⟨0, 0, 0, 9⟩ := Option.some.inj (htarget.symm.trans (by decide))
  exact hex hnew

/-- The key keeps its policy in the metadata, and loses the header in the object. -/
theorem overwriteHmac_loses_header : ¬ ∀ (log : List StoreEvent) (s : ObjectStore),
    Run (execute .blank) .new log s → s.HeadersMatch := by
  intro hclaim
  have hrun : (trace (execute .blank) .new ([createHmac, overwriteHmac].map fun apdu => ⟨.unset, apdu, false⟩)).map
      (testLast fun _ _ s => s.get ⟨0, 0, 0, 9⟩ == some (.hmacKey [3, 4] none) &&
        s.headerOf ⟨0, 0, 0, 9⟩ == some 0x00140000) = .ok true := by
    decide +kernel
  obtain ⟨past, e, s, h, htest⟩ := exists_run_of_trace hrun
  simp only [Bool.and_eq_true, beq_iff_eq] at htest
  obtain ⟨hget, hheader⟩ := htest
  have hsame := hclaim _ s h _ _ _ hget
  rw [hheader] at hsame
  cases hsame

end SE050
end Simulators
