/-
# SE050: the file follows the store

Every operation of the store that changes one of the five persistent fields
ends in `persist`, so a command either leaves these fields and the file alone
or the file holds the document of the new store (`ObjectStore.Persisted`). That
is so for every handler of the dispatcher and for PUT KEY over the channel.
What the file holds after a change gives the same store again
(`persistence_faithful`).
-/
import Simulators.SE050.PutKey
import Simulators.SE050.Serde
import Simulators.SE050.Writes

namespace Simulators
namespace SE050

open Handler T1Responder

/-- The persistent fields and the file are as they were, or the file holds the fields as they are. -/
structure ObjectStore.Persisted (s s' : ObjectStore) : Prop where
  path : s'.persistPath = s.persistPath
  saved : s'.doc = s.doc ∧ s'.disk = s.disk ∨ (s.persistPath ≠ none → s'.disk = some s'.doc)

/-! ### Operations -/

namespace ObjectStore.Persisted

variable {s t u : ObjectStore}

theorem refl (s : ObjectStore) : s.Persisted s := ⟨rfl, .inl ⟨rfl, rfl⟩⟩

theorem trans (h : s.Persisted t) (h' : t.Persisted u) : s.Persisted u where
  path := h'.path.trans h.path
  saved := by
    rcases h'.saved with ⟨hdoc, hdisk⟩ | hsaved
    · rcases h.saved with ⟨hdoc', hdisk'⟩ | hsaved'
      · exact .inl ⟨hdoc.trans hdoc', hdisk.trans hdisk'⟩
      · right
        intro hpath
        rw [hdisk, hdoc]
        exact hsaved' hpath
    · right
      intro hpath
      apply hsaved
      rwa [h.path]

/-- An operation that ends in `persist`. -/
theorem of_persist (h : t.persistPath = s.persistPath) : s.Persisted t.persist where
  path := (ObjectStore.persist_persistPath t).trans h
  saved := by
    right
    intro hpath
    obtain ⟨path, hp⟩ := Option.ne_none_iff_exists'.mp hpath
    rw [ObjectStore.persist, h, hp]
    rfl

/-- The crypto objects are not persistent. -/
theorem of_context {o : HashMap UInt16 CryptoObjectState} {ty : HashMap UInt16 (UInt8 × UInt8)} :
    s.Persisted { s with cryptoObjects := o, cryptoObjectTypes := ty } := ⟨rfl, .inl ⟨rfl, rfl⟩⟩

theorem insert (s : ObjectStore) (id : ObjectId) (obj : SecureObject) : s.Persisted (s.insert id obj) := of_persist rfl

theorem write (s : ObjectStore) (id : ObjectId) (obj : SecureObject) (policy : Option Bytes) (origin : UInt8) :
    s.Persisted (s.write id obj policy origin) := by
  have hinsert := insert s id obj
  unfold ObjectStore.write
  by_cases hex : s.existsId id = true
  · rw [if_pos hex]
    exact hinsert
  · rw [if_neg hex]
    have hmeta : (s.insert id obj).Persisted ((s.insert id obj).setCreationMetadata id policy origin) := of_persist rfl
    exact hinsert.trans hmeta

theorem remove (s : ObjectStore) (id : ObjectId) : s.Persisted (s.remove id).2 := by
  unfold ObjectStore.remove
  cases s.objects.lookup id with
  | none => exact refl s
  | some obj => exact of_persist rfl

end ObjectStore.Persisted

/-! ### Commands -/

section Commands

variable {K : Crates} {env : Env} {apdu : ParsedApdu} {a : Bool} {s s' : ObjectStore} {r : ApduResponse}

/-- Every handler keeps the file in step. -/
theorem Handled.persisted (h : Handled K env apdu s a r s') : s.Persisted s' := by
  cases h with
  | idle => exact .refl _
  | write hc hw hr =>
    obtain ⟨-, id, obj, origin, -, -, rfl⟩ := hw.stores hc hr
    exact .write _ id obj apdu.policy origin
  | ecdh _ hr =>
    rcases handleEcdh_eq_ok hr with rfl | ⟨-, _, id, obj, -, -, rfl⟩
    · exact .refl _
    · exact .insert _ id obj
  | delete _ hr =>
    obtain ⟨-, _, id, -, -, -, -, rfl⟩ := handleDelete_eq_ok hr
    exact .remove _ id
  | deleteAll => exact .of_persist rfl
  | curve hw hr =>
    obtain ⟨-, rfl | ⟨m, rfl⟩⟩ := hw.eq_ok hr
    · exact .refl _
    · exact .of_persist rfl
  | init k _ hr =>
    obtain ⟨-, _, _, _, _, -, -, -, -, rfl⟩ := initHandler_eq_ok hr
    exact .of_context
  | update k _ hr =>
    obtain ⟨_, _, _, _, -, -, -, -, -, rfl⟩ := updateHandler_eq_ok hr
    exact .of_context
  | final k _ hr =>
    obtain ⟨_, _, _, -, -, -, rfl⟩ := finalHandler_eq_ok hr
    exact .of_context
  | createCryptoObj _ hr =>
    obtain ⟨-, _, _, _, -, -, -, rfl⟩ := handleCryptoObjCreate_eq_ok hr
    exact .of_context
  | deleteCryptoObj _ hr =>
    obtain ⟨-, _, _, -, -, rfl⟩ := handleCryptoObjDelete_eq_ok hr
    exact .of_context
  | setScp hr =>
    obtain ⟨-, -, b, rfl⟩ := handleSetPlatformScp_eq_ok hr
    exact .of_persist rfl

theorem dispatch_persisted (h : dispatch K env apdu s a = .ok (r, s')) : s.Persisted s' :=
  (dispatch_handled h).persisted

/-- So does a command that came over the channel. -/
theorem innerCommand_persisted {ssd : Bool} (h : innerCommand K env s ssd apdu = .ok (r, s')) : s.Persisted s' := by
  by_cases hkey : apdu.isPutKey = true
  · obtain ⟨hok, hrefused⟩ := innerCommand_of_putKey hkey h
    have hnoPanic := putKeys_noPanic K (s.platformScpConfig env) apdu.p1 apdu.p2 apdu.data
    rcases hput : putKeys K (s.platformScpConfig env) apdu.p1 apdu.p2 apdu.data with (p | sw) | ⟨cfg, resp⟩
    · exact absurd hput (hnoPanic p)
    · rw [hrefused sw hput]
      exact .refl _
    · rw [hok cfg resp hput]
      cases ssd with
      | false => exact .refl _
      | true => exact .of_persist rfl
  · have hother : ¬ (apdu.cla = 0x80 ∧ apdu.ins = 0xD8) := by
      intro hc
      apply hkey
      simp only [ParsedApdu.isPutKey, Bool.and_eq_true, beq_iff_eq]
      exact hc
    rw [innerCommand, if_neg hother] at h
    exact dispatch_persisted h

end Commands

section Device

variable {K : Crates} {env : Env} {s s' : ObjectStore} {t t' : T1Responder} {apdu data : Bytes} {r : ApduResponse}
  {out : List Bytes}

theorem ApduStep.persisted (h : ApduStep K env s t apdu r t' s') : s.Persisted s' := by
  cases h with
  | wrapped _ _ _ _ hc _ => exact innerCommand_persisted hc
  | plain _ _ _ _ hd _ _ => exact dispatch_persisted hd
  | _ => exact .refl _

theorem FrameStep.persisted (h : FrameStep K env s t data out t' s') : s.Persisted s' := by
  cases h with
  | apdu _ _ hs _ _ _ => exact hs.persisted
  | _ => exact .refl _

end Device

/-! ### Runs -/

section Runs

variable {K : Crates} {J : SerdeJson} {path : String} {file : Option Json}

theorem withPersistence_path (J : SerdeJson) (path : String) (file : Option Json) :
    (ObjectStore.withPersistence J path file).persistPath = some path := by
  cases file with
  | none => rfl
  | some value =>
    simp only [ObjectStore.withPersistence, ObjectStore.load]
    cases value.get "objects" <;> rfl

/-- After a step that changed a persistent field, the file gives the store again. -/
theorem reload {s s' : ObjectStore} (hpath : s.persistPath = some path) (h : s.Persisted s') (hne : s'.doc ≠ s.doc) :
    (ObjectStore.withPersistence J path (s'.fileAfter J file)).doc = s'.doc := by
  rcases h.saved with ⟨hsame, -⟩ | hsaved
  · exact absurd hsame hne
  · have hdisk : s'.disk = some s'.doc := by
      apply hsaved
      rw [hpath]
      exact Option.some_ne_none path
    rw [ObjectStore.fileAfter, hdisk, Option.map_some, Option.some_or, withPersistence_doc]

end Runs

/-- After every command of a run, dispatched or in a frame to the device, that changed objects, metadata, curves, the SCP
flag or the Platform SCP keys, a store made from the file has the same five. -/
theorem persistence_faithful (K : Crates) (J : SerdeJson) (path : String) (file : Option Json) :
    (∀ (log : List StoreEvent) (s : ObjectStore), Run (execute K) (ObjectStore.withPersistence J path file) log s →
      ∀ e ∈ log, ∀ s', execute K e.pre e.input = .ok (e.output, s') → s'.doc ≠ e.pre.doc →
        (ObjectStore.withPersistence J path (s'.fileAfter J file)).doc = s'.doc) ∧
    (∀ (nad : UInt8) (log : List DeviceEvent) (d : Device),
      Run (Device.step K) (T1Responder.new nad, ObjectStore.withPersistence J path file) log d →
      ∀ e ∈ log, ∀ d', Device.step K e.pre e.input = .ok (e.output, d') → d'.2.doc ≠ e.pre.2.doc →
        (ObjectStore.withPersistence J path (d'.2.fileAfter J file)).doc = d'.2.doc) := by
  have hstart := withPersistence_path J path file
  constructor
  · intro log s hrun e he s' hstep hne
    have hpath : e.pre.persistPath = some path := by
      refine (hrun.step_of_mem (I := fun s => s.persistPath = some path) ?_ hstart he).1
      intro s c r s' hs h
      exact (dispatch_persisted h).path.trans hs
    exact reload hpath (dispatch_persisted hstep) hne
  · intro nad log d hrun e he d' hstep hne
    have hpath : e.pre.2.persistPath = some path := by
      refine (hrun.step_of_mem (I := fun d : Device => d.2.persistPath = some path) ?_ hstart he).1
      intro d i out d' hs h
      exact (processFrame_step h).persisted.path.trans hs
    exact reload hpath (processFrame_step hstep).persisted hne

/-- WriteBinary of three bytes. -/
def writeFile : ParsedApdu :=
  ⟨0x80, 0x01, 0x06, 0x00, [0x41, 0x04, 0, 0, 0, 9, 0x44, 0x03, 1, 2, 3], none⟩

/-- A file that was written is there again after a restart. -/
theorem writeFile_survives : ∃ log s,
    Run (execute .blank) (ObjectStore.withPersistence .derived "store.json" none) log s ∧
      (ObjectStore.withPersistence .derived "store.json" (s.fileAfter .derived none)).get ⟨0, 0, 0, 9⟩ =
        some (.binary [1, 2, 3]) := by
  have hrun : (trace (execute .blank) (ObjectStore.withPersistence .derived "store.json" none)
      [⟨.unset, writeFile, false⟩]).map (testLast fun _ e s =>
        e.pre.get ⟨0, 0, 0, 9⟩ == none && s.get ⟨0, 0, 0, 9⟩ == some (.binary [1, 2, 3])) = .ok true := by
    decide +kernel
  obtain ⟨past, e, s, h, htest⟩ := exists_run_of_trace hrun
  simp only [Bool.and_eq_true, beq_iff_eq] at htest
  obtain ⟨hpre, hget⟩ := htest
  obtain ⟨next, -, hstep, hrest⟩ := h.mid
  cases hrest
  have hne : s.doc ≠ e.pre.doc := by
    intro hsame
    have hobjects : s.objects = e.pre.objects := congrArg Doc.objects hsame
    rw [ObjectStore.get, hobjects, ← ObjectStore.get, hpre] at hget
    cases hget
  obtain ⟨hfaithful, -⟩ := persistence_faithful .blank .derived "store.json" none
  have hdoc := hfaithful _ s h e (List.mem_append_right past List.mem_cons_self) s hstep hne
  refine ⟨_, s, h, ?_⟩
  rw [ObjectStore.get, ← hget, ObjectStore.get]
  exact congrArg (fun d : Doc => d.objects.lookup ⟨0, 0, 0, 9⟩) hdoc

end SE050
end Simulators
