/-
# SE050: reads do not tell secrets

Two stores are `LowEq` if they differ only in what a host must not learn: the
bytes of symmetric keys, user IDs and EC private keys, and the values of
objects whose policy lacks the read permission. No sequence of read and
management commands tells such stores apart (`runAll_lowEq`): both runs give
the same responses, or panic at the same command, and end in stores that
differ in the same way.
-/
import Simulators.SE050.Transition

namespace Simulators
namespace SE050

open Handler

/-! ### Objects that look alike -/

inductive ObjectKind
  | ecKeyPair
  | ecPublicKey
  | rsaKeyPair
  | aesKey
  | binary
  | userId
  | counter
  | hmacKey
deriving DecidableEq, Repr

namespace SecureObject

def kind : SecureObject → ObjectKind
  | ecKeyPair .. => .ecKeyPair
  | ecPublicKey .. => .ecPublicKey
  | rsaKeyPair .. => .rsaKeyPair
  | aesKey _ => .aesKey
  | binary _ => .binary
  | userId _ => .userId
  | counter .. => .counter
  | hmacKey .. => .hmacKey

/-- Equal but for the bytes of a secret of the same length. -/
def SecretEq : SecureObject → SecureObject → Prop
  | ecKeyPair c priv pub, ecKeyPair c' priv' pub' => c = c' ∧ priv.length = priv'.length ∧ pub = pub'
  | aesKey k, aesKey k' => k.length = k'.length
  | userId v, userId v' => v.length = v'.length
  | hmacKey k p, hmacKey k' p' => k.length = k'.length ∧ p = p'
  | o, o' => o = o'

/-- Of equal kind, size and curve. -/
def SameShape (o o' : SecureObject) : Prop :=
  o.kind = o'.kind ∧ o.dataSize = o'.dataSize ∧ o.curveId = o'.curveId

theorem SecretEq.sameShape {o o' : SecureObject} (h : SecretEq o o') : SameShape o o' := by
  unfold SecretEq at h
  split at h
  · obtain ⟨rfl, -, -⟩ := h
    exact ⟨rfl, rfl, rfl⟩
  · exact ⟨rfl, h, rfl⟩
  · exact ⟨rfl, h, rfl⟩
  · exact ⟨rfl, h.1, rfl⟩
  · subst h
    exact ⟨rfl, rfl, rfl⟩

theorem ECCurve.id_injective {c c' : ECCurve} (h : c.id = c'.id) : c = c' := by
  cases c <;> cases c' <;> first | rfl | exact absurd h (by decide)

theorem SameShape.typeCode {o o' : SecureObject} (h : SameShape o o') (v7 : Bool) :
    o.typeCode v7 = o'.typeCode v7 := by
  obtain ⟨hk, -, hc⟩ := h
  have hid := fun c c' (h : some (ECCurve.id c) = some (ECCurve.id c')) => ECCurve.id_injective (Option.some.inj h)
  cases o <;> cases o' <;> first | (cases hk; done) | rfl | (rw [hid _ _ hc]; rfl)

/-- What a host may read of two objects with the same secrets is the same. -/
theorem SecretEq.readValue {o o' : SecureObject} (h : SecretEq o o') (K : Crates) (offset : ℕ)
    (length : Option ℕ) : readValue K o offset length = readValue K o' offset length := by
  unfold SecretEq at h
  split at h
  · obtain ⟨-, -, rfl⟩ := h
    rfl
  · rfl
  · rfl
  · rfl
  · rw [h]

end SecureObject

/-! ### Stores that look alike -/

/-- The policy recorded under `id` lacks the read permission. -/
def Unreadable (metadata : HashMap ObjectId ObjectMetadata) (id : ObjectId) : Prop :=
  ∃ m raw header, metadata.lookup id = some m ∧ m.policy = some raw ∧ arHeaderUnion raw = some header ∧
    header &&& policyObjAllowRead = 0

/-- Two objects under `id` that differ in secrets only. -/
def ObjLowEq (metadata : HashMap ObjectId ObjectMetadata) (id : ObjectId) (o o' : SecureObject) : Prop :=
  o.SecretEq o' ∨ (Unreadable metadata id ∧ o.SameShape o')

/-- The same identifiers, with such objects under each. -/
def ObjectsLowEq (metadata : HashMap ObjectId ObjectMetadata) (m m' : HashMap ObjectId SecureObject) : Prop :=
  ∀ id, Option.Rel (ObjLowEq metadata id) (m.lookup id) (m'.lookup id)

structure DocLowEq (d d' : Doc) : Prop where
  objects : ObjectsLowEq d.metadata d.objects d'.objects
  metadata : d.metadata = d'.metadata
  ecCurves : d.ecCurves = d'.ecCurves
  scpRequired : d.scpRequired = d'.scpRequired
  platformScp : d.platformScp = d'.platformScp

structure LowEq (s t : ObjectStore) : Prop where
  objects : ObjectsLowEq s.metadata s.objects t.objects
  metadata : s.metadata = t.metadata
  persistPath : s.persistPath = t.persistPath
  ecCurves : s.ecCurves = t.ecCurves
  cryptoObjects : s.cryptoObjects = t.cryptoObjects
  cryptoObjectTypes : s.cryptoObjectTypes = t.cryptoObjectTypes
  scpRequired : s.scpRequired = t.scpRequired
  platformScp : s.platformScp = t.platformScp
  disk : Option.Rel DocLowEq s.disk t.disk

variable {K : Crates} {env : Env} {apdu : ParsedApdu} {a : Bool} {s t : ObjectStore}

theorem LowEq.persist (h : LowEq s t) : LowEq s.persist t.persist := by
  have hp := h.persistPath
  unfold ObjectStore.persist
  rw [← hp]
  split
  · exact h
  · exact { h with persistPath := rfl
                   disk := .some ⟨h.objects, h.metadata, h.ecCurves, h.scpRequired, h.platformScp⟩ }

theorem rel_cases {α : Type} {R : α → α → Prop} {x y : Option α} (h : Option.Rel R x y) :
    (x = none ∧ y = none) ∨ ∃ o o', x = some o ∧ y = some o' ∧ R o o' := by
  cases h with
  | some h => exact .inr ⟨_, _, rfl, rfl, h⟩
  | none => exact .inl ⟨rfl, rfl⟩

theorem LowEq.get (h : LowEq s t) (id : ObjectId) : (s.get id = none ∧ t.get id = none) ∨
    ∃ o o', s.get id = some o ∧ t.get id = some o' ∧ ObjLowEq s.metadata id o o' :=
  rel_cases (h.objects id)

theorem LowEq.existsId (h : LowEq s t) (id : ObjectId) : s.existsId id = t.existsId id := by
  rw [ObjectStore.existsId_eq, ObjectStore.existsId_eq]
  rcases h.get id with ⟨hs, ht⟩ | ⟨o, o', hs, ht, -⟩ <;> simp [hs, ht]

theorem LowEq.policyAllows (h : LowEq s t) (id : ObjectId) (p : UInt32) :
    s.policyAllows id p = t.policyAllows id p := by
  simp only [ObjectStore.policyAllows, h.metadata]

/-- A fact of an object's shape is the same on both sides. -/
theorem LowEq.map_get {β : Type} (h : LowEq s t) {f : SecureObject → β}
    (hf : ∀ o o', SecureObject.SameShape o o' → f o = f o') (id : ObjectId) :
    (s.get id).map f = (t.get id).map f := by
  rcases h.get id with ⟨hs, ht⟩ | ⟨o, o', hs, ht, ho⟩
  · rw [hs, ht]
  · rw [hs, ht, Option.map_some, Option.map_some, Option.some.injEq]
    rcases ho with ho | ⟨-, ho⟩
    · exact hf _ _ ho.sameShape
    · exact hf _ _ ho

theorem LowEq.keys (h : LowEq s t) : s.objects.keys = t.objects.keys := by
  ext id
  rw [Finmap.mem_keys, Finmap.mem_keys, ← Finmap.lookup_isSome, ← Finmap.lookup_isSome]
  have := h.existsId id
  rw [ObjectStore.existsId_eq, ObjectStore.existsId_eq, ObjectStore.get, ObjectStore.get] at this
  rw [this]

/-! ### Reads -/

/-- An object that may be read holds the same value on both sides. -/
theorem LowEq.get_readable (h : LowEq s t) {id : ObjectId} (hr : s.policyAllows id policyObjAllowRead = true) :
    (s.get id = none ∧ t.get id = none) ∨ ∃ o o', s.get id = some o ∧ t.get id = some o' ∧ o.SecretEq o' := by
  rcases h.get id with hn | ⟨o, o', hs, ht, ho⟩
  · exact .inl hn
  · rcases ho with ho | ⟨⟨m, raw, header, hm, hp, hh, h0⟩, -⟩
    · exact .inr ⟨o, o', hs, ht, ho⟩
    · simp [ObjectStore.policyAllows, hm, hp, hh, h0] at hr

theorem handleReadObject_lowEq (h : LowEq s t) : handleReadObject K apdu s = handleReadObject K apdu t := by
  unfold handleReadObject
  refine bind_congr fun tlvs => bind_congr fun id => ?_
  rw [← h.policyAllows id]
  by_cases hr : s.policyAllows id policyObjAllowRead = true
  · refine bind_congr fun _ => ?_
    rcases h.get_readable hr with ⟨hs, ht⟩ | ⟨o, o', hs, ht, ho⟩
    · rw [hs, ht]
    · rw [hs, ht]
      simp only [orRefuse, ok_bind, ho.readValue K]
  · simp [ensure, hr, refuse]

theorem handleReadOf_lowEq (h : LowEq s t) {f : SecureObject → List Tlv}
    (hf : ∀ o o', SecureObject.SameShape o o' → f o = f o') : handleReadOf apdu s f = handleReadOf apdu t f := by
  unfold handleReadOf
  refine bind_congr fun tlvs => bind_congr fun id => ?_
  have hm := h.map_get hf id
  rcases h.get id with ⟨hs, ht⟩ | ⟨o, o', hs, ht, -⟩
  · rw [hs, ht]
  · rw [hs, ht, Option.map_some, Option.map_some, Option.some.injEq] at hm
    simp [hs, ht, orRefuse, hm]

theorem matchingIds_lowEq (h : LowEq s t) (v7 : Bool) (offset : ℕ) (filter : UInt8) :
    matchingIds s v7 offset filter = matchingIds t v7 offset filter := by
  have hids : s.sortedIds = t.sortedIds := by rw [ObjectStore.sortedIds, h.keys, ObjectStore.sortedIds]
  unfold matchingIds
  rw [hids]
  refine List.filter_congr fun id _ => ?_
  have hm := h.map_get (f := (·.typeCode v7)) (fun o o' ho => ho.typeCode v7) id
  rcases h.get id with ⟨hs, ht⟩ | ⟨o, o', hs, ht, -⟩
  · simp only [hs, ht]
  · rw [hs, ht, Option.map_some, Option.map_some, Option.some.injEq] at hm
    simp only [hs, ht, hm]

theorem handleReadAttributes_lowEq (h : LowEq s t) (v7 : Bool) :
    handleReadAttributes apdu s v7 = handleReadAttributes apdu t v7 := by
  unfold handleReadAttributes
  refine bind_congr fun _ => bind_congr fun tlvs => bind_congr fun id => ?_
  have hm := h.map_get (f := (·.typeCode true)) (fun o o' ho => ho.typeCode true) id
  rcases h.get id with ⟨hs, ht⟩ | ⟨o, o', hs, ht, -⟩
  · rw [hs, ht]
    rfl
  · rw [hs, ht, Option.map_some, Option.map_some, Option.some.injEq] at hm
    simp [hs, ht, orRefuse, hm, h.metadata]

theorem handleRead_lowEq (h : LowEq s t) (v7 : Bool) : handleRead K apdu s v7 = handleRead K apdu t v7 := by
  unfold handleRead
  rw [handleReadObject_lowEq h, handleReadAttributes_lowEq h]
  have hsize : handleReadSize apdu s = handleReadSize apdu t :=
    handleReadOf_lowEq h fun o o' ho => by rw [ho.2.1]
  have htype : handleReadType apdu s v7 = handleReadType apdu t v7 :=
    handleReadOf_lowEq h fun o o' ho => by rw [ho.typeCode]
  have hlist : handleReadIdList apdu s v7 = handleReadIdList apdu t v7 := by
    unfold handleReadIdList
    refine bind_congr fun tlvs => ?_
    simp only [matchingIds_lowEq h]
  rw [hsize, htype, hlist]

theorem handleReadRsa_lowEq (h : LowEq s t) : handleReadRsa K apdu s = handleReadRsa K apdu t := by
  unfold handleReadRsa
  dsimp only
  cases objectIdOf apdu.tlvsOrDefault tag1 with
  | none => rfl
  | some id =>
    simp only [Option.all_some, ← h.policyAllows id, Option.bind_some]
    by_cases hr : s.policyAllows id policyObjAllowRead = true
    · refine bind_congr fun _ => ?_
      rcases h.get_readable hr with ⟨hs, ht⟩ | ⟨o, o', hs, ht, ho⟩
      · rw [hs, ht]
      · rw [hs, ht]
        cases o <;> cases o' <;> simp_all [SecureObject.SecretEq]
    · simp [ensure, hr, refuse]

theorem handleCurveGetId_lowEq (h : LowEq s t) : handleCurveGetId apdu s = handleCurveGetId apdu t := by
  unfold handleCurveGetId
  cases objectIdOf apdu.tlvsOrDefault tag1 with
  | none => rfl
  | some id =>
    have hm := h.map_get (f := (·.curveId)) (fun o o' ho => ho.2.2) id
    simp only [Option.bind_some]
    rcases h.get id with ⟨hs, ht⟩ | ⟨o, o', hs, ht, -⟩
    · rw [hs, ht]
    · rw [hs, ht, Option.map_some, Option.map_some, Option.some.injEq] at hm
      simp [hs, ht, orRefuse, hm]

theorem dispatchRead_lowEq (h : LowEq s t) : dispatchRead K env apdu s = dispatchRead K env apdu t := by
  have hexists : ∀ cid, s.curveExists cid = t.curveExists cid := by
    intro cid
    rw [Bool.eq_iff_iff]
    simp [ObjectStore.curveExists, h.ecCurves]
  have hcurve : handleCurveList s = handleCurveList t := by simp only [handleCurveList, hexists]
  unfold dispatchRead
  rw [handleReadRsa_lowEq h, handleCurveGetId_lowEq h, handleRead_lowEq h, hcurve]
  simp only [handleCryptoObjList, h.cryptoObjectTypes]

/-! ### Management -/

/-- Both sides answer alike, and what they store looks alike. -/
abbrev Alike : Cmd (ApduResponse × ObjectStore) → Cmd (ApduResponse × ObjectStore) → Prop := SameOutcome LowEq

theorem alike_refuse (w : UInt16) : Alike (refuse w) (refuse w) := .error _

theorem alike_bind {α : Type} {x : Cmd α} {f g : α → Cmd (ApduResponse × ObjectStore)}
    (h : ∀ v, x = .ok v → Alike (f v) (g v)) : Alike (x >>= f) (x >>= g) := by
  cases x with
  | error e => exact .error e
  | ok v => exact h v rfl

theorem alike_readOnly (h : LowEq s t) {x y : Cmd ApduResponse} (hxy : x = y) :
    Alike (readOnly s x) (readOnly t y) := by
  subst hxy
  exact alike_bind fun r _ => .ok r h

theorem LowEq.remove (h : LowEq s t) (id : ObjectId) : LowEq (s.remove id).2 (t.remove id).2 := by
  have herase : ObjectsLowEq (s.metadata.erase id) (s.objects.erase id) (t.objects.erase id) := by
    intro id'
    by_cases heq : id' = id
    · subst heq
      rw [Finmap.lookup_erase, Finmap.lookup_erase]
      exact .none
    · rw [Finmap.lookup_erase_ne heq, Finmap.lookup_erase_ne heq]
      -- the metadata of the other identifiers is the same
      rcases rel_cases (h.objects id') with ⟨hs, ht⟩ | ⟨o, o', hs, ht, ho⟩
      · rw [hs, ht]
        exact .none
      · rw [hs, ht]
        refine .some (ho.imp_right fun hu => ⟨?_, hu.2⟩)
        obtain ⟨m, raw, header, hm, rest⟩ := hu.1
        exact ⟨m, raw, header, by rw [Finmap.lookup_erase_ne heq, hm], rest⟩
  unfold ObjectStore.remove
  rcases rel_cases (h.objects id) with ⟨hs, ht⟩ | ⟨o, o', hs, ht, -⟩
  · rw [hs, ht]
    exact h
  · rw [hs, ht]
    refine LowEq.persist { h with objects := herase, metadata := ?_ }
    rw [h.metadata]

theorem remove_fst_isSome (h : LowEq s t) (id : ObjectId) :
    (s.remove id).1.isSome = (t.remove id).1.isSome := by
  unfold ObjectStore.remove
  rcases rel_cases (h.objects id) with ⟨hs, ht⟩ | ⟨o, o', hs, ht, -⟩ <;> simp [hs, ht]

theorem handleDelete_lowEq (h : LowEq s t) : Alike (handleDelete apdu s) (handleDelete apdu t) := by
  unfold handleDelete
  refine alike_bind fun tlvs _ => alike_bind fun id _ => ?_
  rw [← h.policyAllows id]
  refine alike_bind fun _ _ => ?_
  have h1 := h.remove id
  have h2 := remove_fst_isSome h id
  generalize s.remove id = x at h1 h2
  generalize t.remove id = y at h1 h2
  obtain ⟨_ | o, s'⟩ := x <;> obtain ⟨_ | o', t'⟩ := y
  · exact alike_refuse _
  · cases h2
  · cases h2
  · exact .ok _ h1

theorem LowEq.clear (h : LowEq s t) : LowEq s.clear t.clear := by
  refine LowEq.persist { h with objects := ?_, metadata := rfl, ecCurves := rfl, cryptoObjects := rfl,
                                cryptoObjectTypes := rfl }
  intro id
  rw [Finmap.lookup_empty]
  exact .none

theorem LowEq.setScpRequired (h : LowEq s t) (b : Bool) : LowEq (s.setScpRequired b) (t.setScpRequired b) :=
  LowEq.persist { h with scpRequired := rfl }

theorem handleCurveDelete_lowEq (h : LowEq s t) : Alike (handleCurveDelete apdu s) (handleCurveDelete apdu t) := by
  unfold handleCurveDelete
  refine alike_bind fun cid _ => ?_
  unfold ObjectStore.curveDelete
  rw [← h.ecCurves]
  cases s.ecCurves.lookup cid with
  | none => exact alike_refuse _
  | some mask => exact .ok _ (LowEq.persist { h with ecCurves := rfl })

theorem handleManagement_lowEq (h : LowEq s t) : Alike (handleManagement env apdu s) (handleManagement env apdu t) := by
  unfold handleManagement
  split
  · exact .ok _ h
  split
  · exact alike_readOnly h rfl
  split
  · exact alike_readOnly h rfl
  split
  · exact .ok _ h.clear
  · exact alike_refuse _

theorem handleSetPlatformScp_lowEq (h : LowEq s t) :
    Alike (handleSetPlatformScp apdu s a) (handleSetPlatformScp apdu t a) := by
  unfold handleSetPlatformScp
  refine alike_bind fun _ _ => alike_bind fun tlvs _ => ?_
  split
  · exact .ok _ (h.setScpRequired true)
  · exact .ok _ (h.setScpRequired false)
  · exact alike_refuse _

theorem dispatchMgmt_lowEq (h : LowEq s t) : Alike (dispatchMgmt env apdu s a) (dispatchMgmt env apdu t a) := by
  unfold dispatchMgmt
  split
  · unfold handleCryptoObjDelete
    refine alike_bind fun tlvs _ => alike_bind fun cid _ => .ok _ { h with cryptoObjects := ?_, cryptoObjectTypes := ?_ }
    · rw [h.cryptoObjects]
    · rw [h.cryptoObjectTypes]
  split
  · exact handleCurveDelete_lowEq h
  split
  · exact handleManagement_lowEq h
  split
  · exact handleSetPlatformScp_lowEq h
  split
  · unfold handleMgmt
    split
    · refine alike_readOnly h ?_
      unfold handleCheckExists
      simp only [h.existsId]
    split
    · exact handleDelete_lowEq h
    · exact alike_refuse _
  · exact alike_refuse _

/-! ### Runs -/

theorem execute_lowEq {c : Command} (hins : c.apdu.baseIns = insRead ∨ c.apdu.baseIns = insMgmt) (h : LowEq s t) :
    SameOutcome LowEq (execute K s c) (execute K t c) := by
  have hcmd : Alike (dispatchCmd K c.env c.apdu s c.scpActive) (dispatchCmd K c.env c.apdu t c.scpActive) := by
    unfold dispatchCmd
    split
    · exact .ok _ h
    split
    · exact alike_refuse _
    split
    · rename_i hw
      rcases hins with hi | hi <;> exact absurd (hi.symm.trans hw) (by decide)
    split
    · exact alike_readOnly h (dispatchRead_lowEq h)
    split
    · rename_i hw
      rcases hins with hi | hi <;> exact absurd (hi.symm.trans hw) (by decide)
    split
    · exact dispatchMgmt_lowEq h
    · exact alike_refuse _
  unfold execute dispatch
  generalize dispatchCmd K c.env c.apdu s c.scpActive = x at hcmd
  generalize dispatchCmd K c.env c.apdu t c.scpActive = y at hcmd
  cases hcmd with
  | ok o h' => exact .ok o h'
  | error e =>
    cases e with
    | panic p => exact .error p
    | refuse w => exact .ok _ h

/-- No sequence of read and management commands tells apart two stores that
differ in secrets only. -/
theorem runAll_lowEq (K : Crates) (cs : List Command) (s t : ObjectStore)
    (hcs : ∀ c ∈ cs, c.apdu.baseIns = insRead ∨ c.apdu.baseIns = insMgmt) (h : LowEq s t) :
    SameOutcome LowEq (runAll (execute K) s cs) (runAll (execute K) t cs) := by
  have hstep : ∀ (s t : ObjectStore) (c : Command), c.apdu.baseIns = insRead ∨ c.apdu.baseIns = insMgmt →
      LowEq s t → SameOutcome LowEq (execute K s c) (execute K t c) := by
    intro s t c hc h
    exact execute_lowEq hc h
  exact runAll_sameOutcome hstep cs s t hcs h

/-- A store with one AES key. -/
def aesStore (key : Bytes) : ObjectStore := ObjectStore.new.insert ⟨0x30, 0, 0, 1⟩ (.aesKey key)

/-- ReadObject, ReadSize and DeleteSecureObject on that key. -/
def readCommands : List Command :=
  [(0x02, 0x00), (0x02, 0x07), (0x04, 0x28)].map fun (ins, p2) =>
    ⟨.unset, ⟨0x80, ins, 0x00, p2, [0x41, 0x04, 0x30, 0x00, 0x00, 0x01], none⟩, false⟩

theorem aesStore_lowEq {k k' : Bytes} (h : k.length = k'.length) : LowEq (aesStore k) (aesStore k') where
  objects id := by
    show Option.Rel _ ((aesStore k).get id) ((aesStore k').get id)
    simp only [aesStore, ObjectStore.get_insert]
    split
    · exact .some (.inl h)
    · simp only [ObjectStore.new, ObjectStore.get, Finmap.lookup_empty]
      exact .none
  metadata := rfl
  persistPath := rfl
  ecCurves := rfl
  cryptoObjects := rfl
  cryptoObjectTypes := rfl
  scpRequired := rfl
  platformScp := rfl
  disk := .none

theorem aesStore_runs_alike :
    SameOutcome LowEq (runAll (execute .blank) (aesStore (List.replicate 16 0x00)) readCommands)
      (runAll (execute .blank) (aesStore (List.replicate 16 0xFF)) readCommands) :=
  runAll_lowEq .blank readCommands _ _ (by decide) (aesStore_lowEq (by decide))

end SE050
end Simulators
