/-
# SE050: the TLV codec

`TlvForm` and `TlvForms` say what a TLV looks like on the wire and what a
sequence of them is; `parse_tlvs` accepts the sequences and nothing else
(`parseTlvs_eq_ok`), so it reads back what `encode_tlvs` wrote as long as no
value has more than 65535 bytes (`parseTlvs_encodeTlvs`). The encoder does not
check this. ReadIDList puts all identifiers into one value, and from 16384
identifiers on its response can no longer be read (`tlv_codec`).

Key definitions: `TlvForm`, `TlvForms`, `Listed`.
Key theorems: `parseTlvs_eq_ok`, `parseTlvs_encodeTlvs`, `matchingIds_listed`, `tlv_codec`.
-/
import Simulators.SE050.Handled

namespace Simulators
namespace SE050

open Handler

/-! ### The wire format -/

/-- A TLV on the wire: one length byte below 128, or `82` and two. -/
inductive TlvForm : Tlv → Bytes → Prop
  | short (tag : UInt8) {value : Bytes} (h : value.length < 0x80) :
      TlvForm ⟨tag, value⟩ (tag :: UInt8.ofNat value.length :: value)
  | long (tag : UInt8) {hi lo : UInt8} {value : Bytes} (h : value.length = be16 hi lo) :
      TlvForm ⟨tag, value⟩ (tag :: 0x82 :: hi :: lo :: value)

/-- TLVs one after the other. -/
inductive TlvForms : List Tlv → Bytes → Prop
  | nil : TlvForms [] []
  | cons {t : Tlv} {ts : List Tlv} {b bs : Bytes} (h : TlvForm t b) (hs : TlvForms ts bs) :
      TlvForms (t :: ts) (b ++ bs)

theorem TlvForm.value_length {t : Tlv} {b : Bytes} (h : TlvForm t b) : t.value.length ≤ 65535 := by
  cases h with
  | short tag h => exact Nat.le_trans (Nat.le_of_lt h) (by decide)
  | @long tag hi lo value h =>
    have hlt := be16_lt hi lo
    show value.length ≤ 65535
    omega

theorem TlvForms.value_length {ts : List Tlv} {b : Bytes} (h : TlvForms ts b) : ∀ t ∈ ts, t.value.length ≤ 65535 := by
  induction h with
  | nil => exact List.forall_mem_nil _
  | cons h _ ih =>
    intro t ht
    rcases List.mem_cons.mp ht with rfl | ht
    · exact h.value_length
    · exact ih t ht

theorem TlvForm.length_pos {t : Tlv} {b : Bytes} (h : TlvForm t b) : 0 < b.length := by
  cases h with
  | short tag h => exact Nat.succ_pos _
  | long tag h => exact Nat.succ_pos _

/-- The encoder writes the short form below 128 bytes, the long one up to 65535. -/
theorem encode_form {t : Tlv} (h : t.value.length ≤ 65535) : TlvForm t t.encode := by
  obtain ⟨tag, value⟩ := t
  unfold Tlv.encode
  by_cases hs : value.length < 128
  · rw [if_pos hs]
    exact .short tag hs
  · rw [if_neg hs]
    apply TlvForm.long
    have hle : value.length ≤ 65535 := h
    have hhi : (UInt8.ofNat (value.length / 256)).toNat = value.length / 256 := by
      apply UInt8.toNat_ofNat_of_lt'
      show value.length / 256 < 256
      omega
    rw [be16, hhi, UInt8.toNat_ofNat']
    show value.length = value.length / 256 * 256 + value.length % 256
    omega

theorem encodeTlvs_forms : ∀ {ts : List Tlv}, (∀ t ∈ ts, t.value.length ≤ 65535) → TlvForms ts (encodeTlvs ts)
  | [], _ => .nil
  | t :: ts, h => by
    have ht : TlvForm t t.encode := encode_form (h t List.mem_cons_self)
    have hts : TlvForms ts (encodeTlvs ts) := encodeTlvs_forms fun t' ht' => h t' (List.mem_cons_of_mem t ht')
    exact .cons ht hts

/-! ### The parser -/

/-- The parser takes one TLV off the front. -/
theorem parseTlvsFrom_form {t : Tlv} {b : Bytes} (h : TlvForm t b) (fuel : ℕ) (rest : Bytes) :
    parseTlvsFrom (fuel + 1) (b ++ rest) = (parseTlvsFrom fuel rest).map (t :: ·) := by
  cases h with
  | @short tag value hlen =>
    have hnat : (UInt8.ofNat value.length).toNat = value.length :=
      UInt8.toNat_ofNat_of_lt' (Nat.lt_trans hlen (by decide))
    have hne : UInt8.ofNat value.length ≠ 0x82 := by
      intro heq
      rw [heq] at hnat
      have : (0x82 : UInt8).toNat = 130 := rfl
      omega
    have hlt : UInt8.ofNat value.length < 0x80 := by
      rw [UInt8.lt_iff_toNat_lt, hnat]
      exact hlen
    simp only [List.cons_append, parseTlvsFrom, if_neg hne, if_pos hlt, hnat, List.length_append]
    rw [if_neg (by omega), List.take_left, List.drop_left]
    cases parseTlvsFrom fuel rest <;> rfl
  | @long tag hi lo value hlen =>
    simp only [List.cons_append, parseTlvsFrom, ← hlen, List.length_append, if_true]
    rw [if_neg (by omega), List.take_left, List.drop_left]
    cases parseTlvsFrom fuel rest <;> rfl

theorem parseTlvsFrom_of_forms {ts : List Tlv} {data : Bytes} (h : TlvForms ts data) :
    ∀ fuel, data.length ≤ fuel → parseTlvsFrom fuel data = .ok ts := by
  induction h with
  | nil => intro fuel _; cases fuel <;> rfl
  | @cons t ts b bs hform _ ih =>
    intro fuel hfuel
    have hpos := hform.length_pos
    rw [List.length_append] at hfuel
    obtain ⟨fuel, rfl⟩ : ∃ k, fuel = k + 1 := ⟨fuel - 1, by omega⟩
    rw [parseTlvsFrom_form hform, ih fuel (by omega)]
    rfl

theorem forms_of_parseTlvsFrom : ∀ (fuel : ℕ) {data : Bytes} {ts : List Tlv}, parseTlvsFrom fuel data = .ok ts →
    TlvForms ts data
  | fuel, [], ts, h => by
    have hnil : parseTlvsFrom fuel [] = .ok [] := by cases fuel <;> rfl
    rw [hnil, Except.ok.injEq] at h
    subst h
    exact .nil
  | 0, _ :: _, ts, h => by cases h
  | fuel + 1, [_], ts, h => by cases h
  | fuel + 1, tag :: l :: rest, ts, h => by
    unfold parseTlvsFrom at h
    split at h
    · rename_i hl
      subst hl
      split at h
      · rename_i hi lo body
        by_cases hshort : body.length < be16 hi lo
        · rw [if_pos hshort] at h
          cases h
        · rw [if_neg hshort] at h
          cases hrest : parseTlvsFrom fuel (body.drop (be16 hi lo)) with
          | error e => rw [hrest] at h; cases h
          | ok ts' =>
            rw [hrest] at h
            cases h
            have hvalue : TlvForm ⟨tag, body.take (be16 hi lo)⟩
                (tag :: 0x82 :: hi :: lo :: body.take (be16 hi lo)) := by
              apply TlvForm.long
              rw [List.length_take]
              omega
            have hforms := TlvForms.cons hvalue (forms_of_parseTlvsFrom fuel hrest)
            simpa using hforms
      · cases h
    · by_cases hl : l < 0x80
      · rw [if_pos hl] at h
        by_cases hshort : rest.length < l.toNat
        · rw [if_pos hshort] at h
          cases h
        · rw [if_neg hshort] at h
          cases hrest : parseTlvsFrom fuel (rest.drop l.toNat) with
          | error e => rw [hrest] at h; cases h
          | ok ts' =>
            rw [hrest] at h
            cases h
            have hlen : (rest.take l.toNat).length = l.toNat := by
              rw [List.length_take]
              omega
            have hvalue : TlvForm ⟨tag, rest.take l.toNat⟩ (tag :: l :: rest.take l.toNat) := by
              have hform := @TlvForm.short tag (rest.take l.toNat) (by rw [hlen]; exact hl)
              rwa [hlen, UInt8.ofNat_toNat] at hform
            have hforms := TlvForms.cons hvalue (forms_of_parseTlvsFrom fuel hrest)
            simpa using hforms
      · rw [if_neg hl] at h
        cases h

/-- `parse_tlvs` accepts the sequences of TLVs, each as the TLVs it is. -/
theorem parseTlvs_eq_ok {data : Bytes} {ts : List Tlv} : parseTlvs data = .ok ts ↔ TlvForms ts data := by
  constructor
  · exact forms_of_parseTlvsFrom data.length
  · intro h
    exact parseTlvsFrom_of_forms h data.length (Nat.le_refl _)

/-- What was encoded is parsed back. -/
theorem parseTlvs_encodeTlvs {ts : List Tlv} (h : ∀ t ∈ ts, t.value.length ≤ 65535) :
    parseTlvs (encodeTlvs ts) = .ok ts :=
  parseTlvs_eq_ok.mpr (encodeTlvs_forms h)

/-- The TLVs of a command that was put together from them. -/
theorem tlvs_encodeTlvs (cla ins p1 p2 : UInt8) {ts : List Tlv} (le : Option UInt16)
    (h : ∀ t ∈ ts, t.value.length ≤ 65535) : (ParsedApdu.mk cla ins p1 p2 (encodeTlvs ts) le).tlvs = .ok ts := by
  rw [ParsedApdu.tlvs_eq_ok, ParsedApdu.parseTlvs]
  by_cases hempty : (encodeTlvs ts).isEmpty = true
  · have hparse := parseTlvs_encodeTlvs h
    rw [List.isEmpty_iff.mp hempty] at hparse
    rw [if_pos hempty]
    exact hparse
  · rw [if_neg hempty]
    exact parseTlvs_encodeTlvs h

/-- A value that is too long is not parsed back. -/
theorem parseTlvs_long {ts : List Tlv} {t : Tlv} (ht : t ∈ ts) (h : 65535 < t.value.length) (data : Bytes) :
    parseTlvs data ≠ .ok ts := by
  intro hparse
  have hforms := parseTlvs_eq_ok.mp hparse
  clear hparse
  induction hforms with
  | nil => cases ht
  | cons hform _ ih =>
    rcases List.mem_cons.mp ht with rfl | ht
    · have hle := hform.value_length
      omega
    · exact ih ht

/-! ### ReadIDList -/

/-- In a sorted list, the elements behind the first `n` are those with `n` before them. -/
theorem mem_drop_of_pairwise {α : Type} {r : α → α → Prop} [DecidableRel r] (hirr : ∀ x, ¬ r x x)
    (hasymm : ∀ x y, r x y → ¬ r y x) (x : α) : ∀ {l : List α} (n : ℕ), l.Pairwise r →
      (x ∈ l.drop n ↔ x ∈ l ∧ n ≤ (l.filter (r · x)).length)
  | [], n, _ => by simp
  | y :: l, 0, _ => by simp
  | y :: l, n + 1, h => by
    obtain ⟨hy, hl⟩ := List.pairwise_cons.mp h
    have ih := mem_drop_of_pairwise hirr hasymm x n hl
    rw [List.drop_succ_cons, ih, List.filter_cons]
    by_cases hyx : r y x
    · have hne : x ≠ y := by
        rintro rfl
        exact hirr x hyx
      rw [if_pos (decide_eq_true hyx)]
      simp [hne]
    · have hnot : x ∉ l := fun hx => hyx (hy x hx)
      rw [if_neg (by simpa using hyx)]
      simp only [hnot, false_and, List.mem_cons, or_false, false_iff, not_and]
      rintro rfl
      have hnone : l.filter (r · x) = [] := by
        rw [List.filter_eq_nil_iff]
        intro z hz
        simpa using hasymm x z (hy z hz)
      rw [hnone]
      exact Nat.not_succ_le_zero n

/-- The order in which identifiers are listed. -/
def ObjectId.lt (i j : ObjectId) : Prop := i.toNat < j.toNat

instance : DecidableRel ObjectId.lt := fun i j => inferInstanceAs (Decidable (i.toNat < j.toNat))
instance : Std.Irrefl ObjectId.lt := ⟨fun i => Nat.lt_irrefl i.toNat⟩
instance : Std.Antisymm ObjectId.lt := ⟨fun _ _ h h' => absurd h' (Nat.lt_asymm h)⟩

/-- The number of stored identifiers before `id`. -/
def ObjectStore.rank (s : ObjectStore) (id : ObjectId) : ℕ := (s.objects.keys.filter (ObjectId.lt · id)).card

/-- An object under `id` is of the requested type; `FF` and `00` request all types. -/
def ObjectStore.OfType (s : ObjectStore) (v7 : Bool) (filter : UInt8) (id : ObjectId) : Prop :=
  ∃ obj, s.get id = some obj ∧ (filter = 0xFF ∨ filter = 0x00 ∨ obj.typeCode v7 = filter)

/-- `ids` are the identifiers of the requested type from position `offset` on, ascending. -/
structure Listed (s : ObjectStore) (v7 : Bool) (offset : ℕ) (filter : UInt8) (ids : List ObjectId) : Prop where
  sorted : ids.Pairwise ObjectId.lt
  complete : ∀ id, id ∈ ids ↔ s.OfType v7 filter id ∧ offset ≤ s.rank id

section List

variable {s : ObjectStore} {v7 : Bool} {offset : ℕ} {filter : UInt8}

theorem sortedIds_pairwise (s : ObjectStore) : s.sortedIds.Pairwise ObjectId.lt := by
  have hle : s.sortedIds.Pairwise ObjectId.le := Finset.pairwise_sort _ _
  have hne : s.sortedIds.Pairwise (· ≠ ·) := Finset.sort_nodup _ _
  refine (hle.and hne).imp ?_
  rintro i j ⟨hij, hd⟩
  exact Nat.lt_of_le_of_ne hij fun heq => hd (ObjectId.toNat_injective heq)

theorem mem_sortedIds {id : ObjectId} : id ∈ s.sortedIds ↔ s.existsId id = true := by
  rw [ObjectStore.sortedIds, Finset.mem_sort, Finmap.mem_keys, ObjectStore.existsId, decide_eq_true_iff]

theorem rank_eq (s : ObjectStore) (id : ObjectId) : s.rank id = (s.sortedIds.filter (ObjectId.lt · id)).length := by
  have hnodup : (s.sortedIds.filter (ObjectId.lt · id)).Nodup := (Finset.sort_nodup _ _).filter _
  rw [ObjectStore.rank, ← List.toFinset_card_of_nodup hnodup, List.toFinset_filter, ObjectStore.sortedIds,
    Finset.sort_toFinset]
  simp

/-- What ReadIDList collects is the list that was asked for. -/
theorem matchingIds_listed (s : ObjectStore) (v7 : Bool) (offset : ℕ) (filter : UInt8) :
    Listed s v7 offset filter (matchingIds s v7 offset filter) := by
  have hsorted := sortedIds_pairwise s
  constructor
  · exact (hsorted.sublist (List.drop_sublist _ _)).sublist List.filter_sublist
  · intro id
    have hdrop := mem_drop_of_pairwise (r := ObjectId.lt) (fun i => Nat.lt_irrefl i.toNat) (fun _ _ => Nat.lt_asymm) id
      offset hsorted
    rw [matchingIds, List.mem_filter, hdrop, mem_sortedIds, ← rank_eq, ObjectStore.existsId_eq]
    unfold ObjectStore.OfType
    cases hget : s.get id with
    | none => simp
    | some obj =>
      by_cases hall : filter = 0xFF ∨ filter = 0x00
      · rcases hall with rfl | rfl
        · simp
        · simp
      · obtain ⟨h1, h2⟩ := not_or.mp hall
        simp [h1, h2, and_comm]

theorem Listed.unique {ids ids' : List ObjectId} (h : Listed s v7 offset filter ids)
    (h' : Listed s v7 offset filter ids') : ids = ids' := by
  apply List.Pairwise.eq_of_mem_iff h.sorted h'.sorted
  intro id
  rw [h.complete, h'.complete]

/-- A response to ReadIDList: no more to come, and the identifiers. -/
def idListTlvs (ids : List ObjectId) : List Tlv := [⟨tag1, [0x01]⟩, ⟨tag2, ids.flatMap (·.toBytes)⟩]

/-- The list is parsed back if its bytes fit the length field. -/
theorem idList_parses_iff (ids : List ObjectId) :
    parseTlvs (encodeTlvs (idListTlvs ids)) = .ok (idListTlvs ids) ↔ ids.length ≤ 16383 := by
  have hlen : (ids.flatMap (·.toBytes)).length = ids.length * 4 := by
    rw [List.length_flatMap]
    simp [ObjectId.toBytes]
  constructor
  · intro hparse
    by_contra hlong
    have hmem : (⟨tag2, ids.flatMap (·.toBytes)⟩ : Tlv) ∈ idListTlvs ids := List.mem_cons_of_mem _ List.mem_cons_self
    refine parseTlvs_long hmem ?_ _ hparse
    show 65535 < (ids.flatMap (·.toBytes)).length
    omega
  · intro hshort
    apply parseTlvs_encodeTlvs
    intro t ht
    simp only [idListTlvs, List.mem_cons, List.not_mem_nil, or_false] at ht
    rcases ht with rfl | rfl
    · decide
    · show (ids.flatMap (·.toBytes)).length ≤ 65535
      omega

end List

/-- The parser takes apart what is a sequence of TLVs and nothing else, and it reads back what the encoder wrote if no
value is longer than 65535 bytes. ReadIDList answers with the list that was asked for, and the response can be read if
and only if there are no more than 16383 identifiers in it. -/
theorem tlv_codec (apdu : ParsedApdu) (s : ObjectStore) (v7 : Bool) :
    (∀ data ts, parseTlvs data = .ok ts ↔ TlvForms ts data) ∧
    (∀ ts : List Tlv, (∀ t ∈ ts, t.value.length ≤ 65535) → parseTlvs (encodeTlvs ts) = .ok ts) ∧
    ∀ resp, handleReadIdList apdu s v7 = .ok resp → ∃ tlvs ids, apdu.tlvs = .ok tlvs ∧
      Listed s v7 (((valueOf tlvs tag1).bind word?).getD 0) ((byteOf tlvs tag2).getD 0xFF) ids ∧
        (parseTlvs resp.data = .ok (idListTlvs ids) ↔ ids.length ≤ 16383) := by
  refine ⟨fun _ _ => parseTlvs_eq_ok, fun _ => parseTlvs_encodeTlvs, ?_⟩
  intro resp h
  simp only [handleReadIdList, bind_eq_ok, pure_eq_ok, Except.ok.injEq] at h
  obtain ⟨tlvs, htlvs, rfl⟩ := h
  exact ⟨tlvs, _, htlvs, matchingIds_listed s v7 _ _, idList_parses_iff _⟩

/-! ### A list that is too long -/

/-- The identifier with a number. -/
def numberedId (n : ℕ) : ObjectId :=
  ⟨UInt8.ofNat (n / 16777216), UInt8.ofNat (n / 65536), UInt8.ofNat (n / 256), UInt8.ofNat n⟩

theorem numberedId_toNat {n : ℕ} (h : n < 4294967296) : (numberedId n).toNat = n := by
  simp only [ObjectId.toNat, ObjectId.toBytes, numberedId, ofBe, List.foldl_cons, List.foldl_nil, UInt8.toNat_ofNat']
  omega

/-- WriteBinary without data. -/
def createNumbered (n : ℕ) : ParsedApdu := ⟨0x80, 0x01, 0x06, 0x00, encodeTlvs [⟨tag1, (numberedId n).toBytes⟩], none⟩

/-- The store with files `0` to `n - 1`. -/
def numberedStore : ℕ → ObjectStore
  | 0 => .new
  | n + 1 => ((numberedStore n).insert (numberedId n) (.binary [])).setCreationMetadata (numberedId n) none 0x01

theorem numberedStore_get (n : ℕ) (id : ObjectId) : (numberedStore n).get id ≠ none ↔ ∃ m < n, numberedId m = id := by
  induction n with
  | zero => simp [numberedStore, ObjectStore.new, ObjectStore.get]
  | succ n ih =>
    rw [numberedStore, ObjectStore.get_setCreationMetadata, ObjectStore.get_insert]
    by_cases heq : id = numberedId n
    · rw [if_pos heq]
      simp only [ne_eq, reduceCtorEq, not_false_eq_true, true_iff]
      exact ⟨n, Nat.lt_succ_self n, heq.symm⟩
    · rw [if_neg heq, ih]
      constructor
      · rintro ⟨m, hm, rfl⟩
        exact ⟨m, Nat.lt_succ_of_lt hm, rfl⟩
      · rintro ⟨m, hm, rfl⟩
        refine ⟨m, ?_, rfl⟩
        apply Nat.lt_of_le_of_ne (Nat.le_of_lt_succ hm)
        rintro rfl
        exact heq rfl

theorem createNumbered_step (K : Crates) {n : ℕ} (hn : n < 4294967296) :
    execute K (numberedStore n) ⟨.unset, createNumbered n, false⟩ = .ok (.success, numberedStore (n + 1)) := by
  have hfresh : (numberedStore n).get (numberedId n) = none := by
    by_contra hsome
    obtain ⟨m, hm, heq⟩ := (numberedStore_get n (numberedId n)).mp hsome
    have hnat := congrArg ObjectId.toNat heq
    rw [numberedId_toNat (Nat.lt_trans hm hn), numberedId_toNat hn] at hnat
    omega
  have htlvs : (createNumbered n).tlvs = .ok [⟨tag1, (numberedId n).toBytes⟩] := by
    apply tlvs_encodeTlvs
    intro t ht
    rw [List.mem_singleton.mp ht]
    exact (by decide : 4 ≤ 65535)
  have hmay := mayWrite_of_none (numberedStore n) (numberedId n) hfresh
  have hwrite : handleWriteBinary (createNumbered n) (numberedStore n) = .ok (.success, numberedStore (n + 1)) := by
    rw [handleWriteBinary, htlvs]
    simp [BinaryRequest.add, ObjectId.toBytes, ObjectId.ofBytes, policyOf, creationPolicy, findTlv, tag1, tagPolicy,
      orRefuse, ensure, hmay, hfresh, copyAt, numberedStore]
  have hc : (createNumbered n).IsWrite p1Binary := ⟨⟨.inl rfl, (by decide : (0x01 : UInt8) &&& 0x1F = insWrite)⟩,
    (by decide : (0x06 : UInt8) &&& 0x1F = p1Binary)⟩
  rw [execute, dispatch, dispatchCmd_write hc .binary, hwrite]
  rfl

theorem numberedStore_run (K : Crates) : ∀ n, n ≤ 4294967296 → ∃ log, Run (execute K) .new log (numberedStore n)
  | 0, _ => ⟨[], .nil _⟩
  | n + 1, h => by
    obtain ⟨log, hlog⟩ := numberedStore_run K n (Nat.le_of_succ_le h)
    exact ⟨_, hlog.append (.cons (createNumbered_step K h) (.nil _))⟩

theorem numberedStore_sortedIds {n : ℕ} (h : n ≤ 4294967296) : (numberedStore n).sortedIds.length = n := by
  have hkeys : (numberedStore n).objects.keys = (Finset.range n).image numberedId := by
    ext id
    have hmem : id ∈ (numberedStore n).objects.keys ↔ (numberedStore n).get id ≠ none := by
      rw [Finmap.mem_keys, ← Finmap.lookup_isSome, ← Option.isSome_iff_ne_none, ObjectStore.get]
    rw [hmem, numberedStore_get]
    simp
  have hinj : Set.InjOn numberedId (Finset.range n) := by
    intro i hi j hj hij
    have hi' : i < n := by simpa using hi
    have hj' : j < n := by simpa using hj
    have hnat := congrArg ObjectId.toNat hij
    rwa [numberedId_toNat (Nat.lt_of_lt_of_le hi' h), numberedId_toNat (Nat.lt_of_lt_of_le hj' h)] at hnat
  rw [ObjectStore.sortedIds, Finset.length_sort, hkeys, Finset.card_image_of_injOn hinj, Finset.card_range]

/-- ReadIDList for all objects. -/
def readAllIds : ParsedApdu := ⟨0x80, 0x02, 0x00, 0x25, encodeTlvs [⟨tag1, [0, 0]⟩, ⟨tag2, [0xFF]⟩], none⟩

/-- After 16384 files are created, the response to ReadIDList is no list of them. -/
theorem longIdList_unparsed : ∃ log s resp, Run (execute .blank) .new log s ∧
    handleReadIdList readAllIds s true = .ok resp ∧ ∃ ids, Listed s true 0 0xFF ids ∧ ids.length = 16384 ∧
      parseTlvs resp.data ≠ .ok (idListTlvs ids) := by
  obtain ⟨log, hrun⟩ := numberedStore_run .blank 16384 (by decide)
  have hids : matchingIds (numberedStore 16384) true 0 0xFF = (numberedStore 16384).sortedIds := by
    unfold matchingIds
    rw [List.drop_zero, List.filter_eq_self]
    intro id _
    rfl
  have hlen : (numberedStore 16384).sortedIds.length = 16384 := numberedStore_sortedIds (by decide)
  refine ⟨log, numberedStore 16384, .successWithTlvs (idListTlvs (numberedStore 16384).sortedIds), hrun, ?_,
    (numberedStore 16384).sortedIds, ?_, hlen, ?_⟩
  · have hresp : handleReadIdList readAllIds (numberedStore 16384) true =
        .ok (.successWithTlvs (idListTlvs (matchingIds (numberedStore 16384) true 0 0xFF))) := rfl
    rw [hresp, hids]
  · rw [← hids]
    exact matchingIds_listed _ _ _ _
  · intro hparse
    have hshort := (idList_parses_iff _).mp hparse
    omega

end SE050
end Simulators
