/-
# SE050: binary files

A file that WriteBinary created is an array of bytes whose size is fixed by
that command. In every run its content is the all-zero array with the pieces
of the accepted writes copied into it (`FileIs.step`), until a command deletes
it or stores another object in its place. `handleWriteBinary_update` and
`handleReadObject_file` say exactly which writes and reads of it succeed.

Key definitions: `ParsedApdu.piece`, `fileWrites`, `ParsedApdu.IsReadObject`.
-/
import Simulators.Lib.Overlay
import Simulators.SE050.Refusals
import Simulators.SE050.TlvCodec

namespace Simulators
namespace SE050

open Handler

/-! ### What the commands ask for -/

namespace ParsedApdu

/-- The TLVs of a WriteBinary command, collected. -/
def binaryRequest (a : ParsedApdu) : BinaryRequest := a.tlvsOrDefault.foldl BinaryRequest.add {}

/-- The offset and the data of a WriteBinary command. -/
def piece (a : ParsedApdu) : ℕ × Bytes := (a.binaryRequest.offset, a.binaryRequest.data.getD [])

/-- The size of the file that a WriteBinary command creates: its Tag3, or the length of its data. -/
def fileSize (a : ParsedApdu) : ℕ := a.binaryRequest.fileLen.getD a.piece.2.length

/-- The end of the range a WriteBinary command writes. -/
def pieceEnd (a : ParsedApdu) : ℕ := a.piece.1 + a.piece.2.length

/-- The policy that the command attaches is well formed. -/
def PolicyParses (a : ParsedApdu) : Prop := creationPolicy a.tlvsOrDefault ≠ .error ()

/-- ReadObject. Crypto objects and curves have their own reads, and Tag4 asks for an RSA component. -/
def IsReadObject (a : ParsedApdu) : Prop :=
  a.IsCommand insRead ∧ a.p2 = p2Default ∧ a.credType ≠ p1CryptoObj ∧ a.credType ≠ p1Curve ∧
    ¬ (a.credType = p1Default ∧ hasTag4 a = true)

/-- The first byte that is read. -/
def readOffset (a : ParsedApdu) : ℕ := ((valueOf a.tlvsOrDefault tag2).bind word?).getD 0

/-- The end of the range that is read from a file of the given size. -/
def readEnd (a : ParsedApdu) (size : ℕ) : ℕ :=
  ((valueOf a.tlvsOrDefault tag3).bind word?).elim size (a.readOffset + ·)

instance (a : ParsedApdu) (cred : UInt8) (id : ObjectId) : Decidable (a.Writes cred id) := by
  unfold ParsedApdu.Writes ParsedApdu.IsWrite; infer_instance

instance (a : ParsedApdu) : Decidable a.PolicyParses := by unfold ParsedApdu.PolicyParses; infer_instance

instance (a : ParsedApdu) : Decidable a.IsReadObject := by unfold ParsedApdu.IsReadObject; infer_instance

end ParsedApdu

section Handlers

variable {K : Crates} {env : Env} {apdu : ParsedApdu} {a : Bool} {s s' : ObjectStore} {r : ApduResponse}
  {tlvs : List Tlv} {id : ObjectId} {data : Bytes}

theorem copyAt_of_le {b src : Bytes} {off : ℕ} (h : off + src.length ≤ b.length) :
    (copyAt b off src : Cmd Bytes) = .ok (splice b off src) := if_pos h

/-- A WriteBinary command that names an object has TLVs. -/
theorem exists_tlvs_of_writeTarget (hc : apdu.IsWrite p1Binary) (ht : apdu.writeTarget = some id) :
    ∃ tlvs, apdu.tlvs = .ok tlvs ∧ apdu.tlvsOrDefault = tlvs ∧
      (tlvs.foldl BinaryRequest.add {}).objId = some id := by
  cases hp : apdu.parseTlvs with
  | ok tlvs =>
    have htlvs := ParsedApdu.tlvs_eq_ok.mpr hp
    refine ⟨tlvs, htlvs, ParsedApdu.tlvsOrDefault_eq htlvs, ?_⟩
    rw [← writeTarget_binary hc.2 htlvs, ht]
  | error e =>
    rw [ParsedApdu.writeTarget, hp] at ht
    cases ht

theorem policyOf_of_parses {tlvs : List Tlv} (h : creationPolicy tlvs ≠ .error ()) :
    ∃ p, policyOf tlvs = .ok p := by
  unfold policyOf
  cases hp : creationPolicy tlvs with
  | ok p => exact ⟨p, rfl⟩
  | error e => exact absurd hp h

theorem policyOf_of_not_parses {tlvs : List Tlv} (h : ¬ creationPolicy tlvs ≠ .error ()) :
    policyOf tlvs = refuse swWrongData := by
  rw [policyOf, not_ne_iff.mp h]

/-- A write to a file is carried out exactly if its policy is well formed, the file's policy allows it and its range is
inside of the file. -/
theorem handleWriteBinary_update (hc : apdu.IsWrite p1Binary) (ht : apdu.writeTarget = some id)
    (hget : s.get id = some (.binary data)) :
    (apdu.PolicyParses ∧ s.policyAllows id policyObjAllowWrite = true ∧ apdu.pieceEnd ≤ data.length →
      handleWriteBinary apdu s =
        .ok (.success, s.insert id (.binary (splice data apdu.piece.1 apdu.piece.2)))) ∧
    (¬ (apdu.PolicyParses ∧ s.policyAllows id policyObjAllowWrite = true ∧ apdu.pieceEnd ≤ data.length) →
      ∃ sw, IsError sw ∧ handleWriteBinary apdu s = refuse sw) := by
  obtain ⟨tlvs, htlvs, hdef, hid⟩ := exists_tlvs_of_writeTarget hc ht
  have hex : s.get id ≠ none := by
    rw [hget]
    exact Option.some_ne_none _
  have hmay := mayWrite_iff s id hex
  rw [handleWriteBinary, htlvs]
  simp only [ok_bind, hid, orRefuse, hget]
  unfold ParsedApdu.PolicyParses ParsedApdu.pieceEnd ParsedApdu.piece ParsedApdu.binaryRequest
  rw [hdef]
  by_cases hp : creationPolicy tlvs ≠ .error ()
  swap
  · rw [policyOf_of_not_parses hp]
    exact ⟨fun h => absurd h.1 hp, fun _ => ⟨_, errorStatuses.1, rfl⟩⟩
  obtain ⟨p, hp'⟩ := policyOf_of_parses hp
  rw [hp', ok_bind]
  by_cases hallow : s.policyAllows id policyObjAllowWrite = true
  swap
  · rw [ensure, if_neg (fun h => hallow (hmay.mp h))]
    exact ⟨fun h => absurd h.2.1 hallow, fun _ => ⟨_, errorStatuses.2.1, rfl⟩⟩
  rw [ensure, if_pos (hmay.mpr hallow), ok_bind]
  by_cases hfits : (tlvs.foldl BinaryRequest.add {}).offset +
      ((tlvs.foldl BinaryRequest.add {}).data.getD []).length ≤ data.length
  swap
  · rw [ensure, if_neg hfits]
    exact ⟨fun h => absurd h.2.2 hfits, fun _ => ⟨_, errorStatuses.1, rfl⟩⟩
  rw [ensure, if_pos hfits, ok_bind, copyAt_of_le hfits]
  exact ⟨fun _ => rfl, fun h => absurd ⟨hp, hallow, hfits⟩ h⟩

/-- A write to an identifier that is not in use creates a file exactly if its policy is well formed and its range is
inside of the new file. -/
theorem handleWriteBinary_create (hc : apdu.IsWrite p1Binary) (ht : apdu.writeTarget = some id)
    (hget : s.get id = none) :
    (apdu.PolicyParses ∧ apdu.pieceEnd ≤ apdu.fileSize → handleWriteBinary apdu s = .ok (.success,
      (s.insert id (.binary (contents apdu.fileSize [apdu.piece]))).setCreationMetadata id apdu.policy 0x01)) ∧
    (¬ (apdu.PolicyParses ∧ apdu.pieceEnd ≤ apdu.fileSize) →
      ∃ sw, IsError sw ∧ handleWriteBinary apdu s = refuse sw) := by
  obtain ⟨tlvs, htlvs, hdef, hid⟩ := exists_tlvs_of_writeTarget hc ht
  have hmay := mayWrite_of_none s id hget
  rw [handleWriteBinary, htlvs]
  simp only [ok_bind, hid, orRefuse, hget]
  unfold ParsedApdu.PolicyParses ParsedApdu.pieceEnd ParsedApdu.fileSize ParsedApdu.piece ParsedApdu.binaryRequest
  rw [hdef]
  by_cases hp : creationPolicy tlvs ≠ .error ()
  swap
  · rw [policyOf_of_not_parses hp]
    exact ⟨fun h => absurd h.1 hp, fun _ => ⟨_, errorStatuses.1, rfl⟩⟩
  obtain ⟨p, hp'⟩ := policyOf_of_parses hp
  rw [hp', ok_bind, ensure, if_pos hmay, ok_bind]
  by_cases hfits : (tlvs.foldl BinaryRequest.add {}).offset +
      ((tlvs.foldl BinaryRequest.add {}).data.getD []).length ≤ (tlvs.foldl BinaryRequest.add {}).fileLen.getD
        ((tlvs.foldl BinaryRequest.add {}).data.getD []).length
  swap
  · rw [ensure, if_neg hfits]
    exact ⟨fun h => absurd h.2 hfits, fun _ => ⟨_, errorStatuses.1, rfl⟩⟩
  rw [ensure, if_pos hfits, ok_bind, copyAt_of_le (by rwa [List.length_replicate]), ← contents_nil,
    splice_contents hfits, policy_eq htlvs hp']
  exact ⟨fun _ => rfl, fun h => absurd ⟨hp, hfits⟩ h⟩

/-! ### Reads -/

theorem dispatchCmd_readObject (hc : apdu.IsReadObject) :
    dispatchCmd K env apdu s a = readOnly s (handleReadObject K apdu s) := by
  obtain ⟨hcmd, hp2, hobj, hcurve, htag⟩ := hc
  have htag' : ¬ (apdu.credType = p1Default ∧ apdu.p2 = p2Default ∧ hasTag4 apdu = true) :=
    fun h => htag ⟨h.1, h.2.2⟩
  rw [dispatchCmd_eq hcmd, if_neg (by decide), if_pos rfl, dispatchRead, if_neg htag', if_neg hobj, if_neg hcurve,
    handleRead, if_pos hp2]

theorem exists_tlvs_of_objectTarget (h : apdu.objectTarget = some id) :
    ∃ tlvs, apdu.tlvs = .ok tlvs ∧ objectIdOf tlvs tag1 = some id := by
  cases hp : apdu.parseTlvs with
  | ok tlvs =>
    have htlvs := ParsedApdu.tlvs_eq_ok.mpr hp
    exact ⟨tlvs, htlvs, (objectTarget_eq htlvs).symm.trans h⟩
  | error e =>
    rw [ParsedApdu.objectTarget, hp] at h
    cases h

theorem le_readStop {offset : ℕ} {length : Option ℕ} (h : offset < data.length) :
    offset ≤ length.elim data.length (offset + ·) := by
  cases length with
  | none => exact Nat.le_of_lt h
  | some l => exact Nat.le_add_right _ _

theorem readValue_binary (offset : ℕ) (length : Option ℕ) : readValue K (.binary data) offset length =
    if offset < data.length ∧ length.elim data.length (offset + ·) ≤ data.length then
      .ok ((data.drop offset).take (length.elim data.length (offset + ·) - offset))
    else refuse swConditionsNotSatisfied := by
  have hread : readValue K (.binary data) offset length =
      (ensure (offset < data.length ∧ length.elim data.length (offset + ·) ≤ data.length) swConditionsNotSatisfied >>=
        fun _ => slice data offset (length.elim data.length (offset + ·))) := by
    cases length with
    | none => rfl
    | some l => rfl
  rw [hread]
  by_cases h : offset < data.length ∧ length.elim data.length (offset + ·) ≤ data.length
  · rw [ensure, if_pos h, if_pos h, ok_bind, slice, if_pos ⟨le_readStop h.1, h.2⟩]
  · rw [ensure, if_neg h, if_neg h]
    rfl

/-- What is read from a file: its bytes in a range inside of it, from an offset before its end. -/
theorem handleReadObject_file (ht : apdu.objectTarget = some id) (hget : s.get id = some (.binary data)) :
    handleReadObject K apdu s =
      if s.policyAllows id policyObjAllowRead = true then
        if apdu.readOffset < data.length ∧ apdu.readEnd data.length ≤ data.length then
          .ok (.successWithTlvs
            [⟨tag1, (data.drop apdu.readOffset).take (apdu.readEnd data.length - apdu.readOffset)⟩])
        else refuse swConditionsNotSatisfied
      else refuse swCommandNotAllowed := by
  obtain ⟨tlvs, htlvs, hid⟩ := exists_tlvs_of_objectTarget ht
  rw [handleReadObject, htlvs, ok_bind, extractObjectId, hid, orRefuse, ok_bind]
  by_cases hallow : s.policyAllows id policyObjAllowRead = true
  swap
  · rw [ensure, if_neg hallow, if_neg hallow]
    rfl
  rw [ensure, if_pos hallow, if_pos hallow, ok_bind, hget, orRefuse, ok_bind, readValue_binary,
    ← ParsedApdu.tlvsOrDefault_eq htlvs]
  by_cases hfits : apdu.readOffset < data.length ∧ apdu.readEnd data.length ≤ data.length
  · rw [if_pos hfits]
    unfold ParsedApdu.readEnd ParsedApdu.readOffset at hfits ⊢
    rw [if_pos hfits]
    rfl
  · rw [if_neg hfits]
    unfold ParsedApdu.readEnd ParsedApdu.readOffset at hfits
    rw [if_neg hfits]
    rfl

/-! ### The size of a file -/

/-- The value of a TLV has a length of 16 bits. -/
theorem tlvsOrDefault_value_length (apdu : ParsedApdu) : ∀ t ∈ apdu.tlvsOrDefault, t.value.length ≤ 65535 := by
  intro t ht
  unfold ParsedApdu.tlvsOrDefault at ht
  cases hp : apdu.parseTlvs with
  | error e =>
    rw [hp] at ht
    cases ht
  | ok ts =>
    rw [hp] at ht
    unfold ParsedApdu.parseTlvs at hp
    by_cases hempty : apdu.data.isEmpty = true
    · rw [if_pos hempty] at hp
      cases hp
      cases ht
    · rw [if_neg hempty] at hp
      exact (parseTlvs_eq_ok.mp hp).value_length t ht

/-- The data and the file length that were collected have lengths of 16 bits. -/
def BinaryRequest.Bounded (q : BinaryRequest) : Prop :=
  (q.data.getD []).length ≤ 65535 ∧ q.fileLen.getD 0 ≤ 65535

theorem word?_le (b : Bytes) : (word? b).getD 0 ≤ 65535 := by
  unfold word?
  split
  · exact Nat.le_of_lt_succ (be16_lt _ _)
  · exact Nat.zero_le _

theorem BinaryRequest.Bounded.add {q : BinaryRequest} (h : q.Bounded) {t : Tlv} (ht : t.value.length ≤ 65535) :
    (q.add t).Bounded := by
  unfold BinaryRequest.add
  split
  · exact h
  split
  · exact h
  split
  · exact ⟨h.1, word?_le t.value⟩
  split
  · exact ⟨ht, h.2⟩
  · exact h

theorem BinaryRequest.Bounded.foldl {tlvs : List Tlv} (ht : ∀ t ∈ tlvs, t.value.length ≤ 65535) :
    ∀ {q : BinaryRequest}, q.Bounded → (tlvs.foldl BinaryRequest.add q).Bounded := by
  induction tlvs with
  | nil => exact fun h => h
  | cons t tlvs ih =>
    intro q h
    exact ih (fun u hu => ht u (List.mem_cons_of_mem _ hu)) (h.add (ht t List.mem_cons_self))

/-- Every file fits into one response. -/
theorem fileSize_le (apdu : ParsedApdu) : apdu.fileSize ≤ 65535 := by
  have h : apdu.binaryRequest.Bounded :=
    BinaryRequest.Bounded.foldl (tlvsOrDefault_value_length apdu) ⟨Nat.zero_le _, Nat.zero_le _⟩
  unfold ParsedApdu.fileSize
  cases hlen : apdu.binaryRequest.fileLen with
  | none => exact h.1
  | some n =>
    have hn := h.2
    rwa [hlen] at hn

/-! ### Histories -/

/-- The piece that a command copied into the file, if it was an accepted write of it. -/
def StoreEvent.fileWrite (id : ObjectId) (e : StoreEvent) : Option (ℕ × Bytes) :=
  if e.Accepted ∧ e.input.apdu.Writes p1Binary id then some e.input.apdu.piece else none

/-- The pieces that were copied into the file, in order. -/
def fileWrites (id : ObjectId) (log : List StoreEvent) : List (ℕ × Bytes) := log.filterMap (StoreEvent.fileWrite id)

theorem fileWrites_append (id : ObjectId) (l l' : List StoreEvent) :
    fileWrites id (l ++ l') = fileWrites id l ++ fileWrites id l' := List.filterMap_append

theorem fileWrites_of_accepted {e : StoreEvent} (ha : e.Accepted) (hw : e.input.apdu.Writes p1Binary id) :
    fileWrites id [e] = [e.input.apdu.piece] := by
  have hwrite : e.fileWrite id = some e.input.apdu.piece := if_pos ⟨ha, hw⟩
  rw [fileWrites, List.filterMap_cons_some hwrite, List.filterMap_nil]

theorem fileWrites_of_other {e : StoreEvent} (h : ¬ (e.Accepted ∧ e.input.apdu.Writes p1Binary id)) :
    fileWrites id [e] = [] := by
  have hwrite : e.fileWrite id = none := if_neg h
  rw [fileWrites, List.filterMap_cons_none hwrite, List.filterMap_nil]

/-- One command copies its piece into the file if it is an accepted write of it, and leaves it alone otherwise. -/
theorem get_file_after {size : ℕ} {pieces : List (ℕ × Bytes)}
    (hget : s.get id = some (.binary (contents size pieces))) (hd : dispatch K env apdu s a = .ok (r, s'))
    (hno : r.sw = swNoError → ¬ apdu.Replaces p1Binary id) :
    s'.get id = some (.binary (contents size (pieces ++ fileWrites id [⟨s, ⟨env, apdu, a⟩, r⟩]))) := by
  by_cases hw : r.sw = swNoError ∧ apdu.Writes p1Binary id
  · obtain ⟨hr, hc, ht⟩ := hw
    rw [dispatch, dispatchCmd_write hc (.binary : WriteHandler K env apdu s p1Binary _)] at hd
    have hok := accepted hd handleWriteBinary_refuses hr
    obtain ⟨haccept, hrefuse⟩ := handleWriteBinary_update hc ht hget
    by_cases hfits : apdu.PolicyParses ∧ s.policyAllows id policyObjAllowWrite = true ∧
        apdu.pieceEnd ≤ (contents size pieces).length
    · rw [haccept hfits] at hok
      cases hok
      have hend : apdu.piece.1 + apdu.piece.2.length ≤ size := by
        have hle := hfits.2.2
        rwa [contents_length] at hle
      have hwrite : fileWrites id [⟨s, ⟨env, apdu, a⟩, .success⟩] = [apdu.piece] :=
        fileWrites_of_accepted rfl ⟨hc, ht⟩
      rw [hwrite, ObjectStore.get_insert_self, splice_contents hend]
    · obtain ⟨sw, -, hsw⟩ := hrefuse hfits
      rw [hsw] at hok
      cases hok
  · have hsame := (dispatch_handled hd).objectEffect.get_of_not_write hno hw
    have hwrite : fileWrites id [⟨s, ⟨env, apdu, a⟩, r⟩] = [] := fileWrites_of_other hw
    rw [hwrite, List.append_nil, hsame, hget]

/-- The file after a run in which no command deletes or replaces it. -/
theorem get_file_of_run {size : ℕ} {log : List StoreEvent} (h : Run (execute K) s log s')
    (hno : ∀ e ∈ log, e.Accepted → ¬ e.input.apdu.Replaces p1Binary id) : ∀ {pieces : List (ℕ × Bytes)},
    s.get id = some (.binary (contents size pieces)) →
      s'.get id = some (.binary (contents size (pieces ++ fileWrites id log))) := by
  induction h with
  | nil s =>
    intro pieces hget
    rw [fileWrites, List.filterMap_nil, List.append_nil, hget]
  | @cons s s₁ s' c r log hstep _ ih =>
    intro pieces hget
    have hfirst := get_file_after hget hstep (hno _ List.mem_cons_self)
    have hrest := ih (fun e he => hno e (List.mem_cons_of_mem _ he)) hfirst
    rwa [List.append_assoc, ← fileWrites_append, List.singleton_append] at hrest

/-- An array of bytes under an identifier, as commands see it. -/
structure ServesFile (K : Crates) (s : ObjectStore) (id : ObjectId) (file : Bytes) : Prop where
  content : s.get id = some (.binary file)
  /-- A write is accepted exactly if its policy is well formed, the file's policy allows it and its range fits; it
  copies its data into the file. A refused write changes nothing. -/
  write : ∀ (env : Env) (apdu : ParsedApdu) (a : Bool), apdu.Writes p1Binary id →
    (apdu.PolicyParses ∧ s.policyAllows id policyObjAllowWrite = true ∧ apdu.pieceEnd ≤ file.length →
      ∃ s', dispatch K env apdu s a = .ok (.success, s') ∧
        s'.get id = some (.binary (splice file apdu.piece.1 apdu.piece.2))) ∧
    (¬ (apdu.PolicyParses ∧ s.policyAllows id policyObjAllowWrite = true ∧ apdu.pieceEnd ≤ file.length) →
      ∃ sw, IsError sw ∧ dispatch K env apdu s a = .ok (.error sw, s))
  /-- A read that the policy allows returns the bytes of its range, in one TLV, if the range fits and its offset is
  inside of the file. Any other read fails without data. -/
  read : ∀ (env : Env) (apdu : ParsedApdu) (a : Bool), apdu.IsReadObject → apdu.objectTarget = some id →
    (s.policyAllows id policyObjAllowRead = true ∧ apdu.readOffset < file.length ∧
        apdu.readEnd file.length ≤ file.length →
      ∃ r, dispatch K env apdu s a = .ok (r, s) ∧ r.sw = swNoError ∧ parseTlvs r.data =
        .ok [⟨tag1, (file.drop apdu.readOffset).take (apdu.readEnd file.length - apdu.readOffset)⟩]) ∧
    (¬ (s.policyAllows id policyObjAllowRead = true ∧ apdu.readOffset < file.length ∧
        apdu.readEnd file.length ≤ file.length) →
      ∃ sw, IsError sw ∧ dispatch K env apdu s a = .ok (.error sw, s))

theorem ServesFile.of_get {file : Bytes} (hget : s.get id = some (.binary file)) (hlen : file.length ≤ 65535) :
    ServesFile K s id file where
  content := hget
  write := by
    intro env apdu a hw
    obtain ⟨haccept, hrefuse⟩ := handleWriteBinary_update hw.1 hw.2 hget
    have hd : dispatch K env apdu s a = settle .error s (handleWriteBinary apdu s) := by
      rw [dispatch, dispatchCmd_write hw.1 (.binary : WriteHandler K env apdu s p1Binary _)]
    refine ⟨?_, ?_⟩
    · intro hfits
      rw [hd, haccept hfits]
      exact ⟨_, rfl, s.get_insert_self id _⟩
    · intro hno
      obtain ⟨sw, herr, hsw⟩ := hrefuse hno
      rw [hd, hsw]
      exact ⟨sw, herr, rfl⟩
  read := by
    intro env apdu a hc ht
    have hd : dispatch K env apdu s a = settle .error s (readOnly s (handleReadObject K apdu s)) := by
      rw [dispatch, dispatchCmd_readObject hc]
    rw [hd, handleReadObject_file ht hget]
    refine ⟨?_, ?_⟩
    · rintro ⟨hallow, hfits⟩
      rw [if_pos hallow, if_pos hfits]
      refine ⟨_, rfl, rfl, ?_⟩
      apply parseTlvs_encodeTlvs
      intro t ht
      rw [List.mem_singleton.mp ht]
      exact Nat.le_trans (List.length_take_le' _ _) (Nat.le_trans (by rw [List.length_drop]; omega) hlen)
    · intro hno
      by_cases hallow : s.policyAllows id policyObjAllowRead = true
      · rw [if_pos hallow, if_neg fun hfits => hno ⟨hallow, hfits⟩]
        exact ⟨_, errorStatuses.2.1, rfl⟩
      · rw [if_neg hallow]
        exact ⟨_, errorStatuses.2.2, rfl⟩

/-- A write to an identifier that is not in use is accepted exactly if its policy is well formed and its range fits
into the new file; otherwise it changes nothing. -/
theorem dispatch_create_iff (hw : apdu.Writes p1Binary id) (hget : s.get id = none) :
    (apdu.PolicyParses ∧ apdu.pieceEnd ≤ apdu.fileSize →
      ∃ s', dispatch K env apdu s a = .ok (.success, s') ∧
        s'.get id = some (.binary (contents apdu.fileSize [apdu.piece]))) ∧
    (¬ (apdu.PolicyParses ∧ apdu.pieceEnd ≤ apdu.fileSize) →
      ∃ sw, IsError sw ∧ dispatch K env apdu s a = .ok (.error sw, s)) := by
  obtain ⟨haccept, hrefuse⟩ := handleWriteBinary_create hw.1 hw.2 hget
  have hd : dispatch K env apdu s a = settle .error s (handleWriteBinary apdu s) := by
    rw [dispatch, dispatchCmd_write hw.1 (.binary : WriteHandler K env apdu s p1Binary _)]
  refine ⟨?_, ?_⟩
  · intro hfits
    rw [hd, haccept hfits]
    refine ⟨_, rfl, ?_⟩
    rw [ObjectStore.get_setCreationMetadata, ObjectStore.get_insert_self]
  · intro hno
    obtain ⟨sw, herr, hsw⟩ := hrefuse hno
    rw [hd, hsw]
    exact ⟨sw, herr, rfl⟩

theorem get_file_of_create (hw : apdu.Writes p1Binary id) (hget : s.get id = none)
    (hd : dispatch K env apdu s a = .ok (r, s')) (hr : r.sw = swNoError) :
    s'.get id = some (.binary (contents apdu.fileSize [apdu.piece])) := by
  have hcreate : (_ → ∃ s', dispatch K env apdu s a = .ok (.success, s') ∧ _) ∧ (_ → ∃ sw, IsError sw ∧ _) :=
    dispatch_create_iff hw hget
  obtain ⟨haccept, hrefuse⟩ := hcreate
  by_cases hfits : apdu.PolicyParses ∧ apdu.pieceEnd ≤ apdu.fileSize
  · obtain ⟨next, hok, hnext⟩ := haccept hfits
    rw [hok] at hd
    cases hd
    exact hnext
  · obtain ⟨sw, herr, hok⟩ := hrefuse hfits
    rw [hok] at hd
    cases hd
    exact absurd hr herr

end Handlers

/-- Binary files are arrays of bytes. A write to an unused identifier creates one exactly if its range fits into it;
from then on, as long as no command deletes or replaces it, its size is the one it was created with and its content is
what the accepted writes made of the all-zero array, in every run. -/
theorem binary_files (K : Crates) :
    (∀ (env : Env) (apdu : ParsedApdu) (a : Bool) (s : ObjectStore) (id : ObjectId), apdu.Writes p1Binary id →
      s.get id = none →
      (apdu.PolicyParses ∧ apdu.pieceEnd ≤ apdu.fileSize →
        ∃ s', dispatch K env apdu s a = .ok (.success, s') ∧
          s'.get id = some (.binary (contents apdu.fileSize [apdu.piece]))) ∧
      (¬ (apdu.PolicyParses ∧ apdu.pieceEnd ≤ apdu.fileSize) →
        ∃ sw, IsError sw ∧ dispatch K env apdu s a = .ok (.error sw, s))) ∧
    ∀ (past since : List StoreEvent) (e : StoreEvent) (s : ObjectStore) (id : ObjectId),
      Run (execute K) .new (past ++ e :: since) s → e.pre.get id = none → e.Accepted →
      e.input.apdu.Writes p1Binary id → (∀ f ∈ since, f.Accepted → ¬ f.input.apdu.Replaces p1Binary id) →
      ServesFile K s id (contents e.input.apdu.fileSize (fileWrites id (e :: since))) := by
  refine ⟨?_, ?_⟩
  · intro env apdu a s id hw hget
    exact dispatch_create_iff hw hget
  · intro past since e s id h hnew hacc hw hno
    obtain ⟨next, -, hstep, hrest⟩ := h.mid
    have hfirst : next.get id = some (.binary (contents e.input.apdu.fileSize (fileWrites id [e]))) := by
      rw [fileWrites_of_accepted hacc hw]
      exact get_file_of_create hw hnew hstep hacc
    have hget := get_file_of_run hrest hno hfirst
    rw [← fileWrites_append, List.singleton_append] at hget
    apply ServesFile.of_get hget
    rw [contents_length]
    exact fileSize_le _

/-- WriteBinary of a file of four bytes. -/
def createFile : ParsedApdu :=
  ⟨0x80, 0x01, 0x06, 0x00, [0x41, 0x04, 0, 0, 0, 9, 0x43, 0x02, 0, 4, 0x44, 0x01, 7], none⟩

/-- WriteBinary of two bytes at its end. -/
def updateFile : ParsedApdu :=
  ⟨0x80, 0x01, 0x06, 0x00, [0x41, 0x04, 0, 0, 0, 9, 0x42, 0x02, 0, 2, 0x44, 0x02, 8, 9], none⟩

theorem updateFile_serves : ∃ log s, Run (execute .blank) .new log s ∧
    ServesFile .blank s ⟨0, 0, 0, 9⟩ [7, 0, 8, 9] := by
  have hrun : (trace (execute .blank) .new [⟨.unset, createFile, false⟩, ⟨.unset, updateFile, false⟩]).map
      (testLast fun past (e : StoreEvent) _ => past.length == 1 &&
        (past.all (fun f : StoreEvent => decide (f.Accepted ∧ f.input.apdu = createFile ∧
          f.pre.get ⟨0, 0, 0, 9⟩ = none)) && decide (e.Accepted ∧ e.input.apdu = updateFile))) = .ok true := by
    decide +kernel
  obtain ⟨past, e, s, h, htest⟩ := exists_run_of_trace hrun
  simp only [Bool.and_eq_true, beq_iff_eq, List.all_eq_true, decide_eq_true_eq] at htest
  obtain ⟨hlen, hpast, hacc, hupdate⟩ := htest
  obtain ⟨f, rfl⟩ := List.length_eq_one_iff.mp hlen
  obtain ⟨hfirst, hcreate, hnew⟩ := hpast f (List.mem_singleton.mpr rfl)
  have hserve := (binary_files .blank).2 [] [e] f s ⟨0, 0, 0, 9⟩ h hnew hfirst (by rw [hcreate]; decide) ?_
  · have hfile : fileWrites ⟨0, 0, 0, 9⟩ [f, e] = [createFile.piece, updateFile.piece] := by
      have hf := fileWrites_of_accepted hfirst (by rw [hcreate]; decide : f.input.apdu.Writes p1Binary ⟨0, 0, 0, 9⟩)
      have he := fileWrites_of_accepted hacc (by rw [hupdate]; decide : e.input.apdu.Writes p1Binary ⟨0, 0, 0, 9⟩)
      rw [hcreate] at hf
      rw [hupdate] at he
      rw [← List.singleton_append, fileWrites_append, hf, he, List.singleton_append]
    rw [hcreate, hfile] at hserve
    exact ⟨_, s, h, hserve⟩
  · intro g hg hacc'
    rw [List.mem_singleton.mp hg, hupdate]
    exact ParsedApdu.Writes.not_replaces (by decide)

/-- A write inside of a file that anyone may write, with a policy of one byte. -/
def badPolicyWrite : ParsedApdu :=
  ⟨0x80, 0x01, 0x06, 0x00, [0x11, 0x01, 0, 0x41, 0x04, 0, 0, 0, 9, 0x44, 0x01, 7], none⟩

/-- A write in range that the file's policy allows is refused for the policy it brings. -/
theorem malformedPolicy_refused : ¬ ∀ (log : List StoreEvent) (s : ObjectStore) (id : ObjectId) (file : Bytes)
    (apdu : ParsedApdu), Run (execute .blank) .new log s → s.get id = some (.binary file) → apdu.Writes p1Binary id →
      s.policyAllows id policyObjAllowWrite = true → apdu.pieceEnd ≤ file.length →
      ∃ s', dispatch .blank .unset apdu s false = .ok (.success, s') := by
  intro hclaim
  have hrun : (trace (execute .blank) .new [⟨.unset, createFile, false⟩, ⟨.unset, updateFile, false⟩]).map
      (testLast fun _ _ s => s.get ⟨0, 0, 0, 9⟩ == some (.binary [7, 0, 8, 9]) &&
        (s.policyAllows ⟨0, 0, 0, 9⟩ policyObjAllowWrite &&
        decide (dispatch .blank .unset badPolicyWrite s false = .ok (.error swWrongData, s)))) = .ok true := by
    decide +kernel
  obtain ⟨past, e, s, h, htest⟩ := exists_run_of_trace hrun
  simp only [Bool.and_eq_true, beq_iff_eq, decide_eq_true_eq] at htest
  obtain ⟨hget, hallow, hrefused⟩ := htest
  obtain ⟨s', hok⟩ := hclaim _ s _ _ badPolicyWrite h hget (by decide) hallow (by decide)
  rw [hrefused] at hok
  exact absurd (congrArg ApduResponse.sw (Prod.mk.inj (Except.ok.inj hok)).1) (by decide)

end SE050
end Simulators
