/-
# SE050: object management

`handlers/object_mgmt.rs`: binary files and counters, and the read, list,
attribute, existence and delete commands on every kind of object.
-/
import Simulators.SE050.Store

namespace Simulators
namespace SE050

open Handler

/-- The four-byte identifier under a tag (`extract_object_id` for Tag1). -/
def objectIdOf (tlvs : List Tlv) (tag : UInt8) : Option ObjectId := (valueOf tlvs tag).bind ObjectId.ofBytes

def extractObjectId (tlvs : List Tlv) : Option ObjectId := objectIdOf tlvs tag1

/-- `!store.exists(id) || store.policy_allows(id, WRITE)`: the test each
writer makes before it replaces an object. -/
def ObjectStore.mayWrite (s : ObjectStore) (id : ObjectId) : Prop :=
  s.existsId id = true → s.policyAllows id policyObjAllowWrite = true

instance (s : ObjectStore) (id : ObjectId) : Decidable (s.mayWrite id) := by
  unfold ObjectStore.mayWrite; infer_instance

theorem mayWrite_of_none (s : ObjectStore) (id : ObjectId) (h : s.get id = none) : s.mayWrite id := by
  intro hexists
  rw [s.existsId_eq, h] at hexists
  cases hexists

theorem mayWrite_iff (s : ObjectStore) (id : ObjectId) (h : s.get id ≠ none) :
    s.mayWrite id ↔ s.policyAllows id policyObjAllowWrite = true := by
  have hexists : s.existsId id = true := by
    rw [s.existsId_eq]
    exact Option.isSome_iff_ne_none.mpr h
  exact ⟨fun hmay => hmay hexists, fun hallow _ => hallow⟩

/-! ### Binary files -/

/-- What the loop of `handle_write_binary` over the TLVs collects. -/
structure BinaryRequest where
  objId : Option ObjectId := none
  data : Option Bytes := none
  offset : ℕ := 0
  fileLen : Option ℕ := none

/-- One TLV: the first four-byte Tag1 counts, and the last Tag2, Tag3 and Tag4. -/
def BinaryRequest.add (r : BinaryRequest) (t : Tlv) : BinaryRequest :=
  if t.tag = tag1 ∧ r.objId.isNone ∧ t.value.length = 4 then { r with objId := ObjectId.ofBytes t.value }
  else if t.tag = tag2 ∧ t.value.length = 2 then { r with offset := (word? t.value).getD 0 }
  else if t.tag = tag3 ∧ t.value.length = 2 then { r with fileLen := word? t.value }
  else if t.tag = tag4 then { r with data := some t.value }
  else r

def handleWriteBinary (apdu : ParsedApdu) (s : ObjectStore) : Cmd (ApduResponse × ObjectStore) := do
  let tlvs ← apdu.tlvs
  let req := tlvs.foldl BinaryRequest.add {}
  let objId ← orRefuse swWrongData req.objId
  let policy ← policyOf tlvs
  ensure (s.mayWrite objId) swConditionsNotSatisfied
  let writeData := req.data.getD []
  match s.get objId with
  | some (.binary existing) =>
    ensure (req.offset + writeData.length ≤ existing.length) swWrongData
    let updated ← copyAt existing req.offset writeData
    return (.success, s.insert objId (.binary updated))
  | some _ => refuse swConditionsNotSatisfied
  | none =>
    let size := req.fileLen.getD writeData.length
    ensure (req.offset + writeData.length ≤ size) swWrongData
    let full ← copyAt (List.replicate size 0) req.offset writeData
    return (.success, (s.insert objId (.binary full)).setCreationMetadata objId policy 0x01)

/-! ### Counters -/

/-- The value bytes of SetCounterValue, shifted into a `u64` one by one. -/
def counterValue (b : Bytes) : UInt64 := b.foldl (fun v x => (v <<< 8) ||| x.toUInt64) 0

/-- `u64::MAX` from eight bytes on, else `size * 8` ones. -/
def counterMask (size : UInt16) : UInt64 :=
  if 8 ≤ size then 0xFFFFFFFFFFFFFFFF else ((1 : UInt64) <<< (size * 8).toUInt64) - 1

/-- The counter stored under an identifier; another kind of object is refused. -/
def counterAt (s : ObjectStore) (id : ObjectId) : Cmd (Option (UInt64 × UInt16)) :=
  match s.get id with
  | some (.counter value size) => .ok (some (value, size))
  | some _ => refuse swConditionsNotSatisfied
  | none => .ok none

def handleWriteCounter (apdu : ParsedApdu) (s : ObjectStore) : Cmd (ApduResponse × ObjectStore) := do
  let tlvs ← apdu.tlvs
  let objId ← orRefuse swWrongData (extractObjectId tlvs)
  let policy ← policyOf tlvs
  let sizeTlv := (valueOf tlvs tag2).bind u16?
  let valueTlv := (valueOf tlvs tag3).map counterValue
  let existing ← counterAt s objId
  ensure (existing.isSome = true → s.policyAllows objId policyObjAllowWrite = true) swConditionsNotSatisfied
  match existing, sizeTlv, valueTlv with
  | none, some size, value =>
    ensure (size ≠ 0 ∧ size ≤ 8) swWrongData
    return (.success, (s.insert objId (.counter (value.getD 0) size)).setCreationMetadata objId policy 0x01)
  | some (_, size), _, some value => return (.success, s.insert objId (.counter value size))
  | some (value, size), none, none =>
    return (.success, s.insert objId (.counter ((value + 1) &&& counterMask size) size))
  | some _, some _, none => refuse swConditionsNotSatisfied
  | none, none, _ => refuse swConditionsNotSatisfied

/-- WriteUserID is refused: the simulator models plain sessions only. -/
def handleWrite (apdu : ParsedApdu) (s : ObjectStore) : Cmd (ApduResponse × ObjectStore) :=
  if apdu.credType = p1Binary then handleWriteBinary apdu s
  else if apdu.credType = p1UserId then refuse swConditionsNotSatisfied
  else if apdu.credType = p1Counter then handleWriteCounter apdu s
  else refuse swWrongP1P2

/-! ### Reads -/

/-- The eight big-endian bytes of a counter value. -/
def counterBytes (v : UInt64) : Bytes := toBe 8 v.toNat

/-- What `ReadObject` returns of an object: the bytes of a file, the public
part of a key, a counter's value; symmetric keys and user IDs are never read. -/
def readValue (K : Crates) (obj : SecureObject) (offset : ℕ) (length : Option ℕ) : Cmd Bytes :=
  match obj with
  | .binary data => do
    let stop := match length with
      | some l => offset + l
      | none => data.length
    ensure (offset < data.length ∧ stop ≤ data.length) swConditionsNotSatisfied
    slice data offset stop
  | .ecKeyPair _ _ publicKey => .ok publicKey
  | .ecPublicKey _ publicKey => .ok publicKey
  | .rsaKeyPair _ der _ =>
    match K.rsaFromPkcs1Der der with
    | some key => .ok ((K.rsaPublicToPkcs1Der key.toPublic).getD [])
    | none => .ok []
  | .aesKey _ => refuse swCommandNotAllowed
  | .userId _ => refuse swCommandNotAllowed
  | .counter value size =>
    -- `be[8 - size..]`: the subtraction underflows past 8
    if size.toNat ≤ 8 then slice (counterBytes value) (8 - size.toNat) 8 else .error (.panic .slice)
  | .hmacKey _ _ => refuse swCommandNotAllowed

def handleReadObject (K : Crates) (apdu : ParsedApdu) (s : ObjectStore) : Cmd ApduResponse := do
  let tlvs ← apdu.tlvs
  let objId ← orRefuse swWrongData (extractObjectId tlvs)
  ensure (s.policyAllows objId policyObjAllowRead = true) swCommandNotAllowed
  let offset := ((valueOf tlvs tag2).bind word?).getD 0
  let length := (valueOf tlvs tag3).bind word?
  let obj ← orRefuse swConditionsNotSatisfied (s.get objId)
  let data ← readValue K obj offset length
  return .successWithTlvs [⟨tag1, data⟩]

/-- Read a fact of the object Tag1 names, and answer with it. -/
def handleReadOf (apdu : ParsedApdu) (s : ObjectStore) (answer : SecureObject → List Tlv) :
    Cmd ApduResponse := do
  let tlvs ← apdu.tlvs
  let objId ← orRefuse swWrongData (extractObjectId tlvs)
  let obj ← orRefuse swConditionsNotSatisfied (s.get objId)
  return .successWithTlvs (answer obj)

def handleReadSize (apdu : ParsedApdu) (s : ObjectStore) : Cmd ApduResponse :=
  handleReadOf apdu s fun obj => [⟨tag1, toBe 2 (obj.dataSize % 65536)⟩]

def handleReadType (apdu : ParsedApdu) (s : ObjectStore) (v7 : Bool) : Cmd ApduResponse :=
  handleReadOf apdu s fun obj => [⟨tag1, [obj.typeCode v7]⟩, ⟨tag2, [0x01]⟩]

/-- The identifiers from `offset` on whose type passes the filter. -/
def matchingIds (s : ObjectStore) (v7 : Bool) (offset : ℕ) (filter : UInt8) : List ObjectId :=
  (s.sortedIds.drop offset).filter fun id =>
    if filter != 0xFF && filter != 0x00 then
      match s.get id with
      | some obj => obj.typeCode v7 == filter
      | none => false
    else true

def handleReadIdList (apdu : ParsedApdu) (s : ObjectStore) (v7 : Bool) : Cmd ApduResponse := do
  let tlvs ← apdu.tlvs
  let offset := ((valueOf tlvs tag1).bind word?).getD 0
  let filter := (byteOf tlvs tag2).getD 0xFF
  return .successWithTlvs
    [⟨tag1, [0x01]⟩, ⟨tag2, (matchingIds s v7 offset filter).flatMap (·.toBytes)⟩]

/-- The policy and origin bytes of the object attributes. -/
def metadataBytes : Option ObjectMetadata → Bytes
  | some m => m.policy.getD [] ++ [m.origin]
  | none => [0x01]

def handleReadAttributes (apdu : ParsedApdu) (s : ObjectStore) (v7 : Bool) : Cmd ApduResponse := do
  ensure (v7 = true) swConditionsNotSatisfied
  let tlvs ← apdu.tlvs
  let objId ← orRefuse swWrongData (extractObjectId tlvs)
  let obj ← orRefuse swConditionsNotSatisfied (s.get objId)
  -- id, type, auth indicator, AEAD tag length, owner, RFU, policy, origin, version
  let attributes := objId.toBytes ++ [obj.typeCode true, 0x01] ++ [0x00, 0x00] ++ [0x00, 0x00, 0x00, 0x00]
    ++ [0x00, 0x00] ++ metadataBytes (s.metadata.lookup objId) ++ [0x00, 0x00, 0x00, 0x00]
  return .successWithTlvs [⟨tag3, attributes⟩]

def handleRead (K : Crates) (apdu : ParsedApdu) (s : ObjectStore) (v7 : Bool) : Cmd ApduResponse :=
  if apdu.p2 = p2Default then handleReadObject K apdu s
  else if apdu.p2 = p2Size then handleReadSize apdu s
  else if apdu.p2 = p2List then handleReadIdList apdu s v7
  else if apdu.p2 = p2Type then handleReadType apdu s v7
  else if apdu.p2 = p2Attributes then handleReadAttributes apdu s v7
  else refuse swWrongP1P2

/-! ### Existence and deletion -/

def handleCheckExists (apdu : ParsedApdu) (s : ObjectStore) : Cmd ApduResponse := do
  let tlvs ← apdu.tlvs
  let objId ← orRefuse swWrongData (extractObjectId tlvs)
  return .successWithTlvs [⟨tag1, [if s.existsId objId then 0x01 else 0x02]⟩]

def handleDelete (apdu : ParsedApdu) (s : ObjectStore) : Cmd (ApduResponse × ObjectStore) := do
  let tlvs ← apdu.tlvs
  let objId ← orRefuse swWrongData (extractObjectId tlvs)
  ensure (s.policyAllows objId policyObjAllowDelete = true) swConditionsNotSatisfied
  match s.remove objId with
  | (some _, s') => return (.success, s')
  | (none, _) => refuse swConditionsNotSatisfied

/-- A handler that only reads the store. -/
def readOnly (s : ObjectStore) (h : Cmd ApduResponse) : Cmd (ApduResponse × ObjectStore) := do
  let r ← h
  return (r, s)

def handleMgmt (apdu : ParsedApdu) (s : ObjectStore) : Cmd (ApduResponse × ObjectStore) :=
  if apdu.p2 = p2Exist then readOnly s (handleCheckExists apdu s)
  else if apdu.p2 = p2DeleteObject then handleDelete apdu s
  else refuse swWrongP1P2

end SE050
end Simulators
