/-
# SE050: secure objects and the object store

`policy.rs`, `object_store/types.rs` and `object_store/mod.rs`. The maps are
`HashMap`s; the JSON document `persist` writes is a `Doc`, and the file at
`persist_path` is the field `disk` of the store, so that what a mutator
leaves on disk is part of its result.
-/
import Mathlib.Data.Finset.Sort
import Simulators.SE050.Applet

namespace Simulators
namespace SE050

/-! ### Policies (`policy.rs`) -/

def policyObjAllowRead : UInt32 := 0x00200000
def policyObjAllowWrite : UInt32 := 0x00100000
def policyObjAllowDelete : UInt32 := 0x00040000

/-- `u32::from_be_bytes`. -/
def be32 (a b c d : UInt8) : UInt32 :=
  (a.toUInt32 <<< 24) ||| (b.toUInt32 <<< 16) ||| (c.toUInt32 <<< 8) ||| d.toUInt32

/-- The loop of `ar_header_union`: entries of a length byte, the
authentication object (4 bytes), the AR header (4 bytes) and an extension. -/
def arHeaderUnionFrom : ℕ → Bytes → UInt32 → Bool → Option UInt32
  | _, [], header, seen => if seen then some header else none
  | 0, _, _, _ => none
  | fuel + 1, len :: rest, header, _ =>
    if len.toNat < 8 ∨ rest.length < len.toNat then none
    else match rest with
      | _ :: _ :: _ :: _ :: h0 :: h1 :: h2 :: h3 :: _ =>
        arHeaderUnionFrom fuel (rest.drop len.toNat) (header ||| be32 h0 h1 h2 h3) true
      | _ => none

/-- The union of the AR headers of a policy, none if it does not parse. -/
def arHeaderUnion (value : Bytes) : Option UInt32 := arHeaderUnionFrom value.length value 0 false

/-- `creation_policy`: the command's policy, or its refusal. -/
def creationPolicy (tlvs : List Tlv) : Except Unit (Option Bytes) :=
  match findTlv tlvs tagPolicy with
  | some t =>
    if t.value.isEmpty then .ok none
    else if (arHeaderUnion t.value).isSome then .ok (some t.value)
    else .error ()
  | none => .ok none

/-- The creation policy, or `SW_WRONG_DATA`. -/
def policyOf (tlvs : List Tlv) : Cmd (Option Bytes) :=
  match creationPolicy tlvs with
  | .ok p => .ok p
  | .error _ => Handler.refuse swWrongData

/-! ### Secure objects (`object_store/types.rs`) -/

/-- A four-byte object identifier. -/
structure ObjectId where
  b0 : UInt8
  b1 : UInt8
  b2 : UInt8
  b3 : UInt8
deriving DecidableEq, Repr

namespace ObjectId

/-- The identifier in a four-byte value. -/
def ofBytes : Bytes → Option ObjectId
  | [a, b, c, d] => some ⟨a, b, c, d⟩
  | _ => none

def toBytes (i : ObjectId) : Bytes := [i.b0, i.b1, i.b2, i.b3]

/-- The big-endian number. -/
def toNat (i : ObjectId) : ℕ := ofBe i.toBytes

theorem toNat_injective : Function.Injective toNat := by
  rintro ⟨a0, a1, a2, a3⟩ ⟨b0, b1, b2, b3⟩ h
  simp only [toNat, toBytes, ofBe, List.foldl_cons, List.foldl_nil] at h
  simp only [ObjectId.mk.injEq, ← UInt8.toNat_inj]
  have ha := And.intro (And.intro a0.toNat_lt a1.toNat_lt) (And.intro a2.toNat_lt a3.toNat_lt)
  have hb := And.intro (And.intro b0.toNat_lt b1.toNat_lt) (And.intro b2.toNat_lt b3.toNat_lt)
  omega

/-- The order of `[u8; 4]`. -/
def le (i j : ObjectId) : Prop := i.toNat ≤ j.toNat

instance : DecidableRel le := fun i j => inferInstanceAs (Decidable (i.toNat ≤ j.toNat))
instance : IsTrans ObjectId le := ⟨fun _ _ _ => Nat.le_trans⟩
instance : Std.Antisymm le := ⟨fun _ _ h h' => toNat_injective (Nat.le_antisymm h h')⟩
instance : Std.Total le := ⟨fun i j => Nat.le_total i.toNat j.toNat⟩

end ObjectId

structure ObjectMetadata where
  /-- The raw policy; none is the unrestricted default. -/
  policy : Option Bytes
  /-- External 1, internal 2, trust-provisioned 3. -/
  origin : UInt8
deriving DecidableEq, Repr

/-- RSA components staged across `WriteRSAKey` APDUs. -/
structure RsaComponents where
  n : Option Bytes := none
  e : Option Bytes := none
  d : Option Bytes := none
  p : Option Bytes := none
  q : Option Bytes := none
  dp : Option Bytes := none
  dq : Option Bytes := none
  qinv : Option Bytes := none
deriving DecidableEq, Repr

inductive SecureObject
  | ecKeyPair (curve : ECCurve) (privateKey publicKey : Bytes)
  | ecPublicKey (curve : ECCurve) (publicKey : Bytes)
  | rsaKeyPair (keySizeBits : UInt16) (privateKeyDer : Bytes) (staged : RsaComponents)
  | aesKey (key : Bytes)
  | binary (data : Bytes)
  | userId (value : Bytes)
  | counter (value : UInt64) (size : UInt16)
  | hmacKey (key : Bytes) (policy : Option UInt32)
deriving DecidableEq, Repr

/-- The type codes of a 7.2 applet for a key pair and for a public key. -/
def ECCurve.pairTypeCode : ECCurve → UInt8
  | .nistP192 => 0x21
  | .nistP224 => 0x25
  | .nistP256 => 0x29
  | .nistP384 => 0x2D
  | .nistP521 => 0x31
  | .ed25519 => 0x65
  | .curve25519 => 0x69

def ECCurve.publicTypeCode : ECCurve → UInt8
  | .nistP192 => 0x22
  | .nistP224 => 0x26
  | .nistP256 => 0x2A
  | .nistP384 => 0x2E
  | .nistP521 => 0x32
  | .ed25519 => 0x67
  | .curve25519 => 0x6B

def ECCurve.id : ECCurve → UInt8
  | .nistP192 => 0x01
  | .nistP224 => 0x02
  | .nistP256 => 0x03
  | .nistP384 => 0x04
  | .nistP521 => 0x05
  | .ed25519 => 0x40
  | .curve25519 => 0x41

namespace SecureObject

/-- The type code `ReadType` reports. -/
def typeCode (v7 : Bool) : SecureObject → UInt8
  | ecKeyPair c _ _ => if v7 then c.pairTypeCode else 0x01
  | ecPublicKey c _ => if v7 then c.publicTypeCode else 0x03
  | rsaKeyPair .. => 0x04
  | aesKey _ => 0x09
  | binary _ => 0x0B
  | userId _ => 0x0C
  | counter .. => 0x0D
  | hmacKey .. => 0x11

def curveId : SecureObject → Option UInt8
  | ecKeyPair c _ _ => some c.id
  | ecPublicKey c _ => some c.id
  | _ => none

/-- The size `ReadSize` reports. -/
def dataSize : SecureObject → ℕ
  | ecKeyPair c _ _ => c.scalarLen
  | ecPublicKey c _ => c.scalarLen
  | rsaKeyPair bits _ _ => bits.toNat / 8
  | aesKey key => key.length
  | binary data => data.length
  | userId value => value.length
  | counter _ size => size.toNat
  | hmacKey key _ => key.length

end SecureObject

/-! ### Platform SCP03 keys (`scp03/keys.rs`) -/

structure Scp03Config where
  kvn : UInt8
  enc : Bytes
  mac : Bytes
  dek : Bytes
deriving DecidableEq, Repr

def defaultKvn : UInt8 := 0x0B

def se050eEnc : Bytes :=
  [0xD2, 0xDB, 0x63, 0xE7, 0xA0, 0xA5, 0xAE, 0xD7, 0x2A, 0x64, 0x60, 0xC4, 0xDF, 0xDC, 0xAF, 0x64]
def se050eMac : Bytes :=
  [0x73, 0x8D, 0x5B, 0x79, 0x8E, 0xD2, 0x41, 0xB0, 0xB2, 0x47, 0x68, 0x51, 0x4B, 0xFB, 0xA9, 0x5B]
def se050eDek : Bytes :=
  [0x67, 0x02, 0xDA, 0xC3, 0x09, 0x42, 0xB2, 0xC8, 0x5E, 0x7F, 0x47, 0xB4, 0x2C, 0xED, 0x4E, 0x7F]
def devkitEnc : Bytes :=
  [0x35, 0xC2, 0x56, 0x45, 0x89, 0x58, 0xA3, 0x4F, 0x61, 0x36, 0x15, 0x5F, 0x82, 0x09, 0xD6, 0xCD]
def devkitMac : Bytes :=
  [0xAF, 0x17, 0x7D, 0x5D, 0xBD, 0xF7, 0xC0, 0xD5, 0xC1, 0x0A, 0x05, 0xB9, 0xF1, 0x60, 0x7F, 0x78]
def devkitDek : Bytes :=
  [0xA1, 0xBC, 0x84, 0x38, 0xBF, 0x77, 0x93, 0x5B, 0x36, 0x1A, 0x44, 0x25, 0xFE, 0x79, 0xFA, 0x29]

/-- The compiled-in keys of the personality, with the environment's overrides. -/
def Scp03Config.fromEnv (env : Env) : Scp03Config :=
  let (enc, mac, dek) :=
    if env.version = .v3_1_1 then (devkitEnc, devkitMac, devkitDek)
    else (se050eEnc, se050eMac, se050eDek)
  { kvn := env.scp03Kvn.getD defaultKvn
    enc := (env.scp03Enc.map (·.key)).getD enc
    mac := (env.scp03Mac.map (·.key)).getD mac
    dek := (env.scp03Dek.map (·.key)).getD dek }

/-! ### The store (`object_store/mod.rs`) -/

/-- All five parameters of a curve. -/
def curveParamsComplete : UInt8 := 0x1F

/-- A running multi-step operation. -/
inductive CryptoObjectState
  | digest (algo : UInt8) (data : Bytes)
  | cipher (encrypting : Bool) (mode : UInt8) (keyId : ObjectId) (chain pending : Bytes)
  | mac (algo : UInt8) (validate : Bool) (keyId : ObjectId) (data : Bytes)
deriving DecidableEq, Repr

/-- The document `persist` writes. -/
structure Doc where
  objects : HashMap ObjectId SecureObject
  metadata : HashMap ObjectId ObjectMetadata
  ecCurves : HashMap UInt8 UInt8
  scpRequired : Bool
  platformScp : Option Scp03Config
deriving DecidableEq

structure ObjectStore where
  objects : HashMap ObjectId SecureObject
  metadata : HashMap ObjectId ObjectMetadata
  persistPath : Option String
  /-- Curve objects and the parameters uploaded for each. -/
  ecCurves : HashMap UInt8 UInt8
  cryptoObjects : HashMap UInt16 CryptoObjectState
  /-- Created crypto objects: context and subtype. -/
  cryptoObjectTypes : HashMap UInt16 (UInt8 × UInt8)
  scpRequired : Bool
  platformScp : Option Scp03Config
  /-- What the file at `persistPath` holds. -/
  disk : Option Doc
deriving DecidableEq

/-- P-192, P-224, P-256, P-384 and P-521, fully parameterized. -/
def defaultCurves : HashMap UInt8 UInt8 :=
  [1, 2, 3, 4, 5].foldr (fun i m => Finmap.insert i curveParamsComplete m) ∅

namespace ObjectStore

def new : ObjectStore := ⟨∅, ∅, none, defaultCurves, ∅, ∅, false, none, none⟩

def persist (s : ObjectStore) : ObjectStore :=
  match s.persistPath with
  | none => s
  | some _ => { s with disk := some ⟨s.objects, s.metadata, s.ecCurves, s.scpRequired, s.platformScp⟩ }

section Persist

variable (s : ObjectStore)

@[simp] theorem persist_objects : s.persist.objects = s.objects := by unfold persist; split <;> rfl
@[simp] theorem persist_metadata : s.persist.metadata = s.metadata := by unfold persist; split <;> rfl
@[simp] theorem persist_persistPath : s.persist.persistPath = s.persistPath := by
  unfold persist; split <;> rfl
@[simp] theorem persist_ecCurves : s.persist.ecCurves = s.ecCurves := by unfold persist; split <;> rfl
@[simp] theorem persist_cryptoObjects : s.persist.cryptoObjects = s.cryptoObjects := by
  unfold persist; split <;> rfl
@[simp] theorem persist_cryptoObjectTypes : s.persist.cryptoObjectTypes = s.cryptoObjectTypes := by
  unfold persist; split <;> rfl
@[simp] theorem persist_scpRequired : s.persist.scpRequired = s.scpRequired := by
  unfold persist; split <;> rfl
@[simp] theorem persist_platformScp : s.persist.platformScp = s.platformScp := by
  unfold persist; split <;> rfl

end Persist

def insert (s : ObjectStore) (id : ObjectId) (obj : SecureObject) : ObjectStore :=
  persist { s with objects := s.objects.insert id obj }

def get (s : ObjectStore) (id : ObjectId) : Option SecureObject := s.objects.lookup id

/-- Metadata is recorded on first creation only (`entry(id).or_insert(..)`). -/
def setCreationMetadata (s : ObjectStore) (id : ObjectId) (policy : Option Bytes) (origin : UInt8) :
    ObjectStore :=
  persist { s with metadata := if id ∈ s.metadata then s.metadata
                               else s.metadata.insert id ⟨policy, origin⟩ }

/-- Without a policy everything is allowed; with one, what it omits is denied. -/
def policyAllows (s : ObjectStore) (id : ObjectId) (permission : UInt32) : Bool :=
  match (s.metadata.lookup id).bind (·.policy) with
  | some raw => match arHeaderUnion raw with
    | some header => header &&& permission != 0
    | none => false
  | none => true

def remove (s : ObjectStore) (id : ObjectId) : Option SecureObject × ObjectStore :=
  match s.objects.lookup id with
  | some obj =>
    (some obj, persist { s with objects := s.objects.erase id, metadata := s.metadata.erase id })
  | none => (none, s)

def existsId (s : ObjectStore) (id : ObjectId) : Bool := id ∈ s.objects

/-- The identifiers in ascending order (`list_ids`, then `sort`). -/
def sortedIds (s : ObjectStore) : List ObjectId :=
  s.objects.keys.sort ObjectId.le

def clear (s : ObjectStore) : ObjectStore :=
  persist { s with objects := ∅, metadata := ∅, ecCurves := defaultCurves
                   cryptoObjects := ∅, cryptoObjectTypes := ∅ }

def curveExists (s : ObjectStore) (curveId : UInt8) : Bool := curveId ∈ s.ecCurves

def curveReady (s : ObjectStore) (curveId : UInt8) : Bool :=
  s.ecCurves.lookup curveId == some curveParamsComplete

def curveCreate (s : ObjectStore) (curveId : UInt8) : ObjectStore :=
  persist { s with ecCurves := s.ecCurves.insert curveId 0 }

def curveReset (s : ObjectStore) (curveId : UInt8) : ObjectStore :=
  persist { s with ecCurves := s.ecCurves.insert curveId 0 }

def curveAddParam (s : ObjectStore) (curveId param : UInt8) : ObjectStore :=
  match s.ecCurves.lookup curveId with
  | some mask =>
    persist { s with ecCurves := s.ecCurves.insert curveId (mask ||| (param &&& curveParamsComplete)) }
  | none => s

def curveDelete (s : ObjectStore) (curveId : UInt8) : Bool × ObjectStore :=
  match s.ecCurves.lookup curveId with
  | some _ => (true, persist { s with ecCurves := s.ecCurves.erase curveId })
  | none => (false, s)

def setScpRequired (s : ObjectStore) (required : Bool) : ObjectStore :=
  persist { s with scpRequired := required }

def platformScpConfig (s : ObjectStore) (env : Env) : Scp03Config :=
  s.platformScp.getD (Scp03Config.fromEnv env)

def setPlatformScpConfig (s : ObjectStore) (config : Scp03Config) : ObjectStore :=
  persist { s with platformScp := some config }

/-! ### What the operations leave under an identifier -/

section Views

variable (s : ObjectStore) (id id' : ObjectId) (obj : SecureObject)

@[simp] theorem get_persist : s.persist.get id = s.get id := by rw [get, persist_objects, get]

theorem existsId_eq : s.existsId id = (s.get id).isSome := by
  rw [Bool.eq_iff_iff, existsId, get, decide_eq_true_iff, Finmap.lookup_isSome]

theorem get_insert : (s.insert id obj).get id' = if id' = id then some obj else s.get id' := by
  simp only [insert, get, persist_objects]
  split
  · rename_i h
    rw [h, Finmap.lookup_insert]
  · rename_i h
    rw [Finmap.lookup_insert_of_ne _ h]

@[simp] theorem get_insert_self : (s.insert id obj).get id = some obj := by rw [get_insert, if_pos rfl]

@[simp] theorem get_setCreationMetadata (policy : Option Bytes) (origin : UInt8) :
    (s.setCreationMetadata id policy origin).get id' = s.get id' := by
  simp [setCreationMetadata, get]

theorem get_remove : (s.remove id).2.get id' = if id' = id then none else s.get id' := by
  unfold remove
  split
  · simp only [get, persist_objects]
    split
    · rename_i h
      rw [h, Finmap.lookup_erase]
    · rename_i h
      rw [Finmap.lookup_erase_ne h]
  · rename_i h
    split
    · rename_i h'
      rw [h']
      exact h
    · rfl

@[simp] theorem remove_cryptoObjects : (s.remove id).2.cryptoObjects = s.cryptoObjects := by
  unfold remove
  split
  · exact persist_cryptoObjects _
  · rfl

@[simp] theorem remove_cryptoObjectTypes : (s.remove id).2.cryptoObjectTypes = s.cryptoObjectTypes := by
  unfold remove
  split
  · exact persist_cryptoObjectTypes _
  · rfl

@[simp] theorem get_clear : s.clear.get id = none := by simp [clear, get]

@[simp] theorem clear_cryptoObjects : s.clear.cryptoObjects = ∅ := persist_cryptoObjects _

@[simp] theorem insert_metadata : (s.insert id obj).metadata = s.metadata := by simp [insert]

theorem remove_metadata_lookup (h : id' ≠ id) : (s.remove id).2.metadata.lookup id' = s.metadata.lookup id' := by
  unfold remove
  split
  · simp only [persist_metadata, Finmap.lookup_erase_ne h]
  · rfl

end Views

end ObjectStore

end SE050
end Simulators
