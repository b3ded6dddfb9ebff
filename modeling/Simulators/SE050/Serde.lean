/-
# SE050: the derived encodings

What `#[derive(Serialize, Deserialize)]` makes of the types of `types.rs` and
of `Scp03Config`: a structure is an object with a field for each of its own, an
enumeration's variant an object with one field, under the variant's name. Fields
with a default may be missing. Two forms that serde would read but never writes
are left out: a structure as an array, a unit variant as an object.

Key definition: `SerdeJson.derived`.
-/
import Simulators.SE050.Document

namespace Simulators
namespace SE050

/-- Unit variants are strings. -/
def curveName : ECCurve → String
  | .nistP192 => "NistP192"
  | .nistP224 => "NistP224"
  | .nistP256 => "NistP256"
  | .nistP384 => "NistP384"
  | .nistP521 => "NistP521"
  | .ed25519 => "Ed25519"
  | .curve25519 => "Curve25519"

def curveCodec : Codec ECCurve where
  enc c := .str (curveName c)
  dec
    | .str s => [.nistP192, .nistP224, .nistP256, .nistP384, .nistP521, .ed25519, .curve25519].find? (curveName · = s)
    | _ => none
  dec_enc c := by cases c <;> rfl

def scpCodec : Codec Scp03Config where
  enc c := .obj [("dek", Codec.bytes.enc c.dek), ("enc", Codec.bytes.enc c.enc), ("kvn", Codec.u8.enc c.kvn),
    ("mac", Codec.bytes.enc c.mac)]
  dec v := do
    let kvn ← v.field "kvn" Codec.u8
    let enc ← v.field "enc" Codec.bytes
    let mac ← v.field "mac" Codec.bytes
    let dek ← v.field "dek" Codec.bytes
    return ⟨kvn, enc, mac, dek⟩
  dec_enc c := by
    simp [Json.field, Codec.dec_enc]

/-- Bytes that may be missing. -/
def optionalBytes : Codec (Option Bytes) := Codec.bytes.option rfl

/-- The policy is left out where there is none. -/
def metadataFields (m : ObjectMetadata) : List (String × Json) :=
  ("origin", Codec.u8.enc m.origin) :: presentFields Codec.bytes [("policy", m.policy)]

def metadataCodec : Codec ObjectMetadata where
  enc m := .obj (metadataFields m)
  dec v := do
    let _ ← v.asObject
    let policy ← v.fieldOr "policy" optionalBytes none
    let origin ← v.fieldOr "origin" Codec.u8 0x01
    return ⟨policy, origin⟩
  dec_enc m := by
    have hpolicy : (Json.obj (metadataFields m)).get "policy" = (Json.obj (presentFields Codec.bytes
        [("policy", m.policy)])).get "policy" := Json.get_tail _ _ (by decide)
    have hfield : (Json.obj (presentFields Codec.bytes [("policy", m.policy)])).fieldOr "policy" optionalBytes none =
        some m.policy := fieldOr_presentFields Codec.bytes rfl (List.nodup_singleton _) (List.mem_singleton.mpr rfl)
    have hread : (Json.obj (metadataFields m)).fieldOr "policy" optionalBytes none = some m.policy := by
      rw [Json.fieldOr, hpolicy, ← Json.fieldOr, hfield]
    have horigin : (Json.obj (metadataFields m)).fieldOr "origin" Codec.u8 0x01 = some m.origin :=
      Json.fieldOr_of_get Codec.u8 m.origin 0x01 (Json.get_head _ _ _)
    rw [hread, horigin]
    rfl

/-- The components that are there. -/
def componentFields (c : RsaComponents) : List (String × Option Bytes) :=
  [("d", c.d), ("dp", c.dp), ("dq", c.dq), ("e", c.e), ("n", c.n), ("p", c.p), ("q", c.q), ("qinv", c.qinv)]

def componentsCodec : Codec RsaComponents where
  enc c := .obj (presentFields Codec.bytes (componentFields c))
  dec v := do
    let _ ← v.asObject
    let n ← v.fieldOr "n" optionalBytes none
    let e ← v.fieldOr "e" optionalBytes none
    let d ← v.fieldOr "d" optionalBytes none
    let p ← v.fieldOr "p" optionalBytes none
    let q ← v.fieldOr "q" optionalBytes none
    let dp ← v.fieldOr "dp" optionalBytes none
    let dq ← v.fieldOr "dq" optionalBytes none
    let qinv ← v.fieldOr "qinv" optionalBytes none
    return ⟨n, e, d, p, q, dp, dq, qinv⟩
  dec_enc c := by
    have hnd : ((componentFields c).map Prod.fst).Nodup := by
      have hnames : (componentFields c).map Prod.fst = ["d", "dp", "dq", "e", "n", "p", "q", "qinv"] := rfl
      rw [hnames]
      decide
    have hfield : ∀ (name : String) (o : Option Bytes), (name, o) ∈ componentFields c →
        (Json.obj (presentFields Codec.bytes (componentFields c))).fieldOr name optionalBytes none = some o :=
      fun name o hmem => fieldOr_presentFields Codec.bytes rfl hnd hmem
    rw [hfield "n" c.n (by simp [componentFields]), hfield "e" c.e (by simp [componentFields]),
      hfield "d" c.d (by simp [componentFields]), hfield "p" c.p (by simp [componentFields]),
      hfield "q" c.q (by simp [componentFields]), hfield "dp" c.dp (by simp [componentFields]),
      hfield "dq" c.dq (by simp [componentFields]), hfield "qinv" c.qinv (by simp [componentFields])]
    rfl

/-- A policy header that may be null. -/
def optionalHeader : Codec (Option UInt32) := Codec.u32.option rfl

/-- The name of the variant, and its fields. -/
def objectFields : SecureObject → String × List (String × Json)
  | .ecKeyPair curve privateKey publicKey =>
    ("ECKeyPair", [("curve", curveCodec.enc curve), ("private_key", Codec.bytes.enc privateKey),
      ("public_key", Codec.bytes.enc publicKey)])
  | .ecPublicKey curve publicKey =>
    ("ECPublicKey", [("curve", curveCodec.enc curve), ("public_key", Codec.bytes.enc publicKey)])
  | .rsaKeyPair bits der staged =>
    ("RSAKeyPair", [("key_size_bits", Codec.u16.enc bits), ("private_key_der", Codec.bytes.enc der),
      ("staged", componentsCodec.enc staged)])
  | .aesKey key => ("AESKey", [("key", Codec.bytes.enc key)])
  | .binary data => ("Binary", [("data", Codec.bytes.enc data)])
  | .userId value => ("UserID", [("value", Codec.bytes.enc value)])
  | .counter value size => ("Counter", [("size", Codec.u16.enc size), ("value", Codec.u64.enc value)])
  | .hmacKey key policy => ("HMACKey", [("key", Codec.bytes.enc key), ("policy", optionalHeader.enc policy)])

/-- The fields of a variant, read from the value under its name. -/
def decodeVariant (name : String) (v : Json) : Option SecureObject := do
  let _ ← v.asObject
  if name = "ECKeyPair" then
    return .ecKeyPair (← v.field "curve" curveCodec) (← v.field "private_key" Codec.bytes)
      (← v.field "public_key" Codec.bytes)
  else if name = "ECPublicKey" then
    return .ecPublicKey (← v.field "curve" curveCodec) (← v.field "public_key" Codec.bytes)
  else if name = "RSAKeyPair" then
    return .rsaKeyPair (← v.field "key_size_bits" Codec.u16) (← v.field "private_key_der" Codec.bytes)
      (← v.fieldOr "staged" componentsCodec {})
  else if name = "AESKey" then return .aesKey (← v.field "key" Codec.bytes)
  else if name = "Binary" then return .binary (← v.field "data" Codec.bytes)
  else if name = "UserID" then return .userId (← v.field "value" Codec.bytes)
  else if name = "Counter" then
    return .counter (← v.field "value" Codec.u64) (← v.fieldOr "size" Codec.u16 8)
  else if name = "HMACKey" then
    return .hmacKey (← v.field "key" Codec.bytes) (← v.fieldOr "policy" optionalHeader none)
  else none

/-- A variant is read from its fields. -/
theorem decodeVariant_fields (o : SecureObject) :
    decodeVariant (objectFields o).1 (.obj (objectFields o).2) = some o := by
  cases o with
  | ecKeyPair curve privateKey publicKey => simp [objectFields, decodeVariant, Json.field, Codec.dec_enc]
  | ecPublicKey curve publicKey => simp [objectFields, decodeVariant, Json.field, Codec.dec_enc]
  | aesKey key => simp [objectFields, decodeVariant, Json.field, Codec.dec_enc]
  | binary data => simp [objectFields, decodeVariant, Json.field, Codec.dec_enc]
  | userId value => simp [objectFields, decodeVariant, Json.field, Codec.dec_enc]
  | hmacKey key policy => simp [objectFields, decodeVariant, Json.field, Json.fieldOr, Codec.dec_enc]
  | rsaKeyPair bits der staged =>
    have hbits : (Json.obj (objectFields (.rsaKeyPair bits der staged)).2).field "key_size_bits" Codec.u16 =
        some bits := Json.field_of_get _ _ (by simp [objectFields])
    have hder : (Json.obj (objectFields (.rsaKeyPair bits der staged)).2).field "private_key_der" Codec.bytes =
        some der := Json.field_of_get _ _ (by simp [objectFields])
    have hstaged : (Json.obj (objectFields (.rsaKeyPair bits der staged)).2).fieldOr "staged" componentsCodec {} =
        some staged := Json.fieldOr_of_get _ _ _ (by simp [objectFields])
    have hname : (objectFields (.rsaKeyPair bits der staged)).1 = "RSAKeyPair" := rfl
    rw [decodeVariant, hname, hbits, hder, hstaged]
    simp
  | counter value size =>
    have hvalue : (Json.obj (objectFields (.counter value size)).2).field "value" Codec.u64 = some value :=
      Json.field_of_get _ _ (by simp [objectFields])
    have hsize : (Json.obj (objectFields (.counter value size)).2).fieldOr "size" Codec.u16 8 = some size :=
      Json.fieldOr_of_get _ _ _ (by simp [objectFields])
    have hname : (objectFields (.counter value size)).1 = "Counter" := rfl
    rw [decodeVariant, hname, hvalue, hsize]
    simp

def objectCodec : Codec SecureObject where
  enc o := .obj [((objectFields o).1, .obj (objectFields o).2)]
  dec v := match v.asObject with
    | some [(name, body)] => decodeVariant name body
    | _ => none
  dec_enc := decodeVariant_fields

def SerdeJson.derived : SerdeJson := ⟨objectCodec, metadataCodec, scpCodec, rfl⟩

end SE050
end Simulators
