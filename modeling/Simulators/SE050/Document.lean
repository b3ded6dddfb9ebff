/-
# SE050: the store's file

`persist` and `load` of `object_store/mod.rs`. The file holds one JSON
document: a map for each of objects, metadata and curves, with its keys in
hexadecimal, and the two SCP03 settings. How serde writes the single values is
a parameter (`SerdeJson`); `SerdeJson.derived` is what the types of
`types.rs` and `scp03/keys.rs` derive. `load` also reads the older schema, a
flat map of objects; a document that `persist` wrote is never taken for one,
and gives back the five fields it was written from (`withPersistence_doc`).

Key definitions: `SerdeJson`, `docToJson`, `ObjectStore.load`, `ObjectStore.withPersistence`.
-/
import Simulators.Lib.Json
import Simulators.SE050.Store

namespace Simulators
namespace SE050

/-- The serde encodings of the values that the store keeps. -/
structure SerdeJson where
  object : Codec SecureObject
  metadata : Codec ObjectMetadata
  scp : Codec Scp03Config
  scp_null : scp.dec .null = none

/-- What `persist` writes of a store. -/
def ObjectStore.doc (s : ObjectStore) : Doc := ⟨s.objects, s.metadata, s.ecCurves, s.scpRequired, s.platformScp⟩

/-! ### Writing -/

section Write

variable (J : SerdeJson)

/-- The keys of a map of objects in ascending order. -/
def sortedKeys {β : Type} (m : HashMap ObjectId β) : List ObjectId := m.keys.sort ObjectId.le

/-- All curve identifiers. -/
def curveIds : List UInt8 := (List.range 256).map UInt8.ofNat

/-- A map of objects, with its keys in hexadecimal. -/
def objectMapToJson {β : Type} (c : Codec β) (m : HashMap ObjectId β) : Json :=
  .obj ((entries m (sortedKeys m)).map fun kv => (hexEncode kv.1.toBytes, c.enc kv.2))

def curvesToJson (m : HashMap UInt8 UInt8) : Json :=
  .obj ((entries m curveIds).map fun kv => (hexEncode [kv.1], Codec.u8.enc kv.2))

/-- The document, its fields in the order of their names. -/
def docToJson (d : Doc) : Json :=
  .obj [("ec_curves", curvesToJson d.ecCurves), ("metadata", objectMapToJson J.metadata d.metadata),
    ("objects", objectMapToJson J.object d.objects), ("platform_scp", d.platformScp.elim .null J.scp.enc),
    ("scp_required", .bool d.scpRequired)]

end Write

/-! ### Reading -/

section Read

variable (J : SerdeJson)

/-- A key of eight digits. -/
def idOfHex (hexKey : String) : Option ObjectId := (hexDecode hexKey).bind ObjectId.ofBytes

/-- Keys and masks that do not parse are skipped. -/
def loadCurves (fields : List (String × Json)) : HashMap UInt8 UInt8 :=
  insertAll ∅ (fields.filterMap fun kv => do
    let id ← fromStrRadix16 kv.1
    let mask ← kv.2.asU64
    return (id, mask.toUInt8))

/-- Keys and values that do not parse are skipped. -/
def loadMetadata (m : HashMap ObjectId ObjectMetadata) (fields : List (String × Json)) :
    HashMap ObjectId ObjectMetadata :=
  insertAll m (fields.filterMap fun kv => do
    let id ← idOfHex kv.1
    let metadata ← J.metadata.dec kv.2
    return (id, metadata))

/-- One value that does not parse spoils the whole map; keys that do not parse are skipped. Where two keys name one
object, the order in which a `HashMap` yields them decides; here the later key wins. -/
def loadObjects (m : HashMap ObjectId SecureObject) (value : Json) : HashMap ObjectId SecureObject :=
  match value.asObject.bind (List.mapM fun kv => (J.object.dec kv.2).map (kv.1, ·)) with
  | some deserialized => insertAll m (deserialized.filterMap fun kv => (idOfHex kv.1).map (·, kv.2))
  | none => m

namespace ObjectStore

/-- The file holds `file`, or nothing that can be read as JSON. -/
def load (s : ObjectStore) (file : Option Json) : ObjectStore :=
  match s.persistPath, file with
  | some _, some value =>
    match value.get "objects" with
    | some objectsValue =>
      { s with
        scpRequired := ((value.get "scp_required").bind Json.asBool).getD false
        platformScp := (value.get "platform_scp").bind J.scp.dec
        ecCurves := match (value.get "ec_curves").bind Json.asObject with
          | some curves => loadCurves curves
          | none => s.ecCurves
        metadata := match (value.get "metadata").bind Json.asObject with
          | some metadata => loadMetadata J s.metadata metadata
          | none => s.metadata
        objects := loadObjects J s.objects objectsValue }
    -- the older schema
    | none => { s with objects := loadObjects J s.objects value }
  | _, _ => s

def withPersistence (path : String) (file : Option Json) : ObjectStore :=
  ObjectStore.load J { ObjectStore.new with persistPath := some path } file

/-- What the file holds in the end, if it held `file` when the store was made. -/
def fileAfter (s : ObjectStore) (file : Option Json) : Option Json := (s.disk.map (docToJson J)).or file

end ObjectStore

end Read

/-! ### Round trip -/

section RoundTrip

variable {J : SerdeJson} {β : Type}

theorem idOfHex_hexEncode (id : ObjectId) : idOfHex (hexEncode id.toBytes) = some id := by
  rw [idOfHex, hexDecode_hexEncode]
  rfl

/-- Fields that are read back one by one. -/
theorem filterMap_fields {α : Type} {f : α → String × Json} {g : String × Json → Option α} (h : ∀ a, g (f a) = some a)
    (l : List α) : (l.map f).filterMap g = l := by
  rw [List.filterMap_map]
  have hsome : g ∘ f = some := funext h
  rw [hsome, List.filterMap_some]

theorem insertAll_sorted (m : HashMap ObjectId β) : insertAll ∅ (entries m (sortedKeys m)) = m := by
  apply insertAll_entries
  intro k hk
  exact (Finset.mem_sort ObjectId.le).mpr (Finmap.mem_keys.mpr hk)

theorem mem_curveIds (id : UInt8) : id ∈ curveIds :=
  List.mem_map.mpr ⟨id.toNat, List.mem_range.mpr id.toNat_lt, UInt8.ofNat_toNat⟩

theorem loadCurves_toJson (m : HashMap UInt8 UInt8) :
    (curvesToJson m).asObject.map loadCurves = some m := by
  rw [curvesToJson, Json.asObject, Option.map_some, loadCurves, filterMap_fields]
  · rw [insertAll_entries fun k _ => mem_curveIds k]
  · rintro ⟨id, mask⟩
    have hmask : (Codec.u8.enc mask).asU64 = some mask.toUInt64 := by
      have hlt := mask.toNat_lt
      have hin : (0 : ℤ) ≤ (mask.toNat : ℤ) ∧ (mask.toNat : ℤ) < 2 ^ 64 := ⟨Int.natCast_nonneg _, by omega⟩
      have henc : Codec.u8.enc mask = .num mask.toNat := rfl
      rw [henc, Json.asU64, if_pos hin, Int.toNat_natCast, UInt64.ofNat_uInt8ToNat]
    simp only [fromStrRadix16_hexEncode, hmask, Option.bind_eq_bind, Option.bind_some, UInt8.toUInt8_toUInt64]
    rfl

theorem loadMetadata_toJson (m : HashMap ObjectId ObjectMetadata) :
    (objectMapToJson J.metadata m).asObject.map (loadMetadata J ∅) = some m := by
  rw [objectMapToJson, Json.asObject, Option.map_some, loadMetadata, filterMap_fields]
  · rw [insertAll_sorted]
  · rintro ⟨id, metadata⟩
    simp only [idOfHex_hexEncode, J.metadata.dec_enc, Option.bind_eq_bind, Option.bind_some]
    rfl

theorem mapM_fields (l : List (ObjectId × SecureObject)) :
    (l.map fun kv => (hexEncode kv.1.toBytes, J.object.enc kv.2)).mapM
      (fun kv => (J.object.dec kv.2).map (kv.1, ·)) = some (l.map fun kv => (hexEncode kv.1.toBytes, kv.2)) := by
  induction l with
  | nil => rfl
  | cons kv l ih =>
    simp only [List.map_cons, List.mapM_cons, J.object.dec_enc, Option.map_some, ih, Option.bind_eq_bind,
      Option.bind_some]
    rfl

theorem loadObjects_toJson (m : HashMap ObjectId SecureObject) :
    loadObjects J ∅ (objectMapToJson J.object m) = m := by
  rw [loadObjects, objectMapToJson, Json.asObject, Option.bind_some, mapM_fields]
  dsimp only
  have hback : ((entries m (sortedKeys m)).map fun kv => (hexEncode kv.1.toBytes, kv.2)).filterMap
      (fun kv => (idOfHex kv.1).map (·, kv.2)) = entries m (sortedKeys m) := by
    rw [List.filterMap_map]
    have hsome : ((fun kv : String × SecureObject => (idOfHex kv.1).map (·, kv.2)) ∘
        fun kv : ObjectId × SecureObject => (hexEncode kv.1.toBytes, kv.2)) = some := by
      funext kv
      rw [Function.comp_apply, idOfHex_hexEncode]
      rfl
    rw [hsome, List.filterMap_some]
  rw [hback, insertAll_sorted]

theorem scp_toJson (c : Option Scp03Config) : J.scp.dec (c.elim .null J.scp.enc) = c := by
  cases c with
  | none => exact J.scp_null
  | some c => exact J.scp.dec_enc c

/-- A document that was written is read back. -/
theorem withPersistence_doc (J : SerdeJson) (path : String) (d : Doc) :
    (ObjectStore.withPersistence J path (some (docToJson J d))).doc = d := by
  have hobjects : (docToJson J d).get "objects" = some (objectMapToJson J.object d.objects) := rfl
  have hmetadata : (docToJson J d).get "metadata" = some (objectMapToJson J.metadata d.metadata) := rfl
  have hcurves : (docToJson J d).get "ec_curves" = some (curvesToJson d.ecCurves) := rfl
  have hscp : (docToJson J d).get "platform_scp" = some (d.platformScp.elim .null J.scp.enc) := rfl
  have hrequired : (docToJson J d).get "scp_required" = some (.bool d.scpRequired) := rfl
  have hloadCurves := loadCurves_toJson d.ecCurves
  have hloadMetadata := loadMetadata_toJson (J := J) d.metadata
  obtain ⟨curves, hc, hcurves'⟩ := Option.map_eq_some_iff.mp hloadCurves
  obtain ⟨metadata, hm, hmetadata'⟩ := Option.map_eq_some_iff.mp hloadMetadata
  simp only [ObjectStore.withPersistence, ObjectStore.load, ObjectStore.doc, hobjects, hmetadata, hcurves, hscp,
    hrequired, Option.bind_some, hc, hm, Json.asBool, Option.getD_some, scp_toJson, ObjectStore.new, hcurves',
    hmetadata', loadObjects_toJson]

end RoundTrip

end SE050
end Simulators
