/-
# JSON values

`Json` is a parsed JSON value, with the fields of an object in the order of
their names. A `Codec` writes the values of a type as JSON and reads them back;
it carries the proof that what it writes it reads. Keys of maps are written in
hexadecimal: `hexDecode` undoes `hexEncode`, and so does `fromStrRadix16` for
a single byte. `insertAll` puts entries into a map; the entries of a map, in
whatever order, give the map back (`insertAll_entries`).

Key definitions: `Json`, `Codec`, `presentFields`, `hexEncode`, `hexDecode`, `fromStrRadix16`, `entries`, `insertAll`.
-/
import Mathlib.Data.Finmap
import Simulators.Lib.Bytes

namespace Simulators

/-! ### Values -/

inductive Json
  | null
  | bool (b : Bool)
  | num (n : ℤ)
  /-- A number that is not an integer. -/
  | float (literal : String)
  | str (s : String)
  | arr (items : List Json)
  | obj (fields : List (String × Json))

namespace Json

/-- The fields of an object. -/
def asObject : Json → Option (List (String × Json))
  | .obj fields => some fields
  | _ => none

/-- The field of an object. -/
def get (v : Json) (name : String) : Option Json := v.asObject.bind (·.lookup name)

def asBool : Json → Option Bool
  | .bool b => some b
  | _ => none

def asU64 : Json → Option UInt64
  | .num n => if 0 ≤ n ∧ n < 2 ^ 64 then some (UInt64.ofNat n.toNat) else none
  | _ => none

end Json

/-! ### Codecs -/

/-- How values are written as JSON and read from it. -/
structure Codec (α : Type) where
  enc : α → Json
  dec : Json → Option α
  dec_enc : ∀ a, dec (enc a) = some a

namespace Codec

/-- Unsigned integers below a bound. -/
def uint {α : Type} (bound : ℕ) (toNat : α → ℕ) (ofNat : ℕ → α) (hlt : ∀ a, toNat a < bound)
    (hof : ∀ a, ofNat (toNat a) = a) : Codec α where
  enc a := .num (toNat a)
  dec
    | .num n => if 0 ≤ n ∧ n < bound then some (ofNat n.toNat) else none
    | _ => none
  dec_enc a := by
    have hin : (0 : ℤ) ≤ toNat a ∧ (toNat a : ℤ) < bound := ⟨Int.natCast_nonneg _, Int.ofNat_lt.mpr (hlt a)⟩
    simp only [if_pos hin, Int.toNat_natCast, hof]

def u8 : Codec UInt8 := uint 256 UInt8.toNat UInt8.ofNat UInt8.toNat_lt fun _ => UInt8.ofNat_toNat
def u16 : Codec UInt16 := uint 65536 UInt16.toNat UInt16.ofNat UInt16.toNat_lt fun _ => UInt16.ofNat_toNat
def u32 : Codec UInt32 := uint 4294967296 UInt32.toNat UInt32.ofNat UInt32.toNat_lt fun _ => UInt32.ofNat_toNat
def u64 : Codec UInt64 :=
  uint 18446744073709551616 UInt64.toNat UInt64.ofNat UInt64.toNat_lt fun _ => UInt64.ofNat_toNat

/-- A vector as an array. -/
def list {α : Type} (c : Codec α) : Codec (List α) where
  enc l := .arr (l.map c.enc)
  dec
    | .arr items => items.mapM c.dec
    | _ => none
  dec_enc l := by
    induction l with
    | nil => rfl
    | cons a l ih =>
      simp only [List.map_cons, List.mapM_cons, c.dec_enc, Option.bind_eq_bind, Option.bind_some, ih]
      rfl

/-- An optional value, null where there is none. -/
def option {α : Type} (c : Codec α) (hnull : c.dec .null = none) : Codec (Option α) where
  enc a := a.elim .null c.enc
  dec
    | .null => some none
    | v => (c.dec v).map some
  dec_enc a := by
    cases a with
    | none => rfl
    | some a =>
      have hback := c.dec_enc a
      cases hv : c.enc a with
      | null =>
        rw [hv, hnull] at hback
        cases hback
      | _ =>
        rw [hv] at hback
        simp only [Option.elim_some, hv, hback, Option.map_some]

/-- Bytes as an array of numbers. -/
def bytes : Codec Bytes := list u8

end Codec

/-- A field that must be there. -/
def Json.field {α : Type} (v : Json) (name : String) (c : Codec α) : Option α := (v.get name).bind c.dec

/-- A field with a default. -/
def Json.fieldOr {α : Type} (v : Json) (name : String) (c : Codec α) (dflt : α) : Option α :=
  match v.get name with
  | some value => c.dec value
  | none => some dflt

section Fields

variable {α : Type} (name : String) (c : Codec α) (a dflt : α) (rest : List (String × Json))

@[simp] theorem Json.asObject_obj : (Json.obj rest).asObject = some rest := rfl

@[simp] theorem Json.get_head (v : Json) : (Json.obj ((name, v) :: rest)).get name = some v := List.lookup_cons_self

@[simp] theorem Json.get_tail {name k : String} (v : Json) (h : name ≠ k) :
    (Json.obj ((k, v) :: rest)).get name = (Json.obj rest).get name := by
  rw [Json.get, asObject_obj, Option.bind_some, List.lookup_cons, beq_false_of_ne h]
  rfl

@[simp] theorem Json.get_nil : (Json.obj []).get name = none := rfl

theorem Json.field_of_get {v : Json} {name : String} (h : v.get name = some (c.enc a)) : v.field name c = some a := by
  rw [Json.field, h, Option.bind_some, c.dec_enc]

theorem Json.fieldOr_of_get {v : Json} {name : String} (h : v.get name = some (c.enc a)) :
    v.fieldOr name c dflt = some a := by
  rw [Json.fieldOr, h]
  exact c.dec_enc a

end Fields

/-! ### Fields that may be left out -/

section Present

variable {α : Type} (c : Codec α)

/-- The fields that are there. -/
def presentFields (l : List (String × Option α)) : List (String × Json) :=
  l.filterMap fun kv => kv.2.map fun a => (kv.1, c.enc a)

theorem lookup_presentFields_of_notMem {name : String} : ∀ {l : List (String × Option α)},
    name ∉ l.map Prod.fst → (presentFields c l).lookup name = none
  | [], _ => rfl
  | (k, o) :: l, h => by
    rw [List.map_cons, List.mem_cons, not_or] at h
    have ih := lookup_presentFields_of_notMem h.2
    cases o with
    | none => exact ih
    | some a =>
      have hcons : presentFields c ((k, some a) :: l) = (k, c.enc a) :: presentFields c l := rfl
      rw [hcons, List.lookup_cons, beq_false_of_ne h.1]
      exact ih

theorem lookup_presentFields {name : String} {o : Option α} : ∀ {l : List (String × Option α)},
    (l.map Prod.fst).Nodup → (name, o) ∈ l → (presentFields c l).lookup name = o.map c.enc
  | (k, o') :: l, hnd, hmem => by
    rw [List.map_cons, List.nodup_cons] at hnd
    rcases List.mem_cons.mp hmem with heq | htail
    · obtain ⟨rfl, rfl⟩ := Prod.mk.inj heq
      cases o with
      | none =>
        have hnone : (presentFields c l).lookup name = none := lookup_presentFields_of_notMem c hnd.1
        exact hnone
      | some a => exact List.lookup_cons_self
    · have ih := lookup_presentFields hnd.2 htail
      have hne : name ≠ k := by
        rintro rfl
        exact hnd.1 (List.mem_map.mpr ⟨_, htail, rfl⟩)
      cases o' with
      | none => exact ih
      | some a =>
        have hcons : presentFields c ((k, some a) :: l) = (k, c.enc a) :: presentFields c l := rfl
        rw [hcons, List.lookup_cons, beq_false_of_ne hne]
        exact ih

/-- A field is read back, whether it was left out or not. -/
theorem fieldOr_presentFields {name : String} {o : Option α} {l : List (String × Option α)}
    (hnull : c.dec .null = none) (hnd : (l.map Prod.fst).Nodup) (hmem : (name, o) ∈ l) :
    (Json.obj (presentFields c l)).fieldOr name (c.option hnull) none = some o := by
  have hget : (Json.obj (presentFields c l)).get name = o.map c.enc := lookup_presentFields c hnd hmem
  rw [Json.fieldOr, hget]
  cases o with
  | none => rfl
  | some a => exact (c.option hnull).dec_enc (some a)

end Present

/-! ### Hexadecimal keys -/

/-- A digit, in lower case. -/
def hexDigit (n : ℕ) : Char := if n < 10 then Char.ofNat (48 + n) else Char.ofNat (87 + n)

/-- The value of a digit, in lower or upper case. -/
def hexVal (c : Char) : Option ℕ :=
  if '0' ≤ c ∧ c ≤ '9' then some (c.toNat - 48)
  else if 'a' ≤ c ∧ c ≤ 'f' then some (c.toNat - 87)
  else if 'A' ≤ c ∧ c ≤ 'F' then some (c.toNat - 55)
  else none

/-- `hex::encode`; for a single byte also the format `02x`. -/
def hexEncode (b : Bytes) : String :=
  String.ofList (b.flatMap fun x => [hexDigit (x.toNat / 16), hexDigit (x.toNat % 16)])

/-- The bytes of an even number of digits. -/
def unhex : List Char → Option Bytes
  | [] => some []
  | [_] => none
  | hi :: lo :: cs => do
    let h ← hexVal hi
    let l ← hexVal lo
    let rest ← unhex cs
    return UInt8.ofNat (16 * h + l) :: rest

/-- `hex::decode`. -/
def hexDecode (s : String) : Option Bytes := unhex s.toList

/-- `u8::from_str_radix(s, 16)`: one digit or more, perhaps after a plus sign, with a value below 256. -/
def fromStrRadix16 (s : String) : Option UInt8 := do
  let digits ← (if s.toList.head? = some '+' then s.toList.tail else s.toList).mapM hexVal
  let v := digits.foldl (fun acc d => 16 * acc + d) 0
  if digits ≠ [] ∧ v < 256 then return UInt8.ofNat v else none

theorem hexVal_hexDigit : ∀ n < 16, hexVal (hexDigit n) = some n := by decide

theorem hexDigit_ne_plus : ∀ n < 16, hexDigit n ≠ '+' := by decide

theorem unhex_digits : ∀ b : Bytes,
    unhex (b.flatMap fun x => [hexDigit (x.toNat / 16), hexDigit (x.toNat % 16)]) = some b
  | [] => rfl
  | x :: b => by
    have hx := x.toNat_lt
    have hhi := hexVal_hexDigit (x.toNat / 16) (by omega)
    have hlo := hexVal_hexDigit (x.toNat % 16) (by omega)
    have hsum : 16 * (x.toNat / 16) + x.toNat % 16 = x.toNat := Nat.div_add_mod x.toNat 16
    simp only [List.flatMap_cons, List.cons_append, List.nil_append, unhex, hhi, hlo, unhex_digits b, hsum,
      UInt8.ofNat_toNat, Option.bind_eq_bind, Option.bind_some]
    rfl

theorem hexDecode_hexEncode (b : Bytes) : hexDecode (hexEncode b) = some b := by
  rw [hexDecode, hexEncode, String.toList_ofList, unhex_digits]

theorem fromStrRadix16_hexEncode (x : UInt8) : fromStrRadix16 (hexEncode [x]) = some x := by
  have hx := x.toNat_lt
  have hhi := hexVal_hexDigit (x.toNat / 16) (by omega)
  have hlo := hexVal_hexDigit (x.toNat % 16) (by omega)
  have hplus := hexDigit_ne_plus (x.toNat / 16) (by omega)
  have hsum : 16 * (x.toNat / 16) + x.toNat % 16 = x.toNat := Nat.div_add_mod x.toNat 16
  have hlist : (hexEncode [x]).toList = [hexDigit (x.toNat / 16), hexDigit (x.toNat % 16)] := by
    rw [hexEncode, String.toList_ofList]
    rfl
  rw [fromStrRadix16, hlist, List.head?_cons, if_neg (fun h => hplus (Option.some.inj h))]
  simp only [List.mapM_cons, List.mapM_nil, hhi, hlo, Option.bind_eq_bind, Option.bind_some, Option.pure_def,
    List.foldl_cons, List.foldl_nil, Nat.mul_zero, Nat.zero_add, hsum]
  rw [if_pos ⟨List.cons_ne_nil _ _, hx⟩, UInt8.ofNat_toNat]

/-! ### Maps and their entries -/

section Maps

variable {α β : Type} [DecidableEq α]

/-- The entries of a map for the keys listed. -/
def entries (m : Finmap fun _ : α => β) (keys : List α) : List (α × β) :=
  keys.filterMap fun k => (m.lookup k).map (k, ·)

/-- Entries put into a map one by one. -/
def insertAll (m : Finmap fun _ : α => β) (l : List (α × β)) : Finmap fun _ : α => β :=
  l.foldl (fun m kv => m.insert kv.1 kv.2) m

theorem lookup_insertAll_entries (m : Finmap fun _ : α => β) (k : α) : ∀ (keys : List α)
    (m' : Finmap fun _ : α => β), (insertAll m' (entries m keys)).lookup k =
      if k ∈ keys ∧ k ∈ m then m.lookup k else m'.lookup k
  | [], m' => by
    rw [if_neg (by rintro ⟨h, -⟩; cases h)]
    rfl
  | j :: keys, m' => by
    have ih := lookup_insertAll_entries m k keys
    have hne : ∀ m'' : Finmap fun _ : α => β, k ≠ j → (insertAll m'' (entries m keys)).lookup k =
        if k ∈ j :: keys ∧ k ∈ m then m.lookup k else m''.lookup k := by
      intro m'' hkj
      have hmem : k ∈ j :: keys ↔ k ∈ keys := List.mem_cons.trans (or_iff_right hkj)
      simp only [ih, hmem]
    cases hj : m.lookup j with
    | none =>
      have hentries : entries m (j :: keys) = entries m keys := by
        rw [entries, List.filterMap_cons, hj]
        rfl
      rw [hentries]
      by_cases hkj : k = j
      · subst hkj
        have hnot : k ∉ m := Finmap.lookup_eq_none.mp hj
        rw [ih, if_neg fun h => hnot h.2, if_neg fun h => hnot h.2]
      · exact hne m' hkj
    | some v =>
      have hentries : entries m (j :: keys) = (j, v) :: entries m keys := by
        rw [entries, List.filterMap_cons, hj]
        rfl
      rw [hentries, insertAll, List.foldl_cons, ← insertAll]
      by_cases hkj : k = j
      · subst hkj
        have hin : k ∈ m := Finmap.mem_of_lookup_eq_some hj
        rw [ih, if_pos (⟨List.mem_cons_self, hin⟩ : k ∈ k :: keys ∧ k ∈ m), Finmap.lookup_insert, hj, ite_self]
      · rw [hne _ hkj, Finmap.lookup_insert_of_ne _ hkj]

/-- The entries for all keys of a map, in any order, make the map. -/
theorem insertAll_entries {m : Finmap fun _ : α => β} {keys : List α} (h : ∀ k ∈ m, k ∈ keys) :
    insertAll ∅ (entries m keys) = m := by
  apply Finmap.ext_lookup
  intro k
  rw [lookup_insertAll_entries]
  by_cases hk : k ∈ m
  · rw [if_pos ⟨h k hk, hk⟩]
  · rw [if_neg fun hc => hk hc.2, Finmap.lookup_empty, Finmap.lookup_eq_none.mpr hk]

end Maps

end Simulators
