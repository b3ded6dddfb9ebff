/-
# TROPIC01: the certificates of a fresh device

`build_chain` of `certs.rs`: four certificates in DER, written by hand, of
which each names and is signed by the next, and the store that GET_INFO hands
out. What the DER of `certs.rs` says is read off with `Writes`, and a reader
of certificates finds in each what `build_cert` was given (`read_buildCert`).

Key definitions: `buildCert`, `buildChain`, `buildCertStore`, `splitCertStore`.
Key theorems: `writes_tlv`, `writes_seq`, `read_buildCert`.
-/
import Simulators.Lib.X509
import Simulators.TROPIC01.Certs
import Simulators.TROPIC01.Chip
import Simulators.TROPIC01.Provision

namespace Simulators
namespace TROPIC01

open Der X509

/-! ### DER -/

def oidCountry : Bytes := [0x55, 0x04, 0x06]
def oidOrg : Bytes := [0x55, 0x04, 0x0a]
def oidCn : Bytes := [0x55, 0x04, 0x03]
def oidEcPublicKey : Bytes := [0x2a, 0x86, 0x48, 0xce, 0x3d, 0x02, 0x01]
def oidSecp384r1 : Bytes := [0x2b, 0x81, 0x04, 0x00, 0x22]
def oidSecp521r1 : Bytes := [0x2b, 0x81, 0x04, 0x00, 0x23]
def oidX25519 : Bytes := [0x2b, 0x65, 0x6e]
def oidEcdsaSha384 : Bytes := [0x2a, 0x86, 0x48, 0xce, 0x3d, 0x04, 0x03, 0x03]
def oidEcdsaSha512 : Bytes := [0x2a, 0x86, 0x48, 0xce, 0x3d, 0x04, 0x03, 0x04]
def oidBasicConstraints : Bytes := [0x55, 0x1d, 0x13]
def oidKeyUsage : Bytes := [0x55, 0x1d, 0x0f]
def oidSki : Bytes := [0x55, 0x1d, 0x0e]
def oidAki : Bytes := [0x55, 0x1d, 0x23]

def org : Bytes := ascii "wolfSSL Inc. (TROPIC01Sim)"
def rootCn : Bytes := ascii "TROPIC01Sim Root CA v1"
def xcaCn : Bytes := ascii "TROPIC01Sim-X CA v1"

def derLen (n : ℕ) : Bytes :=
  if n < 0x80 then [UInt8.ofNat n]
  else if n ≤ 0xff then [0x81, UInt8.ofNat n]
  else [0x82, UInt8.ofNat (n >>> 8), UInt8.ofNat n]

def tlv (tag : UInt8) (content : Bytes) : Bytes := tag :: (derLen content.length ++ content)

def seq (parts : List Bytes) : Bytes := tlv 0x30 parts.flatten

def set (parts : List Bytes) : Bytes := tlv 0x31 parts.flatten

def oid (encoded : Bytes) : Bytes := tlv 0x06 encoded

/-- The contents of an integer: no zero in front but the one that the sign needs. -/
def integerContent (be : Bytes) : Bytes :=
  match be.dropWhile (· == 0) with
  | [] => [0]
  | b :: bs => if b &&& 0x80 ≠ 0 then 0 :: b :: bs else b :: bs

def integer (be : Bytes) : Bytes := tlv 0x02 (integerContent be)

def bitString (bytes : Bytes) (unusedBits : UInt8) : Bytes := tlv 0x03 (unusedBits :: bytes)

def utf8 (s : Bytes) : Bytes := tlv 0x0c s

def printable (s : Bytes) : Bytes := tlv 0x13 s

/-! ### Times -/

/-- `{:0w}` of a number that is not negative. -/
def padded (w n : ℕ) : Bytes := digits (max w (Nat.log 10 n + 1)) n

/-- `{:0w}`: the sign is one of the `w` characters. -/
def paddedInt (w : ℕ) (z : ℤ) : Bytes := if z < 0 then 0x2d :: padded (w - 1) z.natAbs else padded w z.toNat

/-- UTCTime before 2050, GeneralizedTime from 2050 on. -/
def x509Time (y : ℤ) (mo d h mi s : UInt32) : Bytes :=
  let rest := padded 2 mo.toNat ++ padded 2 d.toNat ++ padded 2 h.toNat ++ padded 2 mi.toNat ++ padded 2 s.toNat ++
    [0x5a]
  if y < 2050 then tlv 0x17 (paddedInt 2 (y.tmod 100) ++ rest) else tlv 0x18 (paddedInt 4 y ++ rest)

structure Validity where
  notBefore : Bytes
  year : ℤ
  rest : UInt32 × UInt32 × UInt32 × UInt32 × UInt32

/-- `secs` have passed since the epoch. -/
def Validity.now (secs : ℕ) : Validity :=
  let date := civilFromDays ((secs : ℤ) / 86400)
  let tod := secs % 86400
  let h := UInt32.ofNat (tod / 3600)
  let mi := UInt32.ofNat (tod / 60 % 60)
  let s := UInt32.ofNat (tod % 60)
  { notBefore := x509Time date.1 date.2.1 date.2.2 h mi s
    year := date.1
    rest := (date.2.1, min date.2.2 28, h, mi, s) }

def Validity.forYears (v : Validity) (years : ℤ) : Bytes :=
  let (mo, d, h, mi, s) := v.rest
  seq [v.notBefore, x509Time (v.year + years) mo d h mi s]

/-! ### Certificates -/

def name (countryAndOrg : Bool) (cn : Bytes) : Bytes :=
  seq ((if countryAndOrg then
      [set [seq [oid oidCountry, printable (ascii "US")]], set [seq [oid oidOrg, utf8 org]]] else []) ++
    [set [seq [oid oidCn, utf8 cn]]])

def extension (id : Bytes) (critical : Bool) (value : Bytes) : Bytes :=
  seq ([oid id] ++ (if critical then [[0x01, 0x01, 0xff]] else []) ++ [tlv 0x04 value])

/-- P-384 and P-521 of the crates. -/
structure CertCrates where
  P384 : Type
  P521 : Type
  p384Random : OsRng → P384
  p521Random : OsRng → P521
  /-- The public keys, uncompressed. -/
  p384Point : P384 → ByteArr 97
  p521Point : P521 → ByteArr 133
  /-- ECDSA with SHA-384 and with SHA-512, in DER. -/
  p384Sign : P384 → Bytes → Bytes
  p521Sign : P521 → Bytes → Bytes

section Build

variable (K : Crates) (C : CertCrates)

def keyId (spkiKeyBits : Bytes) : Bytes := (K.sha256 spkiKeyBits).bytes.take 20

inductive Issuer
  | p384 (key : C.P384)
  | p521 (key : C.P521)

def Issuer.sigOid : Issuer C → Bytes
  | .p384 _ => oidEcdsaSha384
  | .p521 _ => oidEcdsaSha512

def Issuer.sign (tbs : Bytes) : Issuer C → Bytes
  | .p384 key => C.p384Sign key tbs
  | .p521 key => C.p521Sign key tbs

structure CertSpec where
  serial : Bytes
  issuerName : Bytes
  subjectName : Bytes
  validity : Bytes
  spki : Bytes
  /-- Basic constraints content (inside the extension's OCTET STRING). -/
  basicConstraints : Bytes
  keyUsage : Bytes
  ski : Option Bytes
  aki : Option Bytes
  issuer : Issuer C

variable {C} in
def CertSpec.exts (spec : CertSpec C) : List Bytes :=
  [extension oidBasicConstraints true spec.basicConstraints, extension oidKeyUsage true spec.keyUsage] ++
    (spec.ski.map fun ski => extension oidSki false (tlv 0x04 ski)).toList ++
    (spec.aki.map fun aki => extension oidAki false (seq [tlv 0x80 aki])).toList

variable {C} in
def CertSpec.tbs (spec : CertSpec C) : Bytes :=
  seq [tlv 0xa0 (integer [2]), integer spec.serial, seq [oid (spec.issuer.sigOid)], spec.issuerName, spec.validity,
    spec.subjectName, spec.spki, tlv 0xa3 (seq spec.exts)]

variable {C} in
def buildCert (spec : CertSpec C) : Bytes :=
  seq [spec.tbs, seq [oid (spec.issuer.sigOid)], bitString (spec.issuer.sign C spec.tbs) 0]

def ecSpki (curveOid point : Bytes) : Bytes := seq [seq [oid oidEcPublicKey, oid curveOid], bitString point 0]

/-- CA:FALSE, or CA:TRUE with an optional path length. -/
def basicConstraints (ca : Bool) (pathlen : Option UInt8) : Bytes :=
  if ca then seq ([[0x01, 0x01, 0xff]] ++ (pathlen.map fun p => integer [p]).toList) else seq []

/-- The keys of the three CAs. -/
structure ChainKeys where
  root : C.P521
  mid : C.P384
  xca : C.P384

variable {C}

def rootSpec (v : Validity) (keys : ChainKeys C) : CertSpec C where
  serial := [0x65]
  issuerName := name true rootCn
  subjectName := name true rootCn
  validity := v.forYears 50
  spki := ecSpki oidSecp521r1 (C.p521Point keys.root).bytes
  basicConstraints := basicConstraints true none
  keyUsage := bitString [0x06] 1
  ski := some (keyId K (C.p521Point keys.root).bytes)
  aki := none
  issuer := .p521 keys.root

def crossSpec (v : Validity) (keys : ChainKeys C) : CertSpec C where
  serial := [0x03, 0xe9]
  issuerName := name true rootCn
  subjectName := name true rootCn
  validity := v.forYears 40
  spki := ecSpki oidSecp384r1 (C.p384Point keys.mid).bytes
  basicConstraints := basicConstraints true (some 1)
  keyUsage := bitString [0x06] 1
  ski := some (keyId K (C.p384Point keys.mid).bytes)
  aki := some (keyId K (C.p521Point keys.root).bytes)
  issuer := .p521 keys.root

def xcaSpec (v : Validity) (keys : ChainKeys C) : CertSpec C where
  serial := [0x27, 0x11]
  issuerName := name true rootCn
  subjectName := name true xcaCn
  validity := v.forYears 35
  spki := ecSpki oidSecp384r1 (C.p384Point keys.xca).bytes
  basicConstraints := basicConstraints true (some 0)
  keyUsage := bitString [0x04] 2
  ski := some (keyId K (C.p384Point keys.xca).bytes)
  aki := some (keyId K (C.p384Point keys.mid).bytes)
  issuer := .p384 keys.mid

/-- `{:X}` of a digit. -/
def hexDigit (n : ℕ) : UInt8 := UInt8.ofNat (if n < 10 then 48 + n else 55 + n)

/-- `{:02X}` of a byte. -/
def hexByte (b : UInt8) : Bytes := [hexDigit (b.toNat / 16), hexDigit (b.toNat % 16)]

def deviceCn (serial : ByteArr 8) : Bytes := ascii "TROPIC01Sim eSE " ++ serial.bytes.flatMap hexByte

def x25519Spki (stPub : ByteArr 32) : Bytes := seq [seq [oid oidX25519], bitString stPub.bytes 0]

def deviceSpec (v : Validity) (keys : ChainKeys C) (stPub : ByteArr 32) (serial : ByteArr 8) : CertSpec C where
  serial := 0x01 :: serial.bytes
  issuerName := name true xcaCn
  subjectName := name false (deviceCn serial)
  validity := v.forYears 20
  spki := x25519Spki stPub
  basicConstraints := basicConstraints false none
  keyUsage := bitString [0x08] 3
  ski := none
  aki := some (keyId K (C.p384Point keys.xca).bytes)
  issuer := .p384 keys.xca

/-- What is drawn: the root key, the key between and the key of the X CA. -/
def ChainKeys.draw (g₁ g₂ g₃ : OsRng) : ChainKeys C := ⟨C.p521Random g₁, C.p384Random g₂, C.p384Random g₃⟩

def buildChain (secs : ℕ) (keys : ChainKeys C) (stPub : ByteArr 32) (serial : ByteArr 8) : List Bytes :=
  let v := Validity.now secs
  [buildCert (deviceSpec K v keys stPub serial), buildCert (xcaSpec K v keys), buildCert (crossSpec K v keys),
    buildCert (rootSpec K v keys)]

/-- The GET_INFO(X509_CERTIFICATE) blob: `[version=1][num_certs=4][4 x BE u16 cert lengths][certs...]`. -/
def buildCertStore (secs : ℕ) (keys : ChainKeys C) (stPub : ByteArr 32) (serial : ByteArr 8) : Handler Empty Bytes :=
  let certs := buildChain K secs keys stPub serial
  let out := [1, UInt8.ofNat certs.length] ++ certs.flatMap (fun c => toBe 2 c.length) ++ certs.flatten
  if out.length ≤ certStoreBlocks * certStoreBlockSize then .ok out else .error (.panic .assert)

end Build

/-- Split a cert store blob into its certificates. -/
def splitCertStore (blob : Bytes) : Handler Empty (List Bytes) := do
  let n ← Handler.index blob 1
  split n.toNat 0 (2 + 2 * n.toNat)
where
  split : ℕ → ℕ → ℕ → Handler Empty (List Bytes)
    | 0, _, _ => return []
    | k + 1, i, off => do
      let hi ← Handler.index blob (2 + 2 * i)
      let lo ← Handler.index blob (3 + 2 * i)
      let cert ← Handler.slice blob off (off + be16 hi lo)
      let rest ← split k (i + 1) (off + be16 hi lo)
      return cert :: rest

/-! ### What the bytes say -/

theorem derLen_length_le (n : ℕ) : (derLen n).length ≤ 3 := by
  unfold derLen
  split_ifs <;> simp

theorem tlv_length_le (tag : UInt8) (content : Bytes) : (tlv tag content).length ≤ content.length + 4 := by
  have hlen := derLen_length_le content.length
  rw [tlv, List.length_cons, List.length_append]
  omega

/-- The three forms are the shortest ones. -/
theorem derLen_eq {n : ℕ} (h : n < 65536) : derLen n = lengthBytes n := by
  have hbyte : ∀ m : ℕ, UInt8.ofNat m = UInt8.ofNat (m % 256) := fun m => by
    apply UInt8.toNat_inj.mp
    rw [UInt8.toNat_ofNat', UInt8.toNat_ofNat']
    omega
  unfold derLen lengthBytes
  by_cases hshort : n < 128
  · rw [if_pos hshort, if_pos hshort]
  · rw [if_neg hshort, if_neg hshort]
    by_cases hone : n ≤ 255
    · have hoctets : octets n = 1 := by rw [octets, Nat.log_of_lt (by omega)]
      rw [if_pos hone, hoctets, toBe, toBe, ← hbyte]
      rfl
    · have hlog : Nat.log 256 n = 1 := Nat.log_eq_of_pow_le_of_lt_pow (by omega) (by omega)
      rw [if_neg hone, octets, hlog, toBe, toBe, toBe, ← hbyte, ← hbyte, Nat.shiftRight_eq_div_pow]
      rfl

/-- The bytes are a value, and the tags in it go with their contents. -/
def Writes (b : Bytes) (v : Value) : Prop := v.wellTagged = true ∧ v.encode = b

theorem writes_tlv {t : UInt8} {c : Bytes} (htag : constructed t = false) (hlen : c.length < 65536) :
    Writes (tlv t c) (.prim t c) := by
  constructor
  · rw [Value.wellTagged, htag]
    rfl
  · rw [Value.encode, tlv, derLen_eq hlen]

theorem writes_all {parts : List Bytes} {vs : List Value} (h : List.Forall₂ Writes parts vs) :
    wellTaggedAll vs = true ∧ encodeAll vs = parts.flatten := by
  induction h with
  | nil => exact ⟨rfl, rfl⟩
  | cons hv _ ih =>
    constructor
    · rw [wellTaggedAll, hv.1, ih.1]
      rfl
    · rw [encodeAll, hv.2, ih.2, List.flatten_cons]

theorem writes_cons {tag : UInt8} {parts : List Bytes} {vs : List Value} (htag : constructed tag = true)
    (h : List.Forall₂ Writes parts vs) (hlen : parts.flatten.length < 65536) :
    Writes (tlv tag parts.flatten) (.cons tag vs) := by
  obtain ⟨hwell, hall⟩ := writes_all h
  constructor
  · rw [Value.wellTagged, htag, hwell]
    rfl
  · rw [Value.encode, hall, tlv, derLen_eq hlen]

theorem writes_seq {parts : List Bytes} {vs : List Value} (h : List.Forall₂ Writes parts vs)
    (hlen : parts.flatten.length < 65536) : Writes (seq parts) (.cons 0x30 vs) := writes_cons rfl h hlen

theorem writes_one {t : UInt8} {b : Bytes} {v : Value} (htag : constructed t = true) (h : Writes b v)
    (hlen : b.length < 65536) : Writes (tlv t b) (.cons t [v]) := by
  have hcons := writes_cons htag (.cons h .nil) (by rwa [List.flatten_singleton])
  rwa [List.flatten_singleton] at hcons

theorem whole_of_writes {b : Bytes} {v : Value} (h : Writes b v) (hlen : b.length < 65536) : whole b = some v := by
  have hparse := parse_encode h.1 (by rw [h.2]; omega) []
  rw [List.append_nil, h.2] at hparse
  rw [whole, hparse]

/-! ### Reading the times -/

/-- YYYYMMDDhhmmss. -/
def stamp (y mo d h mi s : ℕ) : ℕ := ((((y * 100 + mo) * 100 + d) * 100 + h) * 100 + mi) * 100 + s

theorem padded_eq {w n : ℕ} (hw : 0 < w) (h : n < 10 ^ w) : padded w n = digits w n := by
  have hlog : Nat.log 10 n < w := Nat.log_lt_of_lt_pow' (by omega) h
  rw [padded, max_eq_left (by omega)]

theorem paddedInt_natCast {w n : ℕ} (hw : 0 < w) (h : n < 10 ^ w) : paddedInt w n = digits w n := by
  rw [paddedInt, if_neg (by omega), Int.toNat_natCast, padded_eq hw h]

/-- The digits behind the year. -/
theorem padded_fields {y mo d h mi s w : ℕ} (hmo : mo < 100) (hd : d < 100) (hh : h < 100) (hmi : mi < 100)
    (hs : s < 100) : digits w y ++ (padded 2 mo ++ padded 2 d ++ padded 2 h ++ padded 2 mi ++ padded 2 s ++ [0x5a]) =
      digits (w + 10) (stamp y mo d h mi s) ++ [0x5a] := by
  have htwo : ∀ {n : ℕ}, n < 100 → padded 2 n = digits 2 n := fun h => padded_eq (by decide) h
  rw [htwo hmo, htwo hd, htwo hh, htwo hmi, htwo hs]
  simp only [← List.append_assoc]
  rw [digits_append w hmo, digits_append _ hd, digits_append _ hh, digits_append _ hmi, digits_append _ hs]
  rfl

theorem stamp_lt {y mo d h mi s n : ℕ} (hy : y < n) (hmo : mo < 100) (hd : d < 100) (hh : h < 100) (hmi : mi < 100)
    (hs : s < 100) : stamp y mo d h mi s < n * 10 ^ 10 := by
  unfold stamp
  omega

theorem stamp_year (y mo d h mi s : ℕ) : stamp y mo d h mi s = y * 10 ^ 10 + stamp 0 mo d h mi s := by
  unfold stamp
  omega

/-- A time is written so that it is read again, up to the year 9999. -/
theorem x509Time_read {y : ℕ} (mo d h mi s : UInt32) (hy : 1950 ≤ y) (hlate : y < 10000) (hmo : mo.toNat < 100)
    (hd : d.toNat < 100) (hh : h.toNat < 100) (hmi : mi.toNat < 100) (hs : s.toNat < 100) :
    (x509Time y mo d h mi s).length ≤ 19 ∧ ∃ v, Writes (x509Time y mo d h mi s) v ∧
      readTime v = some (stamp y mo.toNat d.toNat h.toNat mi.toNat s.toNat) := by
  unfold x509Time
  by_cases hutc : y < 2050
  · have hmod : (y : ℤ).tmod 100 = (y % 100 : ℕ) := (Int.ofNat_tmod y 100).symm
    have hyear : y % 100 < 100 := Nat.mod_lt y (by decide)
    dsimp only
    rw [if_pos (by omega), hmod, paddedInt_natCast (by decide) (by omega), padded_fields hmo hd hh hmi hs]
    have hlen : (digits (2 + 10) (stamp (y % 100) mo.toNat d.toNat h.toNat mi.toNat s.toNat) ++ [0x5a]).length =
        13 := by
      rw [List.length_append, digits_length]
      rfl
    have hlt := stamp_lt hyear hmo hd hh hmi hs
    have hrest := stamp_lt (show 0 < 1 by decide) hmo hd hh hmi hs
    have hsplit := stamp_year (y % 100) mo.toNat d.toNat h.toNat mi.toNat s.toNat
    refine ⟨(tlv_length_le _ _).trans (by omega), _, writes_tlv rfl (by omega), ?_⟩
    rw [readTime, List.getLast?_concat, if_neg (fun h => h rfl), if_pos ⟨rfl, hlen⟩, List.dropLast_concat,
      number_digits (by omega), Option.map_some, stamp_year y]
    refine congrArg some ?_
    split_ifs <;> omega
  · dsimp only
    rw [if_neg (by omega), paddedInt_natCast (by decide) (by omega), padded_fields hmo hd hh hmi hs]
    have hlen : (digits (4 + 10) (stamp y mo.toNat d.toNat h.toNat mi.toNat s.toNat) ++ [0x5a]).length = 15 := by
      rw [List.length_append, digits_length]
      rfl
    have hlt := stamp_lt hlate hmo hd hh hmi hs
    refine ⟨(tlv_length_le _ _).trans (by omega), _, writes_tlv rfl (by omega), ?_⟩
    rw [readTime, List.getLast?_concat, if_neg (fun h => h rfl), if_neg (fun h => absurd h.1 (by decide)),
      if_pos ⟨rfl, hlen⟩, List.dropLast_concat, number_digits (by omega)]

/-! ### Reading the certificates -/

/-- The bytes say a value that `read` takes for `x`. -/
def Says {α : Type} (read : Value → Option α) (b : Bytes) (x : α) : Prop := ∃ v, Writes b v ∧ read v = some x

theorem reads_all {α : Type} {read : Value → Option α} {bs : List Bytes} {xs : List α}
    (h : List.Forall₂ (Says read) bs xs) : ∃ vs, List.Forall₂ Writes bs vs ∧ vs.mapM read = some xs := by
  induction h with
  | nil => exact ⟨[], .nil, rfl⟩
  | cons hb _ ih =>
    obtain ⟨v, hv, hx⟩ := hb
    obtain ⟨vs, hvs, hxs⟩ := ih
    refine ⟨v :: vs, .cons hv hvs, ?_⟩
    rw [List.mapM_cons, hx, hxs]
    rfl

theorem reads_tlv {tag : UInt8} {content : Bytes} (htag : constructed tag = false) (hlen : content.length < 65536) :
    Says (Value.content tag) (tlv tag content) content := ⟨_, writes_tlv htag hlen, Value.content_prim _ _⟩

theorem writes_true : Writes [0x01, 0x01, 0xff] (.prim 0x01 [0xff]) := ⟨rfl, rfl⟩

theorem extension_reads (id : Bytes) {value : Bytes} (critical : Bool) (hid : id.length ≤ 10)
    (hlen : value.length ≤ 1000) :
    (extension id critical value).length ≤ value.length + 30 ∧
      Says readExtension (extension id critical value) (id, value) := by
  have hoid := tlv_length_le 0x06 id
  have hvalue := tlv_length_le 0x04 value
  have hwid := writes_tlv (show constructed 0x06 = false from rfl) (show id.length < 65536 by omega)
  have hwvalue := writes_tlv (show constructed 0x04 = false from rfl) (show value.length < 65536 by omega)
  cases critical with
  | false =>
    have hflat : [oid id, tlv 0x04 value].flatten.length ≤ value.length + 18 := by
      simp only [List.flatten_cons, List.flatten_nil, List.length_append, List.length_nil, oid]
      omega
    refine ⟨(tlv_length_le _ _).trans (by simpa using hflat.trans (Nat.le_add_right _ 8)), _,
      writes_seq (.cons hwid (.cons hwvalue .nil)) (hflat.trans_lt (by omega)), ?_⟩
    rw [readExtension, Value.parts_cons]
    simp
  | true =>
    have hflat : [oid id, [0x01, 0x01, 0xff], tlv 0x04 value].flatten.length ≤ value.length + 21 := by
      simp only [List.flatten_cons, List.flatten_nil, List.length_append, List.length_nil, List.length_cons, oid]
      omega
    refine ⟨(tlv_length_le _ _).trans (by simpa using hflat.trans (Nat.le_add_right _ 5)), _,
      writes_seq (.cons hwid (.cons writes_true (.cons hwvalue .nil))) (hflat.trans_lt (by omega)), ?_⟩
    rw [readExtension, Value.parts_cons]
    simp

section Read

variable {C : CertCrates} {spec : CertSpec C}

/-- The contents of the extensions, each under its identifier. -/
def CertSpec.contents (spec : CertSpec C) : List (Bytes × Bytes) :=
  [(oidBasicConstraints, spec.basicConstraints), (oidKeyUsage, spec.keyUsage)] ++
    (spec.ski.map fun ski => (oidSki, tlv 0x04 ski)).toList ++
    (spec.aki.map fun aki => (oidAki, seq [tlv 0x80 aki])).toList

/-- The parts are short. -/
structure CertSpec.Short (spec : CertSpec C) : Prop where
  serial : spec.serial.length ≤ 20
  issuerName : spec.issuerName.length ≤ 129
  subjectName : spec.subjectName.length ≤ 129
  basicConstraints : spec.basicConstraints.length ≤ 20
  keyUsage : spec.keyUsage.length ≤ 20
  ski : ∀ b ∈ spec.ski, b.length ≤ 20
  aki : ∀ b ∈ spec.aki, b.length ≤ 20
  signature : ∀ tbs, (spec.issuer.sign C tbs).length ≤ 150

theorem exts_read (h : spec.Short) : spec.exts.flatten.length ≤ 220 ∧
    List.Forall₂ (Says readExtension) spec.exts spec.contents := by
  obtain ⟨hbcLen, hbc⟩ := extension_reads oidBasicConstraints true (by decide)
    (h.basicConstraints.trans (by decide))
  obtain ⟨hkuLen, hku⟩ := extension_reads oidKeyUsage true (by decide) (h.keyUsage.trans (by decide))
  have hski : ∀ ski ∈ spec.ski, (extension oidSki false (tlv 0x04 ski)).length ≤ 54 ∧
      Says readExtension (extension oidSki false (tlv 0x04 ski)) (oidSki, tlv 0x04 ski) := by
    intro ski hmem
    have hlen := (tlv_length_le 0x04 ski).trans (Nat.add_le_add_right (h.ski ski hmem) 4)
    obtain ⟨hext, hreads⟩ := extension_reads oidSki false (by decide) (hlen.trans (by decide))
    exact ⟨by omega, hreads⟩
  have haki : ∀ aki ∈ spec.aki, (extension oidAki false (seq [tlv 0x80 aki])).length ≤ 58 ∧
      Says readExtension (extension oidAki false (seq [tlv 0x80 aki])) (oidAki, seq [tlv 0x80 aki]) := by
    intro aki hmem
    have hlen := (tlv_length_le 0x80 aki).trans (Nat.add_le_add_right (h.aki aki hmem) 4)
    have hseq : (seq [tlv 0x80 aki]).length ≤ 28 := by
      have hle := tlv_length_le 0x30 [tlv 0x80 aki].flatten
      rw [List.flatten_singleton] at hle
      unfold seq
      rw [List.flatten_singleton]
      omega
    obtain ⟨hext, hreads⟩ := extension_reads oidAki false (by decide) (hseq.trans (by decide))
    exact ⟨by omega, hreads⟩
  have hbcShort := h.basicConstraints
  have hkuShort := h.keyUsage
  unfold CertSpec.exts CertSpec.contents
  rcases hs : spec.ski with _ | ski
  · rcases ha : spec.aki with _ | aki
    · exact ⟨by simp; omega, .cons hbc (.cons hku .nil)⟩
    · obtain ⟨hlen, hreads⟩ := haki aki ha
      exact ⟨by simp; omega, .cons hbc (.cons hku (.cons hreads .nil))⟩
  · obtain ⟨hlen, hreads⟩ := hski ski hs
    rcases ha : spec.aki with _ | aki
    · exact ⟨by simp; omega, .cons hbc (.cons hku (.cons hreads .nil))⟩
    · obtain ⟨hlen', hreads'⟩ := haki aki ha
      exact ⟨by simp; omega, .cons hbc (.cons hku (.cons hreads (.cons hreads' .nil)))⟩

theorem lookup_contents (spec : CertSpec C) : spec.contents.lookup basicConstraintsId = some spec.basicConstraints ∧
    spec.contents.lookup keyUsageId = some spec.keyUsage ∧
    spec.contents.lookup subjectKeyIdId = spec.ski.map (tlv 0x04) ∧
    spec.contents.lookup authorityKeyIdId = spec.aki.map fun aki => seq [tlv 0x80 aki] := by
  unfold CertSpec.contents
  rcases spec.ski with _ | ski
  · rcases spec.aki with _ | aki
    · exact ⟨rfl, rfl, rfl, rfl⟩
    · exact ⟨rfl, rfl, rfl, rfl⟩
  · rcases spec.aki with _ | aki
    · exact ⟨rfl, rfl, rfl, rfl⟩
    · exact ⟨rfl, rfl, rfl, rfl⟩

/-- An extension that is there is read, and one that is not is not missed. -/
theorem readOptional_reads (read : Value → Option Bytes) (write : Bytes → Bytes) {o : Option Bytes}
    (h : ∀ b ∈ o, Says read (write b) b ∧ (write b).length < 65536) : readOptional read (o.map write) = some o := by
  rcases o with _ | b
  · rfl
  · obtain ⟨⟨v, hv, hread⟩, hlen⟩ := h b rfl
    rw [Option.map_some, readOptional, whole_of_writes hv hlen]
    change (do return some (← read v)) = _
    rw [hread]
    rfl

variable {notBefore notAfter key usage : Bytes} {tb ta : ℕ} {algorithms : List Bytes} {ca : Bool} {pathLen : Option ℕ}

theorem sigOid_length (issuer : Issuer C) : (issuer.sigOid C).length = 8 := by cases issuer <;> rfl

theorem integerContent_length_le (be : Bytes) : (integerContent be).length ≤ be.length + 1 := by
  have hdrop := (List.dropWhile_sublist (l := be) (· == 0)).length_le
  unfold integerContent
  split
  · exact Nat.le_add_left 1 _
  · rename_i b bs heq
    rw [heq, List.length_cons] at hdrop
    split_ifs <;> simp only [List.length_cons] <;> omega

theorem oids_read : ∀ {algorithms : List Bytes}, (algorithms.map oid).flatten.length ≤ 20 →
    List.Forall₂ (Says (Value.content 0x06)) (algorithms.map oid) algorithms
  | [], _ => .nil
  | b :: bs, h => by
    have hlen : (oid b).length = b.length + (derLen b.length).length + 1 := by
      rw [oid, tlv, List.length_cons, List.length_append]
      omega
    rw [List.map_cons, List.flatten_cons, List.length_append] at h
    exact .cons (reads_tlv rfl (by omega)) (oids_read (by omega))

theorem tbs_length_le (h : spec.Short) (hvalidity : spec.validity = seq [notBefore, notAfter])
    (hbefore : notBefore.length ≤ 19) (hafter : notAfter.length ≤ 19)
    (hspki : spec.spki = seq [seq (algorithms.map oid), bitString key 0])
    (halgorithms : (algorithms.map oid).flatten.length ≤ 20) (hkey : key.length ≤ 133) :
    spec.validity.length ≤ 42 ∧ spec.spki.length ≤ 166 ∧ spec.tbs.length ≤ 750 := by
  have hserial := (tlv_length_le 0x02 (integerContent spec.serial)).trans
    (Nat.add_le_add_right ((integerContent_length_le _).trans (Nat.add_le_add_right h.serial 1)) 4)
  have hversion := tlv_length_le 0xa0 (integer [2])
  have htwo : (integer [2]).length = 3 := rfl
  have halg := tlv_length_le 0x30 (tlv 0x06 spec.issuer.sigOid)
  have hsigOid := tlv_length_le 0x06 spec.issuer.sigOid
  rw [sigOid_length] at hsigOid
  have hval := tlv_length_le 0x30 (notBefore ++ notAfter)
  have hkeyInfo := tlv_length_le 0x30 (tlv 0x30 (algorithms.map oid).flatten ++ tlv 0x03 (0 :: key))
  have halgs := tlv_length_le 0x30 (algorithms.map oid).flatten
  have hbits := tlv_length_le 0x03 (0 :: key)
  have hexts := tlv_length_le 0x30 spec.exts.flatten
  have hextsTag := tlv_length_le 0xa3 (seq spec.exts)
  have hcontents := (exts_read h).1
  rw [List.length_append] at hval hkeyInfo
  rw [List.length_cons] at hbits
  have hvalidityLen : spec.validity.length ≤ 42 := by
    rw [hvalidity, seq, List.flatten_cons, List.flatten_singleton]
    omega
  have hspkiLen : spec.spki.length ≤ 166 := by
    rw [hspki, seq, List.flatten_cons, List.flatten_singleton, seq, bitString]
    omega
  refine ⟨hvalidityLen, hspkiLen, (tlv_length_le _ _).trans ?_⟩
  have hissuer := h.issuerName
  have hsubject := h.subjectName
  simp only [List.flatten_cons, List.flatten_nil, List.length_append, List.append_nil, integer, seq, oid] at *
  omega

theorem authority_reads {b : Bytes} (h : b.length ≤ 20) :
    Says readAuthority (seq [tlv 0x80 b]) b ∧ (seq [tlv 0x80 b]).length < 65536 := by
  have hlen := tlv_length_le 0x80 b
  have hseq := tlv_length_le 0x30 (tlv 0x80 b)
  rw [seq, List.flatten_singleton]
  refine ⟨⟨_, writes_one rfl (writes_tlv rfl (by omega)) (by omega), ?_⟩, by omega⟩
  rw [readAuthority, Value.parts_cons]
  exact Value.content_prim _ _

/-- What is signed is read. -/
theorem tbs_read (h : spec.Short) {vi vs : Value} (hissuer : Writes spec.issuerName vi)
    (hsubject : Writes spec.subjectName vs) (hvalidity : spec.validity = seq [notBefore, notAfter])
    (hbefore : notBefore.length ≤ 19 ∧ Says readTime notBefore tb)
    (hafter : notAfter.length ≤ 19 ∧ Says readTime notAfter ta)
    (hspki : spec.spki = seq [seq (algorithms.map oid), bitString key 0])
    (halgorithms : (algorithms.map oid).flatten.length ≤ 20) (hkey : key.length ≤ 133)
    (hbc : Says readConstraints spec.basicConstraints (ca, pathLen))
    (husage : Says (Value.content 0x03) spec.keyUsage usage) (signature : Bytes) :
    Says (readSigned (spec.issuer.sigOid C) signature) spec.tbs
      ⟨spec.tbs, integerContent spec.serial, spec.issuer.sigOid, spec.issuerName, tb, ta, spec.subjectName, algorithms,
        key, ⟨ca, pathLen, usage, spec.ski, spec.aki⟩, signature⟩ := by
  obtain ⟨hvalidityLen, hspkiLen, htbsLen⟩ := tbs_length_le h hvalidity hbefore.1 hafter.1 hspki halgorithms hkey
  obtain ⟨vb, hwb, hrb⟩ := hbefore.2
  obtain ⟨va, hwa, hra⟩ := hafter.2
  obtain ⟨vbc, hwbc, hrbc⟩ := hbc
  obtain ⟨vku, hwku, hrku⟩ := husage
  obtain ⟨vexts, hwexts, hrexts⟩ := reads_all (exts_read h).2
  obtain ⟨valgs, hwalgs, hralgs⟩ := reads_all (oids_read halgorithms)
  obtain ⟨hlbc, hlku, hlski, hlaki⟩ := lookup_contents spec
  have hexts := (exts_read h).1
  have hserialLen := (integerContent_length_le spec.serial).trans (Nat.add_le_add_right h.serial 1)
  have hwversion : Writes (tlv 0xa0 (integer [2])) (.cons 0xa0 [.prim 0x02 [2]]) := ⟨rfl, rfl⟩
  have hwserial := writes_tlv (t := 0x02) (c := integerContent spec.serial) rfl (by omega)
  have hwalg : Writes (seq [oid (spec.issuer.sigOid C)]) (.cons 0x30 [.prim 0x06 (spec.issuer.sigOid C)]) := by
    cases spec.issuer <;> exact ⟨rfl, rfl⟩
  have hwval : Writes spec.validity (.cons 0x30 [vb, va]) := by
    rw [hvalidity]
    refine writes_seq (.cons hwb (.cons hwa .nil)) ?_
    rw [List.flatten_cons, List.flatten_singleton, List.length_append]
    omega
  have hwspki : Writes spec.spki (.cons 0x30 [.cons 0x30 valgs, .prim 0x03 (0 :: key)]) := by
    have hlen := hspkiLen
    rw [hspki, seq, tlv, List.length_cons, List.length_append] at hlen
    rw [hspki]
    exact writes_seq (.cons (writes_seq hwalgs (by omega))
      (.cons (writes_tlv rfl (by rw [List.length_cons]; omega)) .nil)) (by omega)
  have hwexts' : Writes (tlv 0xa3 (seq spec.exts)) (.cons 0xa3 [.cons 0x30 vexts]) :=
    writes_one rfl (writes_seq hwexts (by omega)) ((tlv_length_le _ _).trans_lt (by omega))
  have hwtbs : Writes spec.tbs _ := writes_seq (.cons hwversion (.cons hwserial (.cons hwalg (.cons hissuer
    (.cons hwval (.cons hsubject (.cons hwspki (.cons hwexts' .nil)))))))) (by
      have hlen := htbsLen
      rw [CertSpec.tbs, seq, tlv, List.length_cons, List.length_append] at hlen
      omega)
  refine ⟨_, hwtbs, ?_⟩
  have hbcWhole := whole_of_writes hwbc (h.basicConstraints.trans_lt (by decide))
  have hkuWhole := whole_of_writes hwku (h.keyUsage.trans_lt (by decide))
  have hski := readOptional_reads (Value.content 0x04) (tlv 0x04) (o := spec.ski) fun b hb =>
    ⟨reads_tlv rfl ((h.ski b hb).trans_lt (by decide)), (tlv_length_le _ _).trans_lt (by have := h.ski b hb; omega)⟩
  have haki := readOptional_reads readAuthority (fun aki => seq [tlv 0x80 aki]) (o := spec.aki)
    fun b hb => authority_reads (h.aki b hb)
  have hversion : readVersion (.cons 0xa0 [.prim 0x02 [2]]) = some () := rfl
  have hval : readValidity (.cons 0x30 [vb, va]) = some (tb, ta) := by
    rw [readValidity, Value.parts_cons]
    simp only [hrb, hra]
    rfl
  have hkeyInfo : readKeyInfo (.cons 0x30 [.cons 0x30 valgs, .prim 0x03 (0 :: key)]) = some (algorithms, key) := by
    rw [readKeyInfo, Value.parts_cons]
    simp only [Value.parts_cons, readBits, Value.content_prim, Option.bind_eq_bind, Option.bind_some, hralgs]
    rfl
  have hext : readExtensions (.cons 0xa3 [.cons 0x30 vexts]) = some ⟨ca, pathLen, usage, spec.ski, spec.aki⟩ := by
    rw [readExtensions, Value.parts_cons]
    simp only [Value.parts_cons, Option.bind_eq_bind, Option.bind_some, hrexts, readContents, hlbc, hlku, hlski, hlaki,
      hbcWhole, hkuWhole, hrbc, hrku, hski, haki]
    rfl
  rw [readSigned, Value.parts_cons]
  simp only [hversion, readAlgorithm_prim, hval, hkeyInfo, hext, Value.content_prim, Option.bind_eq_bind,
    Option.bind_some, hwtbs.2, hissuer.2, hsubject.2, if_true]
  rfl

/-- A reader finds what the certificate was built from. -/
theorem read_buildCert (h : spec.Short) {vi vs : Value} (hissuer : Writes spec.issuerName vi)
    (hsubject : Writes spec.subjectName vs) (hvalidity : spec.validity = seq [notBefore, notAfter])
    (hbefore : notBefore.length ≤ 19 ∧ Says readTime notBefore tb)
    (hafter : notAfter.length ≤ 19 ∧ Says readTime notAfter ta)
    (hspki : spec.spki = seq [seq (algorithms.map oid), bitString key 0])
    (halgorithms : (algorithms.map oid).flatten.length ≤ 20) (hkey : key.length ≤ 133)
    (hbc : Says readConstraints spec.basicConstraints (ca, pathLen))
    (husage : Says (Value.content 0x03) spec.keyUsage usage) : (buildCert spec).length ≤ 925 ∧
      readCertificate (buildCert spec) = some
        ⟨spec.tbs, integerContent spec.serial, spec.issuer.sigOid, spec.issuerName, tb, ta, spec.subjectName,
          algorithms, key, ⟨ca, pathLen, usage, spec.ski, spec.aki⟩, spec.issuer.sign C spec.tbs⟩ := by
  have htbsLen := tbs_length_le h hvalidity hbefore.1 hafter.1 hspki halgorithms hkey
  obtain ⟨vtbs, hvtbs, hread⟩ := tbs_read h hissuer hsubject hvalidity hbefore hafter hspki halgorithms hkey hbc husage
    (spec.issuer.sign C spec.tbs)
  have hsig := h.signature spec.tbs
  have hoid := tlv_length_le 0x06 spec.issuer.sigOid
  have hoidSeq := tlv_length_le 0x30 [oid spec.issuer.sigOid].flatten
  have hbits := tlv_length_le 0x03 (0 :: spec.issuer.sign C spec.tbs)
  rw [sigOid_length] at hoid
  rw [List.flatten_singleton, oid] at hoidSeq
  rw [List.length_cons] at hbits
  have hwoid := writes_one (t := 0x30) rfl (writes_tlv (t := 0x06) (c := spec.issuer.sigOid) rfl
    (by rw [sigOid_length]; decide)) (by omega)
  have hwsig := writes_tlv (t := 0x03) (c := 0 :: spec.issuer.sign C spec.tbs) rfl
    (by rw [List.length_cons]; omega)
  have hflat : [spec.tbs, seq [oid spec.issuer.sigOid], bitString (spec.issuer.sign C spec.tbs) 0].flatten.length ≤
      921 := by
    simp only [List.flatten_cons, List.flatten_nil, List.length_append, seq, oid, bitString, List.append_nil]
    omega
  have hcert := writes_seq (.cons hvtbs (.cons (by rwa [seq, List.flatten_singleton]) (.cons hwsig .nil)))
    (hflat.trans_lt (by decide))
  have hlen : (buildCert spec).length ≤ 925 := (tlv_length_le 0x30 _).trans (Nat.add_le_add_right hflat 4)
  have hwhole : whole (buildCert spec) = _ := whole_of_writes hcert (hlen.trans_lt (by decide))
  refine ⟨hlen, ?_⟩
  rw [readCertificate, hwhole]
  simp only [Option.bind_eq_bind, Option.bind_some, Value.parts_cons, readBits, Value.content_prim, readAlgorithm_prim]
  exact hread

end Read

end TROPIC01
end Simulators
