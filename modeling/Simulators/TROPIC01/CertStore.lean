/-
# TROPIC01: the chain is valid, and the store says so

The four certificates of a fresh device, as a verifier sees them: each issued
by the next, under its algorithm and its constraints, and the root by itself.
They are all valid from the moment they are made until twenty years later,
when that of the device expires (`fresh_chain_validates`). The store that
GET_INFO hands out is split into them again, whatever it is filled up with.

Key definitions: `CertCrates.Signs`, `storeOf`, `issuedAt`, `expiresAt`.
Key theorems: `splitCertStore_storeOf`, `chain_read`, `fresh_chain_validates`.
-/
import Simulators.TROPIC01.CertChain
import Simulators.TROPIC01.Channel

namespace Simulators
namespace TROPIC01

open Der X509

/-! ### The times -/

/-- When the certificates begin to hold. -/
def issuedAt (secs : ℕ) : ℕ :=
  let date := civilFromDays ((secs : ℤ) / 86400)
  stamp date.1.toNat date.2.1.toNat date.2.2.toNat (secs % 86400 / 3600) (secs % 86400 / 60 % 60) (secs % 86400 % 60)

/-- The same moment `years` later; on the 29th, the 30th and the 31st that of the 28th. -/
def expiresAt (secs years : ℕ) : ℕ :=
  let date := civilFromDays ((secs : ℤ) / 86400)
  stamp (date.1.toNat + years) date.2.1.toNat (min date.2.2.toNat 28) (secs % 86400 / 3600) (secs % 86400 / 60 % 60)
    (secs % 86400 % 60)

/-- A date since the epoch. -/
theorem civilFromDays_bounds (days : ℕ) : 1970 ≤ (civilFromDays days).1 ∧ (civilFromDays days).2.1.toNat ≤ 12 ∧
    (civilFromDays days).2.2.toNat ≤ 31 := by
  obtain ⟨p, hp⟩ := Calendar.MarchDate.exists_days (days + 719468)
  have hdate := civilFromDays_date p
  rw [show p.days - 719468 = days by omega] at hdate
  have hmonth := p.date.month_le
  have hday := p.date.day_le
  have hlong : Calendar.monthLength p.date.year p.date.month ≤ 31 := by
    unfold Calendar.monthLength
    split_ifs <;> decide
  rw [hdate]
  refine ⟨?_, ?_, ?_⟩
  · obtain ⟨era, yoe, mp, day, hyoe, hmp, hd⟩ := p
    have hd31 : day + 1 ≤ 31 := hday.trans hlong
    unfold Calendar.MarchDate.days Calendar.daysBeforeYear Calendar.daysBeforeMonth at hp
    dsimp only at hp
    change 1970 ≤ Calendar.yearAt era yoe mp
    unfold Calendar.yearAt Calendar.monthAt
    -- March 1969 is in the era from 1600, at its year 369
    have hera : 4 ≤ era := by omega
    by_cases hlater : 5 ≤ era
    · split_ifs <;> omega
    · obtain rfl : era = 4 := by omega
      have hyear : 369 ≤ yoe := by omega
      split_ifs <;> omega
  · change (UInt32.ofNat p.date.month).toNat ≤ 12
    rw [UInt32.toNat_ofNat']
    omega
  · change (UInt32.ofNat p.date.day).toNat ≤ 31
    rw [UInt32.toNat_ofNat']
    omega

theorem ofNat_toNat_of_lt {n : ℕ} (h : n < 2 ^ 32) : (UInt32.ofNat n).toNat = n := by
  rw [UInt32.toNat_ofNat', Nat.mod_eq_of_lt h]

/-- The time of the day is the same in both. -/
theorem moment_read {y : ℤ} {mo d : UInt32} (tod : ℕ) (htod : tod < 86400) (hy : 1970 ≤ y) (hlate : y ≤ 9999)
    (hmo : mo.toNat ≤ 12) (hd : d.toNat ≤ 31) :
    let time := x509Time y mo d (UInt32.ofNat (tod / 3600)) (UInt32.ofNat (tod / 60 % 60)) (UInt32.ofNat (tod % 60))
    time.length ≤ 19 ∧
      Says readTime time (stamp y.toNat mo.toNat d.toNat (tod / 3600) (tod / 60 % 60) (tod % 60)) := by
  obtain ⟨n, rfl⟩ := Int.eq_ofNat_of_zero_le (show 0 ≤ y by omega)
  have hh := ofNat_toNat_of_lt (n := tod / 3600) (by omega)
  have hmi := ofNat_toNat_of_lt (n := tod / 60 % 60) (by omega)
  have hs := ofNat_toNat_of_lt (n := tod % 60) (by omega)
  obtain ⟨hlen, hsays⟩ := x509Time_read (y := n) mo d (UInt32.ofNat (tod / 3600))
    (UInt32.ofNat (tod / 60 % 60)) (UInt32.ofNat (tod % 60)) (by omega) (by omega) (by omega) (by omega)
    (by omega) (by omega) (by omega)
  rw [hh, hmi, hs] at hsays
  exact ⟨hlen, hsays⟩

/-- Written by `x509_time`. -/
def IsTime (b : Bytes) : Prop := ∃ y mo d h mi s, b = x509Time y mo d h mi s

/-- The validity of a certificate of so many years. -/
theorem forYears_read {secs years : ℕ} (h : (Validity.now secs).year + years ≤ 9999) : ∃ notBefore notAfter,
    (Validity.now secs).forYears years = seq [notBefore, notAfter] ∧
      (notBefore.length ≤ 19 ∧ Says readTime notBefore (issuedAt secs)) ∧
      (notAfter.length ≤ 19 ∧ Says readTime notAfter (expiresAt secs years)) ∧ IsTime notBefore ∧ IsTime notAfter := by
  obtain ⟨hyear, hmonth, hday⟩ := civilFromDays_bounds (secs / 86400)
  have htod := Nat.mod_lt secs (show 0 < 86400 by decide)
  have hmin : (min (civilFromDays ((secs / 86400 : ℕ) : ℤ)).2.2 28).toNat =
      min (civilFromDays ((secs / 86400 : ℕ) : ℤ)).2.2.toNat 28 := UInt32.toNat_min _ _
  have hnow : (civilFromDays ((secs / 86400 : ℕ) : ℤ)).1 + years ≤ 9999 := h
  have hafter := moment_read (secs % 86400) htod (by omega) hnow hmonth (d := min _ 28) (by rw [hmin]; omega)
  rw [hmin, Int.toNat_add_nat (by omega)] at hafter
  have hlate : (civilFromDays ((secs / 86400 : ℕ) : ℤ)).1 ≤ 9999 := by omega
  exact ⟨_, _, rfl, moment_read (secs % 86400) htod hyear hlate hmonth hday, hafter, ⟨_, _, _, _, _, _, rfl⟩,
    _, _, _, _, _, _, rfl⟩

/-! ### The names -/

theorem attribute_writes (id text : Bytes) (tag : UInt8) (htag : constructed tag = false) (hid : id.length ≤ 3)
    (htext : text.length ≤ 40) : (set [seq [oid id, tlv tag text]]).length ≤ text.length + 19 ∧
      ∃ v, Writes (set [seq [oid id, tlv tag text]]) v := by
  have hoid := tlv_length_le 0x06 id
  have hvalue := tlv_length_le tag text
  have hflat : [oid id, tlv tag text].flatten.length ≤ text.length + 11 := by
    rw [List.flatten_cons, List.flatten_singleton, List.length_append, oid]
    omega
  have hlen : (seq [oid id, tlv tag text]).length ≤ text.length + 15 :=
    (tlv_length_le _ _).trans (Nat.add_le_add_right hflat 4)
  have hwrites := writes_seq (.cons (writes_tlv (t := 0x06) (c := id) rfl (by omega))
    (.cons (writes_tlv (c := text) htag (by omega)) .nil)) (hflat.trans_lt (by omega))
  rw [set, List.flatten_singleton]
  exact ⟨(tlv_length_le _ _).trans (Nat.add_le_add_right hlen 4), _,
    writes_one rfl hwrites (hlen.trans_lt (by omega))⟩

theorem name_writes (countryAndOrg : Bool) {cn : Bytes} (h : cn.length ≤ 40) :
    (name countryAndOrg cn).length ≤ 129 ∧ ∃ v, Writes (name countryAndOrg cn) v := by
  obtain ⟨hcn, vcn, hwcn⟩ := attribute_writes oidCn cn 0x0c rfl (by decide) h
  obtain ⟨hcountry, vcountry, hwcountry⟩ := attribute_writes oidCountry (ascii "US") 0x13 rfl
    (by decide) (by decide)
  obtain ⟨horg, vorg, hworg⟩ := attribute_writes oidOrg org 0x0c rfl (by decide) (by decide)
  have hus : (ascii "US").length = 2 := by decide
  have horgLen : org.length = 26 := by decide
  cases countryAndOrg with
  | false =>
    have hflat : [set [seq [oid oidCn, utf8 cn]]].flatten.length ≤ 125 := by
      rw [List.flatten_singleton, utf8]
      omega
    exact ⟨(tlv_length_le _ _).trans (Nat.add_le_add_right hflat 4), _,
      writes_seq (.cons hwcn .nil) (hflat.trans_lt (by decide))⟩
  | true =>
    have hflat : [set [seq [oid oidCountry, printable (ascii "US")]], set [seq [oid oidOrg, utf8 org]],
        set [seq [oid oidCn, utf8 cn]]].flatten.length ≤ 125 := by
      simp only [List.flatten_cons, List.flatten_nil, List.length_append, List.append_nil, printable, utf8]
      omega
    exact ⟨(tlv_length_le _ _).trans (Nat.add_le_add_right hflat 4), _,
      writes_seq (.cons hwcountry (.cons hworg (.cons hwcn .nil))) (hflat.trans_lt (by decide))⟩

/-! ### The store -/

/-- The certificates behind their lengths. -/
def storeOf (certs : List Bytes) : Bytes :=
  [1, UInt8.ofNat certs.length] ++ certs.flatMap (fun c => toBe 2 c.length) ++ certs.flatten

theorem lengths_length (certs : List Bytes) : (certs.flatMap fun c => toBe 2 c.length).length = 2 * certs.length := by
  induction certs with
  | nil => rfl
  | cons c certs ih =>
    rw [List.flatMap_cons, List.length_append, toBe_length, ih, List.length_cons]
    omega

theorem toBe_two (n : ℕ) : ∃ hi lo, toBe 2 n = [hi, lo] ∧ be16 hi lo = n % 65536 := by
  refine ⟨UInt8.ofNat (n / 256 % 256), UInt8.ofNat (n % 256), rfl, ?_⟩
  have hhi : (UInt8.ofNat (n / 256 % 256)).toNat = n / 256 % 256 := by
    rw [UInt8.toNat_ofNat']
    omega
  have hlo : (UInt8.ofNat (n % 256)).toNat = n % 256 := by
    rw [UInt8.toNat_ofNat']
    omega
  rw [be16, hhi, hlo]
  omega

theorem index_between (a : Bytes) {b : UInt8} {rest whole : Bytes} {i : ℕ} (h : whole = a ++ b :: rest)
    (hi : a.length = i) : (Handler.index whole i : Handler Empty UInt8) = .ok b := by
  subst h hi
  rw [Handler.index_eq_ok, List.getElem?_append_right (Nat.le_refl _), Nat.sub_self]
  rfl

/-- The certificates that are still to come. -/
theorem split_storeOf (pad : Bytes) : ∀ (todo done : List Bytes), (∀ c ∈ todo, c.length < 65536) →
    splitCertStore.split (storeOf (done ++ todo) ++ pad) todo.length done.length
      (2 + 2 * (done ++ todo).length + done.flatten.length) = .ok todo
  | [], _, _ => rfl
  | c :: todo, done, h => by
    obtain ⟨hi, lo, hbytes, hlen⟩ := toBe_two c.length
    rw [Nat.mod_eq_of_lt (h c List.mem_cons_self)] at hlen
    have hheader : [1, UInt8.ofNat (done ++ c :: todo).length] ++ done.flatMap (fun c => toBe 2 c.length) ++
        (hi :: lo :: (todo.flatMap (fun c => toBe 2 c.length) ++ (done ++ c :: todo).flatten ++ pad)) =
          storeOf (done ++ c :: todo) ++ pad := by
      rw [storeOf, List.flatMap_append, List.flatMap_cons, hbytes]
      simp only [List.append_assoc, List.cons_append, List.nil_append]
    have hcert : ([1, UInt8.ofNat (done ++ c :: todo).length] ++
        (done ++ c :: todo).flatMap (fun c => toBe 2 c.length) ++ done.flatten) ++
          (c ++ (todo.flatten ++ pad)) = storeOf (done ++ c :: todo) ++ pad := by
      rw [storeOf, List.flatten_append, List.flatten_cons]
      simp only [List.append_assoc]
    have hrest := split_storeOf pad todo (done ++ [c]) fun c' hc' => h c' (List.mem_cons_of_mem c hc')
    have hflat : (done ++ [c]).flatten.length = done.flatten.length + c.length := by
      rw [List.flatten_append, List.flatten_singleton, List.length_append]
    rw [List.append_assoc, List.singleton_append, hflat, List.length_append, List.length_singleton,
      ← Nat.add_assoc] at hrest
    have hlengths := lengths_length done
    have hall := lengths_length (done ++ c :: todo)
    have hhi : (Handler.index (storeOf (done ++ c :: todo) ++ pad) (2 + 2 * done.length) : Handler Empty UInt8) =
        .ok hi := by
      refine index_between _ hheader.symm ?_
      rw [List.length_append, hlengths]
      rfl
    have hlo : (Handler.index (storeOf (done ++ c :: todo) ++ pad) (3 + 2 * done.length) : Handler Empty UInt8) =
        .ok lo := by
      refine index_between (_ ++ [hi]) (hheader.symm.trans (List.append_cons _ _ _)) ?_
      rw [List.length_append, List.length_append, hlengths, List.length_singleton, List.length_cons, List.length_cons,
        List.length_nil]
      omega
    have hslice : (Handler.slice (storeOf (done ++ c :: todo) ++ pad)
        (2 + 2 * (done ++ c :: todo).length + done.flatten.length)
        (2 + 2 * (done ++ c :: todo).length + done.flatten.length + c.length) : Handler Empty Bytes) = .ok c := by
      refine slice_between _ c _ hcert.symm ?_ rfl
      rw [List.length_append, List.length_append, hall]
      rfl
    rw [List.length_cons, splitCertStore.split, hhi, Handler.ok_bind, hlo, Handler.ok_bind, hlen, hslice,
      Handler.ok_bind, hrest]
    rfl

theorem splitCertStore_storeOf {certs : List Bytes} (pad : Bytes) (h : ∀ c ∈ certs, c.length < 65536)
    (hmany : certs.length < 256) : splitCertStore (storeOf certs ++ pad) = .ok certs := by
  have hsplit := split_storeOf pad certs [] h
  have htoNat : (UInt8.ofNat certs.length).toNat = certs.length := by rw [UInt8.toNat_ofNat', Nat.mod_eq_of_lt hmany]
  have hcount : (Handler.index (storeOf certs ++ pad) 1 : Handler Empty UInt8) = .ok (UInt8.ofNat certs.length) :=
    index_between [1] rfl rfl
  rw [splitCertStore, hcount, Handler.ok_bind, htoNat]
  exact hsplit

/-! ### The four certificates -/

section Chain

variable {K : Crates} {C : CertCrates} {verify : Verifier}

/-- The signatures of the crates are of the length they can have, and accepted under the public key. -/
structure CertCrates.Signs (C : CertCrates) (verify : Verifier) : Prop where
  short384 : ∀ key m, (C.p384Sign key m).length ≤ 104
  short521 : ∀ key m, (C.p521Sign key m).length ≤ 139
  accepts384 : ∀ key m,
    verify oidEcdsaSha384 [oidEcPublicKey, oidSecp384r1] (C.p384Point key).bytes m (C.p384Sign key m) = true
  accepts521 : ∀ key m,
    verify oidEcdsaSha512 [oidEcPublicKey, oidSecp521r1] (C.p521Point key).bytes m (C.p521Sign key m) = true

/-- What a reader takes from a certificate of the chain. -/
def CertSpec.certificate (spec : CertSpec C) (secs years : ℕ) (algorithms : List Bytes) (key : Bytes) (ca : Bool)
    (pathLen : Option ℕ) (usage : Bytes) : Certificate :=
  ⟨spec.tbs, integerContent spec.serial, spec.issuer.sigOid, spec.issuerName, issuedAt secs, expiresAt secs years,
    spec.subjectName, algorithms, key, ⟨ca, pathLen, usage, spec.ski, spec.aki⟩, spec.issuer.sign C spec.tbs⟩

theorem CertCrates.Signs.length_le (hC : C.Signs verify) (issuer : Issuer C) (tbs : Bytes) :
    (issuer.sign C tbs).length ≤ 150 := by
  cases issuer with
  | p384 key => exact (hC.short384 key tbs).trans (by decide)
  | p521 key => exact (hC.short521 key tbs).trans (by decide)

theorem integerContent_byte {p : UInt8} (h : p.toNat < 128) : integerContent [p] = [p] := by
  unfold integerContent
  by_cases hp : p = 0
  · subst hp
    rfl
  · have hbit : ¬ p &&& 0x80 ≠ 0 := by
      rw [not_not]
      apply UInt8.toNat_inj.mp
      have htop := Nat.testBit_lt_two_pow (i := 7) h
      rw [UInt8.toNat_and]
      apply Nat.eq_of_testBit_eq
      intro i
      rw [Nat.testBit_and, show UInt8.toNat 0x80 = 2 ^ 7 from rfl, Nat.testBit_two_pow]
      by_cases hi : 7 = i
      · rw [← hi, htop]
        simp
      · simp [hi]
    rw [List.dropWhile_cons_of_neg (by simpa using hp)]
    exact if_neg hbit

theorem constraints_read (ca : Bool) {pathlen : Option UInt8} (h : ∀ p ∈ pathlen, p.toNat < 128) :
    Says readConstraints (basicConstraints ca pathlen) (ca, if ca then pathlen.map UInt8.toNat else none) ∧
      (basicConstraints ca pathlen).length ≤ 20 := by
  cases ca with
  | false => exact ⟨⟨.cons 0x30 [], ⟨rfl, rfl⟩, rfl⟩, Nat.le_add_left 2 18⟩
  | true =>
    rcases pathlen with _ | p
    · exact ⟨⟨.cons 0x30 [.prim 0x01 [0xff]], ⟨rfl, rfl⟩, rfl⟩, by decide⟩
    · have hp : basicConstraints true (some p) = seq [[0x01, 0x01, 0xff], tlv 0x02 [p]] := by
        rw [← integerContent_byte (h p rfl)]
        rfl
      rw [hp]
      refine ⟨⟨.cons 0x30 [.prim 0x01 [0xff], .prim 0x02 [p]], ⟨rfl, rfl⟩, ?_⟩, Nat.le_add_left 8 12⟩
      rw [readConstraints, Value.parts_cons]
      simp [ofBe]

variable {spec : CertSpec C} {secs : ℕ} {key usage : Bytes} {a b : Bool} {issuerCn subjectCn : Bytes}

theorem spec_read (years : ℕ) (algorithms : List Bytes) (ca : Bool) (pathlen : Option UInt8)
    (hC : C.Signs verify) (hyear : (Validity.now secs).year + years ≤ 9999) (hserial : spec.serial.length ≤ 20)
    (hissuer : spec.issuerName = name a issuerCn) (hissuerCn : issuerCn.length ≤ 40)
    (hsubject : spec.subjectName = name b subjectCn) (hsubjectCn : subjectCn.length ≤ 40)
    (hvalidity : spec.validity = (Validity.now secs).forYears years)
    (hspki : spec.spki = seq [seq (algorithms.map oid), bitString key 0])
    (halgorithms : (algorithms.map oid).flatten.length ≤ 20) (hkey : key.length ≤ 133)
    (hbc : spec.basicConstraints = basicConstraints ca pathlen) (hpath : ∀ p ∈ pathlen, p.toNat < 128)
    (husage : spec.keyUsage = tlv 0x03 usage) (hshort : usage.length ≤ 10) (hski : ∀ b ∈ spec.ski, b.length ≤ 20)
    (haki : ∀ b ∈ spec.aki, b.length ≤ 20) : (buildCert spec).length ≤ 925 ∧ readCertificate (buildCert spec) =
      some (spec.certificate secs years algorithms key ca (if ca then pathlen.map UInt8.toNat else none) usage) := by
  obtain ⟨hissuerLen, vi, hvi⟩ := name_writes a hissuerCn
  obtain ⟨hsubjectLen, vs, hvs⟩ := name_writes b hsubjectCn
  obtain ⟨hconstraints, hbcLen⟩ := constraints_read ca hpath
  obtain ⟨notBefore, notAfter, hyears, hbefore, hafter, -⟩ := forYears_read hyear
  rw [← hissuer] at hissuerLen hvi
  rw [← hsubject] at hsubjectLen hvs
  rw [← hbc] at hconstraints hbcLen
  have hspec : spec.Short := ⟨hserial, hissuerLen, hsubjectLen, hbcLen,
    husage ▸ (tlv_length_le _ _).trans (by omega), hski, haki, hC.length_le _⟩
  refine read_buildCert hspec hvi hvs (hvalidity.trans hyears) hbefore hafter hspki halgorithms hkey hconstraints ?_
  rw [husage]
  exact reads_tlv rfl (by omega)

variable (K) (secs) (keys : ChainKeys C) (stPub : ByteArr 32) (serial : ByteArr 8)

def deviceCertificate : Certificate :=
  (deviceSpec K (Validity.now secs) keys stPub serial).certificate secs 20 [oidX25519] stPub.bytes false none [3, 0x08]

def xcaCertificate : Certificate :=
  (xcaSpec K (Validity.now secs) keys).certificate secs 35 [oidEcPublicKey, oidSecp384r1] (C.p384Point keys.xca).bytes
    true (some 0) [2, 0x04]

def crossCertificate : Certificate :=
  (crossSpec K (Validity.now secs) keys).certificate secs 40 [oidEcPublicKey, oidSecp384r1]
    (C.p384Point keys.mid).bytes true (some 1) [1, 0x06]

def rootCertificate : Certificate :=
  (rootSpec K (Validity.now secs) keys).certificate secs 50 [oidEcPublicKey, oidSecp521r1]
    (C.p521Point keys.root).bytes true none [1, 0x06]

variable {K secs keys stPub serial}

theorem deviceCn_length : (deviceCn serial).length = 32 := by
  have hhex : ∀ bs : Bytes, (bs.flatMap hexByte).length = 2 * bs.length := by
    intro bs
    induction bs with
    | nil => rfl
    | cons b bs ih =>
      rw [List.flatMap_cons, List.length_append, ih, List.length_cons]
      change 2 + _ = _
      omega
  rw [deviceCn, List.length_append, hhex, serial.size]
  rfl

theorem keyId_short {bits : Bytes} : ∀ b ∈ some (keyId K bits), b.length ≤ 20 := by
  rintro _ ⟨⟩
  exact List.length_take_le 20 _

variable (K) (keys) (stPub) (serial)

theorem device_read (hC : C.Signs verify) (hyear : (Validity.now secs).year + 50 ≤ 9999) :
    (buildCert (deviceSpec K (Validity.now secs) keys stPub serial)).length ≤ 925 ∧
      readCertificate (buildCert (deviceSpec K (Validity.now secs) keys stPub serial)) =
        some (deviceCertificate K secs keys stPub serial) :=
  spec_read 20 [oidX25519] false none hC (by omega)
    (by
      change (0x01 :: serial.bytes).length ≤ 20
      rw [List.length_cons, serial.size]
      decide)
    rfl (by decide) rfl (deviceCn_length.trans_le (by decide)) rfl rfl (by decide)
    (stPub.size.trans_le (by decide)) rfl (fun _ h => by cases h) rfl (by decide) (fun _ h => by cases h) keyId_short

theorem xca_read (hC : C.Signs verify) (hyear : (Validity.now secs).year + 50 ≤ 9999) :
    (buildCert (xcaSpec K (Validity.now secs) keys)).length ≤ 925 ∧
      readCertificate (buildCert (xcaSpec K (Validity.now secs) keys)) = some (xcaCertificate K secs keys) :=
  spec_read 35 [oidEcPublicKey, oidSecp384r1] true (some 0) hC (by omega) (Nat.le_add_left 2 18) rfl (by decide) rfl
    (by decide) rfl rfl (by decide) ((C.p384Point keys.xca).size.trans_le (by decide)) rfl (by rintro _ ⟨⟩; decide) rfl
    (by decide) keyId_short keyId_short

theorem cross_read (hC : C.Signs verify) (hyear : (Validity.now secs).year + 50 ≤ 9999) :
    (buildCert (crossSpec K (Validity.now secs) keys)).length ≤ 925 ∧
      readCertificate (buildCert (crossSpec K (Validity.now secs) keys)) = some (crossCertificate K secs keys) :=
  spec_read 40 [oidEcPublicKey, oidSecp384r1] true (some 1) hC (by omega) (Nat.le_add_left 2 18) rfl (by decide) rfl
    (by decide) rfl rfl (by decide) ((C.p384Point keys.mid).size.trans_le (by decide)) rfl (by rintro _ ⟨⟩; decide) rfl
    (by decide) keyId_short keyId_short

theorem root_read (hC : C.Signs verify) (hyear : (Validity.now secs).year + 50 ≤ 9999) :
    (buildCert (rootSpec K (Validity.now secs) keys)).length ≤ 925 ∧
      readCertificate (buildCert (rootSpec K (Validity.now secs) keys)) = some (rootCertificate K secs keys) :=
  spec_read 50 [oidEcPublicKey, oidSecp521r1] true none hC hyear (Nat.le_add_left 1 19) rfl (by decide) rfl (by decide)
    rfl rfl (by decide) ((C.p521Point keys.root).size.trans_le (by decide)) rfl (fun _ h => by cases h) rfl (by decide)
    keyId_short (fun _ h => by cases h)

/-- Each is read as what it was built from. -/
theorem chain_read (hC : C.Signs verify) (hyear : (Validity.now secs).year + 50 ≤ 9999) :
    (buildChain K secs keys stPub serial).mapM readCertificate =
      some [deviceCertificate K secs keys stPub serial, xcaCertificate K secs keys, crossCertificate K secs keys,
        rootCertificate K secs keys] := by
  rw [buildChain, List.mapM_cons, (device_read K keys stPub serial hC hyear).2, List.mapM_cons,
    (xca_read K keys hC hyear).2, List.mapM_cons, (cross_read K keys hC hyear).2, List.mapM_cons, (root_read K keys hC hyear).2]
  rfl

theorem expires_le_expires (secs : ℕ) {years years' : ℕ} (h : years ≤ years') :
    expiresAt secs years ≤ expiresAt secs years' := by
  unfold expiresAt stamp
  dsimp only
  omega

/-- The X CA does not name itself. -/
theorem xca_named : (name true rootCn == name true xcaCn) = false := by decide +kernel

/-- The chain is valid as long as the certificate of the device is. -/
theorem chain_validates (hC : C.Signs verify) (time : ℕ) :
    validates verify time [deviceCertificate K secs keys stPub serial, xcaCertificate K secs keys,
      crossCertificate K secs keys, rootCertificate K secs keys] = true ↔
        issuedAt secs ≤ time ∧ time ≤ expiresAt secs 20 := by
  have hxca : (deviceCertificate K secs keys stPub serial).issuedBy verify (xcaCertificate K secs keys) 0 = true :=
    issuedBy_of rfl (.inr rfl) rfl rfl rfl (hC.accepts384 keys.xca _)
  have hcross : (xcaCertificate K secs keys).issuedBy verify (crossCertificate K secs keys) 1 = true :=
    issuedBy_of rfl (.inr rfl) rfl rfl rfl (hC.accepts384 keys.mid _)
  have hroot : (crossCertificate K secs keys).issuedBy verify (rootCertificate K secs keys) 1 = true :=
    issuedBy_of rfl (.inr rfl) rfl rfl rfl (hC.accepts521 keys.root _)
  have hself : (rootCertificate K secs keys).issuedBy verify (rootCertificate K secs keys) 1 = true :=
    issuedBy_of rfl (.inl rfl) rfl rfl rfl (hC.accepts521 keys.root _)
  have hxcaSelf : (xcaCertificate K secs keys).selfIssued = false := xca_named
  have hcrossSelf : (crossCertificate K secs keys).selfIssued = true := beq_self_eq_true _
  have hrootSelf : (rootCertificate K secs keys).selfIssued = true := beq_self_eq_true _
  have h35 := expires_le_expires secs (show 20 ≤ 35 by decide)
  have h40 := expires_le_expires secs (show 20 ≤ 40 by decide)
  have h50 := expires_le_expires secs (show 20 ≤ 50 by decide)
  have hholds : ∀ (spec : CertSpec C) (years : ℕ) (algorithms : List Bytes) (key : Bytes) (ca : Bool)
      (pathLen : Option ℕ) (usage : Bytes),
      (spec.certificate secs years algorithms key ca pathLen usage).holdsAt time = true ↔
        issuedAt secs ≤ time ∧ time ≤ expiresAt secs years := by
    intro spec years algorithms key ca pathLen usage
    rw [Certificate.holdsAt, Bool.and_eq_true, decide_eq_true_iff, decide_eq_true_iff]
    rfl
  simp only [validates, validPath, hxca, hcross, hroot, hself, hxcaSelf, hcrossSelf, hrootSelf, Bool.and_true,
    Bool.and_eq_true, if_true, Bool.false_eq_true, if_false, Nat.zero_add]
  unfold deviceCertificate xcaCertificate crossCertificate rootCertificate
  rw [hholds, hholds, hholds, hholds]
  omega

theorem buildCertStore_eq : buildCertStore K secs keys stPub serial =
    if (storeOf (buildChain K secs keys stPub serial)).length ≤ certStoreBlocks * certStoreBlockSize then
      .ok (storeOf (buildChain K secs keys stPub serial)) else .error (.panic .assert) := rfl

/-- The store is built, and it is small enough. -/
theorem buildCertStore_ok (hC : C.Signs verify) (hyear : (Validity.now secs).year + 50 ≤ 9999) :
    (∀ c ∈ buildChain K secs keys stPub serial, c.length ≤ 925) ∧
      (storeOf (buildChain K secs keys stPub serial)).length ≤ certStoreBlocks * certStoreBlockSize ∧
      buildCertStore K secs keys stPub serial = .ok (storeOf (buildChain K secs keys stPub serial)) := by
  have hdevice := (device_read K keys stPub serial hC hyear).1
  have hxca := (xca_read K keys hC hyear).1
  have hcross := (cross_read K keys hC hyear).1
  have hroot := (root_read K keys hC hyear).1
  have hlen : (storeOf (buildChain K secs keys stPub serial)).length ≤ certStoreBlocks * certStoreBlockSize := by
    rw [storeOf, List.length_append, List.length_append, lengths_length, buildChain]
    simp only [List.flatten_cons, List.flatten_nil, List.length_append, List.length_cons, List.length_nil]
    unfold certStoreBlocks certStoreBlockSize
    omega
  refine ⟨?_, hlen, ?_⟩
  swap
  · rw [buildCertStore_eq, if_pos hlen]
  intro c hc
  simp only [buildChain, List.mem_cons, List.not_mem_nil, or_false] at hc
  rcases hc with rfl | rfl | rfl | rfl
  · exact hdevice
  · exact hxca
  · exact hcross
  · exact hroot

/-- Whenever a device is provisioned, its store is built without a panic and split into four certificates, whatever
follows it; the first is for the key of the device and the last for that of the root, and the chain is valid from then
on for twenty years, no longer and no less. -/
theorem fresh_chain_validates (K : Crates) (C : CertCrates) (verify : Verifier) (hC : C.Signs verify) (secs : ℕ)
    (hyear : (Validity.now secs).year + 50 ≤ 9999) (keys : ChainKeys C) (stPub : ByteArr 32) (serial : ByteArr 8)
    (pad : Bytes) : ∃ store certs chain, buildCertStore K secs keys stPub serial = .ok store ∧
      splitCertStore (store ++ pad) = .ok certs ∧ certs.mapM readCertificate = some chain ∧ chain.length = 4 ∧
      (chain.head?.map fun c => (c.keyAlgorithm, c.key)) = some ([oidX25519], stPub.bytes) ∧
      (chain.getLast?.map fun c => (c.keyAlgorithm, c.key)) =
        some ([oidEcPublicKey, oidSecp521r1], (C.p521Point keys.root).bytes) ∧
      ∀ time, validates verify time chain = true ↔ issuedAt secs ≤ time ∧ time ≤ expiresAt secs 20 := by
  obtain ⟨hshort, -, hstore⟩ := buildCertStore_ok K keys stPub serial hC hyear
  exact ⟨_, _, _, hstore, splitCertStore_storeOf pad (fun c hc => (hshort c hc).trans_lt (by decide))
    (show 4 < 256 by decide),
    chain_read K keys stPub serial hC hyear, rfl, rfl, rfl, chain_validates K keys stPub serial hC⟩

end Chain

/-! A chain on record: of the 19th of October 2026, with the signatures that the crates make. -/

def rootPoint : ByteArr 133 :=
  ⟨toBe 48 0x040126f7e6a6df7087c94b0c1b0b194a85669ee810fda2eae12ca64160ded6b26c46475ebedcceae4011da8edd5c6394 ++
    toBe 48 0xe0b0bd4209a15227f2574656256854a7eb6e4601b9a248cd4017ddd4c2f6cc27cf0a307a1838ee9237913d8a501760b7 ++
    toBe 37 0xa638c9573b9a0a08ced30befa7a3c0938bbaaa770a7bc37dd175957cb3a45ebde3c9826eeb, by simp⟩

def midPoint : ByteArr 97 :=
  ⟨toBe 48 0x04dcd1d3e36f25e675bda55b28b3cfbe3d284287e1f9d16ac575b76c3c7036df30fe2a8f9be472194323e98b7441fd8e ++
    toBe 48 0xab4f8c2842a047ff97feeb592f6c00f252d07c5089eff7b3dd47498178e64989c5fa1257dc00dbc644bbc864ba5616aa ++
    toBe 1 0xe4, by simp⟩

def xcaPoint : ByteArr 97 :=
  ⟨toBe 48 0x04b5537c935265752085da0749789093453f079d3676d8b2d008b373cfd1da19e295af6a399bb6dcb4ed612e71897fcd ++
    toBe 48 0xe97f723d6c5eb1cd08ec5815d8e17d45fa79948096ce606c47bd9acfdf0fe29657dd258eb4d09d58ad237d869f4731d6 ++
    toBe 1 0x97, by simp⟩

def deviceSignature : Bytes :=
  toBe 48 0x3065023100cba972a540d1a8d50fc69ea2f4e2a4376bd1bca283ecf1eb04dfdb932160fa2369a0c0e15702b25cf136b9 ++
    toBe 48 0x419498b3db02305347b0c4174c48552168d9356347e7c370b6641b2e62f1aa54699d15293f6e3114ef2bc698b9cc8183 ++
    toBe 7 0xd21d778ba460d0

def xcaSignature : Bytes :=
  toBe 48 0x3065023021a56af81e6c68092524d99a3494815f0a545372d37f7544db7dc305cb128bfb9c53e2b8eb9989665499447a ++
    toBe 48 0x7883e0b5023100f00c50d8c78e38cd72acd51a6b53c4c13db6a4d4e0a6af3254b623022dbdff073ff729f463cdd0f457 ++
    toBe 7 0xb9c343f8acd7dc

def crossSignature : Bytes :=
  toBe 48 0x3081870241455658d0d4692f01904dcfe461be4f9e49d75918d7691a1bf9ab1b055579cc939b4bd215dde4bdb8be3989 ++
    toBe 48 0x5c660f55c7da362b9ee49f5dce5c4c9b85fbb2c5022a024201b939d1fafd9a56247b2d8fcc8baa4b8d4b2e1368702cda ++
    toBe 42 0xd4bce4c4280006b52f909210ff6e7e66bc393509cd0e13ae93e11f889ff067f0a0735dfce5d0c09acf10

def rootSignature : Bytes :=
  toBe 48 0x308188024201e0996ecdd94b4f7b446d4ff069c5bc2d598d6fde62bc69b90aa07de872b32f512a9a8038d20fd7cc9672 ++
    toBe 48 0x18e0f48a1f88b7ce623ba7ecf07f9087a576577276abb5024201d5756fe3aa7dcf2509ea0703397328fdacbf634763c9 ++
    toBe 43 0x629a1dc37412d95738119075db7ac73114d28e79c14e7c13795c4b64e35f9a5423b9944df3146722c331d1

/-- The keys of the two CAs under the root. -/
inductive RecordedKey
  | mid
  | xca

/-- The X CA signs the device, and the key over it the X CA. -/
def signedWith : RecordedKey → Bytes
  | .mid => xcaSignature
  | .xca => deviceSignature

/-- The root signs the cross certificate and itself. -/
def signedByRoot (m : Bytes) : Bytes := if m.length = 453 then crossSignature else rootSignature

def chainCertCrates : CertCrates where
  P384 := RecordedKey
  P521 := Unit
  p384Random _ := .mid
  p521Random _ := ()
  p384Point
    | .mid => midPoint
    | .xca => xcaPoint
  p521Point _ := rootPoint
  p384Sign key _ := signedWith key
  p521Sign _ m := signedByRoot m

/-- As it was signed, under the point of the key. -/
def chainVerifier : Verifier := fun _ _ key m signature =>
  signature == if key = rootPoint.bytes then signedByRoot m
    else if key = midPoint.bytes then signedWith .mid else signedWith .xca

/-- The digests of the points. -/
def chainDigests : List (Bytes × ByteArr 32) :=
  [(rootPoint.bytes, ⟨toBe 32 0xc22c72a382824e881148148585ea63dda5921f076444ff630948fd5f4fcb88c9, toBe_length _ _⟩),
    (midPoint.bytes, ⟨toBe 32 0x8c69e5e046a42e182afb5f367c7f08af417d932e842db04f5ef76149fbf84798, toBe_length _ _⟩),
    (xcaPoint.bytes, ⟨toBe 32 0x4c6ceb72655e5b0ef15dac9dad207421a4fce370e1d6919a868a330b9739908f, toBe_length _ _⟩)]

def chainCrates : Crates :=
  { sessionCrates with sha256 := fun b => (chainDigests.lookup b).getD (sessionCrates.sha256 b) }

theorem chainCertCrates_signs : chainCertCrates.Signs chainVerifier where
  short384 := by
    rintro (_ | _) _
    · change xcaSignature.length ≤ 104
      simp [xcaSignature]
    · change deviceSignature.length ≤ 104
      simp [deviceSignature]
  short521 := by
    rintro _ m
    change (signedByRoot m).length ≤ 139
    unfold signedByRoot
    split_ifs
    · simp [crossSignature]
    · simp [rootSignature]
  accepts384 := by
    have hmid : midPoint.bytes ≠ rootPoint.bytes := by decide +kernel
    have hxca : xcaPoint.bytes ≠ rootPoint.bytes := by decide +kernel
    have hxcaMid : xcaPoint.bytes ≠ midPoint.bytes := by decide +kernel
    rintro (_ | _) m
    · change (signedWith .mid == if midPoint.bytes = rootPoint.bytes then signedByRoot m
        else if midPoint.bytes = midPoint.bytes then signedWith .mid else signedWith .xca) = true
      rw [if_neg hmid, if_pos rfl, beq_self_eq_true]
    · change (signedWith .xca == if xcaPoint.bytes = rootPoint.bytes then signedByRoot m
        else if xcaPoint.bytes = midPoint.bytes then signedWith .mid else signedWith .xca) = true
      rw [if_neg hxca, if_neg hxcaMid, beq_self_eq_true]
  accepts521 := by
    rintro _ m
    change (signedByRoot m == if rootPoint.bytes = rootPoint.bytes then signedByRoot m
      else if rootPoint.bytes = midPoint.bytes then signedWith .mid else signedWith .xca) = true
    rw [if_pos rfl, beq_self_eq_true]

def recordedKeys : ChainKeys chainCertCrates := ⟨(), .mid, .xca⟩

/-- The day of the record. -/
def recordedSecs : ℕ := 1792413296

/-- Valid in 2046 on its last day, and not a second later. -/
theorem recorded_chain_validates : ∃ store certs chain,
    buildCertStore chainCrates recordedSecs recordedKeys ⟨chipStatic, toBe_length _ _⟩
      ⟨[1, 2, 3, 4, 5, 6, 7, 8], rfl⟩ = .ok store ∧ splitCertStore (store ++ List.replicate 1610 0) = .ok certs ∧
      certs.mapM readCertificate = some chain ∧ validates chainVerifier 20461019123456 chain = true ∧
      validates chainVerifier 20461019123457 chain = false := by
  obtain ⟨store, certs, chain, hstore, hsplit, hread, -, -, -, hvalid⟩ := fresh_chain_validates chainCrates
    chainCertCrates chainVerifier chainCertCrates_signs recordedSecs (by decide +kernel) recordedKeys
    ⟨chipStatic, toBe_length _ _⟩ ⟨[1, 2, 3, 4, 5, 6, 7, 8], rfl⟩ (List.replicate 1610 0)
  have hfrom : issuedAt recordedSecs = 20261019123456 := by decide +kernel
  have hto : expiresAt recordedSecs 20 = 20461019123456 := by decide +kernel
  rw [hfrom, hto] at hvalid
  refine ⟨store, certs, chain, hstore, hsplit, hread, (hvalid _).mpr ⟨by decide, by decide⟩, ?_⟩
  rw [Bool.eq_false_iff, Ne, hvalid]
  decide

end TROPIC01
end Simulators
