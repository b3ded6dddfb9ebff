/-
# TROPIC01: a device as it leaves the factory

The host of `tests/tcp.rs` does not read certificates: it looks for the OID of
X25519 in the first one and takes the bytes behind it for the key of the
device. Everything that is before the OID in the certificate that `build_cert`
has made is free of the marker (`Clear`), but for the serial number, which is
drawn. With a serial number that has no marker in it the host finds the key of
the device, and opens a session with the pairing key of the factory
(`fresh_device_opens_session`).

Key definitions: `keyMarker`, `Clear`.
Key theorems: `windowPosition_of_clear`, `device_clear`, `storeBlob_eq`,
`certKey_storeOf`, `fresh_device_opens_session`.
-/
import Simulators.TROPIC01.CertStore

namespace Simulators
namespace TROPIC01

/-! ### Looking for the marker -/

/-- The OID of X25519 and the head of the bit string behind it. -/
def keyMarker : Bytes := [0x2b, 0x65, 0x6e, 0x03, 0x21, 0x00]

/-- The marker begins nowhere in `p`, if `rest` follows. -/
def Clear (p rest : Bytes) : Prop := ∀ i < p.length, ((p ++ rest).drop i).take keyMarker.length ≠ keyMarker

variable {p q rest : Bytes}

theorem clear_append (hp : Clear p (q ++ rest)) (hq : Clear q rest) : Clear (p ++ q) rest := by
  intro i hi
  rw [List.append_assoc]
  by_cases h : i < p.length
  · exact hp i h
  · rw [List.length_append] at hi
    rw [List.drop_append, List.drop_eq_nil_of_le (by omega), List.nil_append]
    exact hq (i - p.length) (by omega)

/-- The first byte of the marker is not there. -/
theorem clear_of_not_mem (h : 0x2b ∉ p) : Clear p rest := by
  intro i hi htake
  rw [List.drop_append_of_le_length (Nat.le_of_lt hi), List.drop_eq_getElem_cons hi, List.cons_append, keyMarker,
    List.length_cons, List.take_succ_cons, List.cons.injEq] at htake
  exact h (htake.1 ▸ List.getElem_mem hi)

/-- A byte that may be the first of the marker, before one that is not the second. -/
theorem clear_byte {b : UInt8} (h : rest.head? ≠ some 0x65) : Clear [b] rest := by
  intro i hi htake
  obtain rfl : i = 0 := by simpa using hi
  rcases rest with _ | ⟨b', rest⟩
  · simp [keyMarker] at htake
  · simp [keyMarker] at htake
    simp [htake.2.1] at h

/-- The marker is not in `p`, and what follows is not of the marker. -/
theorem clear_serial {b : UInt8} (h : ¬ keyMarker <:+: p) (hb : b ∉ keyMarker) : Clear p (b :: rest) := by
  intro i hi htake
  by_cases hin : i + keyMarker.length ≤ p.length
  · rw [List.drop_append_of_le_length (by omega),
      List.take_append_of_le_length (by rw [List.length_drop]; omega)] at htake
    exact h (htake ▸ (List.take_prefix _ _).isInfix.trans (List.drop_suffix i p).isInfix)
  · refine hb ?_
    have hlen : (p.drop i).length < keyMarker.length := by
      rw [List.length_drop]
      omega
    obtain ⟨k, hk⟩ := Nat.exists_eq_succ_of_ne_zero (Nat.sub_ne_zero_of_lt hlen)
    rw [← htake, List.drop_append_of_le_length (Nat.le_of_lt hi), List.take_append, hk, List.take_succ_cons]
    exact List.mem_append_right _ List.mem_cons_self

theorem windowPosition_of_clear (h : Clear p (keyMarker ++ rest)) :
    Host.windowPosition keyMarker (p ++ (keyMarker ++ rest)) = some p.length := by
  rw [Host.windowPosition, List.find?_range_eq_some]
  refine ⟨?_, ?_, ?_⟩
  · rw [List.drop_left, List.take_left, decide_eq_true_eq]
  · rw [List.mem_range, List.length_append, List.length_append]
    exact Nat.lt_add_of_pos_right (Nat.add_pos_left (by decide) _)
  · intro i hi
    rw [Bool.not_eq_true', decide_eq_false_iff_not]
    exact h i hi

/-! ### In front of the key -/

theorem clear_derLen {n : ℕ} (hn : n < 0x2b00) (h : rest.head? ≠ some 0x65) : Clear (derLen n) rest := by
  unfold derLen
  split_ifs with hone htwo
  · exact clear_byte h
  · exact clear_append (p := [0x81]) (clear_of_not_mem (by decide)) (clear_byte h)
  · have hhi : UInt8.ofNat (n >>> 8) ≠ 0x2b := by
      rw [Nat.shiftRight_eq_div_pow]
      intro heq
      have htoNat := congrArg UInt8.toNat heq
      rw [UInt8.toNat_ofNat', Nat.mod_eq_of_lt (by omega)] at htoNat
      change n / 2 ^ 8 = 43 at htoNat
      omega
    refine clear_append (p := [0x82, UInt8.ofNat (n >>> 8)]) (clear_of_not_mem ?_) (clear_byte h)
    simp only [List.mem_cons, List.not_mem_nil, or_false, not_or]
    exact ⟨by decide, fun heq => hhi heq.symm⟩

/-- A value before which nothing is. -/
theorem clear_tlv {tag : UInt8} {content : Bytes} (htag : tag ≠ 0x2b) (hlen : content.length < 0x2b00)
    (hhead : (content ++ rest).head? ≠ some 0x65) (h : Clear content rest) : Clear (tlv tag content) rest := by
  have htagClear : Clear [tag] (derLen content.length ++ content ++ rest) :=
    clear_of_not_mem (by simpa using htag.symm)
  exact clear_append htagClear (clear_append (clear_derLen hlen hhead) h)

/-- Contents that begin with a byte other than the second of the marker, and have its first nowhere. -/
theorem clear_tlv_cons {tag b : UInt8} {bs : Bytes} (htag : tag ≠ 0x2b) (hlen : (b :: bs).length < 0x2b00)
    (hb : b ≠ 0x65) (h : 0x2b ∉ b :: bs) : Clear (tlv tag (b :: bs)) rest :=
  clear_tlv htag hlen (fun hhead => hb (Option.some.inj hhead)) (clear_of_not_mem h)

theorem paddedInt_ascii (w : ℕ) (z : ℤ) : ∃ b bs, paddedInt w z = b :: bs ∧ ∀ c ∈ b :: bs, c.toNat = 45 ∨
    48 ≤ c.toNat ∧ c.toNat < 58 := by
  have hdigits : ∀ w n, ∃ b bs, padded w n = b :: bs ∧ ∀ c ∈ b :: bs, 48 ≤ c.toNat ∧ c.toNat < 58 := by
    intro w n
    have hlen : (padded w n).length = max w (Nat.log 10 n + 1) := X509.digits_length _ _
    have hascii : ∀ c ∈ padded w n, 48 ≤ c.toNat ∧ c.toNat < 58 := X509.digits_ascii _ _
    rcases hp : padded w n with _ | ⟨b, bs⟩
    · rw [hp, List.length_nil] at hlen
      omega
    · exact ⟨b, bs, rfl, hp ▸ hascii⟩
  unfold paddedInt
  split_ifs
  · obtain ⟨b, bs, hp, hascii⟩ := hdigits (w - 1) z.natAbs
    refine ⟨0x2d, _, rfl, ?_⟩
    rintro c (_ | ⟨_, hc⟩)
    · exact .inl rfl
    · exact .inr (hascii c (hp ▸ hc))
  · obtain ⟨b, bs, hp, hascii⟩ := hdigits w z.toNat
    exact ⟨b, bs, hp, fun c hc => .inr (hascii c hc)⟩

theorem padded_ascii (w n : ℕ) : ∀ c ∈ padded w n, 48 ≤ c.toNat ∧ c.toNat < 91 := fun c hc =>
  ⟨(X509.digits_ascii _ _ c hc).1, (X509.digits_ascii _ _ c hc).2.trans (by decide)⟩

theorem time_clear {tag : UInt8} {fields : Bytes} (w : ℕ) (z : ℤ) (htag : tag ≠ 0x2b)
    (hfields : ∀ c ∈ fields, 48 ≤ c.toNat ∧ c.toNat < 91) (hlen : (tlv tag (paddedInt w z ++ fields)).length ≤ 19) :
    Clear (tlv tag (paddedInt w z ++ fields)) rest := by
  obtain ⟨b, bs, hyear, hascii⟩ := paddedInt_ascii w z
  rw [hyear, List.cons_append] at hlen ⊢
  have hshort : (b :: (bs ++ fields)).length < 0x2b00 := by
    rw [tlv, List.length_cons, List.length_append] at hlen
    omega
  refine clear_tlv_cons htag hshort ?_ ?_
  · rintro rfl
    exact absurd (hascii _ List.mem_cons_self) (by decide)
  · intro hmem
    rw [← List.cons_append, List.mem_append] at hmem
    rcases hmem with hmem | hmem
    · exact absurd (hascii _ hmem) (by decide)
    · exact absurd (hfields _ hmem) (by decide)

/-- A time is made of digits. -/
theorem x509Time_clear {y : ℤ} {mo d h mi s : UInt32} (rest : Bytes) (hlen : (x509Time y mo d h mi s).length ≤ 19) :
    Clear (x509Time y mo d h mi s) rest ∧ ∃ b bs, x509Time y mo d h mi s = b :: bs ∧ b ≠ 0x65 := by
  have hfields : ∀ c ∈ padded 2 mo.toNat ++ padded 2 d.toNat ++ padded 2 h.toNat ++ padded 2 mi.toNat ++
      padded 2 s.toNat ++ [0x5a], 48 ≤ c.toNat ∧ c.toNat < 91 := by
    intro c hc
    simp only [List.mem_append, List.mem_singleton] at hc
    rcases hc with ((((hc | hc) | hc) | hc) | hc) | rfl
    · exact padded_ascii _ _ c hc
    · exact padded_ascii _ _ c hc
    · exact padded_ascii _ _ c hc
    · exact padded_ascii _ _ c hc
    · exact padded_ascii _ _ c hc
    · decide
  unfold x509Time at hlen ⊢
  dsimp only at hlen ⊢
  split_ifs at hlen ⊢
  · exact ⟨time_clear 2 _ (by decide) hfields hlen, _, _, rfl, by decide⟩
  · exact ⟨time_clear 4 _ (by decide) hfields hlen, _, _, rfl, by decide⟩

theorem forYears_clear {secs years : ℕ} (h : (Validity.now secs).year + years ≤ 9999) :
    Clear ((Validity.now secs).forYears years) rest := by
  obtain ⟨notBefore, notAfter, hyears, ⟨hbefore, -⟩, ⟨hafter, -⟩, ⟨y, mo, d, h, mi, s, rfl⟩, y', mo', d', h', mi', s',
    rfl⟩ := forYears_read h
  obtain ⟨hclear, b, bs, hcons, hb⟩ := x509Time_clear (x509Time y' mo' d' h' mi' s' ++ rest) hbefore
  obtain ⟨hclear', -⟩ := x509Time_clear rest hafter
  have hflat : [x509Time y mo d h mi s, x509Time y' mo' d' h' mi' s'].flatten =
      x509Time y mo d h mi s ++ x509Time y' mo' d' h' mi' s' := by
    rw [List.flatten_cons, List.flatten_singleton]
  rw [hyears, seq, hflat]
  refine clear_tlv (by decide) (by rw [List.length_append]; omega) ?_ (clear_append hclear hclear')
  rw [hcons]
  exact fun hhead => hb (Option.some.inj hhead)

theorem hexDigit_ascii {n : ℕ} (h : n < 16) : hexDigit n ≠ 0x2b := by
  intro heq
  have htoNat := congrArg UInt8.toNat heq
  unfold hexDigit at htoNat
  rw [UInt8.toNat_ofNat'] at htoNat
  change _ = 43 at htoNat
  split_ifs at htoNat <;> omega

/-- No plus sign in the name of the device. -/
theorem deviceCn_not_mem (serial : ByteArr 8) : 0x2b ∉ deviceCn serial := by
  intro hmem
  rw [deviceCn, List.mem_append] at hmem
  rcases hmem with hmem | hmem
  · exact absurd hmem (by decide)
  · obtain ⟨b, -, hb⟩ := List.mem_flatMap.mp hmem
    have hlt := b.toNat_lt
    simp only [hexByte, List.mem_cons, List.not_mem_nil, or_false] at hb
    rcases hb with hb | hb
    · exact hexDigit_ascii (by omega) hb.symm
    · exact hexDigit_ascii (by omega) hb.symm

/-- Contents of a known length behind a head. -/
theorem tlv_eq (tag : UInt8) (head : Bytes) {content : Bytes} {n : ℕ} (h : head.length + content.length = n) :
    tlv tag (head ++ content) = tag :: (derLen n ++ head) ++ content := by
  rw [tlv, List.length_append, h, List.cons_append, List.append_assoc]

theorem name_eq {cn : Bytes} (hlen : cn.length = 32) : name false cn =
    [0x30, 0x2b] ++ ([0x31, 0x29, 0x30, 0x27, 0x06, 0x03, 0x55, 0x04, 0x03, 0x0c, 0x20] ++ cn) := by
  have hutf8 : utf8 cn = [0x0c, 0x20] ++ cn := tlv_eq 0x0c [] (n := 32) (by rw [List.length_nil, hlen])
  have hseq : seq [oid oidCn, utf8 cn] = [0x30, 0x27, 0x06, 0x03, 0x55, 0x04, 0x03, 0x0c, 0x20] ++ cn := by
    rw [seq, List.flatten_cons, List.flatten_singleton, hutf8, ← List.append_assoc]
    exact tlv_eq 0x30 (oid oidCn ++ [0x0c, 0x20]) (n := 39) (by rw [hlen]; decide)
  have hset : set [seq [oid oidCn, utf8 cn]] =
      [0x31, 0x29, 0x30, 0x27, 0x06, 0x03, 0x55, 0x04, 0x03, 0x0c, 0x20] ++ cn := by
    rw [set, List.flatten_singleton, hseq]
    exact tlv_eq 0x31 [0x30, 0x27, 0x06, 0x03, 0x55, 0x04, 0x03, 0x0c, 0x20] (n := 41) (by rw [hlen]; decide)
  change seq [set [seq [oid oidCn, utf8 cn]]] = _
  rw [seq, List.flatten_singleton, hset]
  exact tlv_eq 0x30 [0x31, 0x29, 0x30, 0x27, 0x06, 0x03, 0x55, 0x04, 0x03, 0x0c, 0x20] (n := 43)
    (by rw [hlen]; decide)

theorem deviceName_clear (serial : ByteArr 8) : Clear (name false (deviceCn serial)) rest := by
  rw [name_eq deviceCn_length]
  refine clear_append (clear_append (p := [0x30]) (clear_of_not_mem (by decide)) (clear_byte (by rintro ⟨⟩))) ?_
  exact clear_append (clear_of_not_mem (by decide)) (clear_of_not_mem (deviceCn_not_mem serial))

theorem x25519Spki_eq (stPub : ByteArr 32) :
    x25519Spki stPub = [0x30, 0x2a, 0x30, 0x05, 0x06, 0x03] ++ (keyMarker ++ stPub.bytes) := by
  have hbits : bitString stPub.bytes 0 = [0x03, 0x21, 0x00] ++ stPub.bytes :=
    tlv_eq 0x03 [0x00] (n := 33) (by rw [stPub.size]; decide)
  rw [x25519Spki, seq, List.flatten_cons, List.flatten_singleton, hbits, ← List.append_assoc]
  exact tlv_eq 0x30 (seq [oid oidX25519] ++ [0x03, 0x21, 0x00]) (n := 42) (by rw [stPub.size]; decide)

/-- A sequence, from its first part. -/
theorem seq_cons (part : Bytes) (parts : List Bytes) {k : ℕ} (h : (seq (part :: parts)).length ≤ k) : ∃ n, n ≤ k ∧
    seq (part :: parts) = [0x30] ++ (derLen n ++ (part ++ parts.flatten)) := by
  refine ⟨(part :: parts).flatten.length, ?_, by rw [seq, tlv, List.flatten_cons]; rfl⟩
  rw [seq, tlv, List.length_cons, List.length_append] at h
  omega

section Device

variable {K : Crates} {C : CertCrates} {verify : X509.Verifier} {secs : ℕ} {keys : ChainKeys C} {stPub : ByteArr 32}
  {serial : ByteArr 8}

theorem buildCert_cons {spec : CertSpec C} {k : ℕ} (h : (buildCert spec).length ≤ k) : ∃ n tail, n ≤ k ∧
    buildCert spec = [0x30] ++ (derLen n ++ (spec.tbs ++ tail)) := by
  obtain ⟨n, hn, hcert⟩ := seq_cons spec.tbs [seq [oid spec.issuer.sigOid],
    bitString (spec.issuer.sign C spec.tbs) 0] h
  exact ⟨n, _, hn, hcert⟩

theorem deviceTbs_cons {v : Validity} {k : ℕ} (h : (deviceSpec K v keys stPub serial).tbs.length ≤ k) :
    ∃ n tail, n ≤ k ∧ (deviceSpec K v keys stPub serial).tbs =
      [0x30] ++ (derLen n ++ (tlv 0xa0 (integer [2]) ++ ([0x02, 0x09, 0x01] ++ (serial.bytes ++
        (seq [oid oidEcdsaSha384] ++ (name true xcaCn ++ (v.forYears 20 ++ (name false (deviceCn serial) ++
          ([0x30, 0x2a, 0x30, 0x05, 0x06, 0x03] ++ (keyMarker ++ (stPub.bytes ++ tail))))))))))) := by
  obtain ⟨n, hn, htbs⟩ := seq_cons (tlv 0xa0 (integer [2])) [integer (0x01 :: serial.bytes), seq [oid oidEcdsaSha384],
    name true xcaCn, v.forYears 20, name false (deviceCn serial), x25519Spki stPub,
    tlv 0xa3 (seq (deviceSpec K v keys stPub serial).exts)] h
  have hserial : integer (0x01 :: serial.bytes) = [0x02, 0x09, 0x01] ++ serial.bytes := by
    have hcontent : integerContent (0x01 :: serial.bytes) = [0x01] ++ serial.bytes := rfl
    rw [integer, hcontent]
    exact tlv_eq 0x02 [0x01] (n := 9) (by rw [serial.size]; decide)
  refine ⟨n, tlv 0xa3 (seq (deviceSpec K v keys stPub serial).exts), hn, htbs.trans ?_⟩
  simp only [List.flatten_cons, List.flatten_nil, List.append_nil, hserial, x25519Spki_eq, List.append_assoc]

variable (K) (keys) (stPub) in
/-- The serial number is the only place where the marker could be in front of the key. -/
theorem device_clear (hC : C.Signs verify) (hyear : (Validity.now secs).year + 50 ≤ 9999)
    (hserial : ¬ keyMarker <:+: serial.bytes) : ∃ p tail,
      buildCert (deviceSpec K (Validity.now secs) keys stPub serial) = p ++ (keyMarker ++ (stPub.bytes ++ tail)) ∧
      Clear p (keyMarker ++ (stPub.bytes ++ tail)) := by
  have hlen := (device_read K keys stPub serial hC hyear).1
  obtain ⟨n, certTail, hn, hcert⟩ := buildCert_cons hlen
  have htbsLen : (deviceSpec K (Validity.now secs) keys stPub serial).tbs.length ≤ 925 := by
    rw [hcert] at hlen
    simp only [List.length_append] at hlen
    omega
  obtain ⟨m, tbsTail, hm, htbs⟩ := deviceTbs_cons htbsLen
  have hyears : (Validity.now secs).year + (20 : ℕ) ≤ 9999 := by omega
  refine ⟨[0x30] ++ (derLen n ++ ([0x30] ++ (derLen m ++ (tlv 0xa0 (integer [2]) ++ ([0x02, 0x09, 0x01] ++
    (serial.bytes ++ (seq [oid oidEcdsaSha384] ++ (name true xcaCn ++ ((Validity.now secs).forYears 20 ++
      (name false (deviceCn serial) ++ [0x30, 0x2a, 0x30, 0x05, 0x06, 0x03])))))))))), tbsTail ++ certTail, ?_, ?_⟩
  · rw [hcert, htbs]
    simp only [List.append_assoc]
  · refine clear_append (clear_of_not_mem (by decide)) (clear_append (clear_derLen (hn.trans_lt (by decide))
      (by rintro ⟨⟩)) ?_)
    refine clear_append (clear_of_not_mem (by decide)) (clear_append (clear_derLen (hm.trans_lt (by decide))
      (by rintro ⟨⟩)) ?_)
    refine clear_append (clear_of_not_mem (by decide)) (clear_append (clear_of_not_mem (by decide)) ?_)
    refine clear_append (clear_serial hserial (by decide)) (clear_append (clear_of_not_mem (by decide)) ?_)
    refine clear_append (clear_of_not_mem (by decide +kernel)) (clear_append (forYears_clear hyears) ?_)
    exact clear_append (deviceName_clear serial) (clear_of_not_mem (by decide))

end Device

/-! ### What the host reads -/

theorem certBlocks_flat (dev : Device) (n : ℕ) : (List.range n).flatMap (certBlock dev) =
    dev.certStore.take (n * certStoreBlockSize) ++
      List.replicate (n * certStoreBlockSize - dev.certStore.length) 0 := by
  induction n with
  | zero => rw [Nat.zero_mul, Nat.zero_sub]; rfl
  | succ n ih =>
    rw [List.range_succ, List.flatMap_append, List.flatMap_singleton, ih, Nat.succ_mul]
    unfold certBlock
    dsimp only
    rw [List.length_take, List.length_drop]
    by_cases h : dev.certStore.length ≤ n * certStoreBlockSize
    · -- the store has ended, and the block is all zeros
      have hzeros : n * certStoreBlockSize - dev.certStore.length + (certStoreBlockSize -
          min certStoreBlockSize (dev.certStore.length - n * certStoreBlockSize)) =
          n * certStoreBlockSize + certStoreBlockSize - dev.certStore.length := by omega
      rw [List.drop_eq_nil_of_le h, List.take_nil, List.nil_append, List.take_of_length_le h,
        List.take_of_length_le (h.trans (Nat.le_add_right _ _)), List.append_assoc, List.replicate_append_replicate,
        hzeros]
    · have hfull : n * certStoreBlockSize - dev.certStore.length = 0 := by omega
      have hzeros : certStoreBlockSize - min certStoreBlockSize (dev.certStore.length - n * certStoreBlockSize) =
          n * certStoreBlockSize + certStoreBlockSize - dev.certStore.length := by omega
      rw [hfull, List.replicate_zero, List.append_nil, ← List.append_assoc, ← List.take_add, hzeros]

/-- The blocks, one behind the other, are the store and zeros. -/
theorem storeBlob_eq (dev : Device) (h : dev.certStore.length ≤ certStoreBlocks * certStoreBlockSize) :
    storeBlob dev = dev.certStore ++
      List.replicate (certStoreBlocks * certStoreBlockSize - dev.certStore.length) 0 := by
  have hblocks : Host.blocksOfStore.map UInt8.toNat = List.range certStoreBlocks := by decide
  rw [storeBlob, ← List.flatMap_map UInt8.toNat, hblocks, certBlocks_flat, List.take_of_length_le h]

/-- The bytes behind the first marker of the first certificate. -/
theorem certKey_storeOf {cert : Bytes} {certs : List Bytes} {p rest : Bytes} (key : ByteArr 32) (pad : Bytes)
    (hmany : certs.length = 3) (hlen : cert.length < 65536) (hcert : cert = p ++ (keyMarker ++ (key.bytes ++ rest)))
    (hclear : Clear p (keyMarker ++ (key.bytes ++ rest))) :
    Host.certKey (storeOf (cert :: certs) ++ pad) = .ok key := by
  obtain ⟨hi, lo, hbytes, hbe⟩ := toBe_two cert.length
  rw [Nat.mod_eq_of_lt hlen] at hbe
  have hstore : storeOf (cert :: certs) ++ pad = [1, UInt8.ofNat (cert :: certs).length] ++
      hi :: lo :: (certs.flatMap (fun c => toBe 2 c.length) ++ (cert ++ (certs.flatten ++ pad))) := by
    rw [storeOf, List.flatMap_cons, hbytes, List.flatten_cons]
    simp only [List.append_assoc, List.cons_append, List.nil_append]
  have hhi : (Handler.index (storeOf (cert :: certs) ++ pad) 2 : Handler Empty UInt8) = .ok hi :=
    index_between _ hstore rfl
  have hlo : (Handler.index (storeOf (cert :: certs) ++ pad) 3 : Handler Empty UInt8) = .ok lo :=
    index_between (_ ++ [hi]) (hstore.trans (List.append_cons _ _ _)) rfl
  have hslice : (Handler.slice (storeOf (cert :: certs) ++ pad) 10 (10 + cert.length) : Handler Empty Bytes) =
      .ok cert := by
    have hwhole : storeOf (cert :: certs) ++ pad = ([1, UInt8.ofNat (cert :: certs).length, hi, lo] ++
        certs.flatMap (fun c => toBe 2 c.length)) ++ (cert ++ (certs.flatten ++ pad)) := by
      rw [hstore]
      simp only [List.cons_append, List.nil_append]
    refine slice_between _ cert _ hwhole ?_ rfl
    rw [List.length_append, lengths_length, hmany]
    rfl
  have hposition : Host.windowPosition [0x2b, 0x65, 0x6e, 0x03, 0x21, 0x00] cert = some p.length := by
    rw [hcert]
    exact windowPosition_of_clear hclear
  have hkey : (Handler.slice cert (p.length + 6) (p.length + 6 + 32) : Handler Empty Bytes) = .ok key.bytes := by
    refine slice_between (p ++ keyMarker) key.bytes rest ?_ ?_ ?_
    · rw [hcert, List.append_assoc]
    · rw [List.length_append]
      rfl
    · rw [key.size]
  rw [Host.certKey, hhi, Handler.ok_bind, hlo, Handler.ok_bind, hbe, hslice, Handler.ok_bind, hposition]
  change ((Handler.slice cert (p.length + 6) (p.length + 6 + 32) : Handler Empty Bytes) >>= Handler.array 32) = _
  rw [hkey, Handler.ok_bind, Handler.array_bytes]

/-! ### The first session -/

section Fresh

variable {K : Crates} {C : CertCrates} {verify : X509.Verifier} {secs : ℕ}

/-- The store of a fresh device hands out the key of the device. -/
theorem fresh_certKey (hC : C.Signs verify) (hyear : (Validity.now secs).year + 50 ≤ 9999) (keys : ChainKeys C)
    (prov : Provisioning) {e : Entropy} (hserial : ¬ keyMarker <:+: e.serial.bytes) : ∃ store,
      buildCertStore K secs keys (K.x25519Public e.stPriv) e.serial = .ok store ∧
      Host.certKey (storeBlob (provision K (fun _ _ => store) prov e)) = .ok (K.x25519Public e.stPriv) := by
  obtain ⟨hshort, hlen, hstore⟩ := buildCertStore_ok K keys (K.x25519Public e.stPriv) e.serial hC hyear
  obtain ⟨p, rest, hcert, hclear⟩ := device_clear K keys (K.x25519Public e.stPriv) hC hyear hserial
  refine ⟨_, hstore, ?_⟩
  rw [storeBlob_eq (provision K (fun _ _ => storeOf (buildChain K secs keys (K.x25519Public e.stPriv) e.serial)) prov e)
    hlen]
  exact certKey_storeOf (K.x25519Public e.stPriv) _ rfl ((hshort _ List.mem_cons_self).trans_lt (by decide)) hcert
    hclear

/-- The store of a fresh device is built, and whatever the device has been through since: in application mode, as long
as the pairing key of the factory is in use, a host that has the private key to it gets a session, and the results of
its commands in it are those of the commands executed directly. Only a serial number with the marker in it could lead
the host astray. -/
theorem fresh_device_opens_session (K : Crates) (hK : K.Agrees) (C : CertCrates) (verify : X509.Verifier)
    (hC : C.Signs verify) (secs : ℕ) (hyear : (Validity.now secs).year + 50 ≤ 9999) (keys : ChainKeys C)
    (prov : Provisioning) (e : Entropy) (hserial : ¬ keyMarker <:+: e.serial.bytes) : ∃ store,
    buildCertStore K secs keys (K.x25519Public e.stPriv) e.serial = .ok store ∧
    ∀ (busyPolls : ℕ), busyPolls < Host.readAttempts → ∀ (inputs : List (OsRng × SpiEvent)) (c : Chip) (dev : Device),
      (outputs (Sim.step K) (.ok ({ Chip.new prov.personality with busyPolls }, provision K (fun _ _ => store) prov e))
        inputs).2 = .ok (c, dev) → c.mode = .application →
      dev.pairingSlots.lookup 0 = some ⟨prov.personality.defaultSh0Pub, .written⟩ →
      ∀ (shipriv : ByteArr 32), K.x25519Public shipriv = prov.personality.defaultSh0Pub →
      ∀ (draws : ℕ → OsRng) (t : ℕ) (host : Host) (eh : ByteArr 32), ∃ host₁ l₁,
        Host.handshake K draws host 0 shipriv (K.x25519Public shipriv) eh ⟨.ok (c, dev), t⟩ =
          .ok ((statusRequestOk, host₁), l₁) ∧
        ∀ rounds ≥ 17, ∀ cmds : List (Bytes × Option ℕ), (∀ cmd ∈ cmds, cmd.1.length < 2 ^ 16) →
          ∃ results log d' c' host' t',
            Run (directStep K) ⟨dev, c.configInForce dev, c.l3State, c.personality, 0, some 0⟩ log d' ∧
            Mirrors draws l₁.time cmds results log ∧
            Host.commands K draws rounds host₁ cmds l₁ = .ok ((results, host'), ⟨.ok (c', d'.device), t'⟩) := by
  obtain ⟨store, hstore, hkey⟩ := fresh_certKey (K := K) hC hyear keys prov hserial
  refine ⟨store, hstore, fun busyPolls hbusy inputs c dev hrun hm hslot shipriv hpair draws t host eh => ?_⟩
  have hshaped := provision_shaped K (fun _ _ => store) prov e
  obtain ⟨-, hopens⟩ := channel_is_transparent K hK prov.personality busyPolls hbusy _ hshaped hkey rfl inputs hrun hm
    draws t host (show (0 : UInt8).toNat ≤ 3 by decide) shipriv eh
  exact hopens (by rw [hpair]; exact hslot)

end Fresh

/-- The device of the recorded chain, with the serial number and the key on record. -/
def recordedEntropy : Entropy :=
  ⟨⟨[1, 2, 3, 4, 5, 6, 7, 8], rfl⟩, chipStaticSecret, zeroArr 32, zeroArr 32⟩

theorem chainCrates_agree : chainCrates.Agrees := ⟨sharedSecretOf_agree, openOf_sealOf, sealOf_length⟩

/-- It opens its first session. -/
theorem recorded_device_opens_session : ∃ store host l,
    buildCertStore chainCrates recordedSecs recordedKeys (chainCrates.x25519Public recordedEntropy.stPriv)
      recordedEntropy.serial = .ok store ∧
    Host.handshake chainCrates (fun _ => countingRng) {} 0 hostStaticSecret (publicKeyOf hostStaticSecret)
      hostEphemeralSecret ⟨.ok (Chip.new .fw220, provision chainCrates (fun _ _ => store) ⟨.fw220, true⟩
        recordedEntropy), 0⟩ = .ok ((statusRequestOk, host), l) := by
  have hserial : ¬ keyMarker <:+: recordedEntropy.serial.bytes := by decide +kernel
  have hpair : chainCrates.x25519Public hostStaticSecret = Personality.fw220.defaultSh0Pub := by decide +kernel
  obtain ⟨store, hstore, hopens⟩ := fresh_device_opens_session chainCrates chainCrates_agree chainCertCrates
    chainVerifier chainCertCrates_signs recordedSecs (by decide +kernel) recordedKeys ⟨.fw220, true⟩ recordedEntropy
    hserial
  obtain ⟨host, l, hshake, -⟩ := hopens 1 (by decide) [] _ _ rfl rfl (Finmap.lookup_insert _) hostStaticSecret
    hpair (fun _ => countingRng) 0 {} hostEphemeralSecret
  exact ⟨store, host, l, hstore, hshake⟩

end TROPIC01
end Simulators
