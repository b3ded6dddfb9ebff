/-
# SE050: PUT KEY

PUT KEY brings a key version number and the three Platform SCP03 keys, each
encrypted under the static DEK and followed by its check value. `putKeys`
accepts exactly such a payload (`putKeys_eq_ok`); anything else is refused and
leaves the store alone (`putKeys_iff`).

Key definitions: `checkValue`, `wrappedKey`, `KeySet`.
-/
import Simulators.SE050.SecurityDomain

namespace Simulators
namespace SE050

open Handler T1Responder

/-- AES under a key of one block. -/
def Block.aes (key : Block) : AnyAes := ⟨key.bytes, .inl key.size⟩

section Payload

variable (K : Crates)

theorem ones_length : (List.replicate 16 (0x01 : UInt8)).length = 16 := rfl

/-- The check value of a key: three bytes of a block of ones under it. -/
def checkValue (key : Block) : Bytes := (K.aesEncrypt key.aes ⟨List.replicate 16 0x01, ones_length⟩).bytes.take 3

/-- A key encrypted under the DEK, between its header and its check value. -/
def wrappedKey (dek : AnyAes) (key : Block) : Bytes :=
  [0x88, 0x11, 0x10] ++ (K.aesEncrypt dek key).bytes ++ 0x03 :: checkValue K key

/-- What PUT KEY replaces. -/
structure KeySet where
  kvn : UInt8
  enc : Block
  mac : Block
  dek : Block

namespace KeySet

variable (n : KeySet)

def config : Scp03Config := ⟨n.kvn, n.enc.bytes, n.mac.bytes, n.dek.bytes⟩

def payload (dek : AnyAes) : Bytes :=
  n.kvn :: (wrappedKey K dek n.enc ++ wrappedKey K dek n.mac ++ wrappedKey K dek n.dek)

/-- The version number and the check values. -/
def response : Bytes := n.kvn :: (checkValue K n.enc ++ checkValue K n.mac ++ checkValue K n.dek)

end KeySet

end Payload

section Keys

variable {K : Crates} {dek : AnyAes} {key : Block} {block check data : Bytes}

theorem aes_new (key : Block) : AnyAes.new key.bytes = some key.aes := dif_pos (.inl key.size)

@[simp] theorem checkValue_length : (checkValue K key).length = 3 := by
  rw [checkValue, List.length_take, ByteArr.size]
  rfl

@[simp] theorem wrappedKey_length : (wrappedKey K dek key).length = 23 := by
  simp only [wrappedKey, List.length_append, List.length_cons, List.length_nil, ByteArr.size, checkValue_length]

/-- 23 bytes are a header of three, a block, a byte and three more. -/
theorem exists_parts (h : block.length = 23) :
    ∃ (b0 b1 b2 b19 : UInt8) (w : Block) (c : Bytes), c.length = 3 ∧
      block = [b0, b1, b2] ++ w.bytes ++ b19 :: c := by
  rcases block with _ | ⟨b0, _ | ⟨b1, _ | ⟨b2, rest⟩⟩⟩
  · cases h
  · cases h
  · cases h
  · have hrest : rest.length = 20 := by
      simp only [List.length_cons] at h
      omega
    have hw : (rest.take 16).length = 16 := by
      rw [List.length_take, hrest]
      rfl
    cases htail : rest.drop 16 with
    | nil =>
      have hlen := congrArg List.length htail
      rw [List.length_drop, hrest] at hlen
      cases hlen
    | cons b19 c =>
      have hlen := congrArg List.length htail
      rw [List.length_drop, hrest, List.length_cons] at hlen
      refine ⟨b0, b1, b2, b19, ⟨rest.take 16, hw⟩, c, by omega, ?_⟩
      rw [← htail, List.append_assoc, List.take_append_drop]
      rfl

/-- What a block is read as. -/
theorem putKeyBlock_parts (dek : AnyAes) (b0 b1 b2 b19 : UInt8) (w : Block) {c : Bytes} (hc : c.length = 3) :
    putKeyBlock K dek ([b0, b1, b2] ++ w.bytes ++ b19 :: c) =
      (ensure (b0 = 0x88 ∧ b1 = 0x11 ∧ b2 = 0x10 ∧ b19 = 0x03) swWrongData >>= fun _ =>
        ensure (checkValue K (K.aesDecrypt dek w) = c) swWrongData >>= fun _ =>
          .ok (K.aesDecrypt dek w, checkValue K (K.aesDecrypt dek w))) := by
  have hhead : ([b0, b1, b2] ++ w.bytes).length = 19 := by
    rw [List.length_append, w.size]
    rfl
  have h19 : ([b0, b1, b2] ++ w.bytes ++ b19 :: c)[19]? = some b19 := by
    rw [List.getElem?_append_right (Nat.le_of_eq hhead), hhead]
    rfl
  have hw : (([b0, b1, b2] ++ w.bytes ++ b19 :: c).drop 3).take 16 = w.bytes := by
    rw [List.append_assoc]
    exact List.take_left' w.size
  have hcheck : (([b0, b1, b2] ++ w.bytes ++ b19 :: c).drop 20).take 3 = c := by
    have hdrop : ([b0, b1, b2] ++ w.bytes ++ b19 :: c).drop 20 = c := by
      rw [List.append_cons]
      apply List.drop_left'
      rw [List.length_append, hhead]
      rfl
    rw [hdrop, List.take_of_length_le (Nat.le_of_eq hc)]
  have h0 : ([b0, b1, b2] ++ w.bytes ++ b19 :: c)[0]? = some b0 := rfl
  have h1 : ([b0, b1, b2] ++ w.bytes ++ b19 :: c)[1]? = some b1 := rfl
  have h2 : ([b0, b1, b2] ++ w.bytes ++ b19 :: c)[2]? = some b2 := rfl
  simp only [putKeyBlock, h0, h1, h2, h19, hw, hcheck, array_bytes, ok_bind, aes_new, orRefuse, Option.some.injEq,
    pure_eq_ok, checkValue]
  rfl

/-- A block is accepted if and only if it is a wrapped key. -/
theorem putKeyBlock_eq_ok (hinv : ∀ k b, K.aesDecrypt k (K.aesEncrypt k b) = b) (hlen : block.length = 23) :
    putKeyBlock K dek block = .ok (key, check) ↔ block = wrappedKey K dek key ∧ check = checkValue K key := by
  constructor
  · intro h
    obtain ⟨b0, b1, b2, b19, w, c, hc, rfl⟩ := exists_parts hlen
    have hundo : K.aesEncrypt dek (K.aesDecrypt dek w) = w := undoes_of_undone (hinv dek) w
    rw [putKeyBlock_parts dek b0 b1 b2 b19 w hc] at h
    simp only [bind_eq_ok, ensure_eq_ok, Except.ok.injEq, Prod.mk.injEq] at h
    obtain ⟨-, ⟨rfl, rfl, rfl, rfl⟩, -, rfl, rfl, rfl⟩ := h
    rw [wrappedKey, hundo]
    exact ⟨rfl, rfl⟩
  · rintro ⟨rfl, rfl⟩
    rw [wrappedKey, putKeyBlock_parts dek _ _ _ _ _ checkValue_length, hinv]
    simp only [ensure, and_self, if_true, ok_bind]

/-- A block of the right length is accepted or refused. -/
theorem putKeyBlock_noPanic (hlen : block.length = 23) : (putKeyBlock K dek block).NoPanic := by
  obtain ⟨b0, b1, b2, b19, w, c, hc, rfl⟩ := exists_parts hlen
  rw [putKeyBlock_parts dek b0 b1 b2 b19 w hc]
  simp only [noPanic_bind, noPanic_ensure, noPanic_ok, implies_true, and_self]

/-- 70 bytes are a version number and three blocks of 23. -/
theorem exists_blocks (h : data.length = 70) :
    ∃ (kvn : UInt8) (b1 b2 b3 : Bytes), b1.length = 23 ∧ b2.length = 23 ∧ b3.length = 23 ∧
      data = kvn :: (b1 ++ b2 ++ b3) := by
  cases data with
  | nil => cases h
  | cons kvn rest =>
    have hrest : rest.length = 69 := Nat.succ.inj h
    refine ⟨kvn, rest.take 23, (rest.drop 23).take 23, (rest.drop 23).drop 23, ?_, ?_, ?_, ?_⟩
    · rw [List.length_take, hrest]
      rfl
    · rw [List.length_take, List.length_drop, hrest]
      rfl
    · rw [List.length_drop, List.length_drop, hrest]
    · rw [List.append_assoc, List.take_append_drop, List.take_append_drop]

variable {current : Scp03Config} {p1 p2 : UInt8}

/-- What a payload of the right length is read as. -/
theorem putKeys_blocks (hdek : AnyAes.new current.dek = some dek) (kvn : UInt8) {b1 b2 b3 : Bytes} (h1 : b1.length = 23)
    (h2 : b2.length = 23) (h3 : b3.length = 23) :
    putKeys K current p1 p2 (kvn :: (b1 ++ b2 ++ b3)) =
      (ensure (p1 = current.kvn ∧ p2 = 0x81) swWrongP1P2 >>= fun _ =>
        putKeyBlock K dek b1 >>= fun enc => putKeyBlock K dek b2 >>= fun mac => putKeyBlock K dek b3 >>= fun dek' =>
          .ok (⟨kvn, enc.1.bytes, mac.1.bytes, dek'.1.bytes⟩, kvn :: enc.2 ++ mac.2 ++ dek'.2)) := by
  have hlen : (kvn :: (b1 ++ b2 ++ b3)).length = 70 := by
    simp only [List.length_cons, List.length_append, h1, h2, h3]
  have hb1 : ((kvn :: (b1 ++ b2 ++ b3)).drop 1).take 23 = b1 := by
    rw [List.drop_succ_cons, List.drop_zero, List.append_assoc]
    exact List.take_left' h1
  have hb2 : ((kvn :: (b1 ++ b2 ++ b3)).drop 24).take 23 = b2 := by
    rw [List.drop_succ_cons, List.append_assoc, List.drop_left' h1]
    exact List.take_left' h2
  have hb3 : ((kvn :: (b1 ++ b2 ++ b3)).drop 47).take 23 = b3 := by
    have h12 : (b1 ++ b2).length = 46 := by rw [List.length_append, h1, h2]
    rw [List.drop_succ_cons, List.drop_left' h12]
    exact List.take_of_length_le (Nat.le_of_eq h3)
  simp only [putKeys, hlen, hb1, hb2, hb3, hdek, ensure, orRefuse, if_true, ok_bind, List.headD_cons, pure_eq_ok]

/-- PUT KEY is accepted with the current version number for a set of wrapped keys, which becomes the configuration. -/
theorem putKeys_eq_ok (hinv : ∀ k b, K.aesDecrypt k (K.aesEncrypt k b) = b)
    (hdek : AnyAes.new current.dek = some dek) {cfg : Scp03Config} {resp : Bytes} :
    putKeys K current p1 p2 data = .ok (cfg, resp) ↔
      p1 = current.kvn ∧ p2 = 0x81 ∧ ∃ n : KeySet, data = n.payload K dek ∧ cfg = n.config ∧ resp = n.response K := by
  constructor
  · intro h
    have hlen : data.length = 70 := by
      simp only [putKeys, bind_eq_ok, ensure_eq_ok] at h
      obtain ⟨-, -, -, hlen, -⟩ := h
      exact hlen
    obtain ⟨kvn, b1, b2, b3, h1, h2, h3, rfl⟩ := exists_blocks hlen
    rw [putKeys_blocks hdek kvn h1 h2 h3] at h
    simp only [bind_eq_ok, ensure_eq_ok, Except.ok.injEq, Prod.mk.injEq, Prod.exists] at h
    obtain ⟨-, ⟨hp1, hp2⟩, enc, check1, henc, mac, check2, hmac, dek', check3, hdek', rfl, rfl⟩ := h
    obtain ⟨rfl, rfl⟩ := (putKeyBlock_eq_ok hinv h1).mp henc
    obtain ⟨rfl, rfl⟩ := (putKeyBlock_eq_ok hinv h2).mp hmac
    obtain ⟨rfl, rfl⟩ := (putKeyBlock_eq_ok hinv h3).mp hdek'
    exact ⟨hp1, hp2, ⟨kvn, enc, mac, dek'⟩, rfl, rfl, rfl⟩
  · rintro ⟨rfl, rfl, n, rfl, rfl, rfl⟩
    have hblock : ∀ key : Block, putKeyBlock K dek (wrappedKey K dek key) = .ok (key, checkValue K key) :=
      fun key => (putKeyBlock_eq_ok hinv wrappedKey_length).mpr ⟨rfl, rfl⟩
    rw [KeySet.payload, putKeys_blocks hdek n.kvn wrappedKey_length wrappedKey_length wrappedKey_length, hblock, hblock,
      hblock]
    simp only [ensure, and_self, if_true, ok_bind]
    rfl

/-- PUT KEY is accepted or refused. -/
theorem putKeys_noPanic (K : Crates) (current : Scp03Config) (p1 p2 : UInt8) (data : Bytes) :
    (putKeys K current p1 p2 data).NoPanic := by
  by_cases hlen : data.length = 70
  · obtain ⟨kvn, b1, b2, b3, h1, h2, h3, rfl⟩ := exists_blocks hlen
    cases hdek : AnyAes.new current.dek with
    | none =>
      simp only [putKeys, hdek, orRefuse, noPanic_bind, noPanic_ensure, noPanic_refuse, refuse_bind, implies_true,
        and_self]
    | some dek =>
      rw [putKeys_blocks hdek kvn h1 h2 h3]
      simp only [noPanic_bind, noPanic_ensure, putKeyBlock_noPanic h1, putKeyBlock_noPanic h2, putKeyBlock_noPanic h3,
        noPanic_ok, implies_true, and_self]
  · simp only [putKeys, ensure, if_neg hlen, refuse_bind, noPanic_bind, noPanic_ite, noPanic_ok, noPanic_refuse,
      implies_true, and_self]

end Keys

section Device

variable {K : Crates} {env : Env} {s s' : ObjectStore} {t t' : T1Responder} {apdu : Bytes} {inner : ParsedApdu}
  {r : ApduResponse}

/-- PUT KEY changes the configuration if it is accepted, and nothing if it is refused. -/
theorem innerCommand_of_putKey {ssd : Bool} (hkey : inner.isPutKey = true)
    (h : innerCommand K env s ssd inner = .ok (r, s')) :
    (∀ cfg resp, putKeys K (s.platformScpConfig env) inner.p1 inner.p2 inner.data = .ok (cfg, resp) →
      s' = if ssd then s.setPlatformScpConfig cfg else s) ∧
    (∀ sw, putKeys K (s.platformScpConfig env) inner.p1 inner.p2 inner.data = refuse sw → s' = s) := by
  simp only [ParsedApdu.isPutKey, Bool.and_eq_true, beq_iff_eq] at hkey
  rw [innerCommand, if_pos hkey] at h
  cases ssd with
  | false =>
    cases h
    exact ⟨fun _ _ _ => rfl, fun _ _ => rfl⟩
  | true =>
    rw [if_pos rfl, putKeyCommand] at h
    refine ⟨?_, ?_⟩
    · intro cfg resp hput
      rw [hput] at h
      cases h
      rfl
    · intro sw hput
      rw [hput] at h
      cases h
      rfl

/-- So it is with a PUT KEY in an APDU over the channel. -/
theorem processApdu_putKey (hinner : t.innerApdu K apdu = some inner) (hkey : inner.isPutKey = true)
    (h : processApdu K env s t apdu = .ok (r, t', s')) :
    (∀ cfg resp, putKeys K (s.platformScpConfig env) inner.p1 inner.p2 inner.data = .ok (cfg, resp) →
      s' = if t.selectedSsd then s.setPlatformScpConfig cfg else s) ∧
    (∀ sw, putKeys K (s.platformScpConfig env) inner.p1 inner.p2 inner.data = refuse sw → s' = s) := by
  have hnone : t.innerApdu K apdu ≠ none := by
    rw [hinner]
    exact Option.some_ne_none inner
  cases processApdu_step h with
  | select _ hs => exact absurd (innerApdu_of_plainSelect hs) hnone
  | badSelect _ hi => exact absurd hi hnone
  | stay _ _ _ hi => exact absurd hi hnone
  | authenticate _ _ _ _ hi => exact absurd hi hnone
  | plain _ _ _ _ _ _ hi => exact absurd hi hnone
  | wrapped _ _ hi _ hc _ =>
    obtain rfl := Option.some.inj (hi.symm.trans hinner)
    exact innerCommand_of_putKey hkey hc

end Device

/-- With a DEK that is an AES key, PUT KEY is accepted for the current version number and a set of three keys that are
wrapped under the DEK and come with their check values, and for nothing else; the set then is the new configuration, and
the answer its version number and check values. What is refused leaves the store as it was. -/
theorem putKeys_iff (K : Crates) (hinv : ∀ k b, K.aesDecrypt k (K.aesEncrypt k b) = b) {current : Scp03Config}
    {dek : AnyAes} (hdek : AnyAes.new current.dek = some dek) :
    (∀ p1 p2 data cfg resp, putKeys K current p1 p2 data = .ok (cfg, resp) ↔
      p1 = current.kvn ∧ p2 = 0x81 ∧ ∃ n : KeySet, data = n.payload K dek ∧ cfg = n.config ∧ resp = n.response K) ∧
    (∀ p1 p2 data, (putKeys K current p1 p2 data).NoPanic) ∧
    (∀ (env : Env) (s s' : ObjectStore) (t t' : T1Responder) (apdu : Bytes) (inner : ParsedApdu) (r : ApduResponse),
      s.platformScpConfig env = current → t.innerApdu K apdu = some inner → inner.isPutKey = true →
      processApdu K env s t apdu = .ok (r, t', s') →
      (∀ cfg resp, putKeys K current inner.p1 inner.p2 inner.data = .ok (cfg, resp) →
        s' = if t.selectedSsd then s.setPlatformScpConfig cfg else s) ∧
      (∀ sw, putKeys K current inner.p1 inner.p2 inner.data = refuse sw → s' = s)) := by
  refine ⟨fun _ _ _ _ _ => putKeys_eq_ok hinv hdek, fun _ _ _ => putKeys_noPanic K current _ _ _, ?_⟩
  intro env s s' t t' apdu inner r hcurrent hinner hkey h
  rw [← hcurrent]
  exact processApdu_putKey hinner hkey h

/-- The new keys of the rotation, under version number `0C`. -/
def rotationKeys : KeySet := ⟨0x0C, ⟨newEnc, by decide⟩, ⟨newMac, by decide⟩, ⟨newDek, by decide⟩⟩

theorem rotation_accepted :
    putKeys rotationCrates ⟨defaultKvn, se050eEnc, se050eMac, se050eDek⟩ 0x0B 0x81 (putKeyHead.flatten.drop 5) =
      .ok (⟨0x0C, newEnc, newMac, newDek⟩, [0x0C, 0x50, 0x4A, 0x77, 0xF2, 0xA8, 0xDF, 0xD7, 0xD0, 0xE4]) := by
  have hdek : AnyAes.new (Scp03Config.mk defaultKvn se050eEnc se050eMac se050eDek).dek =
      some ⟨se050eDek, by decide⟩ := by decide
  have hinv : ∀ k b, rotationCrates.aesDecrypt k (rotationCrates.aesEncrypt k b) = b :=
    fun k b => (Recorded.permute rotationBlocks k).symm_apply_apply b
  obtain ⟨hiff, -, -⟩ := putKeys_iff rotationCrates hinv hdek
  apply (hiff _ _ _ _ _).mpr
  exact ⟨rfl, rfl, rotationKeys, by decide +kernel, rfl, by decide +kernel⟩

end SE050
end Simulators
