/-
# SE050: host and card keep the same secure channel

The host of the tests (`HostScp03` of `tests/scp03.rs`) wraps commands and
unwraps responses as GP Amendment D prescribes, here with keys of every AES
size and with short or extended Lc. Host and card derive the same session
keys, and their MAC chaining values and counters stay equal through any
sequence of exchanges (`host_card_agree`).

The counter of applets before 4.3 has rules of its own, which the second part
follows through a session.
-/
import Simulators.Lib.Run
import Simulators.SE050.Scp03

namespace Simulators
namespace SE050

open Handler

/-! ### The host -/

/-- The session as the host keeps it. -/
structure HostScp03 where
  sEnc : AnyAes
  sMac : AnyAes
  sRmac : AnyAes
  level : UInt8
  mcv : Block
  counter : UInt32

/-- A plain command as the host is given it: Lc in its short or extended
form, and the Le bytes behind the data field. -/
structure HostCommand where
  ins : UInt8
  p1 : UInt8
  p2 : UInt8
  data : Bytes
  extended : Bool
  le : Bytes

namespace HostScp03

section Keys

variable (K : Crates)

/-- `kdf`: the output of as many rounds as `outBits` needs, truncated. -/
def kdf (key : AnyAes) (dc : UInt8) (ctx : Bytes) (outBits : UInt16) : Bytes :=
  let need := (outBits.toNat + 7) / 8
  ((List.range ((need + 15) / 16)).flatMap fun r =>
    (K.cmac key (kdfBlock dc ctx outBits (UInt8.ofNat (r + 1)))).bytes).take need

/-- The width of a key in bits. -/
def keyBits (key : AnyAes) : UInt16 := UInt16.ofNat (key.key.length * 8)

theorem kdf_length (key : AnyAes) (dc : UInt8) (ctx : Bytes) (outBits : UInt16) :
    (kdf K key dc ctx outBits).length = (outBits.toNat + 7) / 8 := by
  have hsum : ∀ n, ((List.range n).flatMap fun r =>
      (K.cmac key (kdfBlock dc ctx outBits (UInt8.ofNat (r + 1)))).bytes).length = 16 * n := by
    intro n
    induction n with
    | zero => rfl
    | succ n ih =>
      rw [List.range_succ, List.flatMap_append, List.length_append, ih]
      simp [ByteArr.size]
      omega
  simp only [kdf, List.length_take, hsum]
  omega

theorem keyBits_bytes (key : AnyAes) : ((keyBits key).toNat + 7) / 8 = key.key.length := by
  obtain ⟨k, h⟩ := key
  have h' : k.length < 8192 := by omega
  simp only [keyBits, UInt16.toNat_ofNat']
  omega

/-- A session key is as wide as its static key. -/
def sessionKey (key : AnyAes) (dc : UInt8) (ctx : Bytes) : AnyAes :=
  ⟨kdf K key dc ctx (keyBits key), by rw [kdf_length, keyBits_bytes]; exact key.size⟩

end Keys

/-- The client's own assertions stop it. -/
abbrev Host (α : Type) := Handler Unit α

section Client

variable (K : Crates)

/-- Derive the session keys from the INITIALIZE UPDATE response and check the
card's cryptogram; also the host's cryptogram. -/
def fromInitUpdate (enc mac : AnyAes) (hostCh : ByteArr 8) (resp : Bytes) (level : UInt8) :
    Host (Bytes × HostScp03) := do
  ensure (resp.length = 29) ()
  let cardCh := (resp.drop 13).take 8
  let cardCrypto := (resp.drop 21).take 8
  let ctx := hostCh.bytes ++ cardCh
  let sMac := sessionKey K mac 0x06 ctx
  ensure ((kdf K sMac 0x00 ctx 64).take 8 = cardCrypto) ()
  return ((kdf K sMac 0x01 ctx 64).take 8,
    ⟨sessionKey K enc 0x04 ctx, sMac, sessionKey K mac 0x07 ctx, level, zeroArr 16, 1⟩)

/-- The EXTERNAL AUTHENTICATE APDU; its MAC starts the chain. -/
def externalAuthenticate (h : HostScp03) (hostCrypto : Bytes) : Bytes × HostScp03 :=
  let apdu := [0x84, 0x82, h.level, 0x00, 0x10] ++ hostCrypto
  let full := K.cmac h.sMac (h.mcv.bytes ++ apdu)
  (apdu ++ full.bytes.take 8, { h with mcv := full })

/-- The initial vector of a command or a response. -/
def icv (h : HostScp03) (response : Bool) : Block := K.aesEncrypt h.sEnc (counterBlock h.counter response)

/-- The data field on the wire: padded and encrypted, if there is one and the level asks for it. -/
def dataField (h : HostScp03) (data : Bytes) : Host Bytes :=
  if data ≠ [] ∧ h.level &&& 0x02 ≠ 0 then do
    let blocks ← blocksOf 16 (padM2 16 data)
    return flat (cbcEncrypt (K.aesEncrypt h.sEnc) (h.icv K false) blocks)
  else return data

/-- Lc in one byte, or in two after a zero. -/
def lcBytes (extended : Bool) (lc : ℕ) : Bytes :=
  if extended then [0x00, UInt8.ofNat (lc / 256), UInt8.ofNat (lc % 256)] else [UInt8.ofNat lc]

/-- The largest Lc of the form. -/
def lcMax (extended : Bool) : ℕ := if extended then 65535 else 255

/-- Wrap a plain command (CLA 0x80) for transmission. -/
def wrap (h : HostScp03) (c : HostCommand) : Host (Bytes × HostScp03) := do
  let field ← h.dataField K c.data
  let lc := field.length + 8
  ensure (lc ≤ lcMax c.extended) ()
  let apdu := [0x84, c.ins, c.p1, c.p2] ++ lcBytes c.extended lc ++ field
  let full := K.cmac h.sMac (h.mcv.bytes ++ apdu)
  return (apdu ++ full.bytes.take 8 ++ c.le, { h with mcv := full })

/-- The status word at the end of a response. -/
def statusOf (wire : Bytes) : Host UInt16 :=
  match wire.drop (wire.length - 2) with
  | [hi, lo] => .ok (word hi lo)
  | _ => .error (.panic .index)

/-- The plain data of a verified response. -/
def decryptField (h : HostScp03) (field : Bytes) : Host Bytes :=
  if field ≠ [] ∧ h.level &&& 0x20 ≠ 0 then do
    let blocks ← blocksOf 16 field
    orRefuse () (unpadM2 (flat (cbcDecrypt (K.aesDecrypt h.sEnc) (h.icv K true) blocks)))
  else return field

/-- The data and status of a response: a bare status word and the responses of
a level without R-MAC are plain. -/
def openResponse (h : HostScp03) (wire : Bytes) : Host (Bytes × UInt16) := do
  let sw ← statusOf wire
  if h.level &&& 0x10 = 0 ∨ wire.length = 2 then return (wire.take (wire.length - 2), sw)
  else do
    ensure (10 ≤ wire.length) ()
    let field := wire.take (wire.length - 10)
    let rmac := (wire.drop (wire.length - 10)).take 8
    let full := K.cmac h.sRmac (h.mcv.bytes ++ field ++ [hiByte sw, loByte sw])
    ensure (full.bytes.take 8 = rmac) ()
    let data ← h.decryptField K field
    return (data, sw)

/-- Verify and decrypt a response; the counter advances. -/
def unwrap (h : HostScp03) (wire : Bytes) : Host ((Bytes × UInt16) × HostScp03) := do
  let r ← h.openResponse K wire
  return (r, { h with counter := h.counter + 1 })

end Client

end HostScp03

/-! ### Agreement -/

section Agreement

variable (K : Crates)

@[simp] theorem AnyAes.new_key (k : AnyAes) : AnyAes.new k.key = some k := dif_pos k.size

@[simp] theorem cmacAes_key (k : AnyAes) (data : Bytes) : cmacAes K k.key data = some (K.cmac k data).bytes := by
  simp [cmacAes]

@[simp] theorem cmacChain_key (k : AnyAes) (mcv : Block) (data : Bytes) :
    cmacChain K k.key mcv data = some (K.cmac k (mcv.bytes ++ data)) := by simp [cmacChain]

@[simp] theorem counterIcv_key (k : AnyAes) (counter : UInt32) (response : Bool) :
    counterIcv K k.key counter response = some (K.aesEncrypt k (counterBlock counter response)) := by
  simp [counterIcv]

/-- The rounds of the card's loop from round `r` on. -/
theorem kdfFrom_eq (key : AnyAes) (dc : UInt8) (ctx : Bytes) (outBits : UInt16) (need : ℕ) :
    ∀ (m fuel r : ℕ) (out : Bytes), out.length = 16 * r → m ≤ fuel → r + m = (need + 15) / 16 → r + m < 255 →
      kdfFrom K key.key dc ctx outBits need fuel (UInt8.ofNat (r + 1)) out =
        some (out ++ (List.range' r m).flatMap fun r =>
          (K.cmac key (kdfBlock dc ctx outBits (UInt8.ofNat (r + 1)))).bytes)
  | 0, fuel, r, out, hout, _, hr, _ => by
    have hlen : ¬ out.length < need := by omega
    cases fuel <;> simp [kdfFrom, hlen]
  | m + 1, 0, r, out, _, hf, _, _ => by omega
  | m + 1, fuel + 1, r, out, hout, hf, hr, hb => by
    have hlen : out.length < need := by omega
    have hsucc : checkedSucc (UInt8.ofNat (r + 1)) = some (UInt8.ofNat (r + 1 + 1)) := by
      have hne : UInt8.ofNat (r + 1) ≠ 255 := by
        intro h
        have := congrArg UInt8.toNat h
        simp at this
        omega
      rw [checkedSucc, if_neg hne, UInt8.ofNat_add (r + 1)]
      rfl
    have ih := kdfFrom_eq key dc ctx outBits need m fuel (r + 1)
      (out ++ (K.cmac key (kdfBlock dc ctx outBits (UInt8.ofNat (r + 1)))).bytes)
      (by rw [List.length_append, hout, ByteArr.size]; omega) (by omega) (by omega) (by omega)
    rw [kdfFrom, if_pos hlen, cmacAes_key, hsucc]
    simp only [Option.bind_eq_bind, Option.bind_some, ih]
    rw [List.range'_succ, List.flatMap_cons, List.append_assoc]

/-- Card and host derive the same bytes. -/
theorem kdf_key (key : AnyAes) (dc : UInt8) (ctx : Bytes) (outBits : UInt16) (h : outBits.toNat ≤ 256) :
    kdf K key.key dc ctx outBits = some (HostScp03.kdf K key dc ctx outBits) := by
  have hk := kdfFrom_eq K key dc ctx outBits ((outBits.toNat + 7) / 8) (((outBits.toNat + 7) / 8 + 15) / 16)
    ((outBits.toNat + 7) / 8) 0 [] rfl (by omega) (by omega) (by omega)
  simp only [kdf, HostScp03.kdf, List.range_eq_range']
  simp only [Nat.zero_add] at hk
  rw [show (1 : UInt8) = UInt8.ofNat 1 from rfl, hk]
  rfl

/-- The card's session keys and cryptograms are the host's. -/
theorem deriveSessionKeys_key (enc mac : AnyAes) (hostCh cardCh : ByteArr 8) :
    deriveSessionKeys K enc.key mac.key hostCh cardCh =
      some ((HostScp03.sessionKey K enc 0x04 (hostCh.bytes ++ cardCh.bytes)).key,
        (HostScp03.sessionKey K mac 0x06 (hostCh.bytes ++ cardCh.bytes)).key,
        (HostScp03.sessionKey K mac 0x07 (hostCh.bytes ++ cardCh.bytes)).key) := by
  have hbits : ∀ k : AnyAes, (HostScp03.keyBits k).toNat ≤ 256 := by
    intro k
    have h1 := HostScp03.keyBits_bytes k
    have h2 := k.size
    omega
  have he := fun dc => kdf_key K enc dc (hostCh.bytes ++ cardCh.bytes) _ (hbits enc)
  have hm := fun dc => kdf_key K mac dc (hostCh.bytes ++ cardCh.bytes) _ (hbits mac)
  simp only [HostScp03.keyBits] at he hm
  simp only [deriveSessionKeys, he, hm]
  rfl

theorem cryptogram_key (sMac : AnyAes) (hostCh cardCh : ByteArr 8) (dc : UInt8) :
    cryptogram K sMac.key hostCh cardCh dc =
      some ((HostScp03.kdf K sMac dc (hostCh.bytes ++ cardCh.bytes) 64).take 8) := by
  simp only [cryptogram, kdf_key K sMac dc _ 64 (by decide)]
  rfl

/-- Host and card hold the same session of an applet from 4.3 on. -/
structure Paired (h : HostScp03) (s : Session) : Prop where
  sEnc : s.sEnc = h.sEnc.key
  sMac : s.sMac = h.sMac.key
  sRmac : s.sRmac = h.sRmac.key
  level : s.securityLevel = h.level
  mcv : s.mcv = h.mcv
  counter : s.cmdCounter = h.counter
  legacy : s.legacy = false

/-- The length of the data field of a wrapped command without its MAC. -/
def fieldLength (level : UInt8) (data : Bytes) : ℕ :=
  if data ≠ [] ∧ level &&& 0x02 ≠ 0 then (padM2 16 data).length else data.length

/-- The wrapped command fits its Lc. -/
def HostCommand.Fits (c : HostCommand) (level : UInt8) : Prop :=
  fieldLength level c.data + 8 ≤ HostScp03.lcMax c.extended

instance (c : HostCommand) (level : UInt8) : Decidable (c.Fits level) :=
  inferInstanceAs (Decidable (_ ≤ _))

section Commands

variable {K}
variable {h : HostScp03} {s : Session}

/-- CBC of padded data is a whole number of blocks, which CBC and the padding give back. -/
theorem cbc_padM2 (hinv : ∀ k b, K.aesDecrypt k (K.aesEncrypt k b) = b) (k : AnyAes) (iv : Block) (data : Bytes) :
    ∃ bs : List Block, (∀ ε, (blocksOf 16 (padM2 16 data) : Handler ε _) = .ok bs) ∧
      flat (cbcDecrypt (K.aesDecrypt k) iv (cbcEncrypt (K.aesEncrypt k) iv bs)) = padM2 16 data ∧
      (flat (cbcEncrypt (K.aesEncrypt k) iv bs)).length = (padM2 16 data).length ∧
      flat (cbcEncrypt (K.aesEncrypt k) iv bs) ≠ [] := by
  obtain ⟨m, hm⟩ := padM2_length_dvd (by decide : 0 < 16) data
  obtain ⟨bs, hbs, hlen⟩ := exists_flat m (padM2 16 data) hm
  have hl : (flat (cbcEncrypt (K.aesEncrypt k) iv bs)).length = (padM2 16 data).length := by
    rw [flat_length, cbcEncrypt_length, hm, hlen]
  refine ⟨bs, ?_, ?_, hl, ?_⟩
  · intro ε
    rw [← hbs]
    exact blocksOf_flat (by decide) bs
  · rw [cbcDecrypt_cbcEncrypt (hinv k), hbs]
  · intro h0
    rw [h0] at hl
    simp [padM2] at hl

/-- The host's data field has its length and is decrypted to the data. -/
theorem decryptPayload_dataField (hinv : ∀ k b, K.aesDecrypt k (K.aesEncrypt k b) = b) (hp : Paired h s)
    (data : Bytes) :
    ∃ field, h.dataField K data = .ok field ∧ field.length = fieldLength h.level data ∧
      s.decryptPayload K field = .ok data := by
  unfold HostScp03.dataField fieldLength Session.decryptPayload
  rw [hp.level, hp.sEnc, hp.counter]
  by_cases hc : data ≠ [] ∧ h.level &&& 0x02 ≠ 0
  · obtain ⟨bs, hblocks, hdec, hl, hne⟩ := cbc_padM2 hinv h.sEnc (h.icv K false) data
    refine ⟨flat (cbcEncrypt (K.aesEncrypt h.sEnc) (h.icv K false) bs), ?_, ?_, ?_⟩
    · rw [if_pos hc, hblocks]
      rfl
    · rw [if_pos hc, hl]
    · have hmod : (flat (cbcEncrypt (K.aesEncrypt h.sEnc) (h.icv K false) bs)).length % 16 = 0 := by
        rw [hl]
        exact Nat.mod_eq_zero_of_dvd (padM2_length_dvd (by decide) data)
      have hlevel : h.level &&& levelCdec ≠ 0 := hc.2
      rw [if_pos ⟨hne, hlevel⟩]
      simp only [ensure, hmod, if_true, counterIcv_key, orRefuse, ok_bind, cbcCrypt, AnyAes.new_key, cbcProcess,
        blocksOf_flat (by decide : 0 < 16), pure_eq_ok, cbcBlocks]
      simp only [HostScp03.icv] at hdec
      simp only [HostScp03.icv, Bool.false_eq_true, if_false, hdec, unpadM2_padM2]
  · refine ⟨data, if_neg hc, (if_neg hc).symm, ?_⟩
    exact if_neg hc

/-- Behind the header: the data field, its MAC, and Le. -/
theorem unwrapBody_wrapped (hinv : ∀ k b, K.aesDecrypt k (K.aesEncrypt k b) = b) (hp : Paired h s)
    (cla ins p1 p2 : UInt8) (header data le : Bytes) :
    ∃ field, h.dataField K data = .ok field ∧ field.length = fieldLength h.level data ∧
      s.unwrapBody K cla ins p1 p2 header (field.length + 8)
          (field ++ ((K.cmac h.sMac (h.mcv.bytes ++ (header ++ field))).bytes.take 8 ++ le)) =
        .ok (⟨cla &&& ~~~0x04, ins, p1, p2, data, extendedLe le⟩,
          { s with mcv := K.cmac h.sMac (h.mcv.bytes ++ (header ++ field)), lastCmdLen := data.length }) := by
  obtain ⟨field, hf, hl, hdec⟩ := decryptPayload_dataField hinv hp data
  refine ⟨field, hf, hl, ?_⟩
  generalize hfull : K.cmac h.sMac (h.mcv.bytes ++ (header ++ field)) = full
  have h8 : (full.bytes.take 8).length = 8 := by rw [List.length_take, full.size]; rfl
  have hbody : (field ++ (full.bytes.take 8 ++ le)).take (field.length + 8) = field ++ full.bytes.take 8 := by
    rw [← List.append_assoc]
    exact List.take_left' (by rw [List.length_append, h8])
  have hrest : (field ++ (full.bytes.take 8 ++ le)).drop (field.length + 8) = le := by
    rw [← List.append_assoc]
    exact List.drop_left' (by rw [List.length_append, h8])
  have hlen : 8 ≤ field.length + 8 ∧ field.length + 8 ≤ (field ++ (full.bytes.take 8 ++ le)).length := by
    simp only [List.length_append, h8]
    omega
  have hsub : field.length + 8 - 8 = field.length := by omega
  unfold Session.unwrapBody
  simp only [ensure, if_pos hlen, ok_bind, hbody, hsub, List.take_left, List.drop_left, hp.sMac, hp.mcv,
    cmacChain_key, orRefuse, hfull, if_true, hdec, hrest, pure_eq_ok]

theorem HostScp03.wrap_of_fits {c : HostCommand} {field : Bytes} (hf : h.dataField K c.data = .ok field)
    (hlc : field.length + 8 ≤ lcMax c.extended) :
    let apdu := [0x84, c.ins, c.p1, c.p2] ++ lcBytes c.extended (field.length + 8) ++ field
    let full := K.cmac h.sMac (h.mcv.bytes ++ apdu)
    h.wrap K c = .ok (apdu ++ full.bytes.take 8 ++ c.le, { h with mcv := full }) := by
  simp only [wrap, hf, ok_bind, ensure, if_pos hlc, pure_eq_ok]

/-- The card unwraps what the host wrapped, and both have advanced the chain alike. -/
theorem unwrapCommand_wrap (hinv : ∀ k b, K.aesDecrypt k (K.aesEncrypt k b) = b) (hp : Paired h s)
    (c : HostCommand) (hfit : c.Fits h.level) :
    ∃ apdu h' s', h.wrap K c = .ok (apdu, h') ∧
      s.unwrapCommand K apdu = .ok (⟨0x80, c.ins, c.p1, c.p2, c.data, extendedLe c.le⟩, s') ∧ Paired h' s' := by
  obtain ⟨field, hf, hl, hu⟩ := unwrapBody_wrapped hinv hp 0x84 c.ins c.p1 c.p2
    ([0x84, c.ins, c.p1, c.p2] ++ HostScp03.lcBytes c.extended (fieldLength h.level c.data + 8)) c.data c.le
  have hlc : field.length + 8 ≤ HostScp03.lcMax c.extended := by
    rw [hl]
    exact hfit
  rw [← hl] at hu
  refine ⟨_, _, { s with mcv := _, lastCmdLen := c.data.length }, HostScp03.wrap_of_fits hf hlc, ?_,
    ⟨hp.sEnc, hp.sMac, hp.sRmac, hp.level, rfl, hp.counter, hp.legacy⟩⟩
  · unfold Session.unwrapCommand
    cases hx : c.extended with
    | false =>
      simp only [HostScp03.lcMax, HostScp03.lcBytes, hx, Bool.false_eq_true, if_false, List.cons_append,
        List.nil_append, List.append_assoc] at hlc hu ⊢
      have hne : UInt8.ofNat (field.length + 8) ≠ 0 := by
        intro h0
        have := congrArg UInt8.toNat h0
        simp only [UInt8.toNat_ofNat', UInt8.toNat_zero] at this
        omega
      have hto : (UInt8.ofNat (field.length + 8)).toNat = field.length + 8 := by
        rw [UInt8.toNat_ofNat']
        omega
      rw [if_pos hne, hto]
      exact hu
    | true =>
      simp only [HostScp03.lcMax, HostScp03.lcBytes, hx, if_true, List.cons_append, List.nil_append,
        List.append_assoc] at hlc hu ⊢
      have hto : be16 (UInt8.ofNat ((field.length + 8) / 256)) (UInt8.ofNat ((field.length + 8) % 256)) =
          field.length + 8 := by
        simp only [be16, UInt8.toNat_ofNat']
        omega
      rw [if_neg (by decide), hto]
      exact hu

theorem HostScp03.statusOf_toBytes (r : ApduResponse) : statusOf r.toBytes = .ok r.sw := by
  have hd : r.toBytes.drop (r.toBytes.length - 2) = [hiByte r.sw, loByte r.sw] := by
    simp [ApduResponse.toBytes]
  simp only [statusOf, hd, word_hiByte_loByte]

theorem Paired.advance (hp : Paired h s) (sw : UInt16) :
    Paired { h with counter := h.counter + 1 } (s.advanceCounter sw) := by
  have hs : s.advanceCounter sw = { s with cmdCounter := s.cmdCounter + 1 } := by
    simp [Session.advanceCounter, hp.legacy]
  rw [hs]
  exact ⟨hp.sEnc, hp.sMac, hp.sRmac, hp.level, hp.mcv, by rw [hp.counter], hp.legacy⟩

/-- The field of a protected response is decrypted to the data. -/
theorem decryptField_responseField (hinv : ∀ k b, K.aesDecrypt k (K.aesEncrypt k b) = b) (hp : Paired h s)
    (data : Bytes) :
    ∃ field, s.responseField K data = .ok (some field) ∧ h.decryptField K field = .ok data := by
  unfold Session.responseField HostScp03.decryptField
  have hctr : s.respCounter = h.counter := by
    simp [Session.respCounter, hp.legacy, hp.counter]
  rw [hp.level, hp.sEnc, hctr]
  by_cases hc : h.level &&& levelRenc ≠ 0 ∧ data ≠ []
  · obtain ⟨bs, hblocks, hdec, -, hne⟩ := cbc_padM2 hinv h.sEnc (h.icv K true) data
    refine ⟨flat (cbcEncrypt (K.aesEncrypt h.sEnc) (h.icv K true) bs), ?_, ?_⟩
    · simp only [if_pos hc, counterIcv_key, cbcCrypt, AnyAes.new_key, cbcProcess, hblocks, ok_bind, pure_eq_ok,
        cbcBlocks, if_true, HostScp03.icv]
    · have hlevel : h.level &&& 0x20 ≠ 0 := hc.1
      simp only [if_pos (And.intro hne hlevel), blocksOf_flat (by decide : 0 < 16), ok_bind, hdec, unpadM2_padM2,
        orRefuse]
  · refine ⟨data, if_neg hc, if_neg ?_⟩
    intro hc'
    exact hc ⟨hc'.2, hc'.1⟩

/-- The host verifies and opens a response with its R-MAC. -/
theorem openResponse_protected {field data : Bytes} (hlevel : h.level &&& 0x10 ≠ 0)
    (hdec : h.decryptField K field = .ok data) (sw : UInt16) :
    let full := K.cmac h.sRmac (h.mcv.bytes ++ (field ++ [hiByte sw, loByte sw]))
    h.openResponse K (ApduResponse.toBytes ⟨field ++ full.bytes.take 8, sw⟩) = .ok (data, sw) := by
  intro full
  have h8 : (full.bytes.take 8).length = 8 := by
    rw [List.length_take, full.size]
    rfl
  generalize hr : (⟨field ++ full.bytes.take 8, sw⟩ : ApduResponse) = r
  have hwire : r.toBytes = field ++ (full.bytes.take 8 ++ [hiByte sw, loByte sw]) := by
    rw [← hr, ApduResponse.toBytes, List.append_assoc]
  have hlen : r.toBytes.length = field.length + 10 := by
    rw [hwire]
    simp only [List.length_append, h8, List.length_cons, List.length_nil]
  have hsw : r.sw = sw := by rw [← hr]
  have hmac : K.cmac h.sRmac (h.mcv.bytes ++ field ++ [hiByte sw, loByte sw]) = full := by
    rw [List.append_assoc]
  have hprotected : ¬ (h.level &&& 0x10 = 0 ∨ field.length + 10 = 2) := by
    rintro (h0 | h0)
    · exact hlevel h0
    · omega
  simp only [HostScp03.openResponse, HostScp03.statusOf_toBytes, hsw, ok_bind, hlen, if_neg hprotected, ensure,
    if_pos (Nat.le_add_left 10 field.length), Nat.add_sub_cancel]
  rw [hwire, List.take_left, List.drop_left, List.take_left' h8, hmac, if_pos rfl, hdec]
  rfl

/-- The host reads a plain response as it is. -/
theorem openResponse_plain (r : ApduResponse) (hplain : h.level &&& 0x10 = 0 ∨ r.data = []) :
    h.openResponse K r.toBytes = .ok (r.data, r.sw) := by
  have hcond : h.level &&& 0x10 = 0 ∨ r.toBytes.length = 2 := by
    refine hplain.imp_right ?_
    intro h0
    simp [ApduResponse.toBytes, h0]
  have htake : r.toBytes.take (r.toBytes.length - 2) = r.data := by simp [ApduResponse.toBytes]
  simp only [HostScp03.openResponse, HostScp03.statusOf_toBytes, ok_bind, if_pos hcond, htake, pure_eq_ok]

/-- The host unwraps what the card answered, and both counters have advanced alike. -/
theorem unwrap_wrapResponse (hinv : ∀ k b, K.aesDecrypt k (K.aesEncrypt k b) = b) (hp : Paired h s)
    (resp : ApduResponse) (hresp : resp.sw ≠ swNoError → resp.data = []) :
    ∃ out h' s', s.wrapResponse K resp = .ok (out, s') ∧
      h.unwrap K out.toBytes = .ok ((resp.data, resp.sw), h') ∧ Paired h' s' := by
  by_cases hc : s.securityLevel &&& levelRmac ≠ 0 ∧ resp.sw = swNoError
  · obtain ⟨field, hf, hdec⟩ := decryptField_responseField hinv hp resp.data
    have hopen := openResponse_protected (hp.level ▸ hc.1) hdec resp.sw
    refine ⟨⟨field ++ (K.cmac h.sRmac (h.mcv.bytes ++ (field ++ [hiByte resp.sw, loByte resp.sw]))).bytes.take 8,
      resp.sw⟩, _, _, ?_, ?_, hp.advance resp.sw⟩
    · simp only [Session.wrapResponse, if_pos hc, Session.protect, hf, ok_bind, hp.sRmac, hp.mcv, cmacChain_key,
        pure_eq_ok]
    · simp only [HostScp03.unwrap, hopen, ok_bind, pure_eq_ok]
  · have hplain : h.level &&& 0x10 = 0 ∨ resp.data = [] := by
      rw [← hp.level]
      by_cases hsw : resp.sw = swNoError
      · left
        by_contra h0
        exact hc ⟨h0, hsw⟩
      · exact .inr (hresp hsw)
    refine ⟨resp, _, _, if_neg hc, ?_, hp.advance resp.sw⟩
    simp only [HostScp03.unwrap, openResponse_plain resp hplain, ok_bind, pure_eq_ok]

end Commands

/-- One exchange: the host's command and the card's plain response to it. -/
structure Exchange where
  command : HostCommand
  response : ApduResponse

/-- The host wraps each command, the card reads it as it was given, the host
reads the card's wrapped response as it was given, and afterwards both hold
the same chaining value and counter. -/
def AgreeThroughout : HostScp03 → Session → List Exchange → Prop
  | _, _, [] => True
  | h, s, e :: es =>
    ∃ apdu h₁ parsed s₁ out s₂ h₂,
      h.wrap K e.command = .ok (apdu, h₁) ∧
      s.unwrapCommand K apdu = .ok (parsed, s₁) ∧
      (parsed.cla = 0x80 ∧ parsed.ins = e.command.ins ∧ parsed.p1 = e.command.p1 ∧
        parsed.p2 = e.command.p2 ∧ parsed.data = e.command.data) ∧
      s₁.wrapResponse K e.response = .ok (out, s₂) ∧
      h₁.unwrap K out.toBytes = .ok ((e.response.data, e.response.sw), h₂) ∧
      (s₂.mcv = h₂.mcv ∧ s₂.cmdCounter = h₂.counter) ∧
      AgreeThroughout h₂ s₂ es

/-- Both carry the keys and the level through an exchange. -/
theorem HostScp03.wrap_level {h h' : HostScp03} {c : HostCommand} {apdu : Bytes}
    (hw : h.wrap K c = .ok (apdu, h')) : h'.level = h.level := by
  simp only [wrap, bind_eq_ok, pure_eq_ok, Except.ok.injEq, Prod.mk.injEq] at hw
  obtain ⟨_, -, _, -, -, rfl⟩ := hw
  rfl

theorem HostScp03.unwrap_level {h h' : HostScp03} {wire : Bytes} {r : Bytes × UInt16}
    (hu : h.unwrap K wire = .ok (r, h')) : h'.level = h.level := by
  simp only [unwrap, bind_eq_ok, pure_eq_ok, Except.ok.injEq, Prod.mk.injEq] at hu
  obtain ⟨_, -, -, rfl⟩ := hu
  rfl

variable {K}

/-- A paired host and card agree through every sequence of exchanges. -/
theorem Paired.agreeThroughout (hinv : ∀ k b, K.aesDecrypt k (K.aesEncrypt k b) = b) :
    ∀ (es : List Exchange) (h : HostScp03) (s : Session), Paired h s →
      (∀ e ∈ es, e.command.Fits h.level ∧ (e.response.sw ≠ swNoError → e.response.data = [])) →
      AgreeThroughout K h s es
  | [], _, _, _, _ => trivial
  | e :: es, h, s, hp, hes => by
    obtain ⟨hfit, hresp⟩ := hes e List.mem_cons_self
    obtain ⟨apdu, h₁, s₁, hwrap, hunwrap, hp₁⟩ := unwrapCommand_wrap hinv hp e.command hfit
    obtain ⟨out, h₂, s₂, hout, hread, hp₂⟩ := unwrap_wrapResponse hinv hp₁ e.response hresp
    have hlevel : h₂.level = h.level :=
      (HostScp03.unwrap_level K hread).trans (HostScp03.wrap_level K hwrap)
    refine ⟨apdu, h₁, _, s₁, out, s₂, h₂, hwrap, hunwrap, ⟨rfl, rfl, rfl, rfl, rfl⟩, hout, hread,
      ⟨hp₂.mcv, hp₂.counter⟩, ?_⟩
    refine Paired.agreeThroughout hinv es h₂ s₂ hp₂ ?_
    intro e' he'
    rw [hlevel]
    exact hes e' (List.mem_cons_of_mem e he')

variable (K)

/-- INITIALIZE UPDATE succeeds, and the host derives the card's keys from the response. -/
theorem fromInitUpdate_of_initializeUpdate {env : Env} (hv : env.version ≠ .v3_1_1) (enc mac : AnyAes)
    (kvn p1 level : UInt8) (dek : Bytes) (hostCh : ByteArr 8) :
    ∃ body cardCh hostCrypto h,
      initializeUpdateWithConfig K env p1 hostCh.bytes ⟨kvn, enc.key, mac.key, dek⟩ =
        (.successWithData body, .pending ⟨hostCh, cardCh, h.sEnc.key, h.sMac.key, h.sRmac.key, false⟩) ∧
      HostScp03.fromInitUpdate K enc mac hostCh body level = .ok (hostCrypto, h) ∧
      (h.level = level ∧ h.mcv = zeroArr 16 ∧ h.counter = 1) ∧
      hostCrypto = (HostScp03.kdf K h.sMac 0x01 (hostCh.bytes ++ cardCh.bytes) 64).take 8 := by
  generalize hcc : (⟨env.rng.fill 8, env.rng.fill_length 8⟩ : ByteArr 8) = cardCh
  generalize hsm : HostScp03.sessionKey K mac 0x06 (hostCh.bytes ++ cardCh.bytes) = sMac
  generalize hcr : (HostScp03.kdf K sMac 0x00 (hostCh.bytes ++ cardCh.bytes) 64).take 8 = cardCrypto
  have hlegacy : (env.version == AppletVersion.v3_1_1) = false := by simpa using hv
  have hlen : cardCrypto.length = 8 := by
    rw [← hcr, List.length_take, HostScp03.kdf_length]
    rfl
  have hfill : env.rng.fill 8 = cardCh.bytes := by rw [← hcc]
  generalize hpre : keyDiversificationData ++ [if p1 = 0x00 then kvn else p1, 0x03, iParam] = pre
  have h13 : pre.length = 13 := by
    rw [← hpre]
    rfl
  refine ⟨pre ++ cardCh.bytes ++ cardCrypto, cardCh, _,
    ⟨HostScp03.sessionKey K enc 0x04 (hostCh.bytes ++ cardCh.bytes), sMac,
      HostScp03.sessionKey K mac 0x07 (hostCh.bytes ++ cardCh.bytes), level, zeroArr 16, 1⟩,
    ?_, ?_, ⟨rfl, rfl, rfl⟩, rfl⟩
  · simp only [initializeUpdateWithConfig, toArr_bytes, startHandshake, deriveSessionKeys_key, hsm,
      cryptogram_key, ddcCardCryptogram, hcr, hlegacy, Bool.false_eq_true, false_and, if_false, hpre, hfill]
  · have hbody : (pre ++ cardCh.bytes ++ cardCrypto).length = 29 := by
      simp only [List.length_append, h13, cardCh.size, hlen]
    have hcard : ((pre ++ cardCh.bytes ++ cardCrypto).drop 13).take 8 = cardCh.bytes := by
      rw [List.append_assoc, List.drop_left' h13, List.take_left' cardCh.size]
    have hcrypto : ((pre ++ cardCh.bytes ++ cardCrypto).drop 21).take 8 = cardCrypto := by
      rw [List.drop_left' (by simp only [List.length_append, h13, cardCh.size]),
        List.take_of_length_le (Nat.le_of_eq hlen)]
    simp only [HostScp03.fromInitUpdate, hbody, ensure, if_true, ok_bind, hcard, hcrypto, hsm, hcr, pure_eq_ok]

/-- The card accepts the host's EXTERNAL AUTHENTICATE. -/
theorem authenticate_externalAuthenticate {h : HostScp03} {hostCh cardCh : ByteArr 8} {hostCrypto : Bytes}
    (hl : h.level ∈ supportedLevels) (hm : h.mcv = zeroArr 16) (hc : h.counter = 1)
    (hcrypto : hostCrypto = (HostScp03.kdf K h.sMac 0x01 (hostCh.bytes ++ cardCh.bytes) 64).take 8) :
    ∃ s, authenticate K ⟨hostCh, cardCh, h.sEnc.key, h.sMac.key, h.sRmac.key, false⟩
        (h.externalAuthenticate K hostCrypto).1 = .ok s ∧ Paired (h.externalAuthenticate K hostCrypto).2 s := by
  have hlen : hostCrypto.length = 8 := by
    rw [hcrypto, List.length_take, HostScp03.kdf_length]
    rfl
  simp only [HostScp03.externalAuthenticate, hm]
  generalize hfull : K.cmac h.sMac ((zeroArr 16).bytes ++ ([0x84, 0x82, h.level, 0x00, 0x10] ++ hostCrypto)) = full
  have h8 : (full.bytes.take 8).length = 8 := by
    rw [List.length_take, full.size]
    rfl
  have hbody : ¬ ((hostCrypto ++ full.bytes.take 8).length < 16 ∨ (0x10 : UInt8) ≠ 0x10) := by
    simp only [List.length_append, hlen, h8]
    decide
  have htake : (hostCrypto ++ full.bytes.take 8).take 8 = hostCrypto := List.take_left' hlen
  have hdrop : ((hostCrypto ++ full.bytes.take 8).drop 8).take 8 = full.bytes.take 8 := by
    rw [List.drop_left' hlen, List.take_of_length_le (Nat.le_of_eq h8)]
  refine ⟨⟨h.sEnc.key, h.sMac.key, h.sRmac.key, h.level, full, 1, 0, false⟩, ?_,
    ⟨rfl, rfl, rfl, rfl, rfl, hc.symm, rfl⟩⟩
  simp only [authenticate, List.cons_append, List.nil_append, if_neg hbody, hl, not_true_eq_false, if_false,
    htake, hdrop, cryptogram_key, ddcHostCryptogram, ← hcrypto, cmacChain_key]
  simp only [List.cons_append, List.nil_append] at hfull
  simp only [hfull, ne_eq, not_true_eq_false, or_self, if_false]

/-- After the handshake, which succeeds, host and card agree through every
sequence of exchanges. -/
theorem host_card_agree (hinv : ∀ k b, K.aesDecrypt k (K.aesEncrypt k b) = b)
    {env : Env} (hv : env.version ≠ .v3_1_1) (enc mac : AnyAes) (kvn p1 level : UInt8) (dek : Bytes)
    (hostCh : ByteArr 8) (hl : level ∈ supportedLevels) (es : List Exchange)
    (hes : ∀ e ∈ es, e.command.Fits level ∧ (e.response.sw ≠ swNoError → e.response.data = [])) :
    ∃ body p hostCrypto h s,
      initializeUpdateWithConfig K env p1 hostCh.bytes ⟨kvn, enc.key, mac.key, dek⟩ =
        (.successWithData body, .pending p) ∧
      HostScp03.fromInitUpdate K enc mac hostCh body level = .ok (hostCrypto, h) ∧
      Scp03State.externalAuthenticate K (h.externalAuthenticate K hostCrypto).1 (.pending p) =
        (.success, .active s) ∧
      (s.mcv = (h.externalAuthenticate K hostCrypto).2.mcv ∧
        s.cmdCounter = (h.externalAuthenticate K hostCrypto).2.counter) ∧
      AgreeThroughout K (h.externalAuthenticate K hostCrypto).2 s es := by
  obtain ⟨body, cardCh, hostCrypto, h, hinit, hfrom, ⟨hlevel, hmcv, hctr⟩, hcrypto⟩ :=
    fromInitUpdate_of_initializeUpdate K hv enc mac kvn p1 level dek hostCh
  obtain ⟨s, hauth, hp⟩ := authenticate_externalAuthenticate K (hlevel ▸ hl) hmcv hctr hcrypto
  refine ⟨body, _, hostCrypto, h, s, hinit, hfrom, ?_, ⟨hp.mcv, hp.counter⟩, ?_⟩
  · simp only [Scp03State.externalAuthenticate, hauth]
  · refine hp.agreeThroughout hinv es _ _ ?_
    intro e he
    have hsame : (h.externalAuthenticate K hostCrypto).2.level = level := hlevel
    rw [hsame]
    exact hes e he

end Agreement

/-! The default keys and the challenges of the tests, with the values AES and CMAC give on them. -/

def hostChallenge : ByteArr 8 := ⟨toBe 8 0xa0a1a2a3a4a5a6a7, toBe_length _ _⟩
def cardChallenge : ByteArr 8 := ⟨toBe 8 0x4ecd906d325d3d8a, toBe_length _ _⟩
def sessionEnc : Bytes := toBe 16 0xcb15cc71072b273bd9f9cd943390d56a
def sessionMac : Bytes := toBe 16 0x260b4454b2fefc55d9768fcbf5ed749f
def sessionRmac : Bytes := toBe 16 0xfe5e4e39c9d7282e3b4f148d25cb6c90

/-- The generator draws the card challenge. -/
def challengeEnv : Env := { Env.unset with rng := fun i => cardChallenge.bytes.getD i 0 }

def handshakeMacs : List Recorded :=
  [⟨se050eEnc, toBe 32 0x400008001a0a1a2a3a4a5a6a74ecd906d325d3d8a, sessionEnc⟩,
    ⟨se050eMac, toBe 32 0x600008001a0a1a2a3a4a5a6a74ecd906d325d3d8a, sessionMac⟩,
    ⟨se050eMac, toBe 32 0x700008001a0a1a2a3a4a5a6a74ecd906d325d3d8a, sessionRmac⟩,
    ⟨sessionMac, toBe 32 0x4001a0a1a2a3a4a5a6a74ecd906d325d3d8a, toBe 16 0xf7be9f05eaa0a661b8d1a4aeefa64b1d⟩,
    ⟨sessionMac, toBe 32 0x100004001a0a1a2a3a4a5a6a74ecd906d325d3d8a, toBe 16 0xad5e484a81d592d9a6490d3ff77d0663⟩]

def channelMacs : List Recorded :=
  [⟨sessionMac, toBe 29 0x8482330010ad5e484a81d592d9, toBe 16 0x253fd658601447e904d5528dceb9de1d⟩,
    ⟨sessionMac, toBe 21 0x253fd658601447e904d5528dceb9de1d8404002008, toBe 16 0x844ee0bb949219796adaf41e7d89c5ca⟩,
    ⟨sessionMac,
      toBe 37 0x844ee0bb949219796adaf41e7d89c5ca84020027183cd1bb835dc3ee9588aa37334819d9c5,
      toBe 16 0x8379191defe3dde76e88bc512b25d21c⟩,
    ⟨sessionRmac, toBe 34 0x8379191defe3dde76e88bc512b25d21c9eff952511bfda81c08f684d4208c9229000,
      toBe 16 0xe0fa2bbd11bd2b583a5b9ba6e43b6da8⟩,
    ⟨sessionRmac, toBe 18 0x844ee0bb949219796adaf41e7d89c5ca9000, toBe 16 0x3e339de774acdd26f1de26d9871bfcb8⟩]

def channelBlocks : List Recorded :=
  [⟨sessionEnc, toBe 16 2, toBe 16 0xfddea327b7a7f746ab1d9b5c1d5f2b21⟩,
    ⟨sessionEnc, toBe 16 0xbcdaa327b7a67746ab1d9b5c1d5f2b21, toBe 16 0x3cd1bb835dc3ee9588aa37334819d9c5⟩,
    ⟨sessionEnc, toBe 16 0x80000000000000000000000000000002, toBe 16 0x31e9689f73dc0ae19cb2abd8a94ce7bc⟩,
    ⟨sessionEnc, toBe 16 0x70e8691f73dc0ae19cb2abd8a94ce7bc, toBe 16 0x9eff952511bfda81c08f684d4208c922⟩]

def channelCrates : Crates := Crates.recorded (handshakeMacs ++ channelMacs) channelBlocks

/-- GetVersion refused, then CheckObjectExists of an unknown object. -/
def channelExchanges : List Exchange :=
  [⟨⟨0x04, 0x00, 0x20, [], false, []⟩, .error swConditionsNotSatisfied⟩,
    ⟨⟨0x02, 0x00, 0x27, [0x41, 0x04, 0x00, 0x00, 0x00, 0x01], false, []⟩, .successWithData [0x41, 0x01, 0x01]⟩]

/-- At level `33`, with the compiled-in keys. -/
theorem default_keys_agree :
    ∃ body p hostCrypto h s,
      initializeUpdateWithConfig channelCrates challengeEnv 0x0B hostChallenge.bytes
          ⟨defaultKvn, se050eEnc, se050eMac, se050eDek⟩ = (.successWithData body, .pending p) ∧
      HostScp03.fromInitUpdate channelCrates ⟨se050eEnc, by decide⟩ ⟨se050eMac, by decide⟩ hostChallenge body 0x33 =
        .ok (hostCrypto, h) ∧
      Scp03State.externalAuthenticate channelCrates (h.externalAuthenticate channelCrates hostCrypto).1 (.pending p) =
        (.success, .active s) ∧
      (s.mcv = (h.externalAuthenticate channelCrates hostCrypto).2.mcv ∧
        s.cmdCounter = (h.externalAuthenticate channelCrates hostCrypto).2.counter) ∧
      AgreeThroughout channelCrates (h.externalAuthenticate channelCrates hostCrypto).2 s channelExchanges :=
  host_card_agree channelCrates (fun k b => (Recorded.permute channelBlocks k).symm_apply_apply b) (by decide)
    ⟨se050eEnc, by decide⟩ ⟨se050eMac, by decide⟩ defaultKvn 0x0B 0x33 se050eDek hostChallenge (by decide)
    channelExchanges (by
      intro e he
      simp only [channelExchanges, List.mem_cons, List.not_mem_nil, or_false] at he
      obtain rfl | rfl := he
      · exact ⟨by decide, fun _ => rfl⟩
      · exact ⟨by decide, fun h => absurd rfl h⟩)

/-! ### The counter of applets before 4.3 -/

/-- A handler that cannot refuse, inside of one that can. -/
def infallible {ε α : Type} : Handler Empty α → Handler ε α
  | .ok a => .ok a
  | .error (.panic p) => .error (.panic p)

@[simp] theorem infallible_eq_ok {ε α : Type} {x : Handler Empty α} {a : α} :
    (infallible x : Handler ε α) = .ok a ↔ x = .ok a := by
  rcases x with (p | e) | a
  · simp [infallible]
  · exact e.elim
  · simp [infallible]

/-- A wrapped command is unwrapped and its response wrapped. -/
def Session.exchange (K : Crates) (s : Session) (i : Bytes × ApduResponse) :
    Cmd ((ParsedApdu × ApduResponse) × Session) := do
  let (apdu, s₁) ← s.unwrapCommand K i.1
  let (out, s₂) ← infallible (s₁.wrapResponse K i.2)
  return ((apdu, out), s₂)

abbrev ExchangeEvent := Event Session (Bytes × ApduResponse) (ParsedApdu × ApduResponse)

namespace ExchangeEvent

/-- The command had a body, and was answered with success or had not exactly eight bytes. -/
def Counts (e : ExchangeEvent) : Prop :=
  e.output.1.data ≠ [] ∧ (e.input.2.sw = swNoError ∨ e.output.1.data.length ≠ 8)

instance (e : ExchangeEvent) : Decidable e.Counts := inferInstanceAs (Decidable (_ ∧ _))

/-- A command without a body was answered with an error. -/
def BodylessError (e : ExchangeEvent) : Prop := e.output.1.data = [] ∧ e.input.2.sw ≠ swNoError

instance (e : ExchangeEvent) : Decidable e.BodylessError := inferInstanceAs (Decidable (_ ∧ _))

end ExchangeEvent

section Legacy

variable {K : Crates} {s s' : Session}

/-- Unwrapping keeps the counter and the applet generation, and notes the length of the body. -/
theorem unwrapCommand_eq_ok {raw : Bytes} {apdu : ParsedApdu} (h : s.unwrapCommand K raw = .ok (apdu, s')) :
    s'.lastCmdLen = apdu.data.length ∧ s'.cmdCounter = s.cmdCounter ∧ s'.legacy = s.legacy := by
  have hbody : ∀ cla ins p1 p2 header lc rest, s.unwrapBody K cla ins p1 p2 header lc rest = .ok (apdu, s') →
      s'.lastCmdLen = apdu.data.length ∧ s'.cmdCounter = s.cmdCounter ∧ s'.legacy = s.legacy := by
    intro cla ins p1 p2 header lc rest hb
    simp only [Session.unwrapBody, bind_eq_ok, pure_eq_ok, Except.ok.injEq, Prod.mk.injEq] at hb
    obtain ⟨-, -, -, -, -, -, _, -, rfl, rfl⟩ := hb
    exact ⟨rfl, rfl, rfl⟩
  unfold Session.unwrapCommand at h
  split at h
  · split at h
    · exact hbody _ _ _ _ _ _ _ h
    · split at h
      · exact hbody _ _ _ _ _ _ _ h
      · simp at h
  · simp at h

theorem wrapResponse_eq_ok {resp out : ApduResponse} (h : s.wrapResponse K resp = .ok (out, s')) :
    s' = s.advanceCounter resp.sw := by
  unfold Session.wrapResponse at h
  split at h
  · simp only [bind_eq_ok, pure_eq_ok, Except.ok.injEq, Prod.mk.injEq] at h
    obtain ⟨-, -, -, rfl⟩ := h
    rfl
  · simp only [pure_eq_ok, Except.ok.injEq, Prod.mk.injEq] at h
    exact h.2.symm

/-- One exchange of an old applet: the counter advances when the command
counts, and also when a command without a body fails. -/
theorem exchange_legacy {i : Bytes × ApduResponse} {o : ParsedApdu × ApduResponse} (hl : s.legacy = true)
    (h : s.exchange K i = .ok (o, s')) :
    s'.legacy = true ∧
      s'.cmdCounter = s.cmdCounter +
        if ExchangeEvent.Counts ⟨s, i, o⟩ ∨ ExchangeEvent.BodylessError ⟨s, i, o⟩ then 1 else 0 := by
  obtain ⟨raw, resp⟩ := i
  simp only [Session.exchange, bind_eq_ok, infallible_eq_ok, pure_eq_ok, Except.ok.injEq, Prod.mk.injEq] at h
  obtain ⟨⟨apdu, s₁⟩, hu, ⟨out, s₂⟩, hw, rfl, rfl⟩ := h
  obtain ⟨hlen, hctr, hleg⟩ := unwrapCommand_eq_ok hu
  have hs := wrapResponse_eq_ok hw
  have hadv : (if resp.sw = swNoError then decide (0 < apdu.data.length) else decide (apdu.data.length ≠ 8)) =
      decide (ExchangeEvent.Counts ⟨s, (raw, resp), (apdu, out)⟩ ∨
        ExchangeEvent.BodylessError ⟨s, (raw, resp), (apdu, out)⟩) := by
    unfold ExchangeEvent.Counts ExchangeEvent.BodylessError
    by_cases hsw : resp.sw = swNoError
    · simp [hsw, List.length_pos_iff]
    · by_cases hd : apdu.data = []
      · simp [hsw, hd]
      · simp [hsw, hd]
  dsimp only at hs ⊢
  rw [hs, Session.advanceCounter, hleg, hl, if_pos rfl, hlen, hadv]
  by_cases hc : ExchangeEvent.Counts ⟨s, (raw, resp), (apdu, out)⟩ ∨
      ExchangeEvent.BodylessError ⟨s, (raw, resp), (apdu, out)⟩
  · rw [decide_eq_true hc, if_pos rfl, if_pos hc]
    exact ⟨rfl, by rw [hctr]⟩
  · rw [decide_eq_false hc, if_neg Bool.false_ne_true, if_neg hc]
    exact ⟨hleg.trans hl, by rw [hctr, UInt32.add_zero]⟩

/-- A new session has the applet generation of its handshake and counter one. -/
theorem authenticate_fresh {p : Pending} {raw : Bytes} (h : authenticate K p raw = .ok s) :
    s.legacy = p.legacy ∧ s.cmdCounter = 1 := by
  unfold authenticate at h
  split at h
  · simp only at h
    split_ifs at h
    split at h
    · cases h
    · split at h
      · cases h
      · split_ifs at h
        cases h
        exact ⟨rfl, rfl⟩
  · cases h

/-- Over a run without such failures the counter advances once for each command that counts. -/
theorem run_legacy {log : List ExchangeEvent} (hr : Run (Session.exchange K) s log s') (hl : s.legacy = true)
    (hlog : ∀ e ∈ log, ¬ e.BodylessError) :
    s'.cmdCounter = s.cmdCounter + UInt32.ofNat (log.countP fun e => e.Counts) := by
  induction hr with
  | nil s => simp
  | @cons s s₁ s' i o log h _ ih =>
    obtain ⟨hl₁, hc⟩ := exchange_legacy hl h
    have hne := hlog _ List.mem_cons_self
    rw [ih hl₁ fun e he => hlog e (List.mem_cons_of_mem _ he), hc, List.countP_cons]
    simp only [hne, or_false]
    by_cases hcount : ExchangeEvent.Counts ⟨s, i, o⟩
    · simp only [hcount, if_true, decide_true]
      rw [Nat.add_comm, UInt32.ofNat_add, UInt32.add_assoc]
      rfl
    · simp [hcount]

/-- After the handshake with an old applet, the counter is one more than the
number of commands that count, and commands without a body leave it alone, if
and only if no command without a body is answered with an error. -/
theorem legacy_counter_iff (K : Crates) {p : Pending} {raw : Bytes} (hl : p.legacy = true)
    (hauth : authenticate K p raw = .ok s) {log : List ExchangeEvent} (hr : Run (Session.exchange K) s log s') :
    (s'.cmdCounter = UInt32.ofNat (1 + log.countP fun e => e.Counts) ∧
      ∀ e ∈ log, e.output.1.data = [] →
        ∀ t, e.pre.exchange K e.input = .ok (e.output, t) → t.cmdCounter = e.pre.cmdCounter) ↔
    ∀ e ∈ log, ¬ e.BodylessError := by
  obtain ⟨hleg, hone⟩ := authenticate_fresh hauth
  rw [hl] at hleg
  have hkeep : ∀ (s : Session) i o (s' : Session), s.legacy = true → s.exchange K i = .ok (o, s') → s'.legacy = true :=
    fun _ _ _ _ hl h => (exchange_legacy hl h).1
  constructor
  · rintro ⟨-, hbody⟩ e he hbad
    obtain ⟨hpre, t, ht⟩ := hr.step_of_mem hkeep hleg he
    have h1 := hbody e he hbad.1 t ht
    have h2 := (exchange_legacy hpre ht).2
    rw [if_pos (.inr hbad), h1] at h2
    simp at h2
  · intro hlog
    refine ⟨?_, ?_⟩
    · rw [run_legacy hr hleg hlog, hone, UInt32.ofNat_add]
      rfl
    · intro e he hd t ht
      have hcount : ¬ e.Counts := fun hc => hc.1 hd
      obtain ⟨hpre, -⟩ := hr.step_of_mem hkeep hleg he
      rw [(exchange_legacy hpre ht).2, if_neg (not_or.mpr ⟨hcount, hlog e he⟩), UInt32.add_zero]

end Legacy

/-- The handshake above, with an applet of the old generation. -/
def legacyPending : Pending := ⟨hostChallenge, cardChallenge, sessionEnc, sessionMac, sessionRmac, true⟩

def legacyAuthenticate : Bytes := toBe 21 0x8482330010ad5e484a81d592d9253fd658601447e9

/-- GetVersion, wrapped: it has no body. -/
def wrappedGetVersion : Bytes := toBe 13 0x8404002008844ee0bb94921979

def legacySession : Session :=
  ⟨sessionEnc, sessionMac, sessionRmac, 0x33, ⟨toBe 16 0x253fd658601447e904d5528dceb9de1d, toBe_length _ _⟩, 1, 0, true⟩

/-- The session after the command, by its counter. -/
def legacySessionAfter (counter : UInt32) : Session :=
  { legacySession with mcv := ⟨toBe 16 0x844ee0bb949219796adaf41e7d89c5ca, toBe_length _ _⟩, cmdCounter := counter }

/-- Answered with success, it leaves the counter alone. -/
theorem bodyless_success_keeps_counter :
    ∃ log : List ExchangeEvent, Run (Session.exchange channelCrates) legacySession log (legacySessionAfter 1) ∧
      log.map (·.input) = [(wrappedGetVersion, .success)] ∧
      (legacySessionAfter 1).cmdCounter = UInt32.ofNat (1 + log.countP fun e => e.Counts) := by
  have hrun : Run (Session.exchange channelCrates) legacySession
      [⟨legacySession, (wrappedGetVersion, .success),
        (⟨0x80, 0x04, 0x00, 0x20, [], none⟩, .successWithData (toBe 8 0x3e339de774acdd26))⟩]
      (legacySessionAfter 1) := .cons (by decide +kernel) (.nil _)
  have hauth : authenticate channelCrates legacyPending legacyAuthenticate = .ok legacySession := by decide +kernel
  refine ⟨_, hrun, rfl, ((legacy_counter_iff channelCrates rfl hauth hrun).mpr ?_).1⟩
  intro e he hbad
  simp only [List.mem_cons, List.not_mem_nil, or_false] at he
  subst he
  exact hbad.2 rfl

/-- Answered with an error, it advances the counter although it has no body. -/
theorem bodyless_error_advances_counter :
    authenticate channelCrates legacyPending legacyAuthenticate = .ok legacySession ∧
      legacySession.cmdCounter = 1 ∧
      Session.exchange channelCrates legacySession (wrappedGetVersion, .error swConditionsNotSatisfied) =
        .ok ((⟨0x80, 0x04, 0x00, 0x20, [], none⟩, .error swConditionsNotSatisfied), legacySessionAfter 2) := by
  refine ⟨?_, rfl, ?_⟩
  all_goals decide +kernel

end SE050
end Simulators
