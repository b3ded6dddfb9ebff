/-
# TROPIC01: the secure session

`session.rs`: the handshake (Noise KK1 with the chaining of libtropic's own
HKDF) and the AES-GCM tunnel behind it, with one key and one nonce counter for
each direction.

The counter is the little-endian number in the first four bytes of a nonce;
`nonceAt n` is the nonce of message `n`. Encryptions are recorded: a
`GcmMessage` is what a cipher was given.

Key theorem: `stepNonce_nonceAt`.
-/
import Simulators.TROPIC01.Device
import Simulators.TROPIC01.Frame

namespace Simulators
namespace TROPIC01

open Handler

def protocolName : Bytes := ascii "Noise_KK1_25519_AESGCM_SHA256" ++ [0, 0, 0]

/-- EHPUB and the pairing key index. -/
def handshakeReqLen : ℕ := 33

/-- The keys and nonce counters of an open channel. -/
structure SessionKeys where
  kCmd : ByteArr 32
  kRes : ByteArr 32
  nonceCmd : ByteArr 12
  nonceRes : ByteArr 12
  /-- The pairing key slot; it selects the privilege bits. -/
  pkeyIndex : UInt8
deriving DecidableEq

structure Session where
  keys : Option SessionKeys := none
deriving DecidableEq

inductive HandshakeError
  | badRequestLen
  | invalidPairingSlot
  | unauthorizedPairingSlot
deriving DecidableEq, Repr

inductive L3WrapError
  | truncated
  | badTag
  | nonceOverflow
deriving DecidableEq, Repr

/-! ### Nonces -/

def stepNonce (nonce : ByteArr 12) : Except L3WrapError (ByteArr 12) :=
  let counter := ofLe (nonce.bytes.take 4)
  if counter = 2 ^ 32 - 1 then .error .nonceOverflow
  else .ok ⟨toLe 4 (counter + 1) ++ nonce.bytes.drop 4, by simp [nonce.size]⟩

/-- The nonce of message `n`. -/
def nonceAt (n : ℕ) : ByteArr 12 := ⟨toLe 4 n ++ List.replicate 8 0, by simp⟩

theorem zeroArr_eq_nonceAt : zeroArr 12 = nonceAt 0 := by decide

theorem nonceAt_counter {n : ℕ} (hn : n < 2 ^ 32) : ofLe ((nonceAt n).bytes.take 4) = n := by
  have htake : (nonceAt n).bytes.take 4 = toLe 4 n := List.take_left' (toLe_length 4 n)
  rw [htake, ofLe_toLe]
  exact Nat.mod_eq_of_lt hn

/-- The counters of the tunnel do not come around: the last one is not left. -/
theorem stepNonce_nonceAt {n : ℕ} (hn : n < 2 ^ 32) {nonce : ByteArr 12} :
    stepNonce (nonceAt n) = .ok nonce ↔ n + 1 < 2 ^ 32 ∧ nonce = nonceAt (n + 1) := by
  have hdrop : (nonceAt n).bytes.drop 4 = List.replicate 8 0 := List.drop_left' (toLe_length 4 n)
  unfold stepNonce
  simp only [nonceAt_counter hn, hdrop]
  split
  · simp only [reduceCtorEq, false_iff]
    omega
  · rw [Except.ok.injEq, eq_comm]
    constructor
    · rintro rfl
      exact ⟨by omega, rfl⟩
    · rintro ⟨-, rfl⟩
      rfl

theorem nonceAt_injective {m n : ℕ} (hm : m < 2 ^ 32) (hn : n < 2 ^ 32) (h : nonceAt m = nonceAt n) : m = n := by
  rw [← nonceAt_counter hm, h, nonceAt_counter hn]

/-! ### The tunnel -/

/-- What AES-GCM is given to encrypt, without associated data. -/
structure GcmMessage where
  key : ByteArr 32
  nonce : ByteArr 12
  plaintext : Bytes
deriving DecidableEq

/-- Ciphertext and tag. -/
def GcmMessage.encrypt (K : Crates) (m : GcmMessage) : Bytes := K.gcmEncrypt m.key m.nonce [] m.plaintext

namespace Session

def isOpen (s : Session) : Bool := s.keys.isSome

/-- Decrypt `[size][ciphertext][tag]`; the command nonce steps on success. -/
def unwrapL3Request (K : Crates) (s : Session) (l2Body : Bytes) : Except L3WrapError (Bytes × Session) :=
  match s.keys with
  | none => .error .badTag
  | some keys =>
    match l2Body with
    | lo :: hi :: ctAndTag =>
      if l2Body.length < 2 + 16 then .error .truncated
      else if l2Body.length ≠ 2 + (u16Le lo hi).toNat + 16 then .error .truncated
      else match K.gcmDecrypt keys.kCmd keys.nonceCmd [] ctAndTag with
        | none => .error .badTag
        | some plaintext =>
          match stepNonce keys.nonceCmd with
          | .error e => .error e
          | .ok nonce => .ok (plaintext, ⟨some { keys with nonceCmd := nonce }⟩)
    | _ => .error .truncated

/-- The encryption that took place, and the packet `[size][ciphertext][tag]`;
the response nonce steps on success. -/
def wrapL3Response (K : Crates) (s : Session) (plaintext : Bytes) :
    Option GcmMessage × Except L3WrapError (Bytes × Session) :=
  match s.keys with
  | none => (none, .error .badTag)
  | some keys =>
    let m : GcmMessage := ⟨keys.kRes, keys.nonceRes, plaintext⟩
    let resSize := UInt16.ofNat plaintext.length
    (some m, match stepNonce keys.nonceRes with
      | .error e => .error e
      | .ok nonce => .ok ([loByte resSize, hiByte resSize] ++ m.encrypt K, ⟨some { keys with nonceRes := nonce }⟩))

end Session

/-! ### The handshake -/

/-- `lt_hkdf`. -/
def ltHkdf (K : Crates) (salt ikm : Bytes) : ByteArr 32 × ByteArr 32 :=
  let tmp := (K.hmacSha256 salt ikm).bytes
  let out1 := K.hmacSha256 tmp [0x01]
  (out1, K.hmacSha256 tmp (out1.bytes ++ [0x02]))

/-- `h = SHA256(h || part)` for each part in turn. -/
def transcript (K : Crates) (parts : List Bytes) : ByteArr 32 :=
  parts.foldl (fun h part => K.sha256 (h.bytes ++ part)) (K.sha256 protocolName)

/-- kAUTH, kCMD and kRES: each output but the last, and a zero, is the next salt. -/
def sessionSecrets (K : Crates) (ss1 ss2 ss3 : ByteArr 32) : ByteArr 32 × ByteArr 32 × ByteArr 32 :=
  let (out1, _) := ltHkdf K protocolName ss1.bytes
  let (out2, _) := ltHkdf K (out1.bytes ++ [0]) ss2.bytes
  let (out3, kAuth) := ltHkdf K (out2.bytes ++ [0]) ss3.bytes
  let (kCmd, kRes) := ltHkdf K (out3.bytes ++ [0]) []
  (kAuth, kCmd, kRes)

/-- The tag of an empty message. -/
def aesGcmSealTag (K : Crates) (key : ByteArr 32) (iv : ByteArr 12) (aad : Bytes) :
    Handler HandshakeError (ByteArr 16) :=
  array 16 (K.gcmEncrypt key iv aad [])

/-- The response body, ETPUB and tag, and the open session. -/
def Session.handshake (K : Crates) (g : OsRng) (device : Device) (request : Bytes) :
    Handler HandshakeError (Bytes × Session) := do
  ensure (request.length = handshakeReqLen) .badRequestLen
  let ehpub ← array 32 (request.take 32)
  let pkeyIndex ← index request 32
  let slot ← orRefuse .invalidPairingSlot (device.pairingSlots.lookup pkeyIndex)
  ensure (slot.state = .written) .unauthorizedPairingSlot
  let shipub := slot.publicKey
  let etpriv := g.array32
  let etpub := K.x25519Public etpriv
  let h := transcript K [shipub.bytes, device.stPub.bytes, ehpub.bytes, [pkeyIndex], etpub.bytes]
  let (kAuth, kCmd, kRes) := sessionSecrets K (K.x25519Shared etpriv ehpub) (K.x25519Shared etpriv shipub)
    (K.x25519Shared device.stPriv ehpub)
  let tag ← aesGcmSealTag K kAuth (zeroArr 12) h.bytes
  return (etpub.bytes ++ tag.bytes, ⟨some ⟨kCmd, kRes, zeroArr 12, zeroArr 12, pkeyIndex⟩⟩)

/-- A new session starts both counters at zero, for a pairing slot that is written. -/
theorem handshake_keys {K : Crates} {g : OsRng} {device : Device} {request body : Bytes} {s : Session}
    (h : Session.handshake K g device request = .ok (body, s)) :
    ∃ keys, s.keys = some keys ∧ keys.nonceCmd = nonceAt 0 ∧ keys.nonceRes = nonceAt 0 ∧
      keys.pkeyIndex ∈ device.pairingSlots := by
  simp only [Session.handshake, bind_eq_ok, orRefuse_eq_ok] at h
  obtain ⟨-, -, ehpub, -, pkeyIndex, -, slot, hslot, -, -, tag, -, h⟩ := h
  simp only [pure_eq_ok, Except.ok.injEq, Prod.mk.injEq] at h
  obtain ⟨-, rfl⟩ := h
  exact ⟨_, rfl, zeroArr_eq_nonceAt, zeroArr_eq_nonceAt, Finmap.mem_of_lookup_eq_some hslot⟩

end TROPIC01
end Simulators
