/-
# TROPIC01: personalities, the persistent device and the crates

`personality.rs` (the three chips that are modelled), the `Device` of
`object_store/types.rs`, and the cryptographic crates as a structure of
functions. The slots are `BTreeMap`s, modelled as finite maps: nothing depends
on their order.
-/
import Mathlib.Data.Finmap
import Simulators.Lib.Handler

namespace Simulators
namespace TROPIC01

/-! ### `personality.rs` -/

inductive Personality
  | es012
  | es220
  | fw220
deriving DecidableEq, Repr

/-- Silicon, bootloader and factory provisioning. -/
inductive Part
  | engineeringSample
  | production
deriving DecidableEq, Repr

inductive Firmware
  | v0_1_2
  | v2_2_0
deriving DecidableEq, Repr

/-- The text as bytes. -/
def ascii (text : String) : Bytes := text.toList.map fun c => UInt8.ofNat c.toNat

namespace Personality

def part : Personality → Part
  | es012 | es220 => .engineeringSample
  | fw220 => .production

def firmware : Personality → Firmware
  | es012 => .v0_1_2
  | es220 | fw220 => .v2_2_0

def riscvFwVersion (p : Personality) : Bytes :=
  match p.firmware with
  | .v0_1_2 => [0x00, 0x02, 0x01, 0x00]
  | .v2_2_0 => [0x00, 0x00, 0x02, 0x02]

def spectFwVersion (p : Personality) : Bytes :=
  match p.firmware with
  | .v0_1_2 => [0x00, 0x01, 0x03, 0x00]
  | .v2_2_0 => [0x00, 0x00, 0x03, 0x01]

/-- Application and SPECT image sizes. -/
def fwImageSizes (p : Personality) : ℕ × ℕ :=
  match p.firmware with
  | .v0_1_2 => (0x5ec0, 0x2350)
  | .v2_2_0 => (0x5374, 0x2920)

def fwBank2Written (p : Personality) : Bool := p == es220

def bootloaderVersion (p : Personality) : Bytes :=
  match p.part with
  | .engineeringSample => [0x00, 0x01, 0x00, 0x81]
  | .production => [0x00, 0x01, 0x00, 0x82]

def bootloaderSpectVersion (_ : Personality) : Bytes := [0x00, 0x00, 0x00, 0x80]

def fwBankHeaderLen (p : Personality) : ℕ :=
  match p.part with
  | .engineeringSample => 20
  | .production => 52

/-- The largest R-Memory slot. -/
def rMemSlotMax (p : Personality) : ℕ :=
  match p.firmware with
  | .v0_1_2 => 444
  | .v2_2_0 => 475

/-- A command of the wrong size closes the session. -/
def strictL3Sizes (p : Personality) : Bool := p.firmware == .v2_2_0

/-- A busy poll keeps READY. -/
def busyPollReady (p : Personality) : Bool := p.firmware == .v2_2_0

def badPairingIndexAlarms (p : Personality) : Bool := p.firmware == .v0_1_2

def eddsaEmptyMessageUnsigned (p : Personality) : Bool := p.firmware == .v0_1_2

def fwLogText : Bytes := ascii "TROPIC01Sim: firmware debug log is not modelled\n"

/-- A full chunk on engineering samples, empty on production parts. -/
def fwLog (p : Personality) : Bytes :=
  match p.part with
  | .engineeringSample => fwLogText ++ List.replicate (252 - fwLogText.length) 0
  | .production => []

end Personality

/-! ### `object_store/types.rs` -/

/-- The standard library's `BTreeMap`. -/
abbrev BTreeMap (κ υ : Type) := Finmap fun _ : κ => υ

inductive CurveKind
  | p256
  | ed25519
deriving DecidableEq, Repr

def CurveKind.wireId : CurveKind → UInt8
  | p256 => 1
  | ed25519 => 2

def CurveKind.fromWireId : UInt8 → Option CurveKind
  | 1 => some p256
  | 2 => some ed25519
  | _ => none

inductive KeyOrigin
  | generated
  | stored
deriving DecidableEq, Repr

def KeyOrigin.wireId : KeyOrigin → UInt8
  | generated => 1
  | stored => 2

structure EccSlot where
  curve : CurveKind
  origin : KeyOrigin
  privateKey : Bytes
deriving DecidableEq

inductive PairingState
  | written
  | invalidated
deriving DecidableEq, Repr

structure PairingSlot where
  publicKey : ByteArr 32
  state : PairingState
deriving DecidableEq

/-- The persistent state of the chip. -/
structure Device where
  personality : Personality
  chipId : Bytes
  stPriv : ByteArr 32
  stPub : ByteArr 32
  certStore : Bytes
  pairingSlots : BTreeMap UInt8 PairingSlot
  rConfig : List UInt32
  iConfig : List UInt32
  eccSlots : BTreeMap UInt16 EccSlot
  rMemSlots : BTreeMap UInt16 Bytes
  mcounters : BTreeMap UInt16 UInt32
  macanddSlots : BTreeMap UInt16 (ByteArr 32)
  /-- The keys of F1 and F2. -/
  macanddKey1 : ByteArr 32
  macanddKey2 : ByteArr 32
deriving DecidableEq

/-- Each R-Config register AND its I-Config register. -/
def Device.effectiveConfig (dev : Device) : List UInt32 := List.zipWith (· &&& ·) dev.rConfig dev.iConfig

/-! ### Outside of the repository -/

/-- The bytes that `OsRng` will draw. -/
abbrev OsRng := ℕ → UInt8

/-- `fill_bytes` on `n` bytes. -/
def OsRng.fill (g : OsRng) (n : ℕ) : Bytes := (List.range n).map g

@[simp] theorem OsRng.fill_length (g : OsRng) (n : ℕ) : (g.fill n).length = n := by simp [OsRng.fill]

/-- `fill_bytes` on a `[u8; 32]`. -/
def OsRng.array32 (g : OsRng) : ByteArr 32 := ⟨g.fill 32, g.fill_length 32⟩

structure Crates where
  sha256 : Bytes → ByteArr 32
  sha512 : Bytes → ByteArr 64
  hmacSha256 : Bytes → Bytes → ByteArr 32
  x25519Public : ByteArr 32 → ByteArr 32
  x25519Shared : ByteArr 32 → ByteArr 32 → ByteArr 32
  /-- `Aes256Gcm::encrypt` with key, nonce, associated data and message: ciphertext and tag. -/
  gcmEncrypt : ByteArr 32 → ByteArr 12 → Bytes → Bytes → Bytes
  gcmDecrypt : ByteArr 32 → ByteArr 12 → Bytes → Bytes → Option Bytes
  P256Secret : Type
  /-- `SecretKey::random(..).to_bytes()`. -/
  p256Random : OsRng → ByteArr 32
  p256FromSlice : Bytes → Option P256Secret
  /-- X and Y of the public key. -/
  p256Public : P256Secret → ByteArr 64
  p256SignPrehash : P256Secret → OsRng → Bytes → Option (ByteArr 64)
  /-- `SigningKey::from_bytes(..).verifying_key()`. -/
  ed25519Public : ByteArr 32 → ByteArr 32
  /-- Scalars of curve25519: reduction of 32 and of 64 bytes, `r + k * a`, and the base multiple, compressed. -/
  Scalar : Type
  scalarFromBytes : ByteArr 32 → Scalar
  scalarFromHash : ByteArr 64 → Scalar
  scalarMulAdd : Scalar → Scalar → Scalar → Scalar
  scalarToBytes : Scalar → ByteArr 32
  mulBase : Scalar → ByteArr 32
  /-- KMAC256 with key, customization and message. -/
  kmac256 : ByteArr 32 → Bytes → Bytes → ByteArr 32

/-! ### Recorded crates -/

/-- What a function was given, and what it returned. -/
abbrev Recorded := List (List Bytes × Bytes)

def Recorded.recall (t : Recorded) (n : ℕ) (args : List Bytes) : ByteArr n :=
  ((t.lookup args).bind (toArr n)).getD (zeroArr n)

/-- An encryption with AES-GCM. -/
structure GcmRecord where
  key : Bytes
  nonce : Bytes
  aad : Bytes
  plaintext : Bytes
  ciphertext : Bytes
deriving DecidableEq

/-- Crates that behave as on record, for the handshake and the tunnel. -/
def Crates.recorded (sha hmac dh : Recorded) (gcm : List GcmRecord) : Crates where
  sha256 m := sha.recall 32 [m]
  sha512 _ := zeroArr 64
  hmacSha256 k m := hmac.recall 32 [k, m]
  x25519Public k := dh.recall 32 [k.bytes]
  x25519Shared k p := dh.recall 32 [k.bytes, p.bytes]
  gcmEncrypt k n a m :=
    match gcm.find? fun r => r.key = k.bytes ∧ r.nonce = n.bytes ∧ r.aad = a ∧ r.plaintext = m with
    | some r => r.ciphertext
    | none => []
  gcmDecrypt k n a c :=
    (gcm.find? fun r => r.key = k.bytes ∧ r.nonce = n.bytes ∧ r.aad = a ∧ r.ciphertext = c).map (·.plaintext)
  P256Secret := Unit
  p256Random _ := zeroArr 32
  p256FromSlice _ := none
  p256Public _ := zeroArr 64
  p256SignPrehash _ _ _ := none
  ed25519Public _ := zeroArr 32
  Scalar := Unit
  scalarFromBytes _ := ()
  scalarFromHash _ := ()
  scalarMulAdd _ _ _ := ()
  scalarToBytes _ := zeroArr 32
  mulBase _ := zeroArr 32
  kmac256 _ _ _ := zeroArr 32

/-- A production part with nothing written. -/
def blankDevice : Device where
  personality := .fw220
  chipId := []
  stPriv := zeroArr 32
  stPub := zeroArr 32
  certStore := []
  pairingSlots := ∅
  rConfig := List.replicate 128 0xffffffff
  iConfig := List.replicate 128 0xffffffff
  eccSlots := ∅
  rMemSlots := ∅
  mcounters := ∅
  macanddSlots := ∅
  macanddKey1 := zeroArr 32
  macanddKey2 := zeroArr 32

end TROPIC01
end Simulators
