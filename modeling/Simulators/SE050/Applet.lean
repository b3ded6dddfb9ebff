/-
# SE050: applet personalities, curves and the crates behind the handlers

`applet.rs` (the four bench-characterized parts and where they differ), the
EC curves of `object_store/types.rs`, and the interface of what lies outside
of the repository: the crates the handlers compute with (`Crates`) and the
process environment and random generator a command reads (`Env`).

A crate function that takes a `GenericArray` takes a `ByteArr` here, so the
conversion from a slice, which panics when the lengths differ, stays in the
handler. A function that returns `Result` returns `Option`.
-/
import Mathlib.Data.Finmap
import Mathlib.Logic.Equiv.Basic
import Simulators.SE050.Wire

namespace Simulators
namespace SE050

/-! ### `applet.rs` -/

/-- SE050C 3.1.1, SE051 7.2.0, SE050E 7.2.0 without RSA, SE052F 7.2.22. -/
inductive AppletVersion
  | v3_1_1
  | v7_2_0
  | v7_2_0E
  | v7_2_22F
deriving DecidableEq, Repr

namespace AppletVersion

/-- Major, minor, patch, appletConfig and secureBox. -/
def versionBytes : AppletVersion → Bytes
  | v3_1_1 => [0x03, 0x01, 0x01, 0x6F, 0xFF, 0x01, 0x0B]
  | v7_2_0 => [0x07, 0x02, 0x00, 0x3F, 0xFF, 0xFF, 0xFF]
  | v7_2_0E => [0x07, 0x02, 0x00, 0x3F, 0x9F, 0xFF, 0xFF]
  | v7_2_22F => [0x07, 0x02, 0x16, 0x26, 0xF2, 0xFF, 0xFF]

def getRandomMax : AppletVersion → ℕ
  | v3_1_1 => 880
  | v7_2_0 | v7_2_0E => 1018
  | v7_2_22F => 1003

def supports25519 (v : AppletVersion) : Bool := v != v7_2_22F

def rsaMinKeyBits : AppletVersion → ℕ
  | v7_2_22F => 2048
  | _ => 1024

def supportsRsaPublicImport (v : AppletVersion) : Bool := v != v7_2_22F

def supportsRsa (v : AppletVersion) : Bool := v != v7_2_0E

def isV7 (v : AppletVersion) : Bool := v != v3_1_1

def freeMemoryIsU32 (v : AppletVersion) : Bool := v == v7_2_22F

/-- GetFreeMemory's reply for a memory type: four bytes on the SE052F, else two. -/
def freeMemoryBytes (v : AppletVersion) (memoryType : UInt8) : Option Bytes :=
  let (persistent, transientReset, transientDeselect) : ℕ × ℕ × ℕ :=
    match v with
    | v3_1_1 => (31304, 575, 560)
    | v7_2_0 => (21000, 605, 592)
    | v7_2_0E => (32767, 796, 784)
    | v7_2_22F => (86336, 1157, 1152)
  let width := if v.freeMemoryIsU32 then 4 else 2
  match memoryType with
  | 0x01 => some (toBe width persistent)
  | 0x02 => some (toBe width transientReset)
  | 0x03 => some (toBe width transientDeselect)
  | _ => none

end AppletVersion

/-! ### Curves -/

inductive ECCurve
  | nistP192
  | nistP224
  | nistP256
  | nistP384
  | nistP521
  | ed25519
  | curve25519
deriving DecidableEq, Repr

namespace ECCurve

def fromSe050Byte : UInt8 → Option ECCurve
  | 0x01 => some nistP192
  | 0x02 => some nistP224
  | 0x03 => some nistP256
  | 0x04 => some nistP384
  | 0x05 => some nistP521
  | 0x40 => some ed25519
  | 0x41 => some curve25519
  | _ => none

/-- Private key and shared secret size in bytes. -/
def scalarLen : ECCurve → ℕ
  | nistP192 => 24
  | nistP224 => 28
  | nistP256 => 32
  | nistP384 => 48
  | nistP521 => 66
  | ed25519 | curve25519 => 32

/-- Weierstrass curves must exist as curve objects; the 25519 curves are built in. -/
def needsCurveObject : ECCurve → Bool
  | ed25519 | curve25519 => false
  | _ => true

end ECCurve

/-! ### Outside of the repository -/

/-- The standard library's `HashMap`. -/
abbrev HashMap (κ υ : Type) := Finmap fun _ : κ => υ

/-- A random generator: the bytes it will draw. -/
abbrev Rng := ℕ → UInt8

/-- `fill_bytes` on `n` bytes. -/
def Rng.fill (g : Rng) (n : ℕ) : Bytes := (List.range n).map g

@[simp] theorem Rng.fill_length (g : Rng) (n : ℕ) : (g.fill n).length = n := by simp [Rng.fill]

/-- The hash functions of the `sha1` and `sha2` crates. -/
inductive Hash
  | sha1
  | sha224
  | sha256
  | sha384
  | sha512
deriving DecidableEq, Repr

abbrev Block := ByteArr 16

/-- A key of one of the three AES sizes (`AnyAes` of `aes.rs`). -/
@[ext] structure AnyAes where
  key : Bytes
  size : key.length = 16 ∨ key.length = 24 ∨ key.length = 32
deriving DecidableEq

def AnyAes.new (key : Bytes) : Option AnyAes :=
  if h : key.length = 16 ∨ key.length = 24 ∨ key.length = 32 then some ⟨key, h⟩ else none

/-- The `rsa` crate's public key. -/
structure RsaPublicKey where
  n : ℕ
  e : ℕ

/-- The `rsa` crate's private key. -/
structure RsaPrivateKey where
  n : ℕ
  e : ℕ
  d : ℕ
  primes : List ℕ

/-- `RsaPublicKey::from(&private_key)`. -/
def RsaPrivateKey.toPublic (k : RsaPrivateKey) : RsaPublicKey := ⟨k.n, k.e⟩

/-- The encryption paddings of the `rsa` crate that the handlers use. -/
inductive RsaPadding
  | pkcs1v15
  | oaepSha1

/-- The cryptographic crates. -/
structure Crates where
  /-- `encrypt_block` and `decrypt_block` of `aes::Aes128`, `Aes192` and `Aes256`. -/
  aesEncrypt : AnyAes → Block → Block
  aesDecrypt : AnyAes → Block → Block
  /-- AES-CMAC of the `cmac` crate. -/
  cmac : AnyAes → Bytes → Block
  hmac : Hash → Bytes → Bytes → Bytes
  digest : Hash → Bytes → Bytes
  /-- Private keys of the `p192` .. `p521` crates. -/
  SecretKey : ECCurve → Type
  PublicKey : ECCurve → Type
  Signature : ECCurve → Type
  /-- `SecretKey::random` and `SigningKey::random`. -/
  randomSecret : (c : ECCurve) → Rng → SecretKey c
  /-- `from_bytes`: an error when the scalar is zero or not below the order. -/
  secretFromBytes : (c : ECCurve) → ByteArr c.scalarLen → Option (SecretKey c)
  secretToBytes : (c : ECCurve) → SecretKey c → ByteArr c.scalarLen
  publicOf : (c : ECCurve) → SecretKey c → PublicKey c
  /-- `to_encoded_point(false)`. -/
  publicToSec1 : (c : ECCurve) → PublicKey c → Bytes
  publicFromSec1 : (c : ECCurve) → Bytes → Option (PublicKey c)
  signPrehash : (c : ECCurve) → SecretKey c → Bytes → Option (Signature c)
  signatureToDer : (c : ECCurve) → Signature c → Bytes
  signatureFromDer : (c : ECCurve) → Bytes → Option (Signature c)
  verifyPrehash : (c : ECCurve) → PublicKey c → Bytes → Signature c → Bool
  /-- One round of the textbook P-192 signing equation with the `i`-th random
  `k`: none when `k`, `r` or `s` is zero. -/
  p192SignRound : SecretKey .nistP192 → Bytes → Rng → ℕ → Option (Signature .nistP192)
  /-- `diffie_hellman(..).raw_secret_bytes()`. -/
  diffieHellman : (c : ECCurve) → SecretKey c → PublicKey c → Bytes
  /-- `ed25519_dalek::SigningKey::generate`, `from_bytes(..).verifying_key()`,
  `sign` and `VerifyingKey::from_bytes(..)?.verify(..)`. -/
  ed25519Generate : Rng → ByteArr 32
  ed25519Public : ByteArr 32 → ByteArr 32
  ed25519Sign : ByteArr 32 → Bytes → ByteArr 64
  ed25519Verify : ByteArr 32 → Bytes → ByteArr 64 → Bool
  /-- `x25519_dalek::StaticSecret::random_from_rng`, `PublicKey::from` and
  `diffie_hellman`, little-endian. -/
  x25519Random : Rng → ByteArr 32
  x25519Public : ByteArr 32 → ByteArr 32
  x25519Shared : ByteArr 32 → ByteArr 32 → ByteArr 32
  rsaNew : Rng → ℕ → Option RsaPrivateKey
  rsaFromComponents : ℕ → ℕ → ℕ → List ℕ → Option RsaPrivateKey
  rsaToPkcs1Der : RsaPrivateKey → Option Bytes
  rsaFromPkcs1Der : Bytes → Option RsaPrivateKey
  rsaPublicNew : ℕ → ℕ → Option RsaPublicKey
  rsaPublicToPkcs1Der : RsaPublicKey → Option Bytes
  /-- `try_sign` of the PKCS#1 v1.5 signing key; `sign` expects it to succeed. -/
  pkcs1v15TrySign : Hash → RsaPrivateKey → Bytes → Option Bytes
  pkcs1v15Verify : Hash → RsaPublicKey → Bytes → Bytes → Bool
  /-- `try_sign_with_rng` of the PSS signing key; `sign_with_rng` expects it to succeed. -/
  pssTrySign : Hash → RsaPrivateKey → Rng → Bytes → Option Bytes
  pssVerify : Hash → RsaPublicKey → Bytes → Bytes → Bool
  rsaEncrypt : RsaPadding → RsaPublicKey → Rng → Bytes → Option Bytes
  rsaDecrypt : RsaPadding → RsaPrivateKey → Bytes → Option Bytes
  /-- `rsa::hazmat::rsa_decrypt`. -/
  rsaDecryptRaw : RsaPrivateKey → ℕ → Option ℕ

/-- Crates that compute nothing, for examples whose commands call few of them. -/
def Crates.blank : Crates where
  aesEncrypt _ b := b
  aesDecrypt _ b := b
  cmac _ _ := zeroArr 16
  hmac _ _ _ := []
  digest _ _ := []
  SecretKey c := ByteArr c.scalarLen
  PublicKey _ := Bytes
  Signature _ := Bytes
  randomSecret c g := ⟨g.fill c.scalarLen, g.fill_length _⟩
  secretFromBytes _ _ := none
  secretToBytes _ k := k
  publicOf _ k := k.bytes
  publicToSec1 _ p := p
  publicFromSec1 _ _ := none
  signPrehash _ _ _ := none
  signatureToDer _ sig := sig
  signatureFromDer _ _ := none
  verifyPrehash _ _ _ _ := false
  p192SignRound _ _ _ _ := none
  diffieHellman _ _ _ := []
  ed25519Generate g := ⟨g.fill 32, g.fill_length _⟩
  ed25519Public k := k
  ed25519Sign _ _ := zeroArr 64
  ed25519Verify _ _ _ := false
  x25519Random g := ⟨g.fill 32, g.fill_length _⟩
  x25519Public k := k
  x25519Shared _ _ := zeroArr 32
  rsaNew _ _ := none
  rsaFromComponents _ _ _ _ := none
  rsaToPkcs1Der _ := none
  rsaFromPkcs1Der _ := none
  rsaPublicNew _ _ := none
  rsaPublicToPkcs1Der _ := none
  pkcs1v15TrySign _ _ _ := none
  pkcs1v15Verify _ _ _ _ := false
  pssTrySign _ _ _ _ := none
  pssVerify _ _ _ _ := false
  rsaEncrypt _ _ _ _ := none
  rsaDecrypt _ _ _ := none
  rsaDecryptRaw _ _ := none

/-- One call of a block cipher or a MAC with the crate's result. -/
structure Recorded where
  key : Bytes
  input : Bytes
  output : Bytes

/-- A permutation of the blocks that agrees with the recorded calls under the key. -/
def Recorded.permute (blocks : List Recorded) (k : AnyAes) : Equiv.Perm Block :=
  (blocks.filter (·.key = k.key)).foldr
    (fun r π => π.trans (Equiv.swap ((toArr 16 r.input).getD (zeroArr 16)) ((toArr 16 r.output).getD (zeroArr 16))))
    (Equiv.refl Block)

/-- Crates whose CMAC and AES give the recorded results, for examples with real values. -/
def Crates.recorded (macs blocks : List Recorded) : Crates where
  __ := Crates.blank
  aesEncrypt k b := Recorded.permute blocks k b
  aesDecrypt k b := (Recorded.permute blocks k).symm b
  cmac k m := ((macs.find? fun r => r.key = k.key ∧ r.input = m).bind fun r => toArr 16 r.output).getD (zeroArr 16)

/-- What one command reads from the process: the environment variables, as
`AppletVersion::from_env`, `strict_ecdh_from_env` and `Scp03Config::from_env`
parse them, fresh random bytes, and the order in which a `HashMap` yields
its entries, which depends on its random state. -/
structure Env where
  version : AppletVersion
  strictEcdh : Bool
  scp03Kvn : Option UInt8
  scp03Enc : Option AnyAes
  scp03Mac : Option AnyAes
  scp03Dek : Option AnyAes
  rng : Rng
  iter : HashMap UInt16 (UInt8 × UInt8) → List (UInt16 × UInt8 × UInt8)

/-- No environment variable is set, and the generator draws zeros. -/
def Env.unset : Env where
  version := .v7_2_0
  strictEcdh := false
  scp03Kvn := none
  scp03Enc := none
  scp03Mac := none
  scp03Dek := none
  rng _ := 0
  iter _ := []

end SE050
end Simulators
