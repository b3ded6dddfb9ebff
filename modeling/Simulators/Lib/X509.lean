/-
# Certificates and their chains

What a reader takes from an X.509 certificate, in DER: who issued it to whom,
when it holds, the key, what the key may do, and the signature with the bytes
under it (`Certificate`,
`readCertificate`). Times are read into the decimal number
YYYYMMDDhhmmss, so that the earlier one is the smaller one. A chain from a
leaf to its root is valid at a time if each certificate is issued by the one
behind it and the last by itself (`validPath`). The algorithms of the
signatures are a parameter.

Key definitions: `Certificate`, `readCertificate`, `issuedBy`, `validPath`.
Key theorems: `number_digits`, `Value.content_prim`, `Value.parts_cons`.
-/
import Simulators.Lib.Der

namespace Simulators
namespace X509

open Der

/-! ### Decimal digits -/

/-- The last `w` decimal digits, in ASCII. -/
def digits : ℕ → ℕ → Bytes
  | 0, _ => []
  | w + 1, n => digits w (n / 10) ++ [UInt8.ofNat (48 + n % 10)]

@[simp] theorem digits_length : ∀ w n : ℕ, (digits w n).length = w
  | 0, _ => rfl
  | w + 1, n => by rw [digits, List.length_append, digits_length w, List.length_singleton]

/-- The number that digits spell. -/
def number (b : Bytes) : Option ℕ :=
  if b.all fun c => 48 ≤ c.toNat && c.toNat < 58 then some (b.foldl (fun n c => n * 10 + (c.toNat - 48)) 0) else none

theorem digit_toNat (n : ℕ) : (UInt8.ofNat (48 + n % 10)).toNat = 48 + n % 10 := by
  have hlt : n % 10 < 10 := Nat.mod_lt n (by decide)
  rw [UInt8.toNat_ofNat']
  omega

theorem digits_ascii : ∀ w n : ℕ, ∀ c ∈ digits w n, 48 ≤ c.toNat ∧ c.toNat < 58
  | 0, _, _, h => absurd h List.not_mem_nil
  | w + 1, n, c, h => by
    rw [digits, List.mem_append, List.mem_singleton] at h
    rcases h with h | rfl
    · exact digits_ascii w (n / 10) c h
    · rw [digit_toNat]
      omega

theorem digits_value : ∀ w n : ℕ, (digits w n).foldl (fun n c => n * 10 + (c.toNat - 48)) 0 = n % 10 ^ w
  | 0, n => by rw [Nat.pow_zero, Nat.mod_one]; rfl
  | w + 1, n => by
    rw [digits, List.foldl_append, digits_value w, List.foldl_cons, List.foldl_nil, digit_toNat, Nat.pow_succ',
      Nat.mod_mul]
    omega

theorem number_of_digits {b : Bytes} (h : ∀ c ∈ b, 48 ≤ c.toNat ∧ c.toNat < 58) :
    number b = some (b.foldl (fun n c => n * 10 + (c.toNat - 48)) 0) := by
  refine if_pos (List.all_eq_true.mpr fun c hc => ?_)
  rw [Bool.and_eq_true, decide_eq_true_eq, decide_eq_true_eq]
  exact h c hc

theorem number_digits {w n : ℕ} (h : n < 10 ^ w) : number (digits w n) = some n := by
  rw [number_of_digits (digits_ascii w n), digits_value, Nat.mod_eq_of_lt h]

/-- Digits behind digits. -/
theorem digits_append {a b : ℕ} (v : ℕ) : ∀ {w : ℕ}, b < 10 ^ w → digits v a ++ digits w b = digits (v + w) (a * 10 ^ w + b)
  | 0, h => by
    obtain rfl : b = 0 := by simpa using h
    rw [digits, List.append_nil, Nat.pow_zero, Nat.mul_one, Nat.add_zero, Nat.add_zero]
  | w + 1, h => by
    have hdiv : (a * 10 ^ (w + 1) + b) / 10 = a * 10 ^ w + b / 10 := by
      rw [Nat.pow_succ, ← Nat.mul_assoc]
      omega
    have hmod : (a * 10 ^ (w + 1) + b) % 10 = b % 10 := by
      rw [Nat.pow_succ, ← Nat.mul_assoc]
      omega
    have hb : b / 10 < 10 ^ w := by
      rw [Nat.pow_succ] at h
      omega
    rw [digits, ← Nat.add_assoc, digits, hdiv, hmod, ← digits_append v hb, List.append_assoc]

/-! ### Times -/

def utcTime : UInt8 := 0x17
def generalizedTime : UInt8 := 0x18

/-- YYYYMMDDhhmmss. Two digits of a year are from 1950 to 2049. -/
def readTime : Value → Option ℕ
  | .prim tag content =>
    if content.getLast? ≠ some 0x5a then none
    else if tag = utcTime ∧ content.length = 13 then
      (number content.dropLast).map fun t => (if t / 10 ^ 10 < 50 then 2000 else 1900) * 10 ^ 10 + t
    else if tag = generalizedTime ∧ content.length = 15 then number content.dropLast
    else none
  | .cons _ _ => none

/-! ### Certificates -/

def Value.content (tag : UInt8) : Value → Option Bytes
  | .prim t content => if t = tag then some content else none
  | .cons _ _ => none

def Value.parts (tag : UInt8) : Value → Option (List Value)
  | .prim _ _ => none
  | .cons t parts => if t = tag then some parts else none

@[simp] theorem Value.content_prim (tag : UInt8) (content : Bytes) :
    Value.content tag (.prim tag content) = some content := if_pos rfl

@[simp] theorem Value.parts_cons (tag : UInt8) (parts : List Value) :
    Value.parts tag (.cons tag parts) = some parts := if_pos rfl

/-- One value, and nothing behind it. -/
def whole (b : Bytes) : Option Value :=
  match parse b with
  | some (v, []) => some v
  | _ => none

/-- The identifier of an extension, and its contents. -/
def readExtension (v : Value) : Option (Bytes × Bytes) :=
  match Value.parts 0x30 v with
  | some [id, value] => do return (← Value.content 0x06 id, ← Value.content 0x04 value)
  | some [id, critical, value] => do
    if (← Value.content 0x01 critical) = [0xff] then return (← Value.content 0x06 id, ← Value.content 0x04 value)
    else none
  | _ => none

/-- Whether the key is that of a CA, and how many CAs may stand below it. -/
def readConstraints (v : Value) : Option (Bool × Option ℕ) :=
  match Value.parts 0x30 v with
  | some [] => some (false, none)
  | some [ca] => do if (← Value.content 0x01 ca) = [0xff] then return (true, none) else none
  | some [ca, pathLen] => do
    if (← Value.content 0x01 ca) = [0xff] then return (true, some (ofBe (← Value.content 0x02 pathLen))) else none
  | _ => none

/-- Where the key came from: the identifier of the issuer's key. -/
def readAuthority (v : Value) : Option Bytes :=
  match Value.parts 0x30 v with
  | some [keyId] => Value.content 0x80 keyId
  | _ => none

def basicConstraintsId : Bytes := [0x55, 0x1d, 0x13]
def keyUsageId : Bytes := [0x55, 0x1d, 0x0f]
def subjectKeyIdId : Bytes := [0x55, 0x1d, 0x0e]
def authorityKeyIdId : Bytes := [0x55, 0x1d, 0x23]

/-- An extension that need not be there. -/
def readOptional {α : Type} (read : Value → Option α) : Option Bytes → Option (Option α)
  | none => some none
  | some b => do return some (← read (← whole b))

structure Extensions where
  ca : Bool
  pathLen : Option ℕ
  /-- The bits of the key usage, behind the number of the unused ones. -/
  usage : Bytes
  subjectKeyId : Option Bytes
  authorityKeyId : Option Bytes
deriving DecidableEq, Repr

def readContents (contents : List (Bytes × Bytes)) : Option Extensions := do
  let constraints ← readConstraints (← whole (← contents.lookup basicConstraintsId))
  let usage ← Value.content 0x03 (← whole (← contents.lookup keyUsageId))
  let subjectKeyId ← readOptional (Value.content 0x04) (contents.lookup subjectKeyIdId)
  let authorityKeyId ← readOptional readAuthority (contents.lookup authorityKeyIdId)
  return ⟨constraints.1, constraints.2, usage, subjectKeyId, authorityKeyId⟩

def readExtensions (v : Value) : Option Extensions :=
  match Value.parts 0xa3 v with
  | some [extensions] => do readContents (← (← Value.parts 0x30 extensions).mapM readExtension)
  | _ => none

/-- Version 3. -/
def readVersion (v : Value) : Option Unit :=
  match Value.parts 0xa0 v with
  | some [two] => if Value.content 0x02 two = some [2] then some () else none
  | _ => none

def readAlgorithm (v : Value) : Option Bytes :=
  match Value.parts 0x30 v with
  | some [algorithm] => Value.content 0x06 algorithm
  | _ => none

theorem readAlgorithm_prim (id : Bytes) : readAlgorithm (.cons 0x30 [.prim 0x06 id]) = some id := by
  rw [readAlgorithm, Value.parts_cons]
  exact Value.content_prim _ _

def readValidity (v : Value) : Option (ℕ × ℕ) :=
  match Value.parts 0x30 v with
  | some [notBefore, notAfter] => do return (← readTime notBefore, ← readTime notAfter)
  | _ => none

/-- A bit string of whole bytes. -/
def readBits (v : Value) : Option Bytes :=
  match Value.content 0x03 v with
  | some (0 :: bits) => some bits
  | _ => none

def readKeyInfo (v : Value) : Option (List Bytes × Bytes) :=
  match Value.parts 0x30 v with
  | some [algorithm, key] => do
    return (← (← Value.parts 0x30 algorithm).mapM (Value.content 0x06), ← readBits key)
  | _ => none

structure Certificate where
  /-- The bytes under the signature. -/
  signed : Bytes
  serial : Bytes
  algorithm : Bytes
  issuer : Bytes
  notBefore : ℕ
  notAfter : ℕ
  subject : Bytes
  keyAlgorithm : List Bytes
  key : Bytes
  extensions : Extensions
  signature : Bytes
deriving DecidableEq, Repr

def readSigned (algorithm signature : Bytes) (v : Value) : Option Certificate :=
  match Value.parts 0x30 v with
  | some [version, serial, inner, issuer, validity, subject, keyInfo, extensions] => do
    readVersion version
    let serial ← Value.content 0x02 serial
    let inner ← readAlgorithm inner
    let validity ← readValidity validity
    let keyInfo ← readKeyInfo keyInfo
    let extensions ← readExtensions extensions
    if inner = algorithm then
      return ⟨v.encode, serial, algorithm, issuer.encode, validity.1, validity.2, subject.encode, keyInfo.1, keyInfo.2,
        extensions, signature⟩
    else none
  | _ => none

def readCertificate (b : Bytes) : Option Certificate := do
  match Value.parts 0x30 (← whole b) with
  | some [signed, algorithm, signature] => readSigned (← readAlgorithm algorithm) (← readBits signature) signed
  | _ => none

/-! ### Chains -/

/-- A signature algorithm, the algorithm of a key, the key, the message and the signature. -/
abbrev Verifier := Bytes → List Bytes → Bytes → Bytes → Bytes → Bool

/-- The key may sign certificates. -/
def Certificate.signsCertificates (c : Certificate) : Bool :=
  match c.extensions.usage with
  | _ :: bits :: _ => bits &&& 0x04 != 0
  | _ => false

def Certificate.selfIssued (c : Certificate) : Bool := c.issuer == c.subject

def Certificate.holdsAt (c : Certificate) (time : ℕ) : Bool := c.notBefore ≤ time && time ≤ c.notAfter

section Chains

variable (verify : Verifier)

/-- Issued by a CA that may have `below` CAs below it, and signed with its key. -/
def Certificate.issuedBy (c issuer : Certificate) (below : ℕ) : Bool :=
  c.issuer == issuer.subject && (c.extensions.authorityKeyId == none || c.extensions.authorityKeyId == issuer.extensions.subjectKeyId) &&
    issuer.extensions.ca && issuer.extensions.pathLen.all (below ≤ ·) && issuer.signsCertificates &&
    verify c.algorithm issuer.keyAlgorithm issuer.key c.signed c.signature

theorem issuedBy_of {verify : Verifier} {c issuer : Certificate} {below : ℕ} (hname : c.issuer = issuer.subject)
    (hkey : c.extensions.authorityKeyId = none ∨ c.extensions.authorityKeyId = issuer.extensions.subjectKeyId)
    (hca : issuer.extensions.ca = true) (hpath : issuer.extensions.pathLen.all (below ≤ ·) = true)
    (husage : issuer.signsCertificates = true)
    (hsig : verify c.algorithm issuer.keyAlgorithm issuer.key c.signed c.signature = true) :
    c.issuedBy verify issuer below = true := by
  unfold Certificate.issuedBy
  rw [hname, hca, hpath, husage, hsig, beq_self_eq_true]
  rcases hkey with hkey | hkey
  · rw [hkey]
    rfl
  · rw [hkey, beq_self_eq_true, Bool.or_true]
    rfl

/-- From the leaf to the root, which has issued itself. -/
def validPath (time : ℕ) : ℕ → List Certificate → Bool
  | _, [] => false
  | below, [root] => root.holdsAt time && root.issuedBy verify root below
  | below, c :: issuer :: rest =>
    c.holdsAt time && c.issuedBy verify issuer below &&
      validPath time (if issuer.selfIssued then below else below + 1) (issuer :: rest)

/-- The leaf is not counted. -/
def validates (time : ℕ) (chain : List Certificate) : Bool := validPath verify time 0 chain

end Chains

end X509
end Simulators
