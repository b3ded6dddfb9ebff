/-
# SE050: TLVs and APDUs

`tlv.rs` and `apdu.rs`: the tag-length-value codec of the data field, the
parser of ISO 7816-4 command APDUs, responses, and the instruction, P1, P2,
tag and status word constants.

`parse_tlvs` walks an offset through its input; here it recurses on what is
left of the input, with the length of the input as fuel (each TLV takes at
least its two header bytes).
-/
import Simulators.Lib.Handler

namespace Simulators
namespace SE050

/-! ### TLVs (`tlv.rs`) -/

structure Tlv where
  tag : UInt8
  value : Bytes
deriving DecidableEq, Repr

inductive TlvError
  | tooShort
  | invalidLength
deriving DecidableEq, Repr

/-- One length byte below 128, else `82` and two bytes. -/
def Tlv.encode (t : Tlv) : Bytes :=
  if t.value.length < 128 then t.tag :: UInt8.ofNat t.value.length :: t.value
  else t.tag :: 0x82 :: UInt8.ofNat (t.value.length / 256) :: UInt8.ofNat t.value.length :: t.value

def encodeTlvs (tlvs : List Tlv) : Bytes := tlvs.flatMap Tlv.encode

/-- The loop of `parse_tlvs` from the current offset on. -/
def parseTlvsFrom : ℕ → Bytes → Except TlvError (List Tlv)
  | _, [] => .ok []
  | 0, _ => .error .tooShort
  | _, [_] => .error .tooShort
  | fuel + 1, tag :: l :: rest =>
    if l = 0x82 then
      match rest with
      | hi :: lo :: body =>
        if body.length < be16 hi lo then .error .tooShort
        else match parseTlvsFrom fuel (body.drop (be16 hi lo)) with
          | .ok ts => .ok (⟨tag, body.take (be16 hi lo)⟩ :: ts)
          | .error e => .error e
      | _ => .error .tooShort
    else if l < 0x80 then
      if rest.length < l.toNat then .error .tooShort
      else match parseTlvsFrom fuel (rest.drop l.toNat) with
        | .ok ts => .ok (⟨tag, rest.take l.toNat⟩ :: ts)
        | .error e => .error e
    else .error .invalidLength

def parseTlvs (data : Bytes) : Except TlvError (List Tlv) := parseTlvsFrom data.length data

/-- The first TLV with the given tag. -/
def findTlv (tlvs : List Tlv) (tag : UInt8) : Option Tlv := tlvs.find? (·.tag == tag)

/-- All TLVs with the given tag. -/
def findTlvs (tlvs : List Tlv) (tag : UInt8) : List Tlv := tlvs.filter (·.tag == tag)

def tagPolicy : UInt8 := 0x11
def tag1 : UInt8 := 0x41
def tag2 : UInt8 := 0x42
def tag3 : UInt8 := 0x43
def tag4 : UInt8 := 0x44
def tag5 : UInt8 := 0x45
def tag6 : UInt8 := 0x46
def tag7 : UInt8 := 0x47
def tag8 : UInt8 := 0x48
def tag9 : UInt8 := 0x49
def tag10 : UInt8 := 0x4A

/-! ### Status words and command constants (`apdu.rs`) -/

def swNoError : UInt16 := 0x9000
def swConditionsNotSatisfied : UInt16 := 0x6985
def swSecurityStatus : UInt16 := 0x6982
def swWrongData : UInt16 := 0x6A80
def swCommandNotAllowed : UInt16 := 0x6986
def swWrongP1P2 : UInt16 := 0x6A86
def swInsNotSupported : UInt16 := 0x6D00
def swFileNotFound : UInt16 := 0x6A82
def swRefDataNotFound : UInt16 := 0x6A88
def swWrongLength : UInt16 := 0x6700

def insWrite : UInt8 := 0x01
def insRead : UInt8 := 0x02
def insCrypto : UInt8 := 0x03
def insMgmt : UInt8 := 0x04

def p1Default : UInt8 := 0x00
def p1Ec : UInt8 := 0x01
def p1Rsa : UInt8 := 0x02
def p1Aes : UInt8 := 0x03
def p1Hmac : UInt8 := 0x05
def p1Binary : UInt8 := 0x06
def p1UserId : UInt8 := 0x07
def p1Counter : UInt8 := 0x08
def p1Curve : UInt8 := 0x0B
def p1Signature : UInt8 := 0x0C
def p1Mac : UInt8 := 0x0D
def p1Cipher : UInt8 := 0x0E
def p1CryptoObj : UInt8 := 0x10

def p1KeyPair : UInt8 := 0x60
def p1PublicKey : UInt8 := 0x20

def p2Default : UInt8 := 0x00
def p2Generate : UInt8 := 0x03
def p2Create : UInt8 := 0x04
def p2Size : UInt8 := 0x07
def p2Sign : UInt8 := 0x09
def p2Verify : UInt8 := 0x0A
def p2Init : UInt8 := 0x0B
def p2Update : UInt8 := 0x0C
def p2Final : UInt8 := 0x0D
def p2Oneshot : UInt8 := 0x0E
def p2Dh : UInt8 := 0x0F
def p2Version : UInt8 := 0x20
def p2Memory : UInt8 := 0x22
def p2List : UInt8 := 0x25
def p2Type : UInt8 := 0x26
def p2Exist : UInt8 := 0x27
def p2DeleteObject : UInt8 := 0x28
def p2DeleteAll : UInt8 := 0x2A
def p2Id : UInt8 := 0x36
def p2EncryptOneshot : UInt8 := 0x37
def p2DecryptOneshot : UInt8 := 0x38
def p2Attributes : UInt8 := 0x3B
def p2Param : UInt8 := 0x40
def p2EncryptInit : UInt8 := 0x42
def p2DecryptInit : UInt8 := 0x43
def p2MacValidate : UInt8 := 0x44
def p2GenerateOneshot : UInt8 := 0x45
def p2ValidateOneshot : UInt8 := 0x46
def p2Random : UInt8 := 0x49
def p2Scp : UInt8 := 0x52
/-- `P2_DH_REVERSE`, written `0x59` in the dispatcher. -/
def p2DhReverse : UInt8 := 0x59

/-! ### Command APDUs -/

structure ParsedApdu where
  cla : UInt8
  ins : UInt8
  p1 : UInt8
  p2 : UInt8
  data : Bytes
  le : Option UInt16
deriving DecidableEq, Repr

inductive ApduError
  | tooShort
  | invalidLength
deriving DecidableEq, Repr

/-- The two-byte big-endian word of `Le`. -/
def word (hi lo : UInt8) : UInt16 := (hi.toUInt16 <<< 8) ||| lo.toUInt16

theorem word_toNat (hi lo : UInt8) : (word hi lo).toNat = be16 hi lo := by
  have h1 := hi.toNat_lt
  have h2 := lo.toNat_lt
  have h3 : hi.toNat <<< 8 < 2 ^ 16 := by
    rw [Nat.shiftLeft_eq]
    omega
  simp only [word, UInt16.toNat_or, UInt16.toNat_shiftLeft, UInt8.toNat_toUInt16, be16]
  rw [show UInt16.toNat 8 % 16 = 8 from rfl, Nat.mod_eq_of_lt h3, ← Nat.shiftLeft_add_eq_or_of_lt h2,
    Nat.shiftLeft_eq]

/-- A status word is read back from its two bytes. -/
theorem word_hiByte_loByte (w : UInt16) : word (hiByte w) (loByte w) = w := by
  apply UInt16.toNat_inj.mp
  rw [word_toNat, be16_bytes]

/-- The optional `Le` after the data field of an extended APDU. -/
def extendedLe : Bytes → Option UInt16
  | [] => none
  | [b] => some b.toUInt16
  | hi :: lo :: _ => some (word hi lo)

def ParsedApdu.parse : Bytes → Except ApduError ParsedApdu
  | [cla, ins, p1, p2] => .ok ⟨cla, ins, p1, p2, [], none⟩
  | [cla, ins, p1, p2, le] => .ok ⟨cla, ins, p1, p2, [], some le.toUInt16⟩
  | cla :: ins :: p1 :: p2 :: 0x00 :: hi :: lo :: body =>
    -- extended: 00 Lc_hi Lc_lo, or 00 Le_hi Le_lo without data
    if be16 hi lo = 0 then .ok ⟨cla, ins, p1, p2, [], some (word hi lo)⟩
    else if body.length < be16 hi lo then .error .invalidLength
    else .ok ⟨cla, ins, p1, p2, body.take (be16 hi lo), extendedLe (body.drop (be16 hi lo))⟩
  | cla :: ins :: p1 :: p2 :: lc :: body =>
    if body.length < lc.toNat then .error .invalidLength
    else .ok ⟨cla, ins, p1, p2, body.take lc.toNat, (body.drop lc.toNat).head?.map (·.toUInt16)⟩
  | _ => .error .tooShort

namespace ParsedApdu

/-- The TLVs of the data field. -/
def parseTlvs (a : ParsedApdu) : Except TlvError (List Tlv) :=
  if a.data.isEmpty then .ok [] else SE050.parseTlvs a.data

/-- The instruction without its transport bits. -/
def baseIns (a : ParsedApdu) : UInt8 := a.ins &&& 0x1F

/-- The credential type, bits 4:0 of P1. -/
def credType (a : ParsedApdu) : UInt8 := a.p1 &&& 0x1F

/-- The key part, bits 6:5 of P1. -/
def keyType (a : ParsedApdu) : UInt8 := a.p1 &&& 0x60

end ParsedApdu

/-! ### Responses -/

structure ApduResponse where
  data : Bytes
  sw : UInt16
deriving DecidableEq, Repr

namespace ApduResponse

def success : ApduResponse := ⟨[], swNoError⟩

def successWithData (data : Bytes) : ApduResponse := ⟨data, swNoError⟩

def successWithTlvs (tlvs : List Tlv) : ApduResponse := ⟨encodeTlvs tlvs, swNoError⟩

def error (sw : UInt16) : ApduResponse := ⟨[], sw⟩

/-- The data field, then SW1 and SW2. -/
def toBytes (r : ApduResponse) : Bytes := r.data ++ [hiByte r.sw, loByte r.sw]

@[simp] theorem success_sw : success.sw = swNoError := rfl
@[simp] theorem successWithData_sw (d : Bytes) : (successWithData d).sw = swNoError := rfl
@[simp] theorem successWithTlvs_sw (t : List Tlv) : (successWithTlvs t).sw = swNoError := rfl
@[simp] theorem error_sw (w : UInt16) : (error w).sw = w := rfl

end ApduResponse

/-! ### What a command handler reads first -/

/-- The handlers of the SE050: a refusal is a status word. -/
abbrev Cmd (α : Type) := Handler UInt16 α

open Handler

/-- The TLVs of the command, or `SW_WRONG_DATA`. -/
def ParsedApdu.tlvs (a : ParsedApdu) : Cmd (List Tlv) :=
  match a.parseTlvs with
  | .ok ts => .ok ts
  | .error _ => refuse swWrongData

theorem ParsedApdu.tlvs_eq_ok {apdu : ParsedApdu} {ts : List Tlv} : apdu.tlvs = .ok ts ↔ apdu.parseTlvs = .ok ts := by
  unfold ParsedApdu.tlvs
  cases apdu.parseTlvs <;> simp

/-- The TLVs, or none when they do not parse (`parse_tlvs().unwrap_or_default()`). -/
def ParsedApdu.tlvsOrDefault (a : ParsedApdu) : List Tlv :=
  match a.parseTlvs with
  | .ok ts => ts
  | .error _ => []

theorem ParsedApdu.tlvsOrDefault_eq {apdu : ParsedApdu} {ts : List Tlv} (h : apdu.tlvs = .ok ts) :
    apdu.tlvsOrDefault = ts := by
  rw [ParsedApdu.tlvsOrDefault, ParsedApdu.tlvs_eq_ok.mp h]

/-- A two-byte value, read as a number. -/
def word? : Bytes → Option ℕ
  | [hi, lo] => some (be16 hi lo)
  | _ => none

/-- A two-byte value, read as a `u16`. -/
def u16? : Bytes → Option UInt16
  | [hi, lo] => some (word hi lo)
  | _ => none

/-- The value of the first TLV with the tag. -/
def valueOf (tlvs : List Tlv) (tag : UInt8) : Option Bytes := (findTlv tlvs tag).map (·.value)

/-- The first byte of the value of the first TLV with the tag. -/
def byteOf (tlvs : List Tlv) (tag : UInt8) : Option UInt8 := (valueOf tlvs tag).bind (·.head?)

end SE050
end Simulators
