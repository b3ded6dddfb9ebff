/-
# TROPIC01: L2 frames

`crc.rs` and `frame.rs`: the CRC of libtropic, the parser of request frames
and the builder of response frames.

A response frame is preceded on the wire by the chip status, which is not part
of it.
-/
import Simulators.Lib.Handler

namespace Simulators
namespace TROPIC01

/-! ### The CRC (`crc.rs`) -/

/-- One bit of the CRC register. -/
def crcBit (crc : UInt16) : UInt16 := if crc &&& 0x8000 ≠ 0 then (crc <<< 1) ^^^ 0x8005 else crc <<< 1

/-- One byte. -/
def crcByte (crc : UInt16) (b : UInt8) : UInt16 := Nat.repeat crcBit 8 (crc ^^^ (b.toUInt16 <<< 8))

/-- Polynomial `8005`, initial value zero, the bytes of the result swapped. -/
def crc16 (buf : Bytes) : UInt16 :=
  let crc := buf.foldl crcByte 0
  (crc <<< 8) ||| (crc >>> 8)

def appendCrc (frame : Bytes) : Bytes := frame ++ [hiByte (crc16 frame), loByte (crc16 frame)]

/-! ### Frames (`frame.rs`) -/

/-- `TR01_L1_GET_RESPONSE_REQ_ID`. -/
def getResponseReqId : UInt8 := 0xAA

def maxL2DataSize : ℕ := 252

/-- REQ_ID, REQ_LEN, data and CRC. -/
def maxL2FrameSize : ℕ := 1 + 1 + maxL2DataSize + 2

def statusRequestOk : UInt8 := 0x01
def statusResultOk : UInt8 := 0x02
def statusRequestCont : UInt8 := 0x03
def statusResultCont : UInt8 := 0x04
def statusRespDisabled : UInt8 := 0x78
def statusHskErr : UInt8 := 0x79
def statusNoSession : UInt8 := 0x7A
def statusTagErr : UInt8 := 0x7B
def statusCrcErr : UInt8 := 0x7C
def statusUnknownErr : UInt8 := 0x7E
def statusGenErr : UInt8 := 0x7F
def statusNoResp : UInt8 := 0xFF

inductive FrameError
  | tooShort
  | lenMismatch
  | badCrc
  | overflow
deriving DecidableEq, Repr

structure Request where
  reqId : UInt8
  data : Bytes
deriving DecidableEq, Repr

/-- `u16::from_be_bytes`. -/
def u16Be (hi lo : UInt8) : UInt16 := UInt16.ofNat (be16 hi lo)

/-- `u16::from_le_bytes`. -/
def u16Le (lo hi : UInt8) : UInt16 := UInt16.ofNat (be16 hi lo)

def parseRequest (buf : Bytes) : Except FrameError Request :=
  if buf.length < 4 then .error .tooShort
  else if maxL2FrameSize < buf.length then .error .overflow
  else match buf with
    | reqId :: reqLen :: rest =>
      match rest.drop reqLen.toNat with
      | [hi, lo] =>
        if crc16 (reqId :: reqLen :: rest.take reqLen.toNat) ≠ u16Be hi lo then .error .badCrc
        else .ok ⟨reqId, rest.take reqLen.toNat⟩
      | _ => .error .lenMismatch
    | _ => .error .tooShort

/-- The frame `[STATUS][RSP_LEN][DATA][CRC]`. -/
def buildResponse (status : UInt8) (data : Bytes) : Except Panic Bytes :=
  if data.length ≤ maxL2DataSize then .ok (appendCrc (status :: UInt8.ofNat data.length :: data))
  else .error .assert

/-- The frame `[REQ_ID][REQ_LEN][DATA][CRC]`. -/
def buildRequest (reqId : UInt8) (data : Bytes) : Except Panic Bytes := buildResponse reqId data

end TROPIC01
end Simulators
