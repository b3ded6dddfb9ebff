/-
# SE050: the encodings of a command APDU

ISO 7816-4 encodes a command in seven ways: with or without data, with or
without `Le`, and with lengths of one byte or, after a zero byte, of two. The
parser tells them apart by the length of the APDU and by that zero byte. It
takes the extended `Le` of a command without data for a length of data, unless
it is zero.

Key definitions: `CommandBody`, `encodeCommand`, `command`.
Key theorem: `parse_encodeCommand`.
-/
import Simulators.SE050.Wire

namespace Simulators
namespace SE050

structure CommandHeader where
  cla : UInt8
  ins : UInt8
  p1 : UInt8
  p2 : UInt8

/-- What follows the header, by the cases of the standard. -/
inductive CommandBody
  | case1
  | case2S (le : UInt8)
  | case3S (data : Bytes) (pos : 0 < data.length) (short : data.length ≤ 255)
  | case4S (data : Bytes) (pos : 0 < data.length) (short : data.length ≤ 255) (le : UInt8)
  | case2E (le : UInt16)
  | case3E (data : Bytes) (pos : 0 < data.length) (long : data.length ≤ 65535)
  | case4E (data : Bytes) (pos : 0 < data.length) (long : data.length ≤ 65535) (le : UInt16)

namespace CommandBody

/-- Two bytes, the high one first. -/
def wordBytes (w : UInt16) : Bytes := [hiByte w, loByte w]

def encode : CommandBody → Bytes
  | case1 => []
  | case2S le => [le]
  | case3S data _ _ => UInt8.ofNat data.length :: data
  | case4S data _ _ le => UInt8.ofNat data.length :: (data ++ [le])
  | case2E le => 0x00 :: wordBytes le
  | case3E data _ _ => 0x00 :: (wordBytes (UInt16.ofNat data.length) ++ data)
  | case4E data _ _ le => 0x00 :: (wordBytes (UInt16.ofNat data.length) ++ data ++ wordBytes le)

def data : CommandBody → Bytes
  | case1 | case2S _ | case2E _ => []
  | case3S data _ _ | case4S data _ _ _ | case3E data _ _ | case4E data _ _ _ => data

def le : CommandBody → Option UInt16
  | case1 | case3S _ _ _ | case3E _ _ _ => none
  | case2S le | case4S _ _ _ le => some le.toUInt16
  | case2E le | case4E _ _ _ le => some le

/-- An extended `Le` that is not zero, without data. -/
def IsExtendedLe : CommandBody → Prop
  | case2E le => le ≠ 0
  | _ => False

end CommandBody

/-- The standard encoding. -/
def encodeCommand (h : CommandHeader) (b : CommandBody) : Bytes := h.cla :: h.ins :: h.p1 :: h.p2 :: b.encode

/-- The command itself. -/
def command (h : CommandHeader) (b : CommandBody) : ParsedApdu := ⟨h.cla, h.ins, h.p1, h.p2, b.data, b.le⟩

section Parse

variable {cla ins p1 p2 : UInt8}

/-- A length of one byte. -/
theorem parse_short {data rest : Bytes} (hpos : 0 < data.length) (hlen : data.length ≤ 255) :
    ParsedApdu.parse (cla :: ins :: p1 :: p2 :: UInt8.ofNat data.length :: (data ++ rest)) =
      .ok ⟨cla, ins, p1, p2, data, rest.head?.map (·.toUInt16)⟩ := by
  have hlc : (UInt8.ofNat data.length).toNat = data.length := by
    rw [UInt8.toNat_ofNat', Nat.mod_eq_of_lt (by omega)]
  have hne : UInt8.ofNat data.length ≠ 0x00 := by
    intro h
    rw [h] at hlc
    have : UInt8.toNat 0x00 = 0 := rfl
    omega
  generalize UInt8.ofNat data.length = lc at hlc hne
  obtain ⟨x, xs, rfl⟩ := List.exists_cons_of_length_pos hpos
  rw [List.cons_append, ParsedApdu.parse, ← List.cons_append, hlc, if_neg (by simp), List.take_left, List.drop_left]
  · exact List.cons_ne_nil _ _
  · intro _ _ _ h _
    exact hne h

/-- A length of two bytes. -/
theorem parse_extended {data rest : Bytes} (hpos : 0 < data.length) (hlen : data.length ≤ 65535) :
    ParsedApdu.parse (cla :: ins :: p1 :: p2 :: 0x00 ::
        (CommandBody.wordBytes (UInt16.ofNat data.length) ++ data ++ rest)) =
      .ok ⟨cla, ins, p1, p2, data, extendedLe rest⟩ := by
  have hlc : be16 (hiByte (UInt16.ofNat data.length)) (loByte (UInt16.ofNat data.length)) = data.length := by
    rw [be16_bytes, UInt16.toNat_ofNat', Nat.mod_eq_of_lt (by omega)]
  simp only [CommandBody.wordBytes, List.cons_append, List.nil_append, ParsedApdu.parse]
  rw [hlc, if_neg (by omega), if_neg (by simp), List.take_left, List.drop_left]

/-- An extended `Le` is read as a length of data that is not there. -/
theorem parse_extendedLe (le : UInt16) :
    ParsedApdu.parse (cla :: ins :: p1 :: p2 :: 0x00 :: CommandBody.wordBytes le) =
      if le = 0 then .ok ⟨cla, ins, p1, p2, [], some le⟩ else .error .invalidLength := by
  have hzero : be16 (hiByte le) (loByte le) = 0 ↔ le = 0 := by
    rw [be16_bytes, ← UInt16.toNat_inj]
    rfl
  simp only [CommandBody.wordBytes, ParsedApdu.parse, hzero, word_hiByte_loByte, List.length_nil]
  by_cases h : le = 0
  · rw [if_pos h, if_pos h]
  · have hpos : 0 < be16 (hiByte le) (loByte le) := Nat.pos_of_ne_zero (mt hzero.mp h)
    rw [if_neg h, if_neg h, if_pos hpos]

end Parse

/-- The parser returns the command exactly if it is not one without data whose extended `Le` is not zero. -/
theorem parse_encodeCommand (h : CommandHeader) (b : CommandBody) :
    ParsedApdu.parse (encodeCommand h b) = .ok (command h b) ↔ ¬ b.IsExtendedLe := by
  obtain ⟨cla, ins, p1, p2⟩ := h
  cases b with
  | case1 => exact iff_of_true rfl id
  | case2S le => exact iff_of_true rfl id
  | case3S data hpos hlen =>
    have hparse : ParsedApdu.parse (cla :: ins :: p1 :: p2 :: UInt8.ofNat data.length :: (data ++ [])) =
        .ok ⟨cla, ins, p1, p2, data, none⟩ := parse_short hpos hlen
    rw [List.append_nil] at hparse
    exact iff_of_true hparse id
  | case4S data hpos hlen le =>
    have hparse : ParsedApdu.parse (cla :: ins :: p1 :: p2 :: UInt8.ofNat data.length :: (data ++ [le])) =
        .ok ⟨cla, ins, p1, p2, data, some le.toUInt16⟩ := parse_short hpos hlen
    exact iff_of_true hparse id
  | case2E le =>
    have hparse : ParsedApdu.parse (encodeCommand ⟨cla, ins, p1, p2⟩ (.case2E le)) =
        if le = 0 then .ok ⟨cla, ins, p1, p2, [], some le⟩ else .error .invalidLength := parse_extendedLe le
    by_cases hle : le = 0
    · rw [if_pos hle] at hparse
      exact iff_of_true hparse (not_not.mpr hle)
    · rw [if_neg hle] at hparse
      apply iff_of_false
      · rw [hparse]
        exact fun h => nomatch h
      · exact not_not.mpr hle
  | case3E data hpos hlen =>
    have hparse : ParsedApdu.parse (cla :: ins :: p1 :: p2 :: 0x00 ::
        (CommandBody.wordBytes (UInt16.ofNat data.length) ++ data ++ [])) =
          .ok ⟨cla, ins, p1, p2, data, none⟩ := parse_extended hpos hlen
    rw [List.append_nil] at hparse
    exact iff_of_true hparse id
  | case4E data hpos hlen le =>
    have hparse : ParsedApdu.parse (cla :: ins :: p1 :: p2 :: 0x00 ::
        (CommandBody.wordBytes (UInt16.ofNat data.length) ++ data ++ CommandBody.wordBytes le)) =
          .ok ⟨cla, ins, p1, p2, data, some (word (hiByte le) (loByte le))⟩ := parse_extended hpos hlen
    rw [word_hiByte_loByte] at hparse
    exact iff_of_true hparse id

/-- GetVersion with an extended `Le` of 256 is refused. -/
theorem getVersion_extendedLe_refused :
    ParsedApdu.parse (encodeCommand ⟨0x80, 0x84, 0x00, 0x20⟩ (.case2E 0x0100)) = .error .invalidLength ∧
      ParsedApdu.parse (encodeCommand ⟨0x80, 0x84, 0x00, 0x20⟩ (.case2E 0x0100)) ≠
        .ok (command ⟨0x80, 0x84, 0x00, 0x20⟩ (.case2E 0x0100)) := by
  decide

end SE050
end Simulators
