/-
# Values of tag, length and contents (DER)

A value is a tag with bytes or with further values; bit 5 of the tag tells
which. The length in between is in its shortest form: one byte up to 127, and
else the number of the bytes that follow. `encode` writes a value, `parse`
reads one and hands on what is behind it, and undoes `encode`
(`parse_encode`).

Key definitions: `Value`, `Value.encode`, `parse`.
Key theorems: `parseLength_lengthBytes`, `parse_encode`.
-/
import Mathlib.Data.Nat.Log
import Simulators.Lib.Bytes

namespace Simulators
namespace Der

/-! ### Lengths -/

/-- The bytes of a number. -/
def octets (n : ℕ) : ℕ := Nat.log 256 n + 1

/-- A length in its shortest form. -/
def lengthBytes (n : ℕ) : Bytes :=
  if n < 128 then [UInt8.ofNat n] else UInt8.ofNat (128 + octets n) :: toBe (octets n) n

/-- A length in its shortest form, and what follows. -/
def parseLength : Bytes → Option (ℕ × Bytes)
  | [] => none
  | b :: rest =>
    if b.toNat < 128 then some (b.toNat, rest)
    else
      let k := b.toNat - 128
      let n := ofBe (rest.take k)
      if k ≤ rest.length ∧ 128 ≤ n ∧ octets n = k then some (n, rest.drop k) else none

theorem ofBe_toBe_octets (n : ℕ) : ofBe (toBe (octets n) n) = n := by
  rw [ofBe_toBe]
  exact Nat.mod_eq_of_lt (Nat.lt_pow_succ_log_self (by decide) n)

theorem octets_lt {n : ℕ} (h : n < 256 ^ 126) : octets n < 128 := by
  have hlog : Nat.log 256 n < 126 := Nat.log_lt_of_lt_pow' (by decide) h
  unfold octets
  omega

theorem parseLength_lengthBytes {n : ℕ} (h : n < 256 ^ 126) (rest : Bytes) :
    parseLength (lengthBytes n ++ rest) = some (n, rest) := by
  unfold lengthBytes
  by_cases hn : n < 128
  · have htoNat : (UInt8.ofNat n).toNat = n := by
      rw [UInt8.toNat_ofNat', Nat.mod_eq_of_lt (by omega)]
    rw [if_pos hn, List.singleton_append, parseLength, htoNat, if_pos hn]
  · have hoctets := octets_lt h
    have htoNat : (UInt8.ofNat (128 + octets n)).toNat = 128 + octets n := by
      rw [UInt8.toNat_ofNat', Nat.mod_eq_of_lt (by omega)]
    have htake : (toBe (octets n) n ++ rest).take (octets n) = toBe (octets n) n := List.take_left' (toBe_length _ _)
    have hdrop : (toBe (octets n) n ++ rest).drop (octets n) = rest := List.drop_left' (toBe_length _ _)
    rw [if_neg hn, List.cons_append, parseLength, htoNat, if_neg (by omega), Nat.add_sub_cancel_left]
    dsimp only
    rw [htake, ofBe_toBe_octets, hdrop, if_pos ⟨by simp, by omega, rfl⟩]

theorem lengthBytes_pos (n : ℕ) : 0 < (lengthBytes n).length := by
  unfold lengthBytes
  split
  · exact Nat.one_pos
  · exact Nat.succ_pos _

theorem lengthBytes_length_le {n : ℕ} (h : n < 65536) : (lengthBytes n).length ≤ 3 := by
  have hlog : Nat.log 256 n < 2 := Nat.log_lt_of_lt_pow' (by decide) h
  unfold lengthBytes
  split
  · exact Nat.le_of_ble_eq_true rfl
  · rw [List.length_cons, toBe_length, octets]
    omega

/-! ### Values -/

inductive Value
  | prim (tag : UInt8) (content : Bytes)
  | cons (tag : UInt8) (parts : List Value)

/-- The tag of a value that is made of values. -/
def constructed (tag : UInt8) : Bool := tag &&& 0x20 != 0

mutual

def Value.encode : Value → Bytes
  | .prim tag content => tag :: (lengthBytes content.length ++ content)
  | .cons tag parts => tag :: (lengthBytes (encodeAll parts).length ++ encodeAll parts)

def encodeAll : List Value → Bytes
  | [] => []
  | v :: vs => v.encode ++ encodeAll vs

end

mutual

/-- Every tag goes with its contents. -/
def Value.wellTagged : Value → Bool
  | .prim tag _ => !constructed tag
  | .cons tag parts => constructed tag && wellTaggedAll parts

def wellTaggedAll : List Value → Bool
  | [] => true
  | v :: vs => v.wellTagged && wellTaggedAll vs

end

mutual

/-- The value at the front, and what follows it. -/
def parseValue : ℕ → Bytes → Option (Value × Bytes)
  | 0, _ => none
  | _ + 1, [] => none
  | fuel + 1, tag :: b =>
    match parseLength b with
    | none => none
    | some (n, b) =>
      if b.length < n then none
      else if constructed tag then (parseAll fuel (b.take n)).map fun parts => (.cons tag parts, b.drop n)
      else some (.prim tag (b.take n), b.drop n)

/-- Nothing but values. -/
def parseAll : ℕ → Bytes → Option (List Value)
  | 0, _ => none
  | _ + 1, [] => some []
  | fuel + 1, b :: bs =>
    match parseValue fuel (b :: bs) with
    | none => none
    | some (v, rest) => (parseAll fuel rest).map (v :: ·)

end

/-- The value that the bytes begin with. -/
def parse (b : Bytes) : Option (Value × Bytes) := parseValue b.length b

theorem encode_two_le (v : Value) : 2 ≤ v.encode.length := by
  cases v with
  | prim tag content =>
    have hpos := lengthBytes_pos content.length
    rw [Value.encode, List.length_cons, List.length_append]
    omega
  | cons tag parts =>
    have hpos := lengthBytes_pos (encodeAll parts).length
    rw [Value.encode, List.length_cons, List.length_append]
    omega

mutual

theorem parseValue_encode : ∀ (v : Value) (fuel : ℕ) (rest : Bytes), v.wellTagged = true → v.encode.length ≤ fuel →
    v.encode.length < 256 ^ 126 → parseValue fuel (v.encode ++ rest) = some (v, rest)
  | v, 0, _, _, hfuel, _ => absurd (Nat.le_trans (encode_two_le v) hfuel) (by decide)
  | .prim tag content, fuel + 1, rest, htag, _, hfits => by
    rw [Value.encode, List.length_cons, List.length_append] at hfits
    rw [Value.wellTagged, Bool.not_eq_true'] at htag
    rw [Value.encode, List.cons_append, List.append_assoc, parseValue, parseLength_lengthBytes (by omega)]
    dsimp only
    rw [if_neg (by simp), htag, List.take_left, List.drop_left]
    rfl
  | .cons tag parts, fuel + 1, rest, htag, hfuel, hfits => by
    have hpos := lengthBytes_pos (encodeAll parts).length
    rw [Value.encode, List.length_cons, List.length_append] at hfuel hfits
    rw [Value.wellTagged, Bool.and_eq_true] at htag
    have hparts := parseAll_encode parts fuel htag.2 (by omega) (by omega)
    rw [Value.encode, List.cons_append, List.append_assoc, parseValue, parseLength_lengthBytes (by omega)]
    dsimp only
    rw [if_neg (by simp), if_pos htag.1, List.take_left, List.drop_left, hparts]
    rfl

theorem parseAll_encode : ∀ (vs : List Value) (fuel : ℕ), wellTaggedAll vs = true → (encodeAll vs).length < fuel →
    (encodeAll vs).length < 256 ^ 126 → parseAll fuel (encodeAll vs) = some vs
  | _, 0, _, hfuel, _ => absurd hfuel (Nat.not_lt_zero _)
  | [], fuel + 1, _, _, _ => rfl
  | v :: vs, fuel + 1, htag, hfuel, hfits => by
    have htwo := encode_two_le v
    rw [encodeAll, List.length_append] at hfuel hfits
    rw [wellTaggedAll, Bool.and_eq_true] at htag
    have hv := parseValue_encode v fuel (encodeAll vs) htag.1 (by omega) (by omega)
    have hvs := parseAll_encode vs fuel htag.2 (by omega) (by omega)
    obtain ⟨b, bs, hb⟩ : ∃ b bs, v.encode ++ encodeAll vs = b :: bs :=
      List.exists_cons_of_ne_nil fun h => by
        rw [(List.append_eq_nil_iff.mp h).1] at htwo
        cases htwo
    rw [encodeAll, hb, parseAll, ← hb, hv]
    dsimp only
    rw [hvs]
    rfl

end

/-- What was written is read, and nothing else. -/
theorem parse_encode {v : Value} (htag : v.wellTagged = true) (hfits : v.encode.length < 256 ^ 126) (rest : Bytes) :
    parse (v.encode ++ rest) = some (v, rest) :=
  parseValue_encode v _ rest htag (by rw [List.length_append]; exact Nat.le_add_right _ _) hfits

end Der
end Simulators
