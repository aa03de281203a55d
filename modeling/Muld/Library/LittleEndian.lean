import Mathlib.Data.Nat.Digits.Defs
import Mathlib.Data.List.Basic

/-! Natural numbers as fixed numbers of bytes, the least significant one first, and what is
left when only the first bytes of a number overwrite an older one.
-/

namespace LittleEndian

/-- The number the bytes stand for. -/
def decode (bytes : List UInt8) : Nat :=
  Nat.ofDigits 256 (bytes.map UInt8.toNat)

/-- The `width` lowest bytes of a number. -/
def encode : Nat → Nat → List UInt8
  | 0, _ => []
  | width + 1, value => UInt8.ofNat value :: encode width (value / 256)

@[simp]
theorem decode_nil : decode [] = 0 := rfl

theorem decode_cons (byte : UInt8) (rest : List UInt8)
    : decode (byte :: rest) = byte.toNat + 256 * decode rest := rfl

@[simp]
theorem encode_length (width value : Nat) : (encode width value).length = width := by
  induction width generalizing value with
  | zero => rfl
  | succ width ih => rw [encode, List.length_cons, ih]

theorem decode_append (left right : List UInt8)
    : decode (left ++ right) = decode left + 256 ^ left.length * decode right := by
  rw [decode, List.map_append, Nat.ofDigits_append, List.length_map]
  rfl

theorem decode_lt (bytes : List UInt8) : decode bytes < 256 ^ bytes.length := by
  have digits : ∀ digit ∈ bytes.map UInt8.toNat, digit < 256 := by
    intro digit member
    obtain ⟨byte, _, rfl⟩ := List.mem_map.mp member
    exact byte.toNat_lt
  simpa [decode] using Nat.ofDigits_lt_base_pow_length (by decide : 1 < 256) digits

/-- The first bytes of a number stand for at most the number. -/
theorem decode_take_le (bytes : List UInt8) (count : Nat)
    : decode (bytes.take count) ≤ decode bytes := by
  conv_rhs => rw [← List.take_append_drop count bytes, decode_append]
  exact Nat.le_add_right _ _

theorem decode_encode (width value : Nat)
    : decode (encode width value) = value % 256 ^ width := by
  induction width generalizing value with
  | zero => simp [encode, Nat.mod_one]
  | succ width ih =>
      have byte : (UInt8.ofNat value).toNat = value % 256 := UInt8.toNat_ofNat'
      rw [encode, decode_cons, ih, byte, Nat.pow_succ', Nat.mod_mul]

theorem decode_encode_of_lt {width value : Nat} (small : value < 256 ^ width)
    : decode (encode width value) = value := by
  rw [decode_encode, Nat.mod_eq_of_lt small]

/-- Every list of bytes is the encoding of its number at its own width. -/
theorem encode_decode (bytes : List UInt8) : encode bytes.length (decode bytes) = bytes := by
  induction bytes with
  | nil => rfl
  | cons byte rest ih =>
      have low : byte.toNat < 256 := byte.toNat_lt
      have tail : (byte.toNat + 256 * decode rest) / 256 = decode rest := by omega
      have head : UInt8.ofNat (byte.toNat + 256 * decode rest) = byte := by
        apply UInt8.toNat_inj.mp
        rw [UInt8.toNat_ofNat']
        omega
      rw [List.length_cons, decode_cons, encode, tail, ih, head]

theorem encode_take (width value count : Nat) (within : count ≤ width)
    : (encode width value).take count = encode count value := by
  induction count generalizing width value with
  | zero => rfl
  | succ count ih =>
      cases width with
      | zero => contradiction
      | succ width => rw [encode, List.take_succ_cons, ih _ _ (by omega), encode]

theorem encode_drop (width value count : Nat)
    : (encode width value).drop count = encode (width - count) (value / 256 ^ count) := by
  induction count generalizing width value with
  | zero => simp
  | succ count ih =>
      cases width with
      | zero => simp [encode]
      | succ width =>
          rw [encode, List.drop_succ_cons, ih, Nat.succ_sub_succ, Nat.div_div_eq_div_mul,
            Nat.pow_succ']

/-- A larger number whose first bytes overwrite a smaller one leaves at most itself. -/
theorem decode_overwritten_le {width old new : Nat} (count : Nat) (grows : old ≤ new)
    (small : new < 256 ^ width)
    : decode ((encode width new).take count ++ (encode width old).drop count) ≤ new := by
  by_cases whole : width ≤ count
  · rw [List.take_of_length_le (by simpa using whole),
      List.drop_eq_nil_of_le (by simpa using whole), List.append_nil]
    exact Nat.le_of_eq (decode_encode_of_lt small)
  · have within : count ≤ width := by omega
    have high : old / 256 ^ count ≤ new / 256 ^ count := Nat.div_le_div_right grows
    rw [encode_take _ _ _ within, encode_drop, decode_append, encode_length, decode_encode,
      decode_encode]
    calc new % 256 ^ count
          + 256 ^ count * (old / 256 ^ count % 256 ^ (width - count))
        ≤ new % 256 ^ count + 256 ^ count * (new / 256 ^ count) := by
          gcongr
          exact Nat.le_trans (Nat.mod_le _ _) high
      _ = new := Nat.mod_add_div _ _

end LittleEndian
