import Mathlib.Algebra.Order.Ring.Nat
import Mathlib.Algebra.Order.Floor.Div

/-! Natural numbers with a limited number of significant bits, and the rounding to the nearest
of them, which takes the even one of two that are equally near.
-/

namespace Precision

variable {bits value : Nat}

/-- The distance of the numbers with so many significant bits around the value. -/
def spacing (bits value : Nat) : Nat := 2 ^ (value.log2 + 1 - bits)

/-- The value rounded to so many significant bits. -/
def round (bits value : Nat) : Nat :=
  let step := spacing bits value
  let below := value / step
  let rest := value % step
  if 2 * rest < step ∨ 2 * rest = step ∧ below % 2 = 0 then below * step
  else (below + 1) * step

/-- A number that has no more bits is kept. -/
theorem round_of_lt (small : value < 2 ^ bits) : round bits value = value := by
  have few : value.log2 + 1 - bits = 0 ∨ value = 0 := by
    by_cases zero : value = 0
    · exact Or.inr zero
    · left
      have less := (Nat.log2_lt zero).mpr small
      omega
  rcases few with few | rfl
  · simp [round, spacing, few, Nat.mod_one]
  · simp [round, spacing]

/-- A number does not fall below a power of two that has the bits, by its leading bit. -/
theorem le_round (positive : 0 < bits) (large : 2 ^ bits ≤ value)
    : 2 ^ bits ≤ round bits value := by
  have nonzero : value ≠ 0 := by
    rintro rfl
    exact absurd large (Nat.not_le.mpr (Nat.two_pow_pos bits))
  have leading : 2 ^ value.log2 ≤ value := Nat.log2_self_le nonzero
  have longer : bits ≤ value.log2 := (Nat.le_log2 nonzero).mpr large
  -- the leading bit is a multiple of the spacing
  have splits : 2 ^ (bits - 1) * spacing bits value = 2 ^ value.log2 := by
    rw [spacing, ← Nat.pow_add]
    congr 1
    omega
  have steps : 2 ^ (bits - 1) ≤ value / spacing bits value :=
    (Nat.le_div_iff_mul_le (Nat.two_pow_pos _)).mpr (splits.trans_le leading)
  have down : 2 ^ bits ≤ value / spacing bits value * spacing bits value :=
    calc 2 ^ bits
        ≤ 2 ^ value.log2 := Nat.pow_le_pow_right (by decide) longer
      _ = 2 ^ (bits - 1) * spacing bits value := splits.symm
      _ ≤ value / spacing bits value * spacing bits value := Nat.mul_le_mul_right _ steps
  simp only [round]
  split
  · exact down
  · exact down.trans (Nat.mul_le_mul_right _ (Nat.le_succ _))

end Precision
