import Muld.ConnectionController
import Mathlib.Algebra.Order.Field.Rat
import Mathlib.Tactic.Linarith
import Mathlib.Tactic.NormNum

/-! What the controller's results need to know of `double`: its comparisons order the numbers,
and its rounded operations and literals respect that order. Every fact holds for infinities
and NaN too. Exact numbers have them as well.
-/

namespace Muld

variable {R : Type} [Double R]

/-- Not a NaN, the only value that is not at most itself. -/
def Double.IsNumber (value : R) : Prop := value ≤ value

/-- Not infinite and not a NaN: these less themselves are a NaN. -/
def Double.IsFinite (value : R) : Prop := value - value ≤ 0.0

/-- `ema_wait_ratio` behind a report. -/
def averageWait (average reported : R) : R :=
  (1.0 - kWaitAlpha) * average + kWaitAlpha * reported

/-- The facts about the order, the operations, the literals and the constants. -/
class LawfulDouble (R : Type) [Double R] : Prop where
  le_trans {first second third : R} : first ≤ second → second ≤ third → first ≤ third
  le_of_lt {first second : R} : first < second → first ≤ second
  lt_of_le_of_lt {first second third : R} : first ≤ second → second < third → first < third
  lt_of_lt_of_le {first second third : R} : first < second → second ≤ third → first < third
  not_le_of_lt {first second : R} : first < second → ¬ second ≤ first
  le_of_not_lt {first second : R}
    : Double.IsNumber first → Double.IsNumber second → ¬ first < second → second ≤ first
  sub_nonpos {first second : R}
    : first ≤ second → Double.IsFinite second → first - second ≤ 0.0
  div_nonpos {first second : R}
    : first ≤ 0.0 → 1.0 ≤ second → Double.IsFinite second → first / second ≤ 0.0
  averageWait_mono {average reported more later : R}
    : 0.0 ≤ average
      → 0.0 ≤ reported
      → average ≤ more
      → reported ≤ later
      → averageWait average reported ≤ averageWait more later
  literal_le (first second : Nat) (firstPoint secondPoint : Bool)
      (firstPlaces secondPlaces : Nat)
    : (OfScientific.ofScientific first firstPoint firstPlaces : Rat)
        ≤ OfScientific.ofScientific second secondPoint secondPlaces
      → (OfScientific.ofScientific first firstPoint firstPlaces : R)
        ≤ OfScientific.ofScientific second secondPoint secondPlaces
  low_lt_high : (kLowWaitThreshold : R) < kHighWaitThreshold
  low_lt_warm : (kLowWaitThreshold : R) < 0.375
  zero_lt_gain : (0.0 : R) < kProbeGainThreshold
  average_nonneg : (0.0 : R) ≤ averageWait 0.0 0.0
  average_warm : (0.375 : R) ≤ averageWait 0.0 0.75
  average_high : (kHighWaitThreshold : R) ≤ averageWait 0.375 0.75

-----------------------------------------------------------------------------------------
-- Exact numbers
-----------------------------------------------------------------------------------------

theorem zero_literal : (0.0 : Rat) = 0 := by norm_num

theorem one_literal : (1.0 : Rat) = 1 := by norm_num

instance : LawfulDouble Rat where
  le_trans below above := below.trans above
  le_of_lt less := less.le
  lt_of_le_of_lt below above := below.trans_lt above
  lt_of_lt_of_le below above := below.trans_le above
  not_le_of_lt less := less.not_ge
  le_of_not_lt _ _ not_less := not_lt.mp not_less
  sub_nonpos := by
    intro first second le _
    rw [zero_literal]
    exact sub_nonpos.mpr le
  div_nonpos := by
    intro first second nonpos large _
    rw [zero_literal] at nonpos ⊢
    rw [one_literal] at large
    exact div_nonpos_of_nonpos_of_nonneg nonpos (zero_le_one.trans large)
  averageWait_mono := by
    intro average reported more later _ _ first second
    have half : (kWaitAlpha : Rat) = 1 / 2 := by norm_num [kWaitAlpha]
    simp only [averageWait, half, one_literal]
    linarith
  literal_le _ _ _ _ _ _ := id
  low_lt_high := by norm_num [kLowWaitThreshold, kHighWaitThreshold]
  low_lt_warm := by norm_num [kLowWaitThreshold]
  zero_lt_gain := by norm_num [kProbeGainThreshold]
  average_nonneg := by norm_num [averageWait, kWaitAlpha]
  average_warm := by norm_num [averageWait, kWaitAlpha]
  average_high := by norm_num [averageWait, kWaitAlpha, kHighWaitThreshold]

theorem isFinite_exact (value : Rat) : Double.IsFinite value := by
  rw [Double.IsFinite, zero_literal]
  exact (sub_self value).le

theorem larger_eq_max (left right : Rat) : larger left right = max left right := by
  unfold larger
  split
  · rename_i less
    exact (max_eq_right (le_of_lt less)).symm
  · rename_i not_less
    exact (max_eq_left (not_lt.mp not_less)).symm

-----------------------------------------------------------------------------------------
-- Functions of the standard library
-----------------------------------------------------------------------------------------

/-- Whatever the comparison says, the larger of a number and a larger one is that one. -/
@[simp] theorem larger_larger (left right : R)
    : larger left (larger left right) = larger left right := by
  unfold larger
  split <;> simp [*]

variable [LawfulDouble R]

theorem one_le_larger (value : R) : 1.0 ≤ larger 1.0 value := by
  unfold larger
  split
  · rename_i less
    exact LawfulDouble.le_of_lt less
  · exact LawfulDouble.literal_le _ _ _ _ _ _ le_rfl

theorem clampTo_nonneg {value : R} (number : Double.IsNumber value)
    : 0.0 ≤ clampTo value 0.0 1.0 := by
  have zero : (0.0 : R) ≤ 0.0 := LawfulDouble.literal_le _ _ _ _ _ _ le_rfl
  unfold clampTo
  split
  · exact zero
  · rename_i not_below
    split
    · exact LawfulDouble.literal_le _ _ _ _ _ _ (by norm_num)
    · exact LawfulDouble.le_of_not_lt number zero not_below

theorem le_clampTo {value bound : R} (le : bound ≤ value) (nonneg : 0.0 ≤ bound)
    (le_one : bound ≤ 1.0)
    : bound ≤ clampTo value 0.0 1.0 := by
  unfold clampTo
  split
  · rename_i below
    exact absurd (LawfulDouble.le_trans nonneg le) (LawfulDouble.not_le_of_lt below)
  · split
    · exact le_one
    · exact le

end Muld
