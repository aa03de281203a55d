import Muld.Dispatcher
import Muld.ChunkCounts
import Muld.Library.Precision

/-! The connections that a fresh download is planned with, for every speed limit. The limit
becomes a `double`, a number of started mebibytes and then an `int`, before anything bounds it.
-/

namespace Muld

variable {supportsRange : Bool} {globalCapacity : Int} {speedLimitBps : Nat}

-----------------------------------------------------------------------------------------
-- The conversions
-----------------------------------------------------------------------------------------

/-- A `size_t` as a `double`. -/
def sizeToDouble (value : Nat) : Nat := Precision.round 53 value

/-- What `ComputeMaxConnections` converts to `int`. The division by a power of two is exact. -/
def startedMebibytes (speedLimitBps : Nat) : Nat :=
  sizeToDouble speedLimitBps ⌈/⌉ (1024 * 1024)

/-- A limit that is not small as a `double` is one that does not fit. -/
theorem startedMebibytes_cases (speedLimitBps : Nat)
    : startedMebibytes speedLimitBps = speedLimitBps ⌈/⌉ (1024 * 1024)
      ∨ intMax < startedMebibytes speedLimitBps
        ∧ intMax < speedLimitBps ⌈/⌉ (1024 * 1024) := by
  have mebibyte : 0 < 1024 * 1024 := by decide
  have bound : 1024 * 1024 * intMax < 2 ^ 53 := by decide
  by_cases small : speedLimitBps < 2 ^ 53
  · exact Or.inl (congrArg (· ⌈/⌉ (1024 * 1024)) (Precision.round_of_lt small))
  · have large : 2 ^ 53 ≤ sizeToDouble speedLimitBps :=
      Precision.le_round (by decide) (Nat.not_lt.mp small)
    right
    rw [← Nat.not_le, ← Nat.not_le, startedMebibytes, ceilDiv_le_iff_le_mul mebibyte,
      ceilDiv_le_iff_le_mul mebibyte]
    omega

/-- The rounding to a `double` does not show behind the conversion to `int`. -/
theorem connectionsBySpeed_eq (speedLimitBps : Nat)
    : connectionsBySpeed speedLimitBps
        = Int.bmod (doubleToInt (startedMebibytes speedLimitBps) + 1) (2 ^ 32) := by
  rcases startedMebibytes_cases speedLimitBps with same | ⟨rounded, exact_⟩
  · rw [same, connectionsBySpeed]
  · rw [connectionsBySpeed, doubleToInt, doubleToInt, if_neg (Nat.not_le.mpr rounded),
      if_neg (Nat.not_le.mpr exact_)]

/-- No conversion of `ComputeMaxConnections`, and not the sum behind it, leaves the range of
`int`; they are not reached without range support, in a pool of one or without a limit.
-/
def ConversionsFit (supportsRange : Bool) (globalCapacity : Int) (speedLimitBps : Nat) : Prop :=
  supportsRange = true
  → 1 < globalCapacity
  → speedLimitBps ≠ 0
  → startedMebibytes speedLimitBps + 1 ≤ intMax

/-- The largest limit whose connections fit an `int`. -/
def largestPlanned : Nat := (intMax - 1) * (1024 * 1024)

theorem startedMebibytes_fits
    : startedMebibytes speedLimitBps + 1 ≤ intMax ↔ speedLimitBps ≤ largestPlanned := by
  have mebibyte : 0 < 1024 * 1024 := by decide
  have limit : 1024 * 1024 * (intMax - 1) = largestPlanned := Nat.mul_comm _ _
  have largest : speedLimitBps ⌈/⌉ (1024 * 1024) ≤ intMax - 1
      ↔ speedLimitBps ≤ largestPlanned := by
    rw [ceilDiv_le_iff_le_mul mebibyte, limit]
  have positive : 0 < intMax := by decide
  rw [← largest]
  rcases startedMebibytes_cases speedLimitBps with same | ⟨rounded, exact_⟩
  · rw [same]
    omega
  · omega

theorem connectionsBySpeed_of_le (planned : speedLimitBps ≤ largestPlanned)
    : connectionsBySpeed speedLimitBps = speedLimitBps ⌈/⌉ (1024 * 1024) + 1 := by
  have limit : 1024 * 1024 * (intMax - 1) = largestPlanned := Nat.mul_comm _ _
  have fits : speedLimitBps ⌈/⌉ (1024 * 1024) ≤ intMax - 1 := by
    rw [ceilDiv_le_iff_le_mul (by decide), limit]
    exact planned
  have value : intMax = 2147483647 := rfl
  rw [connectionsBySpeed, doubleToInt, if_pos (by omega)]
  exact Int.bmod_eq_of_le (by omega) (by omega)

-----------------------------------------------------------------------------------------
-- The plan
-----------------------------------------------------------------------------------------

/-- `max_connections` of a fresh download. -/
def plannedMaximum (supportsRange : Bool) (globalCapacity : Int) (speedLimitBps : Nat) : Int :=
  computeMaxConnections supportsRange speedLimitBps globalCapacity

/-- `initial_connections` of a fresh download. -/
def plannedInitial (supportsRange : Bool) (globalCapacity : Int) (speedLimitBps : Nat) : Int :=
  computeInitialDesiredConnections speedLimitBps
    (plannedMaximum supportsRange globalCapacity speedLimitBps)

/-- The first plan has no more connections than the second, neither at first nor at most. -/
structure PlansFewer (supportsRange : Bool) (globalCapacity : Int) (lower upper : Nat) : Prop
    where
  maximum
    : plannedMaximum supportsRange globalCapacity lower
      ≤ plannedMaximum supportsRange globalCapacity upper
  initial
    : plannedInitial supportsRange globalCapacity lower
      ≤ plannedInitial supportsRange globalCapacity upper

/-- The plan of a fresh download is within its limits, whatever the speed limit is. -/
structure PlansWell (supportsRange : Bool) (globalCapacity : Int) (speedLimitBps : Nat) : Prop
    where
  conversions : ConversionsFit supportsRange globalCapacity speedLimitBps
  positive : 1 ≤ plannedInitial supportsRange globalCapacity speedLimitBps
  ordered
    : plannedInitial supportsRange globalCapacity speedLimitBps
      ≤ plannedMaximum supportsRange globalCapacity speedLimitBps
  bounded
    : plannedMaximum supportsRange globalCapacity speedLimitBps
      ≤ max 1 (min globalCapacity perJobConnectionCap)
  unranged
    : supportsRange = false
      → plannedMaximum supportsRange globalCapacity speedLimitBps = 1
        ∧ plannedInitial supportsRange globalCapacity speedLimitBps = 1
  monotone
    : ∀ lower,
        0 < lower
        → lower ≤ speedLimitBps
        → PlansFewer supportsRange globalCapacity lower speedLimitBps
  unlimited : PlansFewer supportsRange globalCapacity speedLimitBps 0

theorem plannedMaximum_mem (supportsRange : Bool) (globalCapacity : Int) (speedLimitBps : Nat)
    : 1 ≤ plannedMaximum supportsRange globalCapacity speedLimitBps
      ∧ plannedMaximum supportsRange globalCapacity speedLimitBps
        ≤ max 1 (min globalCapacity perJobConnectionCap) :=
  computeMaxConnections_mem supportsRange speedLimitBps globalCapacity

theorem computeInitial_mem {maxConnections : Int} (positive : 1 ≤ maxConnections)
    : 1 ≤ computeInitialDesiredConnections speedLimitBps maxConnections
      ∧ computeInitialDesiredConnections speedLimitBps maxConnections ≤ maxConnections := by
  unfold computeInitialDesiredConnections
  split
  · omega
  · split <;> omega

/-- One limit allows more than another: it is none, or it is the larger one of two. -/
def Allows (lower upper : Nat) : Prop := upper = 0 ∨ 0 < lower ∧ lower ≤ upper

theorem computeInitial_mono {lower upper : Nat} {fewer more : Int} (allows : Allows lower upper)
    (positive : 1 ≤ more) (less : fewer ≤ more)
    : computeInitialDesiredConnections lower fewer
        ≤ computeInitialDesiredConnections upper more := by
  have least := (@computeInitial_mem upper more positive).1
  by_cases one : fewer ≤ 1 ∨ 0 < lower ∧ lower ≤ 512 * 1024
  · have initial : computeInitialDesiredConnections lower fewer = 1 := by
      unfold computeInitialDesiredConnections
      rcases one with few | slow
      · exact if_pos few
      · rw [if_pos slow, ite_self]
    rw [initial]
    exact least
  · obtain ⟨many, not_slow⟩ := not_or.mp one
    have fast : ¬ (0 < upper ∧ upper ≤ 512 * 1024) := by
      rcases allows with rfl | ⟨limited, le⟩ <;> omega
    have many_upper : ¬ more ≤ 1 := by omega
    simp only [computeInitialDesiredConnections, if_neg many, if_neg not_slow,
      if_neg many_upper, if_neg fast]
    omega

/-- Limits whose connections fit an `int` are monotone, by cases on what bounds the smaller
one.
-/
theorem plannedMaximum_mono {lower upper : Nat} (allows : Allows lower upper)
    (planned : upper ≤ largestPlanned)
    : plannedMaximum supportsRange globalCapacity lower
        ≤ plannedMaximum supportsRange globalCapacity upper := by
  unfold plannedMaximum computeMaxConnections
  split
  · exact Int.le_refl _
  · dsimp only
    rcases allows with rfl | ⟨limited, le⟩
    · rw [if_pos rfl]
      split <;> omega
    · have limited_upper : ¬ upper = 0 := by omega
      have step : lower ⌈/⌉ (1024 * 1024) ≤ upper ⌈/⌉ (1024 * 1024) :=
        (gc_mul_ceilDiv (by decide)).monotone_l le
      rw [if_neg (by omega), if_neg limited_upper, connectionsBySpeed_of_le planned,
        connectionsBySpeed_of_le (le.trans planned)]
      omega

theorem plansFewer {lower upper : Nat} (allows : Allows lower upper)
    (planned : upper ≤ largestPlanned)
    : PlansFewer supportsRange globalCapacity lower upper := by
  have fewer := @plannedMaximum_mono supportsRange globalCapacity _ _ allows planned
  have positive := (plannedMaximum_mem supportsRange globalCapacity upper).1
  exact ⟨fewer, computeInitial_mono allows positive fewer⟩

/-- Where the maximum is always one, every plan is the same. -/
theorem plansFewer_single (single : supportsRange = false ∨ globalCapacity ≤ 1)
    (lower upper : Nat)
    : PlansFewer supportsRange globalCapacity lower upper := by
  have one : ∀ limit, plannedMaximum supportsRange globalCapacity limit = 1 :=
    fun limit => if_pos single
  have initial : ∀ limit, plannedInitial supportsRange globalCapacity limit = 1 := by
    intro limit
    rw [plannedInitial, one]
    exact if_pos (Int.le_refl 1)
  exact ⟨by rw [one, one], by rw [initial, initial]⟩

/-- The plan of a fresh download is within its limits if and only if its connections fit an
`int`, or nothing is converted because there can be one connection only.
-/
theorem plan_within_limits (supportsRange : Bool) (globalCapacity : Int) (speedLimitBps : Nat)
    : PlansWell supportsRange globalCapacity speedLimitBps
      ↔ supportsRange = false ∨ globalCapacity ≤ 1 ∨ speedLimitBps ≤ largestPlanned := by
  constructor
  · intro well
    by_contra outside
    simp only [not_or, Bool.not_eq_false, Int.not_le, Nat.not_le] at outside
    obtain ⟨ranged, pool, large⟩ := outside
    have limited : speedLimitBps ≠ 0 := by
      rintro rfl
      exact Nat.not_lt_zero _ large
    have fits := startedMebibytes_fits.mp (well.conversions ranged pool limited)
    omega
  · intro inside
    have fewer : ∀ lower upper,
        upper ≤ speedLimitBps
        → Allows lower upper
        → PlansFewer supportsRange globalCapacity lower upper := by
      intro lower upper le allows
      rcases inside with unranged | pool | planned
      · exact plansFewer_single (Or.inl unranged) lower upper
      · exact plansFewer_single (Or.inr pool) lower upper
      · exact plansFewer allows (le.trans planned)
    obtain ⟨least, bounded⟩ :=
      plannedMaximum_mem supportsRange globalCapacity speedLimitBps
    obtain ⟨positive, ordered⟩ := @computeInitial_mem speedLimitBps _ least
    constructor
    case conversions =>
      intro ranged pool limited
      refine startedMebibytes_fits.mpr ((inside.resolve_left ?_).resolve_left ?_)
      · simp [ranged]
      · omega
    case positive => exact positive
    case ordered => exact ordered
    case bounded => exact bounded
    case unranged =>
      intro unranged
      have one : plannedMaximum supportsRange globalCapacity speedLimitBps = 1 :=
        if_pos (Or.inl unranged)
      refine ⟨one, ?_⟩
      rw [plannedInitial, one]
      exact if_pos (Int.le_refl 1)
    case monotone =>
      intro lower limited le
      exact fewer lower speedLimitBps (Nat.le_refl _) (Or.inr ⟨limited, le⟩)
    case unlimited => exact fewer speedLimitBps 0 (Nat.zero_le _) (Or.inl rfl)

/-- A limit of 2^51 bytes a second is converted out of the range of `int`; on x86-64 it is
planned with fewer connections than a smaller limit.
-/
theorem fast_limit_overflows
    : ¬ (∀ (supportsRange : Bool) (globalCapacity : Int) (speedLimitBps : Nat),
          speedLimitBps < sizeModulus
          → PlansWell supportsRange globalCapacity speedLimitBps)
      ∧ plannedMaximum true 8 (2 ^ 51) = 1
      ∧ plannedMaximum true 8 (2 ^ 50) = 8 := by
  refine ⟨?_, by decide +kernel, by decide +kernel⟩
  intro always
  have well := (always true 8 (2 ^ 51) (by decide)).monotone (2 ^ 50) (by decide) (by decide)
  exact absurd well.maximum (by decide +kernel)

end Muld
