import Muld.ChunkLayout

/-! The count of chunks of a fresh download for every size that a server announces. The
round-up of the dispatcher is exact until the count does not fit an `int` any more.
-/

namespace Muld

open Tilings

/-- The count that reaches the engine is the size divided by the chunk size, rounded up, and
the constructor computes with it without wrapping.
-/
structure ExactCount (totalSize : Nat) (maxConnections : Int) (nChunks : Nat) : Prop where
  count : nChunks = totalSize ⌈/⌉ actualChunkSize totalSize maxConnections
  positive : 1 ≤ nChunks
  roundUp : totalSize + nChunks < sizeModulus
  ranges
    : ∀ index,
        index < nChunks
        → index * ((totalSize + nChunks - 1) / nChunks) < sizeModulus
          ∧ (index ≠ nChunks - 1
            → index * ((totalSize + nChunks - 1) / nChunks)
                + (totalSize + nChunks - 1) / nChunks < sizeModulus)

/-- The largest size whose count fits an `int`. -/
def largestCounted : Nat := intMax * maxChunkSize

variable {totalSize value : Nat} {maxConnections : Int}

-----------------------------------------------------------------------------------------
-- Conversions
-----------------------------------------------------------------------------------------

/-- A `size_t` that went through an `int` is one, or it is very large. -/
theorem toSize_toInt_cases (value : Nat)
    : toSize (toInt value) ≤ intMax ∨ 2 ^ 63 ≤ toSize (toInt value) := by
  have modulus : (sizeModulus : Int) = 2 ^ 64 := rfl
  have lower : -(2 ^ 31) ≤ toInt value := Int.le_bmod (by decide)
  have upper : toInt value < 2 ^ 31 := Int.bmod_lt (by decide)
  rw [intMax, toSize, modulus]
  omega

/-- Four times a count of connections is the same number as a `size_t`. -/
theorem targetParts_mem (lower : 1 ≤ maxConnections) (upper : maxConnections ≤ 8)
    : 4 ≤ targetParts maxConnections ∧ targetParts maxConnections ≤ 32 := by
  have modulus : (sizeModulus : Int) = 2 ^ 64 := rfl
  have small : maxConnections * 4 ≤ intMax := by
    rw [intMax]
    omega
  rw [targetParts, wrapInt_of_le (by omega) small, toSize, modulus]
  omega

-----------------------------------------------------------------------------------------
-- The count
-----------------------------------------------------------------------------------------

/-- Smaller chunks than the largest are chosen only for files that have few of them. -/
theorem actualChunkSize_cases (lower : 1 ≤ maxConnections) (upper : maxConnections ≤ 8)
    : actualChunkSize totalSize maxConnections = maxChunkSize
      ∨ totalSize < maxChunkSize * 32 := by
  by_cases largest : actualChunkSize totalSize maxConnections = maxChunkSize
  · exact Or.inl largest
  · -- the target was not clamped from above
    have target : totalSize / targetParts maxConnections
        ≤ actualChunkSize totalSize maxConnections := by
      rw [actualChunkSize] at largest ⊢
      have ordered : minChunkSize ≤ maxChunkSize := by decide
      omega
    have below : totalSize / targetParts maxConnections < maxChunkSize :=
      Nat.lt_of_le_of_lt target
        (Nat.lt_of_le_of_ne (actualChunkSize_le totalSize maxConnections) largest)
    obtain ⟨four, most⟩ := targetParts_mem lower upper
    have small : totalSize < maxChunkSize * targetParts maxConnections :=
      (Nat.div_lt_iff_lt_mul (by omega)).mp below
    have few : maxChunkSize * targetParts maxConnections ≤ maxChunkSize * 32 :=
      Nat.mul_le_mul_left _ most
    exact Or.inr (Nat.lt_of_lt_of_le small few)

/-- A size that fits the largest chunks is counted within an `int`. -/
theorem ceilDiv_le_intMax (lower : 1 ≤ maxConnections) (upper : maxConnections ≤ 8)
    (counted : totalSize ≤ largestCounted)
    : totalSize ⌈/⌉ actualChunkSize totalSize maxConnections ≤ intMax := by
  have positive := actualChunkSize_pos totalSize maxConnections
  rw [ceilDiv_le_iff_le_mul positive, Nat.mul_comm]
  rcases actualChunkSize_cases lower upper with largest | small
  · rw [largest]
    exact counted
  · calc totalSize
        ≤ maxChunkSize * 32 := Nat.le_of_lt small
      _ ≤ intMax * 1 := by decide
      _ ≤ intMax * actualChunkSize totalSize maxConnections :=
          Nat.mul_le_mul_left intMax positive

/-- A count within an `int` is one of a size that fits the largest chunks. -/
theorem le_largestCounted (counted
      : totalSize ⌈/⌉ actualChunkSize totalSize maxConnections ≤ intMax)
    : totalSize ≤ largestCounted := by
  rw [ceilDiv_le_iff_le_mul (actualChunkSize_pos totalSize maxConnections), Nat.mul_comm]
    at counted
  exact Nat.le_trans counted (Nat.mul_le_mul_left intMax (actualChunkSize_le _ _))

/-- The count is far below a `size_t`, whatever the size. -/
theorem ceilDiv_lt (small : totalSize < sizeModulus)
    : totalSize ⌈/⌉ actualChunkSize totalSize maxConnections < 2 ^ 45 := by
  have modulus : sizeModulus = 2 ^ 64 := rfl
  have least : 2 ^ 20 ≤ actualChunkSize totalSize maxConnections := Nat.le_max_left _ _
  have enough : totalSize ⌈/⌉ actualChunkSize totalSize maxConnections ≤ 2 ^ 44 := by
    rw [ceilDiv_le_iff_le_mul (actualChunkSize_pos totalSize maxConnections)]
    calc totalSize
        ≤ 2 ^ 20 * 2 ^ 44 := by omega
      _ ≤ actualChunkSize totalSize maxConnections * 2 ^ 44 := Nat.mul_le_mul_right _ least
  omega

/-- The constructor rounds up from an exact count without wrapping. -/
theorem exactCount_ceilDiv (nonempty : 0 < totalSize) (counted : totalSize ≤ largestCounted)
    (fits : totalSize ⌈/⌉ actualChunkSize totalSize maxConnections ≤ intMax)
    : ExactCount totalSize maxConnections
        (totalSize ⌈/⌉ actualChunkSize totalSize maxConnections) := by
  have modulus : sizeModulus = 2 ^ 64 := rfl
  have limit : largestCounted = (2 ^ 31 - 1) * (10 * 1024 * 1024) := rfl
  rw [intMax] at fits
  obtain ⟨positive, _, enters, _⟩ :=
    ceilDiv_ceilDiv nonempty (actualChunkSize_pos totalSize maxConnections)
  refine ⟨rfl, positive, by omega, ?_⟩
  generalize totalSize ⌈/⌉ actualChunkSize totalSize maxConnections = nChunks at *
  rw [Nat.ceilDiv_eq_add_pred_div] at enters
  intro index inside
  have start_le : index * ((totalSize + nChunks - 1) / nChunks)
      ≤ (nChunks - 1) * ((totalSize + nChunks - 1) / nChunks) :=
    Nat.mul_le_mul_right _ (by omega)
  refine ⟨by omega, fun inner => ?_⟩
  have next_le : (index + 1) * ((totalSize + nChunks - 1) / nChunks)
      ≤ (nChunks - 1) * ((totalSize + nChunks - 1) / nChunks) :=
    Nat.mul_le_mul_right _ (by omega)
  rw [Nat.succ_mul] at next_le
  omega

-----------------------------------------------------------------------------------------
-- No chunks
-----------------------------------------------------------------------------------------

/-- A file with range support has a positive multiple of 2^32 of the largest chunks. -/
structure CountWraps (info : FileInfo) : Prop where
  ranged : info.supportsRange = true
  nonempty : 0 < info.totalSize
  multiple : 2 ^ 32 ∣ info.totalSize ⌈/⌉ maxChunkSize

theorem toSize_toInt_eq_zero : toSize (toInt value) = 0 ↔ 2 ^ 32 ∣ value := by
  have modulus : (sizeModulus : Int) = 2 ^ 64 := rfl
  have lower : -(2 ^ 31) ≤ toInt value := Int.le_bmod (by decide)
  have upper : toInt value < 2 ^ 31 := Int.bmod_lt (by decide)
  have same : toInt value = 0 ↔ 2 ^ 32 ∣ value :=
    Int.dvd_iff_bmod_eq_zero.symm.trans Int.natCast_dvd_natCast
  rw [← same, toSize, modulus]
  omega

/-- The count becomes zero on its way through an `int` if and only if it is a multiple of 2^32,
which takes chunks of the largest size.
-/
theorem chunkCount_eq_zero {info : FileInfo} (signed : info.totalSize < 2 ^ 63)
    (lower : 1 ≤ maxConnections) (upper : maxConnections ≤ 8)
    : toSize (chunkCount info maxConnections) = 0 ↔ CountWraps info := by
  have modulus : sizeModulus = 2 ^ 64 := rfl
  have largest : maxChunkSize = 10 * 1024 * 1024 := rfl
  have target := actualChunkSize_le info.totalSize maxConnections
  by_cases counted : info.supportsRange = true ∧ 0 < info.totalSize
  · obtain ⟨ranged, nonempty⟩ := counted
    have quotient : chunkQuotient info.totalSize maxConnections
        = info.totalSize ⌈/⌉ actualChunkSize info.totalSize maxConnections :=
      wrap_ceilDiv nonempty (by omega)
    have wraps : CountWraps info ↔ 2 ^ 32 ∣ info.totalSize ⌈/⌉ maxChunkSize :=
      ⟨CountWraps.multiple, fun multiple => ⟨ranged, nonempty, multiple⟩⟩
    rw [chunkCount, if_pos ⟨ranged, nonempty⟩, toSize_toInt_eq_zero, quotient, wraps]
    rcases @actualChunkSize_cases info.totalSize _ lower upper with same | small
    · rw [same]
    · -- few chunks of either size are too few
      have few (size : Nat) (positive : 0 < size)
          : ¬ 2 ^ 32 ∣ info.totalSize ⌈/⌉ size := by
        obtain ⟨some_chunk, _⟩ := ceilDiv_ceilDiv nonempty positive
        have most : info.totalSize ⌈/⌉ size ≤ info.totalSize := by
          rw [ceilDiv_le_iff_le_mul positive]
          exact Nat.le_mul_of_pos_left _ positive
        intro multiple
        have least := Nat.le_of_dvd some_chunk multiple
        omega
      exact iff_of_false (few _ (actualChunkSize_pos _ _)) (few maxChunkSize (by decide))
  · rw [chunkCount, if_neg counted]
    exact iff_of_false (by decide) fun wraps => counted ⟨wraps.ranged, wraps.nonempty⟩

/-- With one to eight connections the process ends in a division if and only if the output of
a file is opened whose count becomes zero.
-/
theorem newDownload_divisionByZero {host : Host} {info : FileInfo}
    {initialConnections : Int} {speedLimitBps : Nat} (lower : 1 ≤ maxConnections)
    (upper : maxConnections ≤ 8)
    : newDownload host info maxConnections initialConnections speedLimitBps
          = .error .divisionByZero
      ↔ host.openWriter info.totalSize = .ok () ∧ CountWraps info := by
  have parts : targetParts maxConnections ≠ 0 := by
    have four := (targetParts_mem lower upper).1
    omega
  rw [newDownload, if_neg fun zero => parts zero.2.2, DownloadEngine.construct_eq]
  cases opened : host.openWriter info.totalSize with
  | error exception => simp [bind, Except.bind]
  | ok _ =>
      have zero := @chunkCount_eq_zero _ info (Host.openWriter_ok opened) lower upper
      rw [← zero]
      generalize toSize (chunkCount info maxConnections) = nChunks
      by_cases empty : nChunks = 0
      · subst empty
        simp [Host.resizeChunks, bind, Except.bind]
      · cases host.resizeChunks nChunks with
        | error exception => simp [bind, Except.bind, empty]
        | ok _ => simp [bind, Except.bind, empty, pure, Except.pure]

/-- A file of 2^32 chunks of ten mebibytes. -/
example
    : newDownload {} { totalSize := 45035996273704960, supportsRange := true } 8 2 0
        = .error .divisionByZero :=
  rfl

-----------------------------------------------------------------------------------------
-- The exact count
-----------------------------------------------------------------------------------------

/-- For every announced size and one to eight connections, the count that reaches the engine
is exact if and only if the size fits as many of the largest chunks as an `int` counts.
-/
theorem chunk_count_exact {info : FileInfo} (ranged : info.supportsRange = true)
    (nonempty : 0 < info.totalSize) (announced : info.totalSize < sizeModulus)
    (lower : 1 ≤ maxConnections) (upper : maxConnections ≤ 8)
    : ExactCount info.totalSize maxConnections (toSize (chunkCount info maxConnections))
      ↔ info.totalSize ≤ largestCounted := by
  have modulus : sizeModulus = 2 ^ 64 := rfl
  have passed : chunkCount info maxConnections
      = toInt (chunkQuotient info.totalSize maxConnections) :=
    if_pos ⟨ranged, nonempty⟩
  rw [passed]
  constructor
  · intro exact_
    refine @le_largestCounted _ maxConnections ?_
    have few := @ceilDiv_lt info.totalSize maxConnections announced
    rw [← exact_.count] at few ⊢
    rcases toSize_toInt_cases (chunkQuotient info.totalSize maxConnections) with fits | large
    · exact fits
    · omega
  · intro counted
    have limit : largestCounted = (2 ^ 31 - 1) * (10 * 1024 * 1024) := rfl
    have largest : maxChunkSize = 10 * 1024 * 1024 := rfl
    have target := actualChunkSize_le info.totalSize maxConnections
    have quotient : chunkQuotient info.totalSize maxConnections
        = info.totalSize ⌈/⌉ actualChunkSize info.totalSize maxConnections :=
      wrap_ceilDiv nonempty (by omega)
    have fits := ceilDiv_le_intMax lower upper counted
    rw [quotient, toSize_toInt fits]
    exact exactCount_ceilDiv nonempty counted fits

/-- The largest file that is counted has as many chunks as an `int` counts. -/
theorem chunk_count_exact_largest
    : ExactCount largestCounted 8
        (toSize (chunkCount { totalSize := largestCounted, supportsRange := true } 8)) :=
  (@chunk_count_exact 8 { totalSize := largestCounted, supportsRange := true } rfl
    (by decide) (by decide) (by decide) (by decide)).mpr (Nat.le_refl _)

/-- One more chunk makes the count a negative `int`, and a huge one when the engine gets it.
-/
theorem chunk_count_overflows
    : ¬ ∀ (info : FileInfo) (maxConnections : Int),
        info.supportsRange = true
        → 0 < info.totalSize
        → info.totalSize < sizeModulus
        → 1 ≤ maxConnections
        → maxConnections ≤ 8
        → ExactCount info.totalSize maxConnections
            (toSize (chunkCount info maxConnections)) := by
  intro always
  have count := (always { totalSize := 2 ^ 31 * maxChunkSize, supportsRange := true } 8 rfl
    (by decide) (by decide) (by decide) (by decide)).count
  rw [Nat.ceilDiv_eq_add_pred_div] at count
  exact absurd count (by decide +kernel)

end Muld
