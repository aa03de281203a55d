import Mathlib.Algebra.Order.Field.Basic
import Mathlib.Algebra.Order.BigOperators.Group.List
import Mathlib.Tactic.Linarith

/-! Buckets that fill up with time and from which is spent what they hold. Over any stretch of
time, no more is spent than a full bucket and what flows in meanwhile.
-/

namespace TokenBuckets

variable {K : Type*} [Field K] [LinearOrder K]

/-- What a bucket holds, and until when it was filled. -/
structure Bucket (K : Type*) where
  level : K
  last : K

/-- An amount taken from a bucket. -/
structure Spending (K : Type*) where
  time : K
  amount : K

/-- The bucket filled up until now. -/
def Bucket.fill (rate cap now : K) (bucket : Bucket K) : Bucket K where
  level := min (bucket.level + rate * (now - bucket.last)) cap
  last := now

/-- What is taken out after `start` and until `finish`. -/
def spentIn (start finish : K) (log : List (Spending K)) : K :=
  (log.map fun spending =>
    if start < spending.time ∧ spending.time ≤ finish then spending.amount else 0).sum

@[simp]
theorem spentIn_nil (start finish : K) : spentIn start finish [] = 0 := rfl

theorem spentIn_append_singleton (start finish : K) (log : List (Spending K))
    (spending : Spending K)
    : spentIn start finish (log ++ [spending])
        = spentIn start finish log
          + if start < spending.time ∧ spending.time ≤ finish then spending.amount else 0 := by
  simp [spentIn]

/-- Nothing is taken out in a stretch that starts after every spending. -/
theorem spentIn_eq_zero {start finish : K} {log : List (Spending K)}
    (early : ∀ spending ∈ log, spending.time ≤ start)
    : spentIn start finish log = 0 := by
  refine List.sum_eq_zero fun amount member => ?_
  obtain ⟨spending, among, rfl⟩ := List.mem_map.mp member
  exact if_neg fun inside => not_lt_of_ge (early spending among) inside.1

/-- What was spent from a bucket, and what it still holds, came out of a full bucket and the
inflow; `window` holds for the stretch of time as far as it is over.
-/
structure Metered (rate cap : K) (bucket : Bucket K) (log : List (Spending K)) : Prop where
  nonneg : 0 ≤ bucket.level
  capped : bucket.level ≤ cap
  past : ∀ spending ∈ log, spending.time ≤ bucket.last
  window
    : ∀ start finish,
        spentIn start finish log + (if bucket.last ≤ finish then bucket.level else 0)
        ≤ cap + rate * max 0 (min bucket.last finish - start)

variable [IsStrictOrderedRing K] {rate cap now amount : K} {bucket : Bucket K} {log : List (Spending K)}

theorem metered_start (nonneg : 0 ≤ bucket.level) (capped : bucket.level ≤ cap)
    (rate_nonneg : 0 ≤ rate)
    : Metered rate cap bucket [] where
  nonneg := nonneg
  capped := capped
  past := by simp
  window start finish := by
    have inflow := mul_nonneg rate_nonneg
      (le_max_left 0 (min bucket.last finish - start))
    rw [spentIn_nil, zero_add]
    split <;> linarith

/-- The bucket loses something, and time passes without an inflow. -/
theorem Metered.lower (metered : Metered rate cap bucket log) (rate_nonneg : 0 ≤ rate)
    {level : K} (nonneg : 0 ≤ level) (less : level ≤ bucket.level) (later : bucket.last ≤ now)
    : Metered rate cap ⟨level, now⟩ log where
  nonneg := nonneg
  capped := less.trans metered.capped
  past := fun spending among => (metered.past spending among).trans later
  window start finish := by
    have window := metered.window start finish
    have inflow : rate * max 0 (min bucket.last finish - start)
        ≤ rate * max 0 (min now finish - start) :=
      mul_le_mul_of_nonneg_left
        (max_le_max le_rfl (sub_le_sub_right (min_le_min_right finish later) start)) rate_nonneg
    have held : (if now ≤ finish then level else 0)
        ≤ if bucket.last ≤ finish then bucket.level else 0 := by
      split
      · rename_i early
        rwa [if_pos (later.trans early)]
      · split
        · exact metered.nonneg
        · exact le_rfl
    linarith

/-- Filling up. Where the stretch has only begun, nothing has been spent in it and the bucket
is at most full; where it goes on, the bucket gains no more than the inflow.
-/
theorem Metered.fill (metered : Metered rate cap bucket log) (rate_nonneg : 0 ≤ rate)
    (later : bucket.last ≤ now)
    : Metered rate cap (bucket.fill rate cap now) log where
  nonneg := by
    have inflow := mul_nonneg rate_nonneg (sub_nonneg.mpr later)
    have level := metered.nonneg
    have capped := metered.capped
    exact le_min (by linarith) (by linarith)
  capped := min_le_right _ _
  past := fun spending among => (metered.past spending among).trans later
  window start finish := by
    have window := metered.window start finish
    have nonneg := metered.nonneg
    have filled : (bucket.fill rate cap now).level ≤ bucket.level + rate * (now - bucket.last) :=
      min_le_left _ _
    have capped : (bucket.fill rate cap now).level ≤ cap := min_le_right _ _
    have inflow := mul_nonneg rate_nonneg (le_max_left 0 (min now finish - start))
    change _ + (if now ≤ finish then _ else 0) ≤ cap + rate * max 0 (min now finish - start)
    by_cases ended : finish < bucket.last
    · rw [if_neg (not_le_of_gt ended), min_eq_right ended.le] at window
      rwa [if_neg (not_le_of_gt (ended.trans_le later)), min_eq_right (ended.trans_le later).le]
    · have open_ : bucket.last ≤ finish := not_lt.mp ended
      by_cases begun : start < bucket.last
      · rw [if_pos open_, min_eq_left open_, max_eq_right (sub_nonneg.mpr begun.le)] at window
        have longer : rate * (min now finish - start) ≤ rate * max 0 (min now finish - start) :=
          mul_le_mul_of_nonneg_left (le_max_right _ _) rate_nonneg
        split
        · rename_i inside
          rw [min_eq_left inside] at longer ⊢
          linarith
        · have further : rate * (bucket.last - start) ≤ rate * (min now finish - start) :=
            mul_le_mul_of_nonneg_left (sub_le_sub_right (le_min later open_) start) rate_nonneg
          linarith
      · have early : ∀ spending ∈ log, spending.time ≤ start := fun spending among =>
          (metered.past spending among).trans (not_lt.mp begun)
        have none_ : 0 ≤ cap := nonneg.trans metered.capped
        rw [spentIn_eq_zero early]
        split <;> linarith

/-- Taking out no more than the bucket holds. -/
theorem Metered.spend (metered : Metered rate cap bucket log) (nonneg : 0 ≤ amount)
    (enough : amount ≤ bucket.level)
    : Metered rate cap ⟨bucket.level - amount, bucket.last⟩
        (log ++ [⟨bucket.last, amount⟩]) where
  nonneg := sub_nonneg.mpr enough
  capped := (sub_le_self _ nonneg).trans metered.capped
  past := by
    intro spending among
    rcases List.mem_append.mp among with earlier | last
    · exact metered.past spending earlier
    · rw [List.mem_singleton.mp last]
  window start finish := by
    have window := metered.window start finish
    rw [spentIn_append_singleton]
    by_cases inside : bucket.last ≤ finish
    · rw [if_pos inside] at window ⊢
      split <;> linarith
    · rw [if_neg inside] at window ⊢
      rw [if_neg fun both => inside both.2]
      linarith

/-- No more is spent than a full bucket and the inflow of the stretch of time. -/
theorem Metered.spentIn_le (metered : Metered rate cap bucket log) (rate_nonneg : 0 ≤ rate)
    {start finish : K} (ordered : start ≤ finish)
    : spentIn start finish log ≤ cap + rate * (finish - start) := by
  have window := metered.window start finish
  have held : 0 ≤ if bucket.last ≤ finish then bucket.level else 0 := by
    split
    · exact metered.nonneg
    · exact le_rfl
  have inflow : rate * max 0 (min bucket.last finish - start) ≤ rate * (finish - start) :=
    mul_le_mul_of_nonneg_left
      (max_le (sub_nonneg.mpr ordered) (sub_le_sub_right (min_le_right _ _) start)) rate_nonneg
  linarith

end TokenBuckets
