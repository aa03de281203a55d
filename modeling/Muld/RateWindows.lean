import Muld.RateLimit
import Muld.Library.TokenBuckets
import Mathlib.Algebra.BigOperators.Ring.Finset

/-! How much the workers of a job are granted under one speed limit. The tokens are a bucket
that fills up at the limit; every return of `AcquireReadBudget` is taken out of it.
-/

namespace Muld.RateSystem

open TokenBuckets

-----------------------------------------------------------------------------------------
-- The tokens as a bucket
-----------------------------------------------------------------------------------------

/-- A reading of the clock in seconds. -/
def seconds (time : Int) : Rat := time / 10 ^ 9

theorem seconds_le {early late : Int} : seconds early ≤ seconds late ↔ early ≤ late := by
  rw [seconds, seconds, div_le_div_iff_of_pos_right (by norm_num), Int.cast_le]

theorem seconds_lt {early late : Int} : seconds early < seconds late ↔ early < late := by
  rw [← not_le, seconds_le, not_le]

theorem secondsBetween_eq (last now : Int)
    : secondsBetween last now = seconds now - seconds last := by
  rw [secondsBetween, seconds, seconds, Int.cast_sub, sub_div]

def bucket (limiter : RateLimiter) : Bucket Rat where
  level := limiter.rateTokens
  last := seconds limiter.rateLastRefill

def spending (ret : BudgetReturn) : Spending Rat where
  time := seconds ret.time
  amount := ret.bytes

/-- The bytes granted after `start` and until `finish`. -/
def grantedIn (start finish : Int) (log : List BudgetReturn) : Nat :=
  (log.map fun ret => if start < ret.time ∧ ret.time ≤ finish then ret.bytes else 0).sum

theorem grantedIn_eq (start finish : Int) (log : List BudgetReturn)
    : (grantedIn start finish log : Rat)
        = spentIn (seconds start) (seconds finish) (log.map spending) := by
  rw [grantedIn, spentIn, Nat.cast_list_sum, List.map_map, List.map_map]
  refine congrArg List.sum (List.map_congr_left fun ret _ => ?_)
  simp only [Function.comp, spending, seconds_lt, seconds_le, Nat.cast_ite, Nat.cast_zero]

variable {limiter : RateLimiter} {now : Int} {bps : Nat}

/-- Under a limit, and with no more tokens than a burst, the refill fills up the bucket. -/
theorem bucket_refill (limited : 0 < limiter.speedLimitBps)
    (capped : limiter.rateTokens ≤ maxBurst limiter.speedLimitBps)
    (later : limiter.rateLastRefill ≤ now)
    : bucket (limiter.refillRateTokens now)
        = (bucket limiter).fill (limiter.speedLimitBps : Rat)
            (maxBurst limiter.speedLimitBps) (seconds now) := by
  rw [RateLimiter.refillRateTokens, if_neg (Nat.ne_of_gt limited)]
  dsimp only
  split
  · rw [Bucket.fill]
    simp only [bucket, secondsBetween_eq]
  · rename_i still
    rw [secondsBetween_eq, sub_pos, seconds_lt] at still
    obtain rfl : limiter.rateLastRefill = now := le_antisymm later (not_lt.mp still)
    simp only [bucket, Bucket.fill, sub_self, mul_zero, add_zero, min_eq_left capped]

theorem refill_last (later : limiter.rateLastRefill ≤ now)
    : (limiter.refillRateTokens now).rateLastRefill = now := by
  rw [RateLimiter.refillRateTokens]
  split
  · rfl
  · dsimp only
    split
    · rfl
    · rename_i still
      rw [secondsBetween_eq, sub_pos, seconds_lt] at still
      exact le_antisymm later (not_lt.mp still)

/-- A change of the limit moves the time forward and only takes tokens away. -/
theorem settle_tokens (bps : Nat) (now : Int) (limiter : RateLimiter)
    : (limiter.settleSpeedLimit bps now).rateTokens ≤ limiter.rateTokens
      ∧ (limiter.settleSpeedLimit bps now).rateLastRefill = now
      ∧ (limiter.settleSpeedLimit bps now).speedLimitBps = limiter.speedLimitBps
      ∧ (0 < bps → (limiter.settleSpeedLimit bps now).rateTokens ≤ maxBurst bps) := by
  rw [RateLimiter.settleSpeedLimit]
  split
  · exact ⟨limiter.nonneg, rfl, rfl, fun _ => maxBurst_nonneg bps⟩
  · exact ⟨min_le_left _ _, rfl, rfl, fun _ => min_le_right _ _⟩

-----------------------------------------------------------------------------------------
-- Runs under one limit
-----------------------------------------------------------------------------------------

/-- The returns so far came out of the bucket, which was filled up at the last reading of the
clock.
-/
structure Metering (bps : Nat) (sys : RateSystem) (log : List BudgetReturn) : Prop where
  limit : sys.limiter.speedLimitBps = bps
  metered : Metered (bps : Rat) (maxBurst bps) (bucket sys.limiter) (log.map spending)
  filled : sys.limiter.rateLastRefill = sys.clock
  returned : ∀ ret ∈ log, ret.bytes = 0 ∨ 1 ≤ ret.bytes ∧ ret.bytes ≤ ret.requestedBytes

variable {sys before after : RateSystem} {log : List BudgetReturn} {action : RateAction}

/-- A return at the time that the bucket was filled up, of tokens that it held. -/
theorem metered_return {rate cap : Rat} {paid : RateLimiter} {ret : BudgetReturn}
    (metered : Metered rate cap (bucket limiter) (log.map spending))
    (tokens : paid.rateTokens = limiter.rateTokens - ret.bytes)
    (last : paid.rateLastRefill = limiter.rateLastRefill)
    (time : ret.time = limiter.rateLastRefill)
    : Metered rate cap (bucket paid) ((log ++ [ret]).map spending) := by
  have enough : (ret.bytes : Rat) ≤ (bucket limiter).level := by
    have nonneg := paid.nonneg
    rw [tokens] at nonneg
    exact sub_nonneg.mp nonneg
  have spent := metered.spend (Nat.cast_nonneg ret.bytes) enough
  rw [List.map_append, List.map_singleton]
  simp only [bucket, spending, tokens, last, time] at spent ⊢
  exact spent

theorem returned_append {ret : BudgetReturn}
    (returned : ∀ ret ∈ log, ret.bytes = 0 ∨ 1 ≤ ret.bytes ∧ ret.bytes ≤ ret.requestedBytes)
    (last : ret.bytes = 0 ∨ 1 ≤ ret.bytes ∧ ret.bytes ≤ ret.requestedBytes)
    : ∀ earlier ∈ log ++ [ret],
        earlier.bytes = 0 ∨ 1 ≤ earlier.bytes ∧ earlier.bytes ≤ earlier.requestedBytes := by
  simpa [or_imp, forall_and] using ⟨returned, last⟩

/-- One pass through a loop: the bucket is filled up, and what is granted is taken out. -/
theorem Metering.acquire (metering : Metering bps before log) (positive : 0 < bps)
    {index : Nat} {downloading : Bool}
    (taken : before.step (.acquire index now downloading) = some after)
    : Metering bps after
        (log ++ (before.returns (.acquire index now downloading)).toList) := by
  obtain ⟨limit, metered, filled, returned⟩ := metering
  rw [step] at taken
  rw [returns]
  cases at_index : before.calls[index]? with
  | none => rw [at_index] at taken; cases taken
  | some call =>
      rw [at_index] at taken
      dsimp only at taken ⊢
      split at taken
      · rename_i later
        cases taken
        have refilled := @bucket_refill before.limiter now (limit ▸ positive)
          (limit ▸ metered.capped) (filled.trans_le later)
        have last := refill_last (filled.trans_le later)
        have still := refillRateTokens_limit before.limiter now
        have full := metered.fill (Nat.cast_nonneg bps)
          (seconds_le.mpr (filled.trans_le later))
        rw [limit] at refilled still
        rw [← refilled] at full
        rcases acquire_cases before.limiter call now downloading with
          ⟨enough, granted⟩ | ⟨_, same, outcome⟩
        · have paid : (before.limiter.acquire call now downloading).2.rateTokens
              = (before.limiter.refillRateTokens now).rateTokens
                - RateLimiter.allowed call.requestedBytes
                    (before.limiter.refillRateTokens now).rateTokens := by
            rw [RateLimiter.acquire, dif_pos enough]
          have kept : (before.limiter.acquire call now downloading).2.rateLastRefill
                = (before.limiter.refillRateTokens now).rateLastRefill
              ∧ (before.limiter.acquire call now downloading).2.speedLimitBps
                = (before.limiter.refillRateTokens now).speedLimitBps := by
            rw [RateLimiter.acquire, dif_pos enough]
            exact ⟨rfl, rfl⟩
          obtain ⟨some_, fits⟩ := RateLimiter.allowed_mem call.requested_pos enough
          simp only [granted, Option.toList_some]
          exact ⟨kept.2.trans still, metered_return full paid kept.1 last.symm,
            kept.1.trans last, returned_append returned (Or.inr ⟨some_, fits⟩)⟩
        · cases downloading with
          | true =>
              rw [if_pos rfl] at outcome
              simp only [outcome, Option.toList_none, List.append_nil, same]
              exact ⟨still, full, last, returned⟩
          | false =>
              rw [if_neg (by simp)] at outcome
              simp only [outcome, Option.toList_some, same]
              refine ⟨still, metered_return full ?_ rfl last.symm, last,
                returned_append returned (Or.inl rfl)⟩
              simp
      · cases taken

/-- By cases on the action; of the limits that are stored only `bps` is one that stays. -/
theorem Metering.step (metering : Metering bps before log) (positive : 0 < bps)
    (taken : before.step action = some after) (stays : after.limiter.speedLimitBps = bps)
    : Metering bps after (log ++ (before.returns action).toList) := by
  obtain ⟨limit, metered, filled, returned⟩ := metering
  cases action with
  | storeSpeedLimit stored =>
      cases taken
      change Metering _ _ (log ++ [])
      rw [List.append_nil]
      exact ⟨stays, metered, filled, returned⟩
  | settleSpeedLimit index now =>
      rw [RateSystem.step] at taken
      split at taken
      · cases taken
      · rename_i settled _
        split at taken <;> cases taken
        rename_i later
        obtain ⟨less, last, _, _⟩ := settle_tokens settled now before.limiter
        change Metering _ _ (log ++ [])
        rw [List.append_nil]
        refine ⟨stays, ?_, last, returned⟩
        have lowered := metered.lower (Nat.cast_nonneg bps)
          (before.limiter.settleSpeedLimit settled now).nonneg less
          (seconds_le.mpr (filled.trans_le later))
        rw [bucket, last]
        exact lowered
  | enter requestedBytes =>
      rw [RateSystem.step] at taken
      split at taken
      · rename_i enters
        cases taken
        rw [returns, if_pos enters, Option.toList_none, List.append_nil]
        exact ⟨limit, metered, filled, returned⟩
      · rename_i not_enters
        cases taken
        obtain rfl : requestedBytes = 0 := by omega
        rw [returns, if_neg not_enters, Option.toList_some]
        refine ⟨limit, metered_return metered ?_ rfl filled.symm, filled,
          returned_append returned (Or.inl rfl)⟩
        simp
  | acquire index now downloading =>
      exact Metering.acquire ⟨limit, metered, filled, returned⟩ positive taken

/-- The bytes that calls return while a limit stays the same, from the time on at which
`SetSpeedLimit` took the lock.
-/
theorem speed_limit_holds {prior start state : RateSystem} {bps index : Nat} {setAt : Int}
    {log : List BudgetReturn} (positive : 0 < bps)
    (stored : prior.limiter.speedLimitBps = bps) (waits : prior.settling[index]? = some bps)
    (settled : prior.step (.settleSpeedLimit index setAt) = some start)
    (run
      : Transition.Logged step (fun _ _ after => after.limiter.speedLimitBps = bps) returns
          start state log)
    : (0 ≤ state.limiter.rateTokens
        ∧ state.limiter.rateTokens ≤ max 32768 ((bps : Rat) / 5))
      ∧ (∀ ret ∈ log, ret.bytes = 0 ∨ 1 ≤ ret.bytes ∧ ret.bytes ≤ ret.requestedBytes)
      ∧ ∀ since upTo,
          since ≤ upTo
          → (grantedIn since upTo log : Rat)
            ≤ max 32768 ((bps : Rat) / 5) + bps * secondsBetween since upTo := by
  have burst : maxBurst bps = max 32768 ((bps : Rat) / 5) := by
    rw [maxBurst]
    norm_num [div_eq_mul_inv]
  have base : Metering bps start [] := by
    rw [step, waits] at settled
    dsimp only at settled
    split at settled <;> cases settled
    obtain ⟨_, last, limit, capped⟩ := settle_tokens bps setAt prior.limiter
    exact ⟨limit.trans stored,
      metered_start (RateLimiter.nonneg _) (capped positive) (Nat.cast_nonneg bps), last,
      by simp⟩
  have metering := run.invariant base
    fun _ _ _ _ _ metering taken stays => metering.step positive taken stays
  rw [← burst]
  refine ⟨⟨metering.metered.nonneg, metering.metered.capped⟩, metering.returned, ?_⟩
  intro since upTo ordered
  rw [grantedIn_eq, secondsBetween_eq]
  exact metering.metered.spentIn_le (Nat.cast_nonneg bps) (seconds_le.mpr ordered)

/-- A limit of 1000 bytes per second is stored while a worker is in its loop and tokens of a
higher limit are left.
-/
def loweredLimit : RateSystem where
  limiter := ⟨1000, 100000, 0, by norm_num⟩
  settling := [1000]
  calls := [⟨bufferSize, 5000000, by decide, by decide⟩]
  clock := 0

/-- The same when `SetSpeedLimit` has had the lock. -/
def settledLimit : RateSystem :=
  { loweredLimit with
    limiter := loweredLimit.limiter.settleSpeedLimit 1000 5
    settling := []
    clock := 5 }

/-- One pass of the worker a second later. -/
theorem speed_limit_holds_pass
    : (grantedIn 5 (10 ^ 9) ([] ++ (settledLimit.returns (.acquire 0 (10 ^ 9) true)).toList)
        : Rat)
      ≤ max 32768 (((1000 : Nat) : Rat) / 5) + (1000 : Nat) * secondsBetween 5 (10 ^ 9) :=
  (@speed_limit_holds loweredLimit settledLimit _ 1000 0 5 _ (by decide) rfl rfl rfl
    (.next .start rfl (by decide +kernel))).2.2 5 (10 ^ 9) (by decide)

end Muld.RateSystem
