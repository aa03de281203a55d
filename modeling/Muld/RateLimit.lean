import Muld.Downloader
import Muld.Library.Transition
import Mathlib.Data.Rat.Floor

/-! The bucket of tokens behind the speed limit of a job, with exact numbers for `double`.
Any number of workers wait in `AcquireReadBudget` while the limit changes; the mutex of the
bucket makes each pass through its loop one step.
-/

namespace Muld

-----------------------------------------------------------------------------------------
-- The bucket
-----------------------------------------------------------------------------------------

/-- The fields behind `rate_mtx_`, and the atomic limit. Times are in nanoseconds. -/
structure RateLimiter where
  speedLimitBps : Nat
  rateTokens : Rat
  rateLastRefill : Int
  nonneg : 0 ≤ rateTokens

/-- `duration<double>(now - last).count()`. -/
def secondsBetween (last now : Int) : Rat := ((now - last : Int) : Rat) / 10 ^ 9

theorem secondsBetween_add (first middle last : Int)
    : secondsBetween first middle + secondsBetween middle last = secondsBetween first last := by
  simp only [secondsBetween]
  push_cast
  ring

theorem secondsBetween_nonneg {first last : Int} (ordered : first ≤ last)
    : 0 ≤ secondsBetween first last := by
  have difference : (0 : Rat) ≤ ((last - first : Int) : Rat) :=
    Int.cast_nonneg (sub_nonneg.mpr ordered)
  exact div_nonneg difference (by norm_num)

theorem le_of_secondsBetween_pos {first last : Int} (passed : 0 < secondsBetween first last)
    : first ≤ last := by
  by_contra later
  have back : 0 ≤ secondsBetween last first := secondsBetween_nonneg (not_le.mp later).le
  have none_ := secondsBetween_add first last first
  have same : secondsBetween first first = 0 := by simp [secondsBetween]
  linarith

/-- `max_burst`. -/
def maxBurst (limit : Nat) : Rat := max 32768 (limit * 0.20)

theorem maxBurst_nonneg (limit : Nat) : 0 ≤ maxBurst limit :=
  le_trans (by norm_num) (le_max_left _ _)

namespace RateLimiter

/-- `RefillRateTokens`. -/
def refillRateTokens (now : Int) (limiter : RateLimiter) : RateLimiter :=
  if limiter.speedLimitBps = 0 then
    { limiter with rateTokens := 0, rateLastRefill := now, nonneg := le_rfl }
  else
    let dt := secondsBetween limiter.rateLastRefill now
    if passed : 0 < dt then
      {
        limiter with
        rateTokens :=
          min (limiter.rateTokens + limiter.speedLimitBps * dt) (maxBurst limiter.speedLimitBps)
        rateLastRefill := now
        nonneg :=
          le_min (add_nonneg limiter.nonneg (mul_nonneg (Nat.cast_nonneg _) passed.le))
            (maxBurst_nonneg _)
      }
    else limiter

/-- The first line of `SetSpeedLimit`, before the lock. -/
def storeSpeedLimit (bps : Nat) (limiter : RateLimiter) : RateLimiter :=
  { limiter with speedLimitBps := bps }

/-- The locked section of `SetSpeedLimit`. -/
def settleSpeedLimit (bps : Nat) (now : Int) (limiter : RateLimiter) : RateLimiter :=
  if bps = 0 then { limiter with rateTokens := 0, rateLastRefill := now, nonneg := le_rfl }
  else
    {
      limiter with
      rateTokens := min limiter.rateTokens (maxBurst bps)
      rateLastRefill := now
      nonneg := le_min limiter.nonneg (maxBurst_nonneg bps)
    }

end RateLimiter

-----------------------------------------------------------------------------------------
-- Acquiring a budget
-----------------------------------------------------------------------------------------

/-- A call of `AcquireReadBudget` that has entered its loop, with the limit that it read
before.
-/
structure AcquireCall where
  requestedBytes : Nat
  limit : Nat
  requested_pos : 0 < requestedBytes
  limit_pos : 0 < limit

/-- What one pass through the loop comes to. -/
inductive Budget
  | granted (allowed : Nat)
  /-- The download is not running; the call returns 0. -/
  | stopped
  | waits (wakeTime : Int)
deriving DecidableEq, Repr

/-- `wake_time`: by the limit that the call has read, not less than a millisecond away. -/
def AcquireCall.wakeTime (now : Int) (tokens : Rat) (call : AcquireCall) : Int :=
  now + ⌊max 0.001 ((1 - tokens) / call.limit) * 10 ^ 9⌋

namespace RateLimiter

/-- `allowed`: whole tokens, and one if there were none. -/
def allowed (requestedBytes : Nat) (tokens : Rat) : Nat :=
  if min requestedBytes ⌊tokens⌋₊ = 0 then 1 else min requestedBytes ⌊tokens⌋₊

theorem allowed_le_tokens (requestedBytes : Nat) {tokens : Rat} (enough : 1 ≤ tokens)
    : (allowed requestedBytes tokens : Rat) ≤ tokens := by
  rw [allowed]
  split
  · simpa using enough
  · have floor : (⌊tokens⌋₊ : Rat) ≤ tokens := Nat.floor_le (zero_le_one.trans enough)
    exact le_trans (Nat.cast_le.mpr (Nat.min_le_right _ _)) floor

theorem allowed_mem {requestedBytes : Nat} (requested : 0 < requestedBytes) {tokens : Rat}
    (enough : 1 ≤ tokens)
    : 1 ≤ allowed requestedBytes tokens ∧ allowed requestedBytes tokens ≤ requestedBytes := by
  have floor : 1 ≤ ⌊tokens⌋₊ := Nat.one_le_floor_iff tokens |>.mpr enough
  rw [allowed]
  split <;> omega

/-- One pass through the loop of `AcquireReadBudget`; `downloading` is what `GetState` tells
it.
-/
def acquire (call : AcquireCall) (now : Int) (downloading : Bool) (limiter : RateLimiter)
    : Budget × RateLimiter :=
  let refilled := limiter.refillRateTokens now
  if enough : 1 ≤ refilled.rateTokens then
    let bytes := allowed call.requestedBytes refilled.rateTokens
    (.granted bytes,
      {
        refilled with
        rateTokens := refilled.rateTokens - bytes
        nonneg := sub_nonneg.mpr (allowed_le_tokens _ enough)
      })
  else if downloading then (.waits (call.wakeTime now refilled.rateTokens), refilled)
  else (.stopped, refilled)

end RateLimiter

-----------------------------------------------------------------------------------------
-- All calls of one job
-----------------------------------------------------------------------------------------

/-- A job's bucket with the calls that use it. -/
structure RateSystem where
  limiter : RateLimiter
  /-- The arguments of the calls of `SetSpeedLimit` that have stored and wait for the lock. -/
  settling : List Nat
  /-- The calls of `AcquireReadBudget` in their loops. -/
  calls : List AcquireCall
  /-- The last reading of the steady clock. -/
  clock : Int

inductive RateAction
  | storeSpeedLimit (bps : Nat)
  | settleSpeedLimit (index : Nat) (now : Int)
  /-- A worker calls `AcquireReadBudget`. -/
  | enter (requestedBytes : Nat)
  /-- One pass through the loop of a call. -/
  | acquire (index : Nat) (now : Int) (downloading : Bool)
deriving DecidableEq, Repr

/-- What a call returns, and when. -/
structure BudgetReturn where
  time : Int
  requestedBytes : Nat
  bytes : Nat
deriving DecidableEq, Repr

namespace RateSystem

def step (sys : RateSystem) : RateAction → Option RateSystem
  | .storeSpeedLimit bps =>
      some { sys with
        limiter := sys.limiter.storeSpeedLimit bps
        settling := sys.settling ++ [bps] }
  | .settleSpeedLimit index now =>
      match sys.settling[index]? with
      | none => none
      | some bps =>
          if sys.clock ≤ now then
            some { sys with
              limiter := sys.limiter.settleSpeedLimit bps now
              settling := sys.settling.eraseIdx index
              clock := now }
          else none
  | .enter requestedBytes =>
      if enters : 0 < requestedBytes ∧ 0 < sys.limiter.speedLimitBps then
        some { sys with
          calls :=
            sys.calls ++ [⟨requestedBytes, sys.limiter.speedLimitBps, enters.1, enters.2⟩] }
      else some sys
  | .acquire index now downloading =>
      match sys.calls[index]? with
      | none => none
      | some call =>
          if sys.clock ≤ now then
            let passed := sys.limiter.acquire call now downloading
            some { sys with
              limiter := passed.2
              calls :=
                match passed.1 with
                | .waits _ => sys.calls
                | _ => sys.calls.eraseIdx index
              clock := now }
          else none

/-- What a step returns from `AcquireReadBudget`. -/
def returns (sys : RateSystem) : RateAction → Option BudgetReturn
  | .enter requestedBytes =>
      if 0 < requestedBytes ∧ 0 < sys.limiter.speedLimitBps then none
      else some ⟨sys.clock, requestedBytes, requestedBytes⟩
  | .acquire index now downloading =>
      match sys.calls[index]? with
      | none => none
      | some call =>
          match (sys.limiter.acquire call now downloading).1 with
          | .granted bytes => some ⟨now, call.requestedBytes, bytes⟩
          | .stopped => some ⟨now, call.requestedBytes, 0⟩
          | .waits _ => none
  | _ => none

-----------------------------------------------------------------------------------------
-- Waiting
-----------------------------------------------------------------------------------------

variable {sys start state : RateSystem} {action : RateAction}

/-- A call goes back to waiting only while the download runs under a limit and less than one
token is there, and gets a budget when there is no limit.
-/
def WaitsRightly (sys : RateSystem) (action : RateAction) : Prop :=
  ∀ index now downloading call,
    action = .acquire index now downloading
    → sys.calls[index]? = some call
    → (∀ wakeTime,
          (sys.limiter.acquire call now downloading).1 = .waits wakeTime
          → downloading = true
            ∧ 0 < sys.limiter.speedLimitBps
            ∧ (sys.limiter.refillRateTokens now).rateTokens < 1)
      ∧ (sys.limiter.speedLimitBps = 0
        → ∃ allowed,
            (sys.limiter.acquire call now downloading).1 = .granted allowed ∧ 0 < allowed)

/-- A call passes through its loop while there is no limit. -/
def PassesUnlimited (sys : RateSystem) (action : RateAction) : Prop :=
  ∃ index now downloading call,
    action = .acquire index now downloading
    ∧ sys.calls[index]? = some call
    ∧ sys.limiter.speedLimitBps = 0

/-- Without a limit the refill takes away all tokens. -/
theorem refillRateTokens_unlimited {limiter : RateLimiter} (lifted : limiter.speedLimitBps = 0)
    (now : Int)
    : (limiter.refillRateTokens now).rateTokens = 0 := by
  rw [RateLimiter.refillRateTokens, if_pos lifted]

theorem refillRateTokens_limit (limiter : RateLimiter) (now : Int)
    : (limiter.refillRateTokens now).speedLimitBps = limiter.speedLimitBps := by
  rw [RateLimiter.refillRateTokens]
  split
  · rfl
  · dsimp only
    split <;> rfl

/-- By cases on the two tests of the loop. -/
theorem acquire_cases (limiter : RateLimiter) (call : AcquireCall) (now : Int)
    (downloading : Bool)
    : (1 ≤ (limiter.refillRateTokens now).rateTokens
        ∧ (limiter.acquire call now downloading).1
          = .granted (RateLimiter.allowed call.requestedBytes
              (limiter.refillRateTokens now).rateTokens))
      ∨ ((limiter.refillRateTokens now).rateTokens < 1
        ∧ (limiter.acquire call now downloading).2 = limiter.refillRateTokens now
        ∧ (limiter.acquire call now downloading).1
          = if downloading then
              .waits (call.wakeTime now (limiter.refillRateTokens now).rateTokens)
            else .stopped) := by
  by_cases enough : 1 ≤ (limiter.refillRateTokens now).rateTokens
  · refine Or.inl ⟨enough, ?_⟩
    rw [RateLimiter.acquire, dif_pos enough]
  · refine Or.inr ⟨not_le.mp enough, ?_, ?_⟩
    · rw [RateLimiter.acquire, dif_neg enough]
      split <;> rfl
    · rw [RateLimiter.acquire, dif_neg enough]
      split <;> rfl

theorem waitsRightly_iff (sys : RateSystem) (action : RateAction)
    : WaitsRightly sys action ↔ ¬ PassesUnlimited sys action := by
  constructor
  · rintro rightly ⟨index, now, downloading, call, rfl, at_index, lifted⟩
    obtain ⟨allowed, granted, _⟩ :=
      (rightly index now downloading call rfl at_index).2 lifted
    have none_ := refillRateTokens_unlimited lifted now
    rcases acquire_cases sys.limiter call now downloading with ⟨enough, _⟩ | ⟨_, _, outcome⟩
    · rw [none_] at enough
      exact absurd enough (by norm_num)
    · rw [granted] at outcome
      cases downloading <;> cases outcome
  · intro limited index now downloading call same at_index
    have positive : sys.limiter.speedLimitBps ≠ 0 := fun lifted =>
      limited ⟨index, now, downloading, call, same, at_index, lifted⟩
    refine ⟨fun wakeTime waits => ?_, fun lifted => absurd lifted positive⟩
    rcases acquire_cases sys.limiter call now downloading with ⟨_, granted⟩ | ⟨few, _, outcome⟩
    · rw [granted] at waits
      cases waits
    · rw [waits] at outcome
      cases downloading with
      | true => exact ⟨rfl, Nat.pos_of_ne_zero positive, few⟩
      | false => cases outcome

/-- The steps of a run, each with the state that it is taken in. -/
def stepsFrom (sys : RateSystem) : List RateAction → List (RateSystem × RateAction)
  | [] => []
  | action :: rest =>
      match sys.step action with
      | none => []
      | some next => (sys, action) :: next.stepsFrom rest

/-- In every run the calls wait rightly if and only if none of them passes through its loop
while there is no limit.
-/
theorem waiting_ends_iff (start : RateSystem) (actions : List RateAction)
    : (∀ taken ∈ start.stepsFrom actions, WaitsRightly taken.1 taken.2)
      ↔ ∀ taken ∈ start.stepsFrom actions, ¬ PassesUnlimited taken.1 taken.2 :=
  forall₂_congr fun taken _ => waitsRightly_iff taken.1 taken.2

/-- A call enters its loop at 1000 bytes per second and waits on when the limit is lifted. -/
theorem lifted_limit_parks
    : ¬ ∀ (start : RateSystem) (actions : List RateAction),
        ∀ taken ∈ start.stepsFrom actions, WaitsRightly taken.1 taken.2 := by
  intro always
  have waits := always ⟨⟨1000, 0, 0, le_rfl⟩, [], [], 0⟩
    [.enter 32768, .storeSpeedLimit 0, .settleSpeedLimit 0 1, .acquire 0 2 true]
    _ (@List.mem_of_getElem? _ _ 3 _ rfl)
  rw [waitsRightly_iff] at waits
  exact waits ⟨0, 2, true, _, rfl, rfl, rfl⟩

/-- While the limit stays lifted and the download runs, no call leaves its loop. -/
theorem parked_calls_stay
    (reached
      : Transition.Reachable step
          (fun _ action after =>
            after.limiter.speedLimitBps = 0 ∧ ∀ index now, action ≠ .acquire index now false)
          start state)
    (lifted : start.limiter.speedLimitBps = 0)
    : ∀ call ∈ start.calls, call ∈ state.calls := by
  have parks := @Transition.Reachable.invariant _ _ _ _ _ _
    (fun sys => sys.limiter.speedLimitBps = 0 ∧ ∀ call ∈ start.calls, call ∈ sys.calls)
    reached ⟨lifted, fun _ member => member⟩
  refine (parks ?_).2
  rintro before action after _ ⟨lifted, parked⟩ taken ⟨still, runs⟩
  refine ⟨still, fun call member => ?_⟩
  have member := parked call member
  cases action with
  | storeSpeedLimit bps =>
      cases taken
      exact member
  | settleSpeedLimit index now =>
      rw [step] at taken
      split at taken
      · cases taken
      · split at taken <;> cases taken
        exact member
  | enter requestedBytes =>
      rw [step, dif_neg (by omega)] at taken
      cases taken
      exact member
  | acquire index now downloading =>
      have running : downloading = true := by
        cases downloading with
        | true => rfl
        | false => exact absurd rfl (runs index now)
      subst running
      rw [step] at taken
      split at taken
      · cases taken
      · rename_i passing _
        have none_ := refillRateTokens_unlimited lifted now
        rcases acquire_cases before.limiter passing now true with ⟨enough, _⟩ | ⟨_, _, waits⟩
        · rw [none_] at enough
          exact absurd enough (by norm_num)
        · rw [if_pos rfl] at waits
          simp only [waits] at taken
          split at taken <;> cases taken
          exact member

-----------------------------------------------------------------------------------------
-- The bucket behind the workers
-----------------------------------------------------------------------------------------

/-- What a call for the whole buffer returns is a step of the worker that waits for it. -/
theorem acquire_worker {worker : Worker} {shared : Shared} (at_pc : worker.pc = .awaitBudget)
    (limiter : RateLimiter) (call : AcquireCall) (whole : call.requestedBytes = bufferSize)
    (now : Int)
    : match (limiter.acquire call now (decide (shared.engine.state = .downloading))).1 with
      | .granted allowed =>
          worker.step shared (.allow allowed)
            = some (shared, { worker with pc := .read, allowedBytes := allowed })
      | .stopped =>
          worker.step shared (.allow 0) = some (shared, worker.goto (.streamed false))
      | .waits _ => shared.engine.state = .downloading := by
  rcases acquire_cases limiter call now (decide (shared.engine.state = .downloading)) with
    ⟨enough, granted⟩ | ⟨_, _, outcome⟩
  · obtain ⟨some_, fits⟩ := RateLimiter.allowed_mem call.requested_pos enough
    rw [whole] at some_ fits
    have positive := Nat.ne_of_gt some_
    rw [granted, whole]
    simp [Worker.step, at_pc, positive, fits]
  · rw [outcome]
    by_cases downloading : shared.engine.state = .downloading
    · simp [downloading]
    · simp [Worker.step, at_pc, downloading]

end RateSystem

end Muld
