import Muld.JobTicks
import Muld.LawfulDouble

/-! What becomes of a probe. A tick that raises a job by one connection leaves a baseline
behind; the next one compares the smoothed throughput with it.
-/

namespace Muld

open Threads Trimming

-----------------------------------------------------------------------------------------
-- The step that starts a probe and the one behind it
-----------------------------------------------------------------------------------------

section Step

variable {R : Type} [Double R] {state : JobState R} {lowest highest desired : Int}

/-- Only the start of a probe raises a target, by cases on the branch. -/
theorem JobState.adjust_raised (raised : (state.adjust lowest highest desired).1 = desired + 1)
    : desired < highest
      ∧ (state.adjust lowest highest desired).2
          = { state with
              probeActive := true
              probeBaseline := larger 1.0 state.emaThroughput
              cooldownTicks := kUpCooldownTicks } := by
  unfold adjust at raised ⊢
  split at raised
  · omega
  · split at raised
    · rename_i not_contended calm
      split at raised
      · split at raised <;> omega
      · rename_i idle
        rw [if_neg not_contended, if_pos calm, if_neg idle]
        exact ⟨calm.2.2, rfl⟩
    · split at raised <;> omega

/-- A probe is judged unless the target is at the upper bound already. -/
theorem JobState.adjust_judged (calm : state.lowWait = true) (free : state.highWait = false)
    (cooled : state.cooldownTicks = 0) (probes : state.probeActive = true)
    : (state.adjust lowest highest desired).1
        = if desired < highest ∧ state.gain < kProbeGainThreshold ∧ lowest < desired then
            desired - 1
          else desired := by
  by_cases below : desired < highest
  · by_cases useless : state.gain < kProbeGainThreshold ∧ lowest < desired
    · simp [adjust, calm, free, cooled, probes, below, useless]
    · simp [adjust, calm, free, cooled, probes, below, useless]
  · simp [adjust, calm, free, cooled, below]

end Step

-----------------------------------------------------------------------------------------
-- Two ticks
-----------------------------------------------------------------------------------------

variable {R : Type} [Double R] {sort : Sorter} {controller : ConnectionController R}
  {inputs later : List (ConnectionControlInput R)} {input next : ConnectionControlInput R}

/-- What the controller remembers of the job after both ticks. -/
def judged (sort : Sorter) (controller : ConnectionController R)
    (inputs later : List (ConnectionControlInput R)) (jobId : Nat)
    : JobState R :=
  ((controller.tick sort inputs).2.tick sort later).2.stateOf jobId

/-- A tick raises a job by one connection, and the next tick is fed its decision while the job
does not wait; both ticks leave the job untrimmed.
-/
structure FollowsProbe (sort : Sorter) (controller : ConnectionController R)
    (inputs : List (ConnectionControlInput R)) (input : ConnectionControlInput R)
    (later : List (ConnectionControlInput R)) (next : ConnectionControlInput R)
    : Prop where
  starts : TicksAlone controller inputs input
  raised : ⟨input.jobId, input.target + 1⟩ ∈ (controller.tick sort inputs).1
  follows : TicksAlone (controller.tick sort inputs).2 later next
  same : next.jobId = input.jobId
  fed : next.desiredConnections = input.target + 1
  calm : (judged sort controller inputs later input.jobId).emaWaitRatio ≤ kLowWaitThreshold

/-- The probe has started: it is flagged, measured from the average, and may be judged after
one tick.
-/
theorem FollowsProbe.remembered (follows : FollowsProbe sort controller inputs input later next)
    : input.target < input.highest
      ∧ ((controller.tick sort inputs).2.stateOf input.jobId).probeActive = true
      ∧ ((controller.tick sort inputs).2.stateOf input.jobId).probeBaseline
          = larger 1.0 ((controller.tick sort inputs).2.stateOf input.jobId).emaThroughput
      ∧ ((controller.tick sort inputs).2.stateOf input.jobId).cooldownTicks
          = kUpCooldownTicks := by
  have raised := (follows.starts.decides sort _).mp follows.raised
  obtain ⟨below, probing⟩ := JobState.adjust_raised raised.symm
  rw [follows.starts.state sort, JobState.plan]
  simp only
  rw [probing]
  exact ⟨below, rfl, rfl, rfl⟩

theorem FollowsProbe.judged_eq (follows : FollowsProbe sort controller inputs input later next)
    : judged sort controller inputs later input.jobId
        = (((controller.tick sort inputs).2.stateOf input.jobId).plan next).2 := by
  have state := follows.follows.state sort
  rw [follows.same] at state
  exact state

/-- `ema_throughput` behind a report. -/
def JobState.averaged (before : JobState R) (next : ConnectionControlInput R) : R :=
  if before.emaThroughput ≤ 0.0 then larger 0.0 next.throughputBps
  else
    (1.0 - kThroughputAlpha) * before.emaThroughput
      + kThroughputAlpha * larger 0.0 next.throughputBps

/-- The average after the second tick. -/
theorem FollowsProbe.judged_throughput
    (follows : FollowsProbe sort controller inputs input later next)
    : (judged sort controller inputs later input.jobId).emaThroughput
        = ((controller.tick sort inputs).2.stateOf input.jobId).averaged next := by
  rw [follows.judged_eq, (JobState.plan_averages _ _).1]
  rfl

/-- The second tick goes by the gain over the baseline. -/
theorem FollowsProbe.decides [LawfulDouble R]
    (follows : FollowsProbe sort controller inputs input later next) (decision : Int)
    : ⟨input.jobId, decision⟩ ∈ ((controller.tick sort inputs).2.tick sort later).1
      ↔ decision
        = if next.target < next.highest
              ∧ ((judged sort controller inputs later input.jobId).emaThroughput
                    - ((controller.tick sort inputs).2.stateOf input.jobId).probeBaseline)
                  / ((controller.tick sort inputs).2.stateOf input.jobId).probeBaseline
                < kProbeGainThreshold
              ∧ next.lowest < next.target then
            next.target - 1
          else next.target := by
  obtain ⟨_, probes, baseline, cooldown⟩ := follows.remembered
  have calm := follows.calm
  have decided := follows.follows.decides sort decision
  rw [follows.same] at decided
  rw [decided, follows.judged_eq, (JobState.plan_averages _ _).1]
  rw [follows.judged_eq, (JobState.plan_averages _ _).2] at calm
  generalize (controller.tick sort inputs).2.stateOf input.jobId = before
    at probes baseline cooldown calm ⊢
  obtain ⟨throughput, wait, active, base⟩ := (before.observe next).coolDown_averages
  have cooled : (before.observe next).coolDown.cooldownTicks = 0 := by
    simp [JobState.coolDown, JobState.observe, cooldown, kUpCooldownTicks]
  rw [← throughput]
  rw [← wait] at calm
  rw [JobState.plan]
  generalize (before.observe next).coolDown = observed at active base cooled calm ⊢
  have low : observed.lowWait = true := decide_eq_true calm
  have free : observed.highWait = false :=
    decide_eq_false (LawfulDouble.not_le_of_lt
      (LawfulDouble.lt_of_le_of_lt calm LawfulDouble.low_lt_high))
  have kept : observed.probeBaseline = before.probeBaseline := base
  have gain
      : observed.gain
        = (observed.emaThroughput - before.probeBaseline) / before.probeBaseline := by
    simp only [JobState.gain, kept, baseline, larger_larger]
  simp only [JobState.adjust_judged low free cooled (active.trans probes), gain]

-----------------------------------------------------------------------------------------
-- A probe that pays
-----------------------------------------------------------------------------------------

/-- The second tick does not judge the probe, or the average takes in enough of the gain. -/
def KeepsProbe (before : JobState R) (next : ConnectionControlInput R) : Prop :=
  next.highest ≤ next.target
  ∨ next.target ≤ next.lowest
  ∨ ¬ (before.averaged next - larger 1.0 before.emaThroughput)
        / larger 1.0 before.emaThroughput
      < kProbeGainThreshold

/-- After a probe, whatever it pays, the decision is not below the target if and only if the
probe is not judged or the average shows the gain.
-/
theorem probe_kept_iff [LawfulDouble R]
    (follows : FollowsProbe sort controller inputs input later next)
    : (∀ decision,
          ⟨input.jobId, decision⟩ ∈ ((controller.tick sort inputs).2.tick sort later).1
          → next.target ≤ decision)
      ↔ KeepsProbe ((controller.tick sort inputs).2.stateOf input.jobId) next := by
  obtain ⟨_, _, baseline, _⟩ := follows.remembered
  simp only [follows.decides, forall_eq, follows.judged_throughput, KeepsProbe, baseline]
  split
  · rename_i lowered
    obtain ⟨below, useless, above⟩ := lowered
    refine iff_of_false (by omega) ?_
    rintro (highest | lowest | enough)
    · omega
    · omega
    · exact enough useless
  · rename_i kept
    refine iff_of_true (Int.le_refl _) ?_
    by_contra not_kept
    simp only [not_or, not_le, not_not] at not_kept
    exact kept ⟨not_kept.1, not_kept.2.2, not_kept.2.1⟩

/-- With exact numbers, a probe that pays 8 percent over its baseline is kept where the
average before it was not positive or the average behind it is 8 percent above.
-/
theorem keepsProbe_exact_iff {before : JobState Rat} {next : ConnectionControlInput Rat}
    (pays
      : (1 + kProbeGainThreshold) * larger 1.0 before.emaThroughput ≤ next.throughputBps)
    : KeepsProbe before next
      ↔ next.highest ≤ next.target
        ∨ next.target ≤ next.lowest
        ∨ before.emaThroughput ≤ 0
        ∨ (1 + kProbeGainThreshold) * max 1 before.emaThroughput
          ≤ (1 - kThroughputAlpha) * before.emaThroughput
            + kThroughputAlpha * next.throughputBps := by
  have threshold : (0 : Rat) < 1 + kProbeGainThreshold := by norm_num [kProbeGainThreshold]
  rw [larger_eq_max, one_literal] at pays
  have base : (1 : Rat) ≤ max 1 before.emaThroughput := le_max_left _ _
  have positive : 0 < max 1 before.emaThroughput := lt_of_lt_of_le one_pos base
  have reported : 0 ≤ next.throughputBps :=
    le_trans (mul_nonneg threshold.le positive.le) pays
  have gain (average : Rat)
      : ¬ (average - max 1 before.emaThroughput) / max 1 before.emaThroughput
          < kProbeGainThreshold
        ↔ (1 + kProbeGainThreshold) * max 1 before.emaThroughput ≤ average := by
    rw [div_lt_iff₀ positive, sub_lt_iff_lt_add, not_lt, add_mul, one_mul, add_comm]
  simp only [KeepsProbe, JobState.averaged, larger_eq_max, zero_literal, one_literal, gain,
    max_eq_right reported]
  by_cases none_ : before.emaThroughput ≤ 0
  · simp [none_, pays]
  · simp [none_]

/-- A controller with one job: everything that a probe asks for can be computed. -/
theorem FollowsProbe.of_single
    (checks
      : input.active = true
        ∧ controller.Untrimmed [input]
        ∧ ⟨input.jobId, input.target + 1⟩ ∈ (controller.tick sort [input]).1
        ∧ next.active = true
        ∧ (controller.tick sort [input]).2.Untrimmed [next]
        ∧ next.jobId = input.jobId
        ∧ next.desiredConnections = input.target + 1
        ∧ (judged sort controller [input] [next] input.jobId).emaWaitRatio ≤ kLowWaitThreshold)
    : FollowsProbe sort controller [input] input [next] next := by
  obtain ⟨active, untrimmed, raised, active', untrimmed', same, fed, calm⟩ := checks
  exact {
    starts := ⟨⟨[], [], rfl, by simp⟩, active, untrimmed⟩
    raised := raised
    follows := ⟨⟨[], [], rfl, by simp⟩, active', untrimmed'⟩
    same := same
    fed := fed
    calm := calm
  }

/-- A job with one connection and one mebibyte per second. -/
def firstConnection (maxConnections : Int) : ConnectionControlInput Rat where
  jobId := 1
  active := true
  desiredConnections := 1
  minConnections := 1
  maxConnections := maxConnections
  throughputBps := 1048576
  tokenWaitRatio := 0

/-- The same job with two connections. -/
def secondConnection (maxConnections : Int) (throughputBps : Rat) : ConnectionControlInput Rat :=
  { firstConnection maxConnections with
    desiredConnections := 2
    throughputBps
    tokenWaitRatio := 0.05 }

/-- A gain of three tenths is enough. -/
theorem probe_kept_iff_three_tenths
    : (∀ decision,
          ⟨1, decision⟩
            ∈ (((ConnectionController.create 6).tick .stable [firstConnection 5]).2.tick .stable
              [secondConnection 5 (1048576 * 1.3)]).1
          → 2 ≤ decision)
      ↔ KeepsProbe
          (((ConnectionController.create 6).tick .stable [firstConnection 5]).2.stateOf 1)
          (secondConnection 5 (1048576 * 1.3)) :=
  probe_kept_iff (.of_single (by decide +kernel))

/-- A gain of a fifth is taken for none. -/
theorem paying_probe_regresses
    : ¬ ∀ (sort : Sorter) (controller : ConnectionController Rat)
          (inputs later : List (ConnectionControlInput Rat))
          (input next : ConnectionControlInput Rat),
        FollowsProbe sort controller inputs input later next
        → (1 + kProbeGainThreshold)
              * ((controller.tick sort inputs).2.stateOf input.jobId).probeBaseline
            ≤ next.throughputBps
        → ∀ decision,
            ⟨input.jobId, decision⟩ ∈ ((controller.tick sort inputs).2.tick sort later).1
            → next.target ≤ decision := by
  intro always
  have kept := always .stable (.create 6) [firstConnection 5]
    [secondConnection 5 (1048576 * 1.2)] (firstConnection 5) _
    (.of_single (by decide +kernel)) (by decide +kernel) 1 (by decide +kernel)
  exact absurd kept (by decide)

-----------------------------------------------------------------------------------------
-- A probe without gain
-----------------------------------------------------------------------------------------

/-- A probe whose smoothed throughput is not above its baseline is undone if and only if it
did not reach the upper bound.
-/
theorem useless_probe_undone_iff [LawfulDouble R]
    (follows : FollowsProbe sort controller inputs input later next)
    (lowest : next.minConnections = input.minConnections)
    (highest : next.maxConnections = input.maxConnections)
    (finite
      : Double.IsFinite ((controller.tick sort inputs).2.stateOf input.jobId).probeBaseline)
    (useless
      : (judged sort controller inputs later input.jobId).emaThroughput
        ≤ ((controller.tick sort inputs).2.stateOf input.jobId).probeBaseline)
    : ⟨input.jobId, input.target⟩ ∈ ((controller.tick sort inputs).2.tick sort later).1
      ↔ input.target + 1 < input.highest := by
  obtain ⟨below, _, baseline, _⟩ := follows.remembered
  have base : 1.0 ≤ ((controller.tick sort inputs).2.stateOf input.jobId).probeBaseline :=
    baseline ▸ one_le_larger _
  have no_gain := LawfulDouble.lt_of_le_of_lt
    (LawfulDouble.div_nonpos (LawfulDouble.sub_nonpos useless finite) base finite)
    LawfulDouble.zero_lt_gain
  have same_lowest : next.lowest = input.lowest := by
    rw [ConnectionControlInput.lowest, ConnectionControlInput.lowest, lowest]
  have same_highest : next.highest = input.highest := by
    rw [ConnectionControlInput.highest, ConnectionControlInput.highest, same_lowest, highest]
  have bounds := input.target_mem
  have target : next.target = input.target + 1 := by
    rw [ConnectionControlInput.target, same_lowest, same_highest, follows.fed]
    omega
  have above : input.lowest < input.target + 1 := by omega
  simp only [follows.decides, target, same_lowest, same_highest, no_gain, above, and_true]
  split <;> omega

/-- Up to five connections, a second one that gains nothing is given up. -/
theorem useless_probe_undone_iff_five
    : ⟨1, 1⟩
        ∈ (((ConnectionController.create 6).tick .stable [firstConnection 5]).2.tick .stable
          [secondConnection 5 1048576]).1
      ↔ (firstConnection 5).target + 1 < (firstConnection 5).highest :=
  useless_probe_undone_iff (.of_single (by decide +kernel)) rfl rfl (isFinite_exact _)
    (by decide +kernel)

/-- Up to two connections, it is kept. -/
theorem useless_probe_at_maximum_stays
    : ¬ ∀ (sort : Sorter) (controller : ConnectionController Rat)
          (inputs later : List (ConnectionControlInput Rat))
          (input next : ConnectionControlInput Rat),
        FollowsProbe sort controller inputs input later next
        → next.minConnections = input.minConnections
        → next.maxConnections = input.maxConnections
        → input.minConnections < input.maxConnections
        → (judged sort controller inputs later input.jobId).emaThroughput
            ≤ ((controller.tick sort inputs).2.stateOf input.jobId).probeBaseline
        → ⟨input.jobId, input.target⟩
            ∈ ((controller.tick sort inputs).2.tick sort later).1 := by
  intro always
  have undone := always .stable (.create 6) [firstConnection 2] [secondConnection 2 1048576]
    (firstConnection 2) _ (.of_single (by decide +kernel)) rfl rfl (by decide)
    (by decide +kernel)
  exact absurd undone (by decide +kernel)

end Muld
