import Muld.JobTicks

/-! The controller does not flap. A tick that moves a job, up or down, leaves a cooldown or a
probe behind, and either keeps the next tick from raising the job.
-/

namespace Muld

variable {R : Type} [Double R] {state : JobState R} {lowest highest desired : Int}

-----------------------------------------------------------------------------------------
-- The step behind a move
-----------------------------------------------------------------------------------------

/-- The cooldown outlasts the next tick, or a probe is to be judged. -/
def JobState.Settling {N : Type} (state : JobState N) : Prop :=
  1 < state.cooldownTicks ∨ state.probeActive = true

/-- Every step that moves the target leaves the job settling, by cases on the branch. -/
theorem JobState.adjust_settling
    (moved : (state.adjust lowest highest desired).1 ≠ desired)
    : (state.adjust lowest highest desired).2.Settling := by
  have lowered : 1 < kDownCooldownTicks := by decide
  unfold adjust at moved ⊢
  split
  · exact Or.inl lowered
  · rename_i not_contended
    rw [if_neg not_contended] at moved
    split
    · rename_i calm
      rw [if_pos calm] at moved
      split
      · rename_i probes
        rw [if_pos probes] at moved
        split
        · exact Or.inl lowered
        · rename_i gains
          rw [if_neg gains] at moved
          exact absurd rfl moved
      · exact Or.inr rfl
    · rename_i not_calm
      rw [if_neg not_calm] at moved
      split at moved <;> exact absurd rfl moved

/-- What is left of the cooldown when the next tick looks at it. -/
theorem JobState.Settling.coolDown {N : Type} {state : JobState N} (settling : state.Settling)
    : state.coolDown.cooldownTicks ≠ 0 ∨ state.coolDown.probeActive = true := by
  rcases settling with cooling | probes
  · left
    rw [JobState.coolDown, if_pos (by omega)]
    change state.cooldownTicks - 1 ≠ 0
    omega
  · right
    rw [JobState.coolDown]
    split <;> exact probes

/-- Only a job without cooldown and probe is raised, by cases on the branch. -/
theorem JobState.adjust_le (busy : state.cooldownTicks ≠ 0 ∨ state.probeActive = true)
    : (state.adjust lowest highest desired).1 ≤ desired := by
  unfold adjust
  split
  · exact Int.sub_le_self _ (by decide)
  · split
    · rename_i calm
      split
      · split
        · exact Int.sub_le_self _ (by decide)
        · exact Int.le_refl _
      · rename_i idle
        rcases busy with cooling | probes
        · exact absurd calm.1 cooling
        · exact absurd probes idle
    · split <;> exact Int.le_refl _

theorem JobState.Settling.plan_le (settling : state.Settling)
    (input : ConnectionControlInput R)
    : (state.plan input).1.decision.desiredConnections ≤ input.target := by
  have observed : (state.observe input).Settling := settling
  exact adjust_le observed.coolDown

-----------------------------------------------------------------------------------------
-- Two ticks
-----------------------------------------------------------------------------------------

variable {sort : Sorter} {controller : ConnectionController R}
  {inputs later : List (ConnectionControlInput R)} {input next : ConnectionControlInput R}

/-- A job that an untrimmed tick has moved away from its target is not raised by the next
one, whatever the inputs of that are.
-/
theorem no_flapping {decision second : Int} (starts : TicksAlone controller inputs input)
    (decided : ⟨input.jobId, decision⟩ ∈ (controller.tick sort inputs).1)
    (moved : decision ≠ input.target)
    (follows : TicksAlone (controller.tick sort inputs).2 later next)
    (same : next.jobId = input.jobId)
    (decided_next : ⟨next.jobId, second⟩ ∈ ((controller.tick sort inputs).2.tick sort later).1)
    : second ≤ next.target := by
  rw [starts.decides] at decided
  rw [follows.decides, same, starts.state] at decided_next
  rw [decided] at moved
  rw [decided_next]
  exact (JobState.adjust_settling moved).plan_le next

/-- A job that never waits. -/
def calmJob (desiredConnections : Int) : ConnectionControlInput Rat where
  jobId := 2
  active := true
  desiredConnections := desiredConnections
  minConnections := 1
  maxConnections := 6
  throughputBps := 262144
  tokenWaitRatio := 0

/-- The job is raised from one connection to two, and then lowered again. -/
theorem no_flapping_raised : (1 : Int) ≤ (calmJob 2).target :=
  @no_flapping Rat _ .stable (.create 6) [calmJob 1] [calmJob 2] (calmJob 1) (calmJob 2) 2 1
    ⟨⟨[], [], rfl, by simp⟩, rfl, by decide +kernel⟩ (by decide +kernel) (by decide)
    ⟨⟨[], [], rfl, by simp⟩, rfl, by decide +kernel⟩ rfl (by decide +kernel)

end Muld
