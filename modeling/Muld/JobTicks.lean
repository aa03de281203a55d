import Muld.ConnectionController
import Mathlib.Data.List.Nodup

/-! A tick of the controller as one job sees it: what becomes of its state and which decision
it gets, where the job has one input and nothing is trimmed.
-/

namespace Muld

open Threads Trimming

variable {R : Type} [Double R] {input : ConnectionControlInput R} {jobId : Nat}
  {states : Nat → Option (JobState R)} {inputs before after : List (ConnectionControlInput R)}

-----------------------------------------------------------------------------------------
-- The loop over the inputs
-----------------------------------------------------------------------------------------

/-- By induction on the first inputs. -/
theorem planInputs_append (states : Nat → Option (JobState R))
    (before after : List (ConnectionControlInput R))
    : planInputs states (before ++ after)
        = ((planInputs states before).1 ++ (planInputs (planInputs states before).2 after).1,
          (planInputs (planInputs states before).2 after).2) := by
  induction before generalizing states with
  | nil => rfl
  | cons input rest ih =>
      rw [List.cons_append, planInputs, planInputs]
      cases input.active <;> simp [ih]

/-- The inputs of other jobs leave the state of the job alone and make no decision for it. -/
theorem planInputs_others (others : ∀ input ∈ inputs, input.jobId ≠ jobId)
    : (planInputs states inputs).2 jobId = states jobId
      ∧ ∀ item ∈ (planInputs states inputs).1, item.decision.jobId ≠ jobId := by
  induction inputs generalizing states with
  | nil => exact ⟨rfl, by simp [planInputs]⟩
  | cons input rest ih =>
      obtain ⟨apart, others⟩ := List.forall_mem_cons.mp others
      rw [planInputs]
      cases input.active with
      | true =>
          obtain ⟨same, decisions⟩ := @ih (Function.update states input.jobId
            (some (((states input.jobId).getD .initial).plan input).2)) others
          rw [Function.update_of_ne apart.symm] at same
          exact ⟨same, List.forall_mem_cons.mpr ⟨apart, decisions⟩⟩
      | false =>
          obtain ⟨same, decisions⟩ := @ih (Function.update states input.jobId none) others
          rw [Function.update_of_ne apart.symm] at same
          exact ⟨same, decisions⟩

/-- The input is among the others and the only one of its job. -/
def OnlyInput (input : ConnectionControlInput R) (inputs : List (ConnectionControlInput R))
    : Prop :=
  ∃ before after,
    inputs = before ++ input :: after ∧ ∀ other ∈ before ++ after, other.jobId ≠ input.jobId

/-- With distinct ids every input is the only one of its job. -/
theorem OnlyInput.of_nodup {N : Type} {input : ConnectionControlInput N}
    {inputs : List (ConnectionControlInput N)}
    (distinct : (inputs.map ConnectionControlInput.jobId).Nodup) (member : input ∈ inputs)
    : OnlyInput input inputs := by
  obtain ⟨before, after, rfl⟩ := List.append_of_mem member
  rw [List.map_append, List.map_cons, List.nodup_middle, List.nodup_cons, ← List.map_append]
    at distinct
  refine ⟨before, after, rfl, ?_⟩
  intro other among same
  exact distinct.1 (List.mem_map.mpr ⟨other, among, same⟩)

/-- Its job is planned from the state it had, and no other decision is made for it. -/
theorem planInputs_only (only : OnlyInput input inputs) (active : input.active = true)
    : (planInputs states inputs).2 input.jobId
          = some (((states input.jobId).getD .initial).plan input).2
      ∧ ∃ first last,
          (planInputs states inputs).1
              = first ++ (((states input.jobId).getD .initial).plan input).1 :: last
          ∧ ∀ item ∈ first ++ last, item.decision.jobId ≠ input.jobId := by
  obtain ⟨before, after, rfl, others⟩ := only
  obtain ⟨others_before, others_after⟩ := List.forall_mem_append.mp others
  obtain ⟨kept, first⟩ := @planInputs_others _ _ _ states before others_before
  rw [planInputs_append, planInputs, if_pos active, kept]
  generalize (planInputs states before).2 = middle at kept
  obtain ⟨still, last⟩ := @planInputs_others _ _ _ (Function.update middle input.jobId
    (some (((states input.jobId).getD .initial).plan input).2)) after others_after
  rw [Function.update_self] at still
  exact ⟨still, _, _, rfl, List.forall_mem_append.mpr ⟨first, last⟩⟩

-----------------------------------------------------------------------------------------
-- The averages
-----------------------------------------------------------------------------------------

/-- A step leaves the averages alone. -/
theorem JobState.adjust_averages (lowest highest desired : Int) (state : JobState R)
    : (state.adjust lowest highest desired).2.emaThroughput = state.emaThroughput
      ∧ (state.adjust lowest highest desired).2.emaWaitRatio = state.emaWaitRatio := by
  unfold adjust
  split
  · exact ⟨rfl, rfl⟩
  · split
    · split
      · split <;> exact ⟨rfl, rfl⟩
      · exact ⟨rfl, rfl⟩
    · split <;> exact ⟨rfl, rfl⟩

theorem JobState.coolDown_averages {N : Type} (state : JobState N)
    : state.coolDown.emaThroughput = state.emaThroughput
      ∧ state.coolDown.emaWaitRatio = state.emaWaitRatio
      ∧ state.coolDown.probeActive = state.probeActive
      ∧ state.coolDown.probeBaseline = state.probeBaseline := by
  rw [coolDown]
  split <;> exact ⟨rfl, rfl, rfl, rfl⟩

theorem JobState.plan_averages (input : ConnectionControlInput R) (state : JobState R)
    : (state.plan input).2.emaThroughput = (state.observe input).emaThroughput
      ∧ (state.plan input).2.emaWaitRatio = (state.observe input).emaWaitRatio := by
  obtain ⟨throughput, wait⟩ := (state.observe input).coolDown.adjust_averages
    input.lowest input.highest input.target
  obtain ⟨cooled_throughput, cooled_wait, _⟩ := (state.observe input).coolDown_averages
  exact ⟨throughput.trans cooled_throughput, wait.trans cooled_wait⟩

-----------------------------------------------------------------------------------------
-- The tick
-----------------------------------------------------------------------------------------

variable {controller : ConnectionController R} {sort : Sorter}

/-- The targets before trimming fit the capacity. -/
def ConnectionController.Untrimmed (controller : ConnectionController R)
    (inputs : List (ConnectionControlInput R))
    : Prop :=
  total MutableDecision.scale.level (planInputs controller.states inputs).1
    ≤ controller.globalCapacity

instance decidableUntrimmed (controller : ConnectionController R)
    (inputs : List (ConnectionControlInput R))
    : Decidable (controller.Untrimmed inputs) :=
  inferInstanceAs (Decidable (_ ≤ _))

/-- Nothing is taken from the decisions of the loop over the inputs. -/
theorem ConnectionController.Untrimmed.decisions (untrimmed : controller.Untrimmed inputs)
    (sort : Sorter)
    : (controller.tick sort inputs).1
        = (planInputs controller.states inputs).1.map MutableDecision.decision := by
  have fits : ¬ controller.globalCapacity
      < total MutableDecision.scale.level (planInputs controller.states inputs).1 :=
    Int.not_lt.mpr untrimmed
  simp only [tick, trimToCapacity, if_neg fits]

/-- What the controller remembers of a job, or of one that it has not seen. -/
def ConnectionController.stateOf (controller : ConnectionController R) (jobId : Nat)
    : JobState R :=
  (controller.states jobId).getD .initial

/-- What a tick makes of the state of a job with one input, trimmed or not. -/
theorem OnlyInput.state (only : OnlyInput input inputs) (active : input.active = true)
    (sort : Sorter)
    : (controller.tick sort inputs).2.stateOf input.jobId
        = ((controller.stateOf input.jobId).plan input).2 := by
  obtain ⟨planned, _⟩ := @planInputs_only _ _ _ controller.states _ only active
  have member : (inputs.map ConnectionControlInput.jobId).contains input.jobId = true := by
    obtain ⟨before, after, rfl, _⟩ := only
    simp
  simp only [ConnectionController.stateOf, ConnectionController.tick, member, if_true, planned,
    Option.getD_some]

/-- Trimming takes the decision for a job with one input down to its minimum at most. -/
theorem OnlyInput.decided (only : OnlyInput input inputs) (active : input.active = true)
    {desired : Int} (decided : ⟨input.jobId, desired⟩ ∈ (controller.tick sort inputs).1)
    : input.lowest ≤ desired
      ∧ desired
        ≤ ((controller.stateOf input.jobId).plan input).1.decision.desiredConnections := by
  obtain ⟨_, first, last, planned, others⟩ :=
    @planInputs_only _ _ _ controller.states _ only active
  have lowered := trimToCapacity_lowered sort controller.globalCapacity
    (planInputs controller.states inputs).1
  obtain ⟨item, among, same⟩ := List.mem_map.mp decided
  obtain ⟨start, started, low⟩ := exists_of_mem_lowered lowered among
  have kept := low.field (fun item => item.decision.jobId) fun _ => rfl
  have own : start.decision.jobId = input.jobId :=
    kept.symm.trans (congrArg ConnectionControlDecision.jobId same)
  have level : item.decision.desiredConnections = desired :=
    congrArg ConnectionControlDecision.desiredConnections same
  -- the only item of the job is the one that was planned for its input
  rw [planned] at started
  obtain rfl : start = ((controller.stateOf input.jobId).plan input).1 := by
    rcases List.mem_append.mp started with early | started
    · exact absurd own (others start (List.mem_append_left _ early))
    rcases List.mem_cons.mp started with rfl | late
    · rfl
    · exact absurd own (others start (List.mem_append_right _ late))
  obtain ⟨floor, less, above⟩ := low.level
  have bounds := JobState.plan_planned input (controller.stateOf input.jobId)
  have planned_above := bounds.decided.lower
  simp only [MutableDecision.scale, bounds.floor] at floor less above
  exact ⟨by omega, by omega⟩

/-- The job is planned by itself. -/
structure TicksAlone (controller : ConnectionController R)
    (inputs : List (ConnectionControlInput R)) (input : ConnectionControlInput R)
    : Prop where
  only : OnlyInput input inputs
  active : input.active = true
  untrimmed : controller.Untrimmed inputs

theorem TicksAlone.state (alone : TicksAlone controller inputs input) (sort : Sorter)
    : (controller.tick sort inputs).2.stateOf input.jobId
        = ((controller.stateOf input.jobId).plan input).2 :=
  alone.only.state alone.active sort

theorem TicksAlone.decides (alone : TicksAlone controller inputs input) (sort : Sorter)
    (desired : Int)
    : ⟨input.jobId, desired⟩ ∈ (controller.tick sort inputs).1
      ↔ desired = ((controller.stateOf input.jobId).plan input).1.decision.desiredConnections := by
  obtain ⟨_, first, last, planned, others⟩ :=
    @planInputs_only _ _ _ controller.states _ alone.only alone.active
  rw [alone.untrimmed.decisions, planned]
  constructor
  · intro member
    obtain ⟨item, among, same⟩ := List.mem_map.mp member
    have own : item.decision.jobId = input.jobId := congrArg ConnectionControlDecision.jobId same
    rcases List.mem_append.mp among with early | among
    · exact absurd own (others item (List.mem_append_left _ early))
    rcases List.mem_cons.mp among with rfl | late
    · exact (congrArg ConnectionControlDecision.desiredConnections same).symm
    · exact absurd own (others item (List.mem_append_right _ late))
  · rintro rfl
    exact List.mem_map.mpr ⟨_, List.mem_append_right _ List.mem_cons_self, rfl⟩

end Muld
