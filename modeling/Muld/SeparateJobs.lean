import Muld.JobTicks

/-! The jobs of the controller do not influence each other while their targets fit the
capacity. They share one map of states and one traversal of the inputs, in which each job
reads and writes its own entry only.
-/

namespace Muld

open Threads Trimming

variable {R : Type} {input : ConnectionControlInput R} {jobId : Nat}
  {states : Nat → Option (JobState R)} {inputs other : List (ConnectionControlInput R)}

-----------------------------------------------------------------------------------------
-- The input of a job
-----------------------------------------------------------------------------------------

/-- The input of a job that is active. -/
def activeInput (jobId : Nat) (inputs : List (ConnectionControlInput R))
    : Option (ConnectionControlInput R) :=
  inputs.find? fun input => input.active && input.jobId == jobId

theorem activeInput_eq_some (distinct : (inputs.map ConnectionControlInput.jobId).Nodup)
    : activeInput jobId inputs = some input
      ↔ input ∈ inputs ∧ input.active = true ∧ input.jobId = jobId := by
  constructor
  · intro found
    have holds := List.find?_some found
    rw [Bool.and_eq_true, beq_iff_eq] at holds
    exact ⟨List.mem_of_find?_eq_some found, holds⟩
  · rintro ⟨member, active, rfl⟩
    cases found : activeInput input.jobId inputs with
    | none =>
        have missed := List.find?_eq_none.mp found input member
        simp [active] at missed
    | some first =>
        have holds := List.find?_some found
        rw [Bool.and_eq_true, beq_iff_eq] at holds
        rw [List.inj_on_of_nodup_map distinct (List.mem_of_find?_eq_some found) member holds.2]

/-- Both lists have the same input for the job, or none. -/
def AgreeOn (jobId : Nat) (inputs other : List (ConnectionControlInput R)) : Prop :=
  ∀ input : ConnectionControlInput R,
    input.jobId = jobId → (input ∈ inputs ↔ input ∈ other)

theorem AgreeOn.activeInput_eq (agree : AgreeOn jobId inputs other)
    (distinct : (inputs.map ConnectionControlInput.jobId).Nodup)
    (distinct_other : (other.map ConnectionControlInput.jobId).Nodup)
    : activeInput jobId inputs = activeInput jobId other := by
  apply Option.ext
  intro input
  rw [activeInput_eq_some distinct, activeInput_eq_some distinct_other]
  constructor
  · rintro ⟨member, active, own⟩
    exact ⟨(agree input own).mp member, active, own⟩
  · rintro ⟨member, active, own⟩
    exact ⟨(agree input own).mpr member, active, own⟩

variable [Double R]

-----------------------------------------------------------------------------------------
-- The traversal of inputs with distinct ids
-----------------------------------------------------------------------------------------

/-- Each active input is planned from the state that its job had before the tick, by
induction on the inputs.
-/
theorem planInputs_decisions (distinct : (inputs.map ConnectionControlInput.jobId).Nodup)
    : (planInputs states inputs).1
        = (inputs.filter ConnectionControlInput.active).map fun input =>
          (((states input.jobId).getD .initial).plan input).1 := by
  induction inputs generalizing states with
  | nil => rfl
  | cons input rest ih =>
      rw [List.map_cons, List.nodup_cons] at distinct
      obtain ⟨apart, distinct⟩ := distinct
      -- the entry that the head writes is not read again
      have unread (state : Option (JobState R))
          : ((rest.filter ConnectionControlInput.active).map fun next =>
              (((Function.update states input.jobId state next.jobId).getD .initial).plan
                next).1)
            = (rest.filter ConnectionControlInput.active).map fun next =>
              (((states next.jobId).getD .initial).plan next).1 := by
        apply List.map_congr_left
        intro next among
        have inside : next ∈ rest := List.mem_of_mem_filter among
        have differs : next.jobId ≠ input.jobId := fun same =>
          apart (List.mem_map.mpr ⟨next, inside, same⟩)
        rw [Function.update_of_ne differs]
      rw [planInputs]
      cases active : input.active with
      | true =>
          rw [List.filter_cons_of_pos active, List.map_cons, if_pos rfl]
          simp only [ih distinct, unread]
      | false =>
          rw [List.filter_cons_of_neg (by simp [active]), if_neg Bool.false_ne_true,
            ih distinct, unread]

/-- An inactive job is forgotten. -/
theorem planInputs_inactive (only : OnlyInput input inputs) (inactive : input.active = false)
    : (planInputs states inputs).2 input.jobId = none := by
  obtain ⟨before, after, rfl, others⟩ := only
  obtain ⟨_, others_after⟩ := List.forall_mem_append.mp others
  rw [planInputs_append, planInputs, inactive, if_neg Bool.false_ne_true]
  generalize (planInputs states before).2 = middle
  obtain ⟨still, _⟩ := @planInputs_others _ _ _ (Function.update middle input.jobId none)
    after others_after
  rw [still, Function.update_self]

-----------------------------------------------------------------------------------------
-- What a job gets out of a tick
-----------------------------------------------------------------------------------------

variable {controller : ConnectionController R} {sort : Sorter}

/-- A tick leaves a state for each active input, planned from the one before. -/
theorem tick_states (distinct : (inputs.map ConnectionControlInput.jobId).Nodup) (jobId : Nat)
    : (controller.tick sort inputs).2.states jobId
        = (activeInput jobId inputs).map fun input =>
          ((controller.stateOf jobId).plan input).2 := by
  cases found : activeInput jobId inputs with
  | some input =>
      obtain ⟨member, active, rfl⟩ := (activeInput_eq_some distinct).mp found
      have only := OnlyInput.of_nodup distinct member
      obtain ⟨planned, _⟩ := @planInputs_only _ _ _ controller.states _ only active
      have seen : (inputs.map ConnectionControlInput.jobId).contains input.jobId = true :=
        List.contains_iff_mem.mpr (List.mem_map_of_mem member)
      simp only [ConnectionController.tick, seen, if_true, planned, Option.map_some]
      rfl
  | none =>
      simp only [ConnectionController.tick, Option.map_none]
      split
      · rename_i seen
        obtain ⟨input, member, rfl⟩ := List.mem_map.mp (List.contains_iff_mem.mp seen)
        refine planInputs_inactive (OnlyInput.of_nodup distinct member) ?_
        cases active : input.active with
        | false => rfl
        | true =>
            rw [(activeInput_eq_some distinct).mpr ⟨member, active, rfl⟩] at found
            cases found
      · rfl

/-- Within the capacity the decisions are those of the active inputs, each by itself. -/
theorem tick_untrimmed (distinct : (inputs.map ConnectionControlInput.jobId).Nodup)
    (untrimmed : controller.Untrimmed inputs)
    : (controller.tick sort inputs).1
        = (inputs.filter ConnectionControlInput.active).map fun input =>
          ((controller.stateOf input.jobId).plan input).1.decision := by
  rw [untrimmed.decisions, planInputs_decisions distinct, List.map_map]
  rfl

/-- The total of the targets is that of the active inputs, in any order. -/
theorem untrimmed_perm (distinct : (inputs.map ConnectionControlInput.jobId).Nodup)
    (same : inputs.Perm other) (untrimmed : controller.Untrimmed inputs)
    : controller.Untrimmed other := by
  have distinct_other := (same.map ConnectionControlInput.jobId).nodup_iff.mp distinct
  rw [ConnectionController.Untrimmed, planInputs_decisions distinct, total] at untrimmed
  rw [ConnectionController.Untrimmed, planInputs_decisions distinct_other, total]
  have totals := (((same.filter ConnectionControlInput.active).map fun input =>
    (((controller.states input.jobId).getD .initial).plan input).1).map
      MutableDecision.scale.level).sum_eq
  omega

/-- Within the capacity a decision is about an active input of the job. -/
theorem mem_tick_iff (distinct : (inputs.map ConnectionControlInput.jobId).Nodup)
    (untrimmed : controller.Untrimmed inputs) (desired : Int)
    : ⟨jobId, desired⟩ ∈ (controller.tick sort inputs).1
      ↔ ∃ input,
          activeInput jobId inputs = some input
          ∧ ((controller.stateOf jobId).plan input).1.decision.desiredConnections = desired := by
  simp only [tick_untrimmed distinct untrimmed, activeInput_eq_some distinct, List.mem_map,
    List.mem_filter]
  constructor
  · rintro ⟨input, ⟨member, active⟩, decided⟩
    obtain rfl : input.jobId = jobId := congrArg ConnectionControlDecision.jobId decided
    exact ⟨input, ⟨member, active, rfl⟩,
      congrArg ConnectionControlDecision.desiredConnections decided⟩
  · rintro ⟨input, ⟨member, active, rfl⟩, rfl⟩
    exact ⟨input, ⟨member, active⟩, rfl⟩

/-- For every controller and all inputs with distinct ids: a job gets the same decision and
the same state out of any two lists within the capacity that agree on its input; permuting
inputs within the capacity permutes the decisions; and behind the tick the controller has the
states of the active inputs and no others.
-/
theorem jobs_apart (sort : Sorter) (controller : ConnectionController R)
    (distinct : (inputs.map ConnectionControlInput.jobId).Nodup)
    : (∀ (jobId : Nat) (other : List (ConnectionControlInput R)),
        (other.map ConnectionControlInput.jobId).Nodup
        → controller.Untrimmed inputs
        → controller.Untrimmed other
        → AgreeOn jobId inputs other
        → (∀ desired : Int,
              ⟨jobId, desired⟩ ∈ (controller.tick sort inputs).1
              ↔ ⟨jobId, desired⟩ ∈ (controller.tick sort other).1)
          ∧ (controller.tick sort inputs).2.states jobId
            = (controller.tick sort other).2.states jobId)
      ∧ (∀ other : List (ConnectionControlInput R),
          inputs.Perm other
          → controller.Untrimmed inputs
          → (controller.tick sort inputs).1.Perm (controller.tick sort other).1)
      ∧ ∀ jobId : Nat,
          ((controller.tick sort inputs).2.states jobId).isSome = true
          ↔ ∃ input ∈ inputs, input.active = true ∧ input.jobId = jobId := by
  refine ⟨?_, ?_, ?_⟩
  · intro jobId other distinct_other untrimmed untrimmed_other agree
    have same := agree.activeInput_eq distinct distinct_other
    constructor
    · intro desired
      rw [mem_tick_iff distinct untrimmed, mem_tick_iff distinct_other untrimmed_other, same]
    · rw [tick_states distinct, tick_states distinct_other, same]
  · intro other same untrimmed
    have distinct_other := (same.map ConnectionControlInput.jobId).nodup_iff.mp distinct
    rw [tick_untrimmed distinct untrimmed,
      tick_untrimmed distinct_other (untrimmed_perm distinct same untrimmed)]
    exact (same.filter _).map _
  · intro jobId
    rw [tick_states distinct, Option.isSome_map, Option.isSome_iff_exists]
    exact exists_congr fun input => activeInput_eq_some distinct

/-- A job with two connections that waits half of the time. -/
def waitingJob (jobId : Nat) : ConnectionControlInput Rat where
  jobId := jobId
  active := true
  desiredConnections := 2
  minConnections := 1
  maxConnections := 4
  throughputBps := 1048576
  tokenWaitRatio := 0.5

/-- The first of two jobs next to another one, and both in the other order. -/
theorem jobs_apart_two
    : (∀ desired : Int,
        ⟨1, desired⟩
            ∈ ((ConnectionController.create 6).tick .stable [waitingJob 1, waitingJob 2]).1
          ↔ ⟨1, desired⟩
            ∈ ((ConnectionController.create 6).tick .stable [waitingJob 3, waitingJob 1]).1)
      ∧ ((ConnectionController.create 6).tick .stable [waitingJob 1, waitingJob 2]).1.Perm
          ((ConnectionController.create 6).tick .stable [waitingJob 2, waitingJob 1]).1
      ∧ (((ConnectionController.create 6).tick .stable
          [waitingJob 1, waitingJob 2]).2.states 2).isSome = true := by
  obtain ⟨same, permuted, present⟩ :=
    @jobs_apart Rat [waitingJob 1, waitingJob 2] _ .stable (.create 6) (by decide)
  have untrimmed : (ConnectionController.create 6).Untrimmed [waitingJob 1, waitingJob 2] := by
    decide +kernel
  refine ⟨?_, permuted _ (.swap _ _ _) untrimmed, (present 2).mpr ⟨waitingJob 2, ?_⟩⟩
  · refine (same 1 [waitingJob 3, waitingJob 1] (by decide) untrimmed (by decide +kernel) ?_).1
    intro input own
    have other (jobId : Nat) (differs : jobId ≠ 1) : input ≠ waitingJob jobId := by
      rintro rfl
      exact differs own
    simp [other 2 (by decide), other 3 (by decide)]
  · exact ⟨by simp, rfl, rfl⟩

end Muld
