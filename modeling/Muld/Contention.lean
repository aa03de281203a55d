import Muld.JobTicks
import Muld.LawfulDouble
import Muld.Library.Transition

/-! A job that reports token contention at every tick is lowered by one connection a tick
until it is at its minimum. The average of the reported ratios crosses the threshold by the
second tick and stays above it.
-/

namespace Muld

open Threads Trimming

-----------------------------------------------------------------------------------------
-- Reachable controllers
-----------------------------------------------------------------------------------------

variable {R : Type} [Double R]

inductive ControllerCall (R : Type)
  | tick (inputs : List (ConnectionControlInput R))
  | remove (jobId : Nat)

namespace ConnectionController

def step (sort : Sorter) (controller : ConnectionController R)
    : ControllerCall R → Option (ConnectionController R)
  | .tick inputs => some (controller.tick sort inputs).2
  | .remove jobId => some (controller.remove jobId)

/-- No job reports a NaN for its ratio. -/
def ReportsNumbers (_ : ConnectionController R) (call : ControllerCall R)
    (_ : ConnectionController R)
    : Prop :=
  match call with
  | .tick inputs => ∀ input ∈ inputs, Double.IsNumber input.tokenWaitRatio
  | .remove _ => True

/-- The controllers that the constructor and any calls lead to. -/
def Reachable (sort : Sorter) (controller : ConnectionController R) : Prop :=
  ∃ globalCapacity : Int,
    Transition.Reachable (step sort) ReportsNumbers (create globalCapacity) controller

/-- Every state that the controller has meets the condition. -/
def AllStates (inv : JobState R → Prop) (controller : ConnectionController R) : Prop :=
  ∀ jobId state, controller.states jobId = some state → inv state

end ConnectionController

theorem getD_initial {inv : JobState R → Prop} (fresh : inv .initial)
    {entry : Option (JobState R)} (holds : ∀ state, entry = some state → inv state)
    : inv (entry.getD .initial) := by
  cases entry with
  | none => exact fresh
  | some state => exact holds state rfl

/-- What every state of a job keeps, the traversal keeps for all of them, by induction on the
inputs.
-/
theorem planInputs_invariant {inv : JobState R → Prop} (fresh : inv .initial)
    (inputs : List (ConnectionControlInput R))
    (keeps : ∀ input ∈ inputs, ∀ state, inv state → inv (state.plan input).2)
    {states : Nat → Option (JobState R)}
    (holds : ∀ jobId state, states jobId = some state → inv state)
    : ∀ jobId state, (planInputs states inputs).2 jobId = some state → inv state := by
  induction inputs generalizing states with
  | nil => exact holds
  | cons input rest ih =>
      obtain ⟨keeps_first, keeps⟩ := List.forall_mem_cons.mp keeps
      -- the head writes one entry
      have written (entry : Option (JobState R))
          (entry_holds : ∀ state, entry = some state → inv state)
          : ∀ jobId state,
              Function.update states input.jobId entry jobId = some state → inv state := by
        intro jobId state found
        by_cases own : jobId = input.jobId
        · subst own
          rw [Function.update_self] at found
          exact entry_holds state found
        · rw [Function.update_of_ne own] at found
          exact holds jobId state found
      rw [planInputs]
      cases input.active with
      | true =>
          have next := keeps_first _ (getD_initial fresh (holds input.jobId))
          exact ih keeps (written _ fun state same => Option.some.inj same ▸ next)
      | false => exact ih keeps (written none (by simp))

/-- An invariant of the states of jobs holds in every reachable controller. -/
theorem ConnectionController.Reachable.stateOf {sort : Sorter}
    {controller : ConnectionController R} (reachable : controller.Reachable sort)
    {inv : JobState R → Prop} (fresh : inv .initial)
    (keeps
      : ∀ input : ConnectionControlInput R,
          Double.IsNumber input.tokenWaitRatio
          → ∀ state, inv state → inv (state.plan input).2)
    (jobId : Nat)
    : inv (controller.stateOf jobId) := by
  obtain ⟨globalCapacity, reached⟩ := reachable
  have empty : (create globalCapacity : ConnectionController R).AllStates inv := by
    intro jobId state found
    cases found
  have holds : controller.AllStates inv := by
    refine reached.invariant empty ?_
    intro before call after _ holds taken numbers jobId state found
    cases call with
    | tick inputs =>
        obtain rfl := Option.some.inj taken
        simp only [tick] at found
        split at found
        · exact planInputs_invariant fresh inputs
            (fun input member => keeps input (numbers input member)) holds jobId state found
        · cases found
    | remove removed =>
        obtain rfl := Option.some.inj taken
        change Function.update before.states removed none jobId = some state at found
        by_cases own : jobId = removed
        · subst own
          rw [Function.update_self] at found
          cases found
        · rw [Function.update_of_ne own] at found
          exact holds jobId state found
  exact getD_initial fresh (holds jobId)

-----------------------------------------------------------------------------------------
-- The average of the reported ratios
-----------------------------------------------------------------------------------------

variable {input : ConnectionControlInput R} {state : JobState R}

theorem JobState.plan_emaWaitRatio (input : ConnectionControlInput R) (state : JobState R)
    : (state.plan input).2.emaWaitRatio
        = averageWait state.emaWaitRatio (clampTo input.tokenWaitRatio 0.0 1.0) :=
  (plan_averages input state).2

variable [LawfulDouble R]

/-- The average of a job is not negative. -/
theorem ConnectionController.Reachable.emaWaitRatio {sort : Sorter}
    {controller : ConnectionController R} (reachable : controller.Reachable sort)
    (jobId : Nat)
    : 0.0 ≤ (controller.stateOf jobId).emaWaitRatio := by
  have zero : (0.0 : R) ≤ 0.0 := LawfulDouble.literal_le _ _ _ _ _ _ le_rfl
  refine @stateOf _ _ _ _ reachable (fun state => 0.0 ≤ state.emaWaitRatio) zero ?_ jobId
  intro input number state nonneg
  rw [JobState.plan_emaWaitRatio]
  exact LawfulDouble.le_trans LawfulDouble.average_nonneg
    (LawfulDouble.averageWait_mono zero zero nonneg (clampTo_nonneg number))

-----------------------------------------------------------------------------------------
-- One tick under contention
-----------------------------------------------------------------------------------------

/-- A job that is not calm is not raised, and one that waits much is lowered down to its
minimum, by cases on the branch.
-/
theorem JobState.adjust_contended {lowest highest desired : Int} (above : lowest ≤ desired)
    (waits : kLowWaitThreshold < state.emaWaitRatio)
    : (state.adjust lowest highest desired).1 ≤ desired
      ∧ (kHighWaitThreshold ≤ state.emaWaitRatio
        → (state.adjust lowest highest desired).1 ≤ max lowest (desired - 1)) := by
  have not_low : state.lowWait = false := decide_eq_false (LawfulDouble.not_le_of_lt waits)
  unfold adjust
  split
  · exact ⟨by omega, fun _ => le_max_right _ _⟩
  · rename_i not_contended
    simp only [not_low, Bool.false_eq_true, false_and, and_false, if_false]
    refine ⟨Int.le_refl _, ?_⟩
    intro high
    have at_floor : ¬ lowest < desired := fun more => not_contended ⟨decide_eq_true high, more⟩
    omega

/-- What a tick with a ratio of three quarters or more does to a job. -/
theorem JobState.plan_contended (waits : 0.75 ≤ input.tokenWaitRatio)
    (nonneg : 0.0 ≤ state.emaWaitRatio)
    : 0.375 ≤ (state.plan input).2.emaWaitRatio
      ∧ (state.plan input).1.decision.desiredConnections ≤ input.target
      ∧ (0.375 ≤ state.emaWaitRatio
        → (state.plan input).1.decision.desiredConnections
          ≤ max input.lowest (input.target - 1)) := by
  have zero : (0.0 : R) ≤ 0.0 := LawfulDouble.literal_le _ _ _ _ _ _ le_rfl
  have three_quarters : (0.0 : R) ≤ 0.75 := LawfulDouble.literal_le _ _ _ _ _ _ (by norm_num)
  have reported : (0.75 : R) ≤ clampTo input.tokenWaitRatio 0.0 1.0 :=
    le_clampTo waits three_quarters (LawfulDouble.literal_le _ _ _ _ _ _ (by norm_num))
  have average := state.plan_emaWaitRatio input
  have warm : 0.375 ≤ (state.plan input).2.emaWaitRatio := by
    rw [average]
    exact LawfulDouble.le_trans LawfulDouble.average_warm
      (LawfulDouble.averageWait_mono zero three_quarters nonneg reported)
  have observed : ((state.observe input).coolDown).emaWaitRatio
      = (state.plan input).2.emaWaitRatio := by
    rw [(plan_averages input state).2, (coolDown_averages _).2.1]
  have not_low : kLowWaitThreshold < ((state.observe input).coolDown).emaWaitRatio := by
    rw [observed]
    exact LawfulDouble.lt_of_lt_of_le LawfulDouble.low_lt_warm warm
  obtain ⟨most, lowered⟩ :=
    @adjust_contended _ _ _ _ _ input.highest _ input.target_mem.1 not_low
  refine ⟨warm, most, fun before => lowered ?_⟩
  rw [observed, average]
  have positive : (0.0 : R) ≤ 0.375 := LawfulDouble.literal_le _ _ _ _ _ _ (by norm_num)
  exact LawfulDouble.le_trans LawfulDouble.average_high
    (LawfulDouble.averageWait_mono positive three_quarters before reported)

-----------------------------------------------------------------------------------------
-- Ticks in a row
-----------------------------------------------------------------------------------------

/-- `target` of an input with these bounds. -/
def clampedTarget (minConnections maxConnections desired : Int) : Int :=
  max (max 1 minConnections) (min desired (max (max 1 minConnections) maxConnections))

/-- Ticks in which a job with fixed bounds reports a ratio of three quarters or more and is
fed the decision of the tick before, with the decisions for it. Other jobs may report anything,
and the decisions may have been trimmed.
-/
inductive ContendedRun (sort : Sorter) (jobId : Nat) (minConnections maxConnections : Int)
    : ConnectionController R → Int → List Int → Prop
  | stop (controller : ConnectionController R) (desired : Int)
    : ContendedRun sort jobId minConnections maxConnections controller desired []
  | tick {controller : ConnectionController R} {desired decision : Int}
      {decisions : List Int} {inputs : List (ConnectionControlInput R)}
      {input : ConnectionControlInput R} (only : OnlyInput input inputs)
      (active : input.active = true) (own : input.jobId = jobId)
      (lowest : input.minConnections = minConnections)
      (highest : input.maxConnections = maxConnections)
      (fed : input.desiredConnections = desired) (waits : 0.75 ≤ input.tokenWaitRatio)
      (decided : ⟨jobId, decision⟩ ∈ (controller.tick sort inputs).1)
      (rest : ContendedRun sort jobId minConnections maxConnections
        (controller.tick sort inputs).2 decision decisions)
    : ContendedRun sort jobId minConnections maxConnections controller desired
        (decision :: decisions)

variable {sort : Sorter} {controller : ConnectionController R} {jobId : Nat}
  {minConnections maxConnections desired : Int} {decisions : List Int}

/-- The first tick of a run. -/
theorem contended_tick {decision : Int} {inputs : List (ConnectionControlInput R)}
    (only : OnlyInput input inputs) (active : input.active = true)
    (waits : 0.75 ≤ input.tokenWaitRatio)
    (nonneg : 0.0 ≤ (controller.stateOf input.jobId).emaWaitRatio)
    (decided : ⟨input.jobId, decision⟩ ∈ (controller.tick sort inputs).1)
    : 0.375 ≤ ((controller.tick sort inputs).2.stateOf input.jobId).emaWaitRatio
      ∧ decision ≤ input.target
      ∧ (0.375 ≤ (controller.stateOf input.jobId).emaWaitRatio
        → decision ≤ max input.lowest (input.target - 1)) := by
  obtain ⟨_, trimmed⟩ := only.decided active decided
  obtain ⟨warm, most, lowered⟩ := JobState.plan_contended waits nonneg
  rw [only.state active]
  exact ⟨warm, trimmed.trans most, fun before => trimmed.trans (lowered before)⟩

/-- Behind the first tick each one takes a connection, by induction on the run. -/
theorem ContendedRun.drains
    (run
      : ContendedRun sort jobId minConnections maxConnections controller desired decisions)
    (warm : 0.375 ≤ (controller.stateOf jobId).emaWaitRatio)
    : ∀ (n : Nat) (decision : Int),
        decisions[n]? = some decision
        → decision
          ≤ max (max 1 minConnections)
            (clampedTarget minConnections maxConnections desired - (n + 1)) := by
  induction run with
  | stop => simp
  | @tick controller desired first decisions inputs input only active own lowest highest fed
      waits decided rest ih =>
      subst own lowest highest fed
      have nonneg : 0.0 ≤ (controller.stateOf input.jobId).emaWaitRatio :=
        LawfulDouble.le_trans (LawfulDouble.literal_le _ _ _ _ _ _ (by norm_num)) warm
      obtain ⟨still, _, lowered⟩ := contended_tick only active waits nonneg decided
      have lowered : first ≤ max (max 1 input.minConnections)
          (clampedTarget input.minConnections input.maxConnections input.desiredConnections - 1) :=
        lowered warm
      intro n decision at_n
      cases n with
      | zero =>
          obtain rfl := Option.some.inj at_n
          exact lowered
      | succ n =>
          have later := ih still n decision at_n
          simp only [clampedTarget] at later lowered ⊢
          push_cast
          omega

/-- In every reachable controller, a job that reports a ratio of three quarters or more at
each of some ticks in a row is never raised above its first target, and each tick behind the
first takes a connection until it is at its minimum.
-/
theorem contention_drains (reachable : controller.Reachable sort)
    (run
      : ContendedRun sort jobId minConnections maxConnections controller desired decisions)
    : ∀ (n : Nat) (decision : Int),
        decisions[n]? = some decision
        → decision ≤ clampedTarget minConnections maxConnections desired
          ∧ decision
            ≤ max (max 1 minConnections)
              (clampedTarget minConnections maxConnections desired - n) := by
  cases run with
  | stop => simp
  | @tick _ _ first decisions inputs input only active own lowest highest fed waits decided
      rest =>
      subst own lowest highest fed
      obtain ⟨warm, most, _⟩ := contended_tick only active waits
        (reachable.emaWaitRatio input.jobId) decided
      have most : first
          ≤ clampedTarget input.minConnections input.maxConnections input.desiredConnections :=
        most
      intro n decision at_n
      cases n with
      | zero =>
          obtain rfl := Option.some.inj at_n
          exact ⟨most, by omega⟩
      | succ n =>
          have later := rest.drains warm n decision at_n
          simp only [clampedTarget] at later most ⊢
          push_cast
          exact ⟨by omega, by omega⟩

/-- A job that waits nearly all of the time. -/
def contendedJob (desiredConnections : Int) : ConnectionControlInput Rat where
  jobId := 2
  active := true
  desiredConnections := desiredConnections
  minConnections := 1
  maxConnections := 6
  throughputBps := 262144
  tokenWaitRatio := 0.95

/-- Of four connections the second tick takes one. -/
theorem contention_drains_two
    : (3 : Int) ≤ clampedTarget 1 6 4
      ∧ (3 : Int) ≤ max (max 1 1) (clampedTarget 1 6 4 - (1 : Nat)) := by
  have only : OnlyInput (contendedJob 4) [contendedJob 4] := ⟨[], [], rfl, by simp⟩
  have waits : 0.75 ≤ (contendedJob 4).tokenWaitRatio := by decide +kernel
  have run : ContendedRun .stable 2 1 6 (.create 8) 4 [4, 3] :=
    .tick only rfl rfl rfl rfl rfl waits (by decide +kernel)
      (.tick only rfl rfl rfl rfl rfl waits (by decide +kernel) (.stop _ _))
  exact contention_drains ⟨8, .start⟩ run 1 3 rfl

end Muld
