import Muld.Library.Trimming
import Mathlib.Algebra.Order.BigOperators.Group.List
import Mathlib.Logic.Function.Basic

/-! The controller that divides the connections of the manager between its jobs. The numbers
it averages are of any type with the operations and comparisons of `double`: how many
connections a job may get does not depend on what they compute.
-/

namespace Muld

open Threads Trimming

-----------------------------------------------------------------------------------------
-- Functions of the standard library
-----------------------------------------------------------------------------------------

/-- A comparison that puts these items in an order, with ties. -/
structure StrictWeakOrder {α : Type} (before : α → α → Bool) (items : List α) : Prop where
  asymm
    : ∀ first ∈ items,
        ∀ second ∈ items, before first second = true → before second first = false
  trans
    : ∀ first ∈ items,
        ∀ second ∈ items,
          ∀ third ∈ items,
            before second first = false
            → before third second = false
            → before third first = false

/-- `std::sort` of indices: a permutation, in order where the comparison makes one. Which of
two tied indices comes first is left open.
-/
structure Sorter where
  run : (Nat → Nat → Bool) → List Nat → List Nat
  perm : ∀ before indices, (run before indices).Perm indices
  sorted
    : ∀ before indices,
        StrictWeakOrder before indices
        → (run before indices).Pairwise fun first second => before second first = false

/-- A stable sort is one of them. -/
def Sorter.stable : Sorter where
  run before indices := indices.mergeSort fun first second => !before second first
  perm before indices := List.mergeSort_perm indices _
  sorted before indices order := by
    -- the comparison is an order among the indices that are there
    let le (first second : { index // index ∈ indices }) := !before second.1 first.1
    have attached := @List.map_mergeSort _ _ le (fun first second => !before second first)
      Subtype.val indices.attach fun _ _ _ _ => rfl
    have pairwise := @List.pairwise_mergeSort _ le
      (fun first second third => by
        simpa [le] using order.trans first first.2 second second.2 third third.2)
      (fun first second => by
        cases placed : before second.1 first.1 with
        | false => simp [le, placed]
        | true => simp [le, order.asymm second second.2 first first.2 placed])
      indices.attach
    rw [List.attach_map_subtype_val] at attached
    rw [← attached, List.pairwise_map]
    simpa [le] using pairwise

-----------------------------------------------------------------------------------------
-- Numbers
-----------------------------------------------------------------------------------------

/-- The operations and comparisons of `double`; nothing is assumed about them. -/
class Double (R : Type) extends Add R, Sub R, Mul R, Div R, LT R, LE R, BEq R, OfScientific R
    where
  decidableLT : DecidableLT R
  decidableLE : DecidableLE R

instance Double.instDecidableLT {R : Type} [Double R] : DecidableLT R := Double.decidableLT

instance Double.instDecidableLE {R : Type} [Double R] : DecidableLE R := Double.decidableLE

instance : Double Float where
  decidableLT := inferInstance
  decidableLE := inferInstance

instance : Double Rat where
  decidableLT := inferInstance
  decidableLE := inferInstance

variable {R : Type} [Double R]

/-- `std::max`. -/
def larger (left right : R) : R := if left < right then right else left

/-- `std::clamp`. -/
def clampTo (value low high : R) : R :=
  if value < low then low else if high < value then high else value

-----------------------------------------------------------------------------------------
-- The controller
-----------------------------------------------------------------------------------------

def kThroughputAlpha : R := 0.35
def kWaitAlpha : R := 0.50
def kHighWaitThreshold : R := 0.55
def kLowWaitThreshold : R := 0.20
def kProbeGainThreshold : R := 0.08
def kUpCooldownTicks : Int := 1
def kDownCooldownTicks : Int := 2

structure ConnectionControlInput (R : Type) where
  jobId : Nat
  active : Bool
  desiredConnections : Int
  minConnections : Int
  maxConnections : Int
  throughputBps : R
  tokenWaitRatio : R

structure ConnectionControlDecision where
  jobId : Nat
  desiredConnections : Int
deriving DecidableEq, Repr

/-- What the controller remembers of a job. -/
structure JobState (R : Type) where
  emaThroughput : R
  emaWaitRatio : R
  cooldownTicks : Int
  probeActive : Bool
  probeBaseline : R

/-- A decision that may still be lowered. -/
structure MutableDecision (R : Type) where
  decision : ConnectionControlDecision
  minConnections : Int
  emaWaitRatio : R

structure ConnectionController (R : Type) where
  globalCapacity : Int
  states : Nat → Option (JobState R)

/-- A job that was not seen before. -/
def JobState.initial : JobState R where
  emaThroughput := 0.0
  emaWaitRatio := 0.0
  cooldownTicks := 0
  probeActive := false
  probeBaseline := 0.0

/-- The constructor. -/
def ConnectionController.create (globalCapacity : Int) : ConnectionController R where
  globalCapacity := max 1 globalCapacity
  states := fun _ => none

namespace ConnectionControlInput

/-- `min_connections` of the loop over the inputs. -/
def lowest (input : ConnectionControlInput R) : Int := max 1 input.minConnections

/-- `max_connections` of the loop over the inputs. -/
def highest (input : ConnectionControlInput R) : Int := max input.lowest input.maxConnections

/-- The target of the job, clamped to its bounds. -/
def target (input : ConnectionControlInput R) : Int :=
  max input.lowest (min input.desiredConnections input.highest)

end ConnectionControlInput

namespace JobState

/-- The two averages take in what the input reports. -/
def observe (input : ConnectionControlInput R) (state : JobState R) : JobState R :=
  { state with
    emaThroughput :=
      if state.emaThroughput ≤ 0.0 then larger 0.0 input.throughputBps
      else
        (1.0 - kThroughputAlpha) * state.emaThroughput
          + kThroughputAlpha * larger 0.0 input.throughputBps
    emaWaitRatio :=
      (1.0 - kWaitAlpha) * state.emaWaitRatio
        + kWaitAlpha * clampTo input.tokenWaitRatio 0.0 1.0 }

def coolDown (state : JobState R) : JobState R :=
  if 0 < state.cooldownTicks then { state with cooldownTicks := state.cooldownTicks - 1 }
  else state

/-- `high_wait`. -/
def highWait (state : JobState R) : Bool := decide (kHighWaitThreshold ≤ state.emaWaitRatio)

/-- `low_wait`. -/
def lowWait (state : JobState R) : Bool := decide (state.emaWaitRatio ≤ kLowWaitThreshold)

/-- `gain`. -/
def gain (state : JobState R) : R :=
  let baseline := larger 1.0 state.probeBaseline
  (state.emaThroughput - baseline) / larger 1.0 baseline

/-- One step up or down from the target of a job with the given bounds. -/
def adjust (lowest highest desired : Int) (state : JobState R) : Int × JobState R :=
  if state.highWait = true ∧ lowest < desired then
    (desired - 1, { state with cooldownTicks := kDownCooldownTicks, probeActive := false })
  else if state.cooldownTicks = 0 ∧ state.lowWait = true ∧ desired < highest then
    if state.probeActive then
      if state.gain < kProbeGainThreshold ∧ lowest < desired then
        (desired - 1, { state with cooldownTicks := kDownCooldownTicks, probeActive := false })
      else (desired, { state with probeActive := false })
    else
      (desired + 1,
        { state with
          probeActive := true
          probeBaseline := larger 1.0 state.emaThroughput
          cooldownTicks := kUpCooldownTicks })
  else if state.lowWait then (desired, state)
  else (desired, { state with probeActive := false })

/-- The body of the loop over the inputs, for an active one. -/
def plan (input : ConnectionControlInput R) (state : JobState R)
    : MutableDecision R × JobState R :=
  let (desired, next) :=
    (state.observe input).coolDown.adjust input.lowest input.highest input.target
  ({
    decision := { jobId := input.jobId, desiredConnections := desired }
    minConnections := input.lowest
    emaWaitRatio := next.emaWaitRatio
  }, next)

end JobState

/-- The loop over the inputs: the decisions before trimming and the states. -/
def planInputs (states : Nat → Option (JobState R))
    : List (ConnectionControlInput R) → List (MutableDecision R) × (Nat → Option (JobState R))
  | [] => ([], states)
  | input :: rest =>
      if input.active then
        let (decision, state) := ((states input.jobId).getD .initial).plan input
        let (more, final) := planInputs (Function.update states input.jobId (some state)) rest
        (decision :: more, final)
      else planInputs (Function.update states input.jobId none) rest

/-- A decision is lowered down to the minimum of its job. -/
def MutableDecision.scale : Scale (MutableDecision R) where
  level item := item.decision.desiredConnections
  floor item := item.minConnections
  lower item :=
    { item with
      decision :=
        { item.decision with
          desiredConnections := item.decision.desiredConnections - 1 } }
  level_lower _ := rfl
  floor_lower _ := rfl

/-- The comparison of the trimming order: the job that waits more comes first, and of two
that wait alike the one with more connections.
-/
def trimsBefore (active : List (MutableDecision R)) (left right : Nat) : Bool :=
  match active[left]?, active[right]? with
  | some first, some second =>
      if first.emaWaitRatio == second.emaWaitRatio then
        decide (second.decision.desiredConnections < first.decision.desiredConnections)
      else decide (second.emaWaitRatio < first.emaWaitRatio)
  | _, _ => false

/-- The part of `Tick` behind the loop over the inputs. The decisions are summed in an `int`
there: the bounds of the jobs are taken to add up to less than 2^31.
-/
def trimToCapacity (sort : Sorter) (globalCapacity : Int) (active : List (MutableDecision R))
    : List (MutableDecision R) :=
  let desiredTotal := total MutableDecision.scale.level active
  if globalCapacity < desiredTotal then
    let order := sort.run (trimsBefore active) (List.range active.length)
    trim MutableDecision.scale order (desiredTotal - globalCapacity) active
  else active

/-- `Tick`. -/
def ConnectionController.tick (sort : Sorter) (inputs : List (ConnectionControlInput R))
    (controller : ConnectionController R)
    : List ConnectionControlDecision × ConnectionController R :=
  let (active, states) := planInputs controller.states inputs
  let trimmed := trimToCapacity sort controller.globalCapacity active
  -- the states of jobs that are not among the inputs are dropped
  (trimmed.map MutableDecision.decision,
    { controller with
      states := fun jobId =>
        if (inputs.map ConnectionControlInput.jobId).contains jobId then states jobId
        else none })

/-- `Remove`. -/
def ConnectionController.remove (jobId : Nat) (controller : ConnectionController R)
    : ConnectionController R :=
  { controller with states := Function.update controller.states jobId none }

-----------------------------------------------------------------------------------------
-- Before trimming
-----------------------------------------------------------------------------------------

variable {input : ConnectionControlInput R} {state : JobState R}
  {states : Nat → Option (JobState R)} {inputs : List (ConnectionControlInput R)}

theorem ConnectionControlInput.target_mem {N : Type} (input : ConnectionControlInput N)
    : input.lowest ≤ input.target ∧ input.target ≤ input.highest := by
  have ordered : input.lowest ≤ input.highest := le_max_left _ _
  exact ⟨le_max_left _ _, max_le ordered (min_le_right _ _)⟩

/-- A step stays in the bounds and goes up by one at most, by cases on the branch. -/
theorem JobState.adjust_mem {lowest highest desired : Int} (above : lowest ≤ desired)
    (below : desired ≤ highest)
    : lowest ≤ (state.adjust lowest highest desired).1
      ∧ (state.adjust lowest highest desired).1 ≤ highest
      ∧ (state.adjust lowest highest desired).1 ≤ desired + 1 := by
  unfold adjust
  split
  · rename_i contended
    exact ⟨by omega, by omega, by omega⟩
  · split
    · rename_i calm
      split
      · split
        · rename_i useless
          exact ⟨by omega, by omega, by omega⟩
        · exact ⟨above, below, by omega⟩
      · exact ⟨by omega, by omega, Int.le_refl _⟩
    · split <;> exact ⟨above, below, by omega⟩

/-- What a decision is to the input it is made for. -/
structure DecidedFor (input : ConnectionControlInput R) (decision : ConnectionControlDecision)
    : Prop where
  jobId : decision.jobId = input.jobId
  lower : input.lowest ≤ decision.desiredConnections
  upper : decision.desiredConnections ≤ input.highest
  step : decision.desiredConnections ≤ input.target + 1

/-- A decision before trimming, with its floor. -/
structure PlannedFor {N : Type} (input : ConnectionControlInput N) (item : MutableDecision N)
    : Prop where
  decided : DecidedFor input item.decision
  floor : item.minConnections = input.lowest

theorem JobState.plan_planned (input : ConnectionControlInput R) (state : JobState R)
    : PlannedFor input (state.plan input).1 := by
  obtain ⟨above, below⟩ := input.target_mem
  obtain ⟨lower, upper, step⟩ :=
    @adjust_mem _ _ (state.observe input).coolDown _ _ _ above below
  exact ⟨⟨rfl, lower, upper, step⟩, rfl⟩

/-- The active inputs get a decision each, in their order, by induction on the inputs. -/
theorem planInputs_planned (states : Nat → Option (JobState R))
    (inputs : List (ConnectionControlInput R))
    : List.Forall₂ PlannedFor (inputs.filter ConnectionControlInput.active)
        (planInputs states inputs).1 := by
  induction inputs generalizing states with
  | nil => exact .nil
  | cons input rest ih =>
      rw [planInputs]
      cases active : input.active with
      | true =>
          rw [List.filter_cons_of_pos active]
          exact .cons (JobState.plan_planned input _) (ih _)
      | false =>
          rw [List.filter_cons_of_neg (by simp [active])]
          exact ih _

-----------------------------------------------------------------------------------------
-- Behind trimming
-----------------------------------------------------------------------------------------

variable {sort : Sorter} {globalCapacity : Int} {active : List (MutableDecision R)}

/-- Trimming only lowers decisions. -/
theorem trimToCapacity_lowered (sort : Sorter) (globalCapacity : Int)
    (active : List (MutableDecision R))
    : List.Forall₂ (Lowered MutableDecision.scale) active
        (trimToCapacity sort globalCapacity active) := by
  rw [trimToCapacity]
  by_cases excessive : globalCapacity < total MutableDecision.scale.level active
  · rw [if_pos excessive]
    exact trim_lowered _ _ _
  · rw [if_neg excessive]
    exact forall₂_lowered_refl active

/-- Within the capacity nothing is trimmed, and above it everything down to the capacity or
to the floors.
-/
theorem trimToCapacity_total (sort : Sorter) (globalCapacity : Int)
    (floors
      : ∀ item ∈ active, item.minConnections ≤ item.decision.desiredConnections)
    : total MutableDecision.scale.level (trimToCapacity sort globalCapacity active)
        = if total MutableDecision.scale.level active ≤ globalCapacity then
            total MutableDecision.scale.level active
          else max globalCapacity (total MutableDecision.scale.floor active) := by
  rw [trimToCapacity]
  by_cases excessive : globalCapacity < total MutableDecision.scale.level active
  · have covers : ∀ index,
        index < active.length
        → index ∈ sort.run (trimsBefore active) (List.range active.length) :=
      fun index inside => (sort.perm _ _).mem_iff.mpr (List.mem_range.mpr inside)
    rw [if_pos excessive, if_neg (Int.not_le.mpr excessive), trim_total covers floors (by omega),
      Int.sub_sub_self]
  · rw [if_neg excessive, if_pos (Int.not_lt.mp excessive)]

/-- A lowered decision is still one for its input. -/
theorem DecidedFor.lowered {N : Type} {input : ConnectionControlInput N}
    {item next : MutableDecision N}
    (decided : DecidedFor input item.decision) (floor : item.minConnections = input.lowest)
    (lowered : Lowered MutableDecision.scale item next)
    : DecidedFor input next.decision := by
  obtain ⟨sameFloor, less, above⟩ := lowered.level
  have jobId := lowered.field (fun item => item.decision.jobId) fun _ => rfl
  obtain ⟨id, lower, upper, step⟩ := decided
  simp only [MutableDecision.scale] at sameFloor less above
  exact ⟨jobId.trans id, by omega, by omega, by omega⟩

/-- Trimmed decisions are still those for the inputs, by induction on both lists. -/
theorem decided_of_planned {N : Type} {inputs : List (ConnectionControlInput N)}
    {active trimmed : List (MutableDecision N)}
    (planned : List.Forall₂ PlannedFor inputs active)
    (lowered : List.Forall₂ (Lowered MutableDecision.scale) active trimmed)
    : List.Forall₂ DecidedFor inputs (trimmed.map MutableDecision.decision) := by
  induction planned generalizing trimmed with
  | nil =>
      cases lowered
      exact .nil
  | cons head _ ih =>
      cases lowered with
      | cons first rest => exact .cons (head.decided.lowered head.floor first) (ih rest)

/-- The floors of the decisions are the minima of the active inputs, by induction on both
lists.
-/
theorem total_floor_of_planned {N : Type} {inputs : List (ConnectionControlInput N)}
    {active : List (MutableDecision N)}
    (planned : List.Forall₂ PlannedFor inputs active)
    : total MutableDecision.scale.floor active
        = (inputs.map ConnectionControlInput.lowest).sum := by
  induction planned with
  | nil => rfl
  | cons head _ ih =>
      simp only [total, List.map_cons, List.sum_cons] at ih ⊢
      rw [ih]
      exact congrArg (· + _) head.floor

/-- No decision starts below the minimum of its job, by induction on both lists. -/
theorem floors_of_planned {N : Type} {inputs : List (ConnectionControlInput N)}
    {active : List (MutableDecision N)}
    (planned : List.Forall₂ PlannedFor inputs active)
    : ∀ item ∈ active, item.minConnections ≤ item.decision.desiredConnections := by
  induction planned with
  | nil => simp
  | cons head _ ih =>
      rw [List.forall_mem_cons]
      exact ⟨head.floor.trans_le head.decided.lower, ih⟩

theorem jobIds_of_decided {N : Type} {inputs : List (ConnectionControlInput N)}
    {decisions : List ConnectionControlDecision}
    (decided : List.Forall₂ DecidedFor inputs decisions)
    : decisions.map ConnectionControlDecision.jobId
        = inputs.map ConnectionControlInput.jobId := by
  induction decided with
  | nil => rfl
  | cons head _ ih => rw [List.map_cons, List.map_cons, head.jobId, ih]

/-- For every controller and all inputs, `Tick` decides once for each active input, in their
order and within the bounds of each, and the decisions add up to the targets where these fit
the capacity, and otherwise to the capacity or to the minima when these exceed it.
-/
theorem tick_decides (sort : Sorter) (controller : ConnectionController R)
    (inputs : List (ConnectionControlInput R))
    : (controller.tick sort inputs).1.map ConnectionControlDecision.jobId
          = (inputs.filter ConnectionControlInput.active).map ConnectionControlInput.jobId
      ∧ List.Forall₂ DecidedFor (inputs.filter ConnectionControlInput.active)
          (controller.tick sort inputs).1
      ∧ ((controller.tick sort inputs).1.map
            ConnectionControlDecision.desiredConnections).sum
          = if total MutableDecision.scale.level (planInputs controller.states inputs).1
                ≤ controller.globalCapacity then
              total MutableDecision.scale.level (planInputs controller.states inputs).1
            else
              max controller.globalCapacity
                ((inputs.filter ConnectionControlInput.active).map
                  ConnectionControlInput.lowest).sum := by
  have planned := planInputs_planned controller.states inputs
  have lowered := trimToCapacity_lowered sort controller.globalCapacity
    (planInputs controller.states inputs).1
  have decided := decided_of_planned planned lowered
  have sum := trimToCapacity_total sort controller.globalCapacity (floors_of_planned planned)
  rw [total_floor_of_planned planned] at sum
  refine ⟨jobIds_of_decided decided, decided, ?_⟩
  rw [← sum, total]
  exact congrArg List.sum (List.map_map ..)

end Muld
