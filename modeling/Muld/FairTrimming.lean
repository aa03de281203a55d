import Muld.ConnectionController

/-! Which jobs the controller takes connections from when their targets exceed the capacity.
Each is lowered by as many as there were whole passes over the trimming order, and those at
the front of the order by one more.
-/

namespace Muld

open Threads Trimming

-----------------------------------------------------------------------------------------
-- The trimming order
-----------------------------------------------------------------------------------------

/-- The one value of `double` that is no number is unequal to itself. -/
def IsNumber {R : Type} [Double R] (value : R) : Prop := (value == value) = true

/-- The comparisons of `double`: they put numbers in an order, and `==` holds of two numbers
of which neither is less.
-/
class OrderedDouble (R : Type) [Double R] : Prop where
  irrefl : ∀ value : R, ¬ value < value
  trans : ∀ {first second third : R}, first < second → second < third → first < third
  between
    : ∀ {low middle high : R}, IsNumber middle → low < high → low < middle ∨ middle < high
  beq_iff
    : ∀ {left right : R},
        IsNumber left
        → IsNumber right
        → ((left == right) = true ↔ ¬ left < right ∧ ¬ right < left)

instance orderedDoubleRat : OrderedDouble Rat where
  irrefl value := lt_irrefl value
  trans := lt_trans
  between := fun {low middle high} _ less => lt_or_ge low middle |>.imp_right (lt_of_le_of_lt · less)
  beq_iff := fun {left right} _ _ => by
    rw [beq_iff_eq, not_lt, not_lt, le_antisymm_iff, and_comm]

variable {R : Type} [Double R] {active : List (MutableDecision R)}

/-- The job waits more, or as much and has more connections. -/
def WaitsMore (first second : MutableDecision R) : Prop :=
  second.emaWaitRatio < first.emaWaitRatio
  ∨ ¬ first.emaWaitRatio < second.emaWaitRatio
    ∧ second.decision.desiredConnections < first.decision.desiredConnections

section Order

variable [OrderedDouble R]

theorem trimsBefore_iff {left right : Nat} {first second : MutableDecision R}
    (at_left : active[left]? = some first) (at_right : active[right]? = some second)
    (first_number : IsNumber first.emaWaitRatio) (second_number : IsNumber second.emaWaitRatio)
    : trimsBefore active left right = true ↔ WaitsMore first second := by
  have tied := OrderedDouble.beq_iff first_number second_number
  simp only [trimsBefore, at_left, at_right, WaitsMore]
  by_cases same : (first.emaWaitRatio == second.emaWaitRatio) = true
  · obtain ⟨not_less, not_more⟩ := tied.mp same
    simp [same, not_less, not_more]
  · rw [if_neg same, decide_eq_true_iff]
    refine ⟨Or.inl, ?_⟩
    rintro (more | ⟨not_less, _⟩)
    · exact more
    · by_contra not_more
      exact same (tied.mpr ⟨not_less, not_more⟩)

/-- By cases on whether the ratios tie. -/
theorem WaitsMore.asymm {first second : MutableDecision R} (more : WaitsMore first second)
    : ¬ WaitsMore second first := by
  rintro (less | ⟨not_more, fewer⟩)
  · rcases more with more | ⟨not_less, _⟩
    · exact OrderedDouble.irrefl _ (OrderedDouble.trans more less)
    · exact not_less less
  · rcases more with more | ⟨_, many⟩
    · exact not_more more
    · omega

/-- A job between two that are in order is in order with one of them. -/
theorem WaitsMore.between {first second third : MutableDecision R}
    (first_number : IsNumber first.emaWaitRatio) (second_number : IsNumber second.emaWaitRatio)
    (third_number : IsNumber third.emaWaitRatio) (more : WaitsMore third first)
    : WaitsMore third second ∨ WaitsMore second first := by
  rcases more with more | ⟨not_less, many⟩
  · rcases OrderedDouble.between second_number more with low | high
    · exact Or.inr (Or.inl low)
    · exact Or.inl (Or.inl high)
  · by_cases more : second.emaWaitRatio < third.emaWaitRatio
    · exact Or.inl (Or.inl more)
    by_cases low : first.emaWaitRatio < second.emaWaitRatio
    · exact Or.inr (Or.inl low)
    -- all three wait alike
    have not_below : ¬ third.emaWaitRatio < second.emaWaitRatio := fun less =>
      (OrderedDouble.between first_number less).elim not_less low
    have not_above : ¬ second.emaWaitRatio < first.emaWaitRatio := fun less =>
      (OrderedDouble.between third_number less).elim more not_less
    by_cases fewer : second.decision.desiredConnections < third.decision.desiredConnections
    · exact Or.inl (Or.inr ⟨not_below, fewer⟩)
    · exact Or.inr (Or.inr ⟨not_above, by omega⟩)

/-- The comparison that `std::sort` is given is an order if every ratio is a number. -/
theorem trimsBefore_order (numbers : ∀ item ∈ active, IsNumber item.emaWaitRatio)
    : StrictWeakOrder (trimsBefore active) (List.range active.length) := by
  have found {index : Nat} (member : index ∈ List.range active.length)
      : ∃ item, active[index]? = some item ∧ IsNumber item.emaWaitRatio := by
    have inside := List.mem_range.mp member
    exact ⟨_, List.getElem?_eq_getElem inside, numbers _ (List.getElem_mem inside)⟩
  constructor
  case asymm =>
    intro left at_left right at_right placed
    obtain ⟨first, first_at, first_number⟩ := found at_left
    obtain ⟨second, second_at, second_number⟩ := found at_right
    rw [trimsBefore_iff first_at second_at first_number second_number] at placed
    rw [Bool.eq_false_iff, ne_eq, trimsBefore_iff second_at first_at second_number first_number]
    exact placed.asymm
  case trans =>
    intro left at_left middle at_middle right at_right not_first not_second
    obtain ⟨first, first_at, first_number⟩ := found at_left
    obtain ⟨second, second_at, second_number⟩ := found at_middle
    obtain ⟨third, third_at, third_number⟩ := found at_right
    rw [Bool.eq_false_iff, ne_eq, trimsBefore_iff second_at first_at second_number first_number]
      at not_first
    rw [Bool.eq_false_iff, ne_eq, trimsBefore_iff third_at second_at third_number second_number]
      at not_second
    rw [Bool.eq_false_iff, ne_eq, trimsBefore_iff third_at first_at third_number first_number]
    intro placed
    exact (placed.between first_number second_number third_number).elim not_second not_first

end Order

-----------------------------------------------------------------------------------------
-- What is taken from each job
-----------------------------------------------------------------------------------------

/-- Whole passes over the order, and one that ends in the middle of it. -/
theorem trimToCapacity_cut (sort : Sorter) (globalCapacity : Int)
    (floors
      : ∀ item ∈ active, item.minConnections ≤ item.decision.desiredConnections)
    : ∃ (rounds : Int) (chosen rest : List Nat),
        sort.run (trimsBefore active) (List.range active.length) = chosen ++ rest
        ∧ CutBy MutableDecision.scale (fun index => rounds + once chosen index) active
            (trimToCapacity sort globalCapacity active) := by
  have order := sort.perm (trimsBefore active) (List.range active.length)
  rw [trimToCapacity]
  by_cases excessive : globalCapacity < total MutableDecision.scale.level active
  · rw [if_pos excessive]
    have covers (index : Nat) (inside : index < active.length)
        : index ∈ sort.run (trimsBefore active) (List.range active.length) :=
      order.mem_iff.mpr (List.mem_range.mpr inside)
    obtain ⟨rounds, chosen, rest, _, split, cut⟩ :=
      @trim_cut _ MutableDecision.scale _ (total MutableDecision.scale.level active - globalCapacity)
        _ (order.nodup_iff.mpr List.nodup_range) covers floors
    exact ⟨rounds, chosen, rest, split, cut⟩
  · rw [if_neg excessive]
    exact ⟨0, [], _, rfl, (CutBy.of_floors floors).congr fun _ _ => rfl⟩

/-- A job with the floor and the ratio that trimming finds, and its decision. -/
abbrev TrimmedJob (R : Type) : Type := MutableDecision R × ConnectionControlDecision

/-- How many connections trimming takes from a job. -/
def TrimmedJob.taken (job : TrimmedJob R) : Int :=
  job.1.decision.desiredConnections - job.2.desiredConnections

/-- The jobs of the active inputs with their decisions. -/
def ConnectionController.trimmedJobs (sort : Sorter) (inputs : List (ConnectionControlInput R))
    (controller : ConnectionController R)
    : List (TrimmedJob R) :=
  (planInputs controller.states inputs).1.zip (controller.tick sort inputs).1

/-- What a job above its floor has lost is what every other one has lost, up to one. -/
def Fair (jobs : List (TrimmedJob R)) : Prop :=
  ∀ job ∈ jobs,
    ∀ other ∈ jobs,
      other.1.minConnections < other.2.desiredConnections → job.taken ≤ other.taken + 1

/-- A job that waits more loses no less than another one, or all that it can. -/
def Prioritised (jobs : List (TrimmedJob R)) : Prop :=
  ∀ job ∈ jobs,
    ∀ other ∈ jobs,
      other.1.emaWaitRatio < job.1.emaWaitRatio
      → other.taken ≤ job.taken ∨ job.2.desiredConnections = job.1.minConnections

/-- The decision of a job whose place in the list of decisions is `index`. -/
structure CutAt (active : List (MutableDecision R)) (amount : Nat → Int) (job : TrimmedJob R)
    (index : Nat) : Prop where
  at_index : active[index]? = some job.1
  floor : job.1.minConnections ≤ job.1.decision.desiredConnections
  level
    : job.2.desiredConnections
      = max job.1.minConnections (job.1.decision.desiredConnections - amount index)

theorem ConnectionController.trimmedJobs_cut {sort : Sorter}
    {inputs : List (ConnectionControlInput R)} {controller : ConnectionController R}
    {amount : Nat → Int}
    (cut
      : CutBy MutableDecision.scale amount (planInputs controller.states inputs).1
          (trimToCapacity sort controller.globalCapacity (planInputs controller.states inputs).1))
    {job : TrimmedJob R} (member : job ∈ controller.trimmedJobs sort inputs)
    : ∃ index, CutAt (planInputs controller.states inputs).1 amount job index := by
  obtain ⟨index, at_index⟩ := List.mem_iff_getElem?.mp member
  obtain ⟨before, behind⟩ := List.getElem?_zip_eq_some.mp at_index
  rw [ConnectionController.tick, List.getElem?_map, Option.map_eq_some_iff] at behind
  obtain ⟨next, trimmed, decided⟩ := behind
  have floors := floors_of_planned (planInputs_planned controller.states inputs)
  refine ⟨index, before, floors _ (List.mem_of_getElem? before), ?_⟩
  rw [← decided]
  exact cut.level before trimmed

/-- Trimming is fair, and takes from the jobs that wait more where `std::sort` has an order to
go by.
-/
theorem trimming_fair_and_prioritised [OrderedDouble R] (sort : Sorter)
    (controller : ConnectionController R) (inputs : List (ConnectionControlInput R))
    : (controller.trimmedJobs sort inputs).map Prod.fst
          = (planInputs controller.states inputs).1
      ∧ (controller.trimmedJobs sort inputs).map Prod.snd = (controller.tick sort inputs).1
      ∧ Fair (controller.trimmedJobs sort inputs)
      ∧ ((∀ item ∈ (planInputs controller.states inputs).1, IsNumber item.emaWaitRatio)
        → Prioritised (controller.trimmedJobs sort inputs)) := by
  have planned := planInputs_planned controller.states inputs
  have length
      : (controller.tick sort inputs).1.length
        = (planInputs controller.states inputs).1.length := by
    have lowered := trimToCapacity_lowered sort controller.globalCapacity
      (planInputs controller.states inputs).1
    rw [lowered.length_eq]
    exact List.length_map _
  obtain ⟨rounds, chosen, rest, split, cut⟩ :=
    trimToCapacity_cut sort controller.globalCapacity (floors_of_planned planned)
  refine ⟨List.map_fst_zip (by omega), List.map_snd_zip (by omega), ?_, ?_⟩
  · intro job member other other_member above
    obtain ⟨index, at_job⟩ := ConnectionController.trimmedJobs_cut cut member
    obtain ⟨place, at_other⟩ := ConnectionController.trimmedJobs_cut cut other_member
    have more := once_le chosen index
    have some_ := once_nonneg chosen place
    have := at_job.level
    have := at_job.floor
    have := at_other.level
    simp only [TrimmedJob.taken]
    omega
  · intro numbers job member other other_member waits
    obtain ⟨index, at_job⟩ := ConnectionController.trimmedJobs_cut cut member
    obtain ⟨place, at_other⟩ := ConnectionController.trimmedJobs_cut cut other_member
    have order : once chosen place ≤ once chosen index := by
      by_contra apart
      obtain ⟨chosen_place, spared⟩ := of_once_lt (Int.not_le.mp apart)
      have sorted := sort.sorted _ _ (trimsBefore_order numbers)
      have inside := (List.getElem?_eq_some_iff.mp at_job.at_index).1
      have ordered := (sort.perm (trimsBefore (planInputs controller.states inputs).1)
        (List.range _)).mem_iff.mpr (List.mem_range.mpr inside)
      rw [split] at sorted ordered
      have behind := (List.mem_append.mp ordered).resolve_left spared
      have late := (List.pairwise_append.mp sorted).2.2 place chosen_place index behind
      have early := (trimsBefore_iff at_job.at_index at_other.at_index
        (numbers _ (List.mem_of_getElem? at_job.at_index))
        (numbers _ (List.mem_of_getElem? at_other.at_index))).mpr (Or.inl waits)
      rw [late] at early
      contradiction
    have := at_job.level
    have := at_other.level
    have := at_other.floor
    simp only [TrimmedJob.taken]
    omega

/-- Two jobs with three connections each at a capacity of four; the first one waits more. -/
theorem trimming_fair_and_prioritised_two
    : Prioritised
        (ConnectionController.trimmedJobs .stable
          ([⟨11, true, 3, 1, 4, 900000, 0.9⟩, ⟨22, true, 3, 1, 4, 900000, 0.1⟩]
            : List (ConnectionControlInput Rat))
          (.create 4)) :=
  (trimming_fair_and_prioritised .stable (.create 4) _).2.2.2 fun _ _ => beq_self_eq_true _

end Muld
