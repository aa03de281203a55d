import Muld.ControlLoop
import Muld.Tasks

/-! The targets of the jobs while the control loop runs: between two passes they are what the
last tick decided, and divide the capacity of the manager.
-/

namespace Muld

open Threads

-----------------------------------------------------------------------------------------
-- Steps and targets
-----------------------------------------------------------------------------------------

/-- The bounds and the target of connections are the same. -/
structure DownloadEngine.SameTargets (before after : DownloadEngine) : Prop where
  minConnections : after.minConnections = before.minConnections
  maxConnections : after.maxConnections = before.maxConnections
  desiredConnections : after.desiredConnections = before.desiredConnections

theorem DownloadEngine.SameTargets.planned {before after : DownloadEngine}
    (same : before.SameTargets after) (planned : before.Planned)
    : after.Planned where
  minConnections := same.minConnections.trans planned.minConnections
  lower := planned.lower.trans_eq same.desiredConnections.symm
  upper := by
    rw [same.desiredConnections, same.maxConnections]
    exact planned.upper

/-- The call is about to set the bounds or the target. -/
def Call.steers : Call → Bool
  | .bounds _ _ => true
  | .desire _ => true
  | _ => false

theorem Api.entry_steers (api : Api) : api.entry.steers = api.steers := by
  cases api <;> rfl

theorem Worker.Step.sameTargets {shared shared' : Shared} {worker next : Worker}
    {label : WorkerLabel} (taken : Worker.Step shared worker label shared' next)
    : shared.engine.SameTargets shared'.engine := by
  cases taken <;> constructor <;> first | rfl | simp

/-- A call that sets no target leaves the targets alone and does not come to set one. -/
theorem Call.Step.sameTargets {index : Nat} {shared shared' : Shared} {call next : Call}
    {label : CallLabel} {spawned : List Worker}
    (taken : Call.Step index shared call label shared' next spawned)
    (steersNot : call.steers = false)
    : shared.engine.SameTargets shared'.engine ∧ next.steers = false := by
  cases taken
  case bounds => cases steersNot
  case desireDown => cases steersNot
  case desireUp => cases steersNot
  case forward attached at_pc =>
    refine ⟨⟨rfl, rfl, rfl⟩, ?_⟩
    rcases at_pc with ⟨_, _, rfl⟩ | ⟨_, _, rfl⟩ | ⟨_, _, rfl⟩ <;> rfl
  case handlerSpeedLimit entered =>
    refine ⟨⟨rfl, rfl, rfl⟩, ?_⟩
    rcases entered with rfl | rfl <;> rfl
  case attachDispatch entered =>
    refine ⟨⟨rfl, rfl, rfl⟩, ?_⟩
    rcases entered with ⟨_, rfl⟩ | ⟨_, rfl⟩ | ⟨_, rfl⟩ | ⟨_, rfl⟩ <;> rfl
  all_goals
    constructor
    · constructor <;> first | rfl | simp
    · rfl

/-- `SetDesiredConnections` puts the target in place, clamped to the bounds. -/
theorem Call.Step.desires {index : Nat} {shared shared' : Shared} {next : Call}
    {label : CallLabel} {spawned : List Worker} {desired : Int}
    (taken : Call.Step index shared (.desire desired) label shared' next spawned)
    : shared'.engine.minConnections = shared.engine.minConnections
      ∧ shared'.engine.maxConnections = shared.engine.maxConnections
      ∧ shared'.engine.desiredConnections = shared.engine.clampDesired desired
      ∧ next.steers = false := by
  cases taken
  case desireDown => exact ⟨rfl, rfl, rfl, rfl⟩
  case desireUp => exact ⟨rfl, rfl, rfl, rfl⟩
  case refused at_pc => simp at at_pc
  case terminateFinished at_pc => simp at at_pc
  case wish at_pc => simp at at_pc
  case forward at_pc => simp at at_pc

-----------------------------------------------------------------------------------------
-- One job
-----------------------------------------------------------------------------------------

/-- The target of a job is in place, or one call is about to set it, and no other call sets
one.
-/
structure Sys.Targets (target : Int) (setting : Option Nat) (sys : Sys) : Prop where
  planned : sys.shared.engine.Planned
  lower : 1 ≤ target
  upper : target ≤ sys.shared.engine.maxConnections
  own
    : ∀ index call,
        sys.calls[index]? = some call
        → call.steers = true
        → setting = some index ∧ call = .desire target
  placed
    : sys.shared.engine.desiredConnections = target
      ∨ ∃ index, setting = some index ∧ sys.calls[index]? = some (.desire target)

namespace Sys.Targets

variable {sys after : Sys} {target : Int} {setting : Option Nat}

/-- The target of a job in which no call sets one is in place. -/
theorem quiet (targets : sys.Targets target none)
    : sys.shared.engine.desiredConnections = target := by
  rcases targets.placed with same | ⟨index, setting, _⟩
  · exact same
  · cases setting

theorem worker (targets : sys.Targets target setting) {index : Nat} {worker next : Worker}
    {label : WorkerLabel} {shared : Shared}
    (taken : Worker.Step sys.shared worker label shared next)
    : Sys.Targets target setting
        { sys with shared, workers := sys.workers.set index next } := by
  have same := taken.sameTargets
  constructor
  · exact same.planned targets.planned
  · exact targets.lower
  · exact targets.upper.trans_eq same.maxConnections.symm
  · exact targets.own
  · simpa only [same.desiredConnections] using targets.placed

/-- The call that sets the target puts it in place; every other call leaves it alone. -/
theorem call (targets : sys.Targets target setting) {index : Nat} {call next : Call}
    {label : CallLabel} {shared : Shared} {spawned : List Worker}
    (found : sys.calls[index]? = some call)
    (taken : Call.Step index sys.shared call label shared next spawned)
    : Sys.Targets target setting
          { sys with
            shared, workers := sys.workers ++ spawned, calls := sys.calls.set index next }
      ∧ shared.engine.maxConnections = sys.shared.engine.maxConnections := by
  have own (steersNot : next.steers = false) :
      ∀ other call,
        (sys.calls.set index next)[other]? = some call
        → call.steers = true
        → setting = some other ∧ call = .desire target := by
    intro other call among steers
    rcases getElem?_set_cases among with ⟨_, rfl⟩ | ⟨_, before⟩
    · exact absurd steers (by simp [steersNot])
    · exact targets.own other call before steers
  cases steers : call.steers with
  | true =>
      obtain ⟨rfl, rfl⟩ := targets.own index call found steers
      obtain ⟨sameMin, sameMax, desired, steersNot⟩ := taken.desires
      have inside : sys.shared.engine.clampDesired target = target := by
        have lowest := targets.planned.minConnections
        have bounds := And.intro targets.lower targets.upper
        simp only [DownloadEngine.clampDesired]
        omega
      rw [inside] at desired
      refine ⟨?_, sameMax⟩
      constructor
      · exact ⟨sameMin.trans targets.planned.minConnections,
          targets.lower.trans_eq desired.symm,
          desired.trans_le (targets.upper.trans_eq sameMax.symm)⟩
      · exact targets.lower
      · exact targets.upper.trans_eq sameMax.symm
      · exact own steersNot
      · exact Or.inl desired
  | false =>
      obtain ⟨same, steersNot⟩ := taken.sameTargets steers
      refine ⟨?_, same.maxConnections⟩
      constructor
      · exact same.planned targets.planned
      · exact targets.lower
      · exact targets.upper.trans_eq same.maxConnections.symm
      · exact own steersNot
      · rcases targets.placed with placed | ⟨other, sets, pending⟩
        · exact Or.inl (same.desiredConnections.trans placed)
        · -- the call that sets the target is another one
          refine Or.inr ⟨other, sets, ?_⟩
          rw [List.getElem?_set_ne]
          · exact pending
          · rintro rfl
            obtain rfl := Option.some.inj (found.symm.trans pending)
            cases steers

/-- A method that sets no target is entered. -/
theorem invoke (targets : sys.Targets target setting) {api : Api} {dispatched : Bool}
    (steersNot : api.steers = false)
    : Sys.Targets target setting
        { sys with calls := sys.calls ++ [api.entry], dispatched } := by
  constructor
  · exact targets.planned
  · exact targets.lower
  · exact targets.upper
  · intro other call among steers
    rcases getElem?_snoc_cases among with before | ⟨_, rfl⟩
    · exact targets.own other call before steers
    · rw [api.entry_steers, steersNot] at steers
      cases steers
  · refine targets.placed.imp_right ?_
    rintro ⟨index, sets, pending⟩
    have inside := (List.getElem?_eq_some_iff.mp pending).1
    exact ⟨index, sets, (List.getElem?_append_left inside).trans pending⟩

/-- The control thread enters `SetDesiredConnections` of a job in which no call sets one. -/
theorem enter (targets : sys.Targets target none) {desired : Int} {dispatched : Bool}
    (lower : 1 ≤ desired) (upper : desired ≤ sys.shared.engine.maxConnections)
    : Sys.Targets desired (some sys.calls.length)
        { sys with calls := sys.calls ++ [.desire desired], dispatched } := by
  constructor
  · exact targets.planned
  · exact lower
  · exact upper
  · intro other call among steers
    rcases getElem?_snoc_cases among with before | ⟨rfl, rfl⟩
    · cases (targets.own other call before steers).1
    · exact ⟨rfl, rfl⟩
  · exact Or.inr ⟨sys.calls.length, rfl, by simp⟩

/-- The call that set the target has returned. -/
theorem returned (targets : sys.Targets target setting) {index : Nat} {result : Bool}
    (sets : ∀ other, setting = some other → other = index)
    (found : sys.calls[index]? = some (.returned result))
    : sys.Targets target none := by
  constructor
  · exact targets.planned
  · exact targets.lower
  · exact targets.upper
  · intro other call among steers
    obtain ⟨own, rfl⟩ := targets.own other call among steers
    obtain rfl := sets other own
    cases found.symm.trans among
  · rcases targets.placed with same | ⟨other, own, pending⟩
    · exact Or.inl same
    · obtain rfl := sets other own
      cases found.symm.trans pending

end Sys.Targets

/-- No step of another thread touches the target, by cases on the step. -/
theorem Threaded.Step.targets {threaded after : Threaded} {action : ThreadAction}
    {target : Int} {setting : Option Nat} (taken : threaded.Step action after)
    (steersNot : action.steers = false) (targets : threaded.sys.Targets target setting)
    : after.sys.Targets target setting
      ∧ after.sys.shared.engine.maxConnections
          = threaded.sys.shared.engine.maxConnections := by
  cases taken with
  | move action frame sys moves outside moved =>
      cases Sys.step_cases moved with
      | worker index worker next label shared found taken =>
          exact ⟨targets.worker taken, taken.sameTargets.maxConnections⟩
      | call index call next label shared spawned found taken =>
          exact targets.call found taken
      | invoke => cases moves
  | invoke api sys moved =>
      cases Sys.step_cases moved with
      | invoke => exact ⟨targets.invoke steersNot, rfl⟩
  | nest frame api sys within idle moved =>
      cases Sys.step_cases moved with
      | invoke => exact ⟨targets.invoke steersNot, rfl⟩
  | leave => exact ⟨targets, rfl⟩

-----------------------------------------------------------------------------------------
-- The jobs of the manager
-----------------------------------------------------------------------------------------

/-- A job that was just built has the target that the dispatcher gave it. -/
theorem Job.JustBuilt.targets {handler : SharedState} {job : Job}
    (justBuilt : job.JustBuilt handler) (setting : Option Nat)
    : job.threads.sys.Targets job.engine.desiredConnections setting := by
  obtain ⟨shared, _, planned, threads⟩ := justBuilt
  rw [Job.engine, threads]
  constructor
  · exact planned
  · exact planned.lower
  · exact planned.upper
  · intro index call found steers
    obtain rfl := List.mem_singleton.mp (List.mem_of_getElem? found)
    cases steers
  · exact Or.inl rfl

namespace MuldDownloadManager

variable {manager after : MuldDownloadManager}

/-- Every job is still there, with the bounds it had. -/
def Keeps (before after : MuldDownloadManager) : Prop :=
  ∀ (position : Nat) (job : Job),
    before.jobs[position]? = some job
    → ∃ kept : Job,
        after.jobs[position]? = some kept
        ∧ kept.engine.maxConnections = job.engine.maxConnections

theorem keeps_from {new : List Job} (added : after.jobs = manager.jobs ++ new)
    : manager.Keeps after := by
  intro position job found
  have inside := (List.getElem?_eq_some_iff.mp found).1
  exact ⟨job, by rw [added, List.getElem?_append_left inside, found], rfl⟩

theorem keeps_setThreads {position : Nat} {job : Job} {threads : Threaded}
    (found : manager.jobs[position]? = some job)
    (same : threads.sys.shared.engine.maxConnections = job.engine.maxConnections)
    : manager.Keeps (manager.setThreads position threads) := by
  intro other held before
  rw [setThreads_jobs found]
  by_cases own : position = other
  · subst own
    obtain rfl := Option.some.inj (found.symm.trans before)
    have inside := (List.getElem?_eq_some_iff.mp found).1
    exact ⟨_, List.getElem?_set_self inside, same⟩
  · exact ⟨held, (List.getElem?_set_ne own).trans before, rfl⟩

/-- The targets of all jobs, and the calls that are about to set them. -/
def Targets (target : Nat → Int) (setting : Nat → Option Nat) (manager : MuldDownloadManager)
    : Prop :=
  ∀ (position : Nat) (job : Job),
    manager.jobs[position]? = some job
    → job.threads.sys.Targets (target position) (setting position)

variable {target : Nat → Int} {setting : Nat → Option Nat}

/-- The threads of one job move, and its target may become another one. -/
theorem Targets.setThreads (targets : manager.Targets target setting) {position : Nat}
    {job : Job} {threads : Threaded} (found : manager.jobs[position]? = some job)
    {target' : Nat → Int} {setting' : Nat → Option Nat}
    (others
      : ∀ other,
          other ≠ position
          → target' other = target other ∧ setting' other = setting other)
    (own : threads.sys.Targets (target' position) (setting' position))
    : (manager.setThreads position threads).Targets target' setting' := by
  intro other held after
  rcases getElem?_setThreads found after with ⟨rfl, rfl⟩ | ⟨apart, before⟩
  · exact own
  · obtain ⟨sameTarget, sameSetting⟩ := others other apart
    rw [sameTarget, sameSetting]
    exact targets other held before

/-- A step of another thread keeps the targets; a job that is new has one in place. -/
theorem Targets.step (targets : manager.Targets target setting) {action : ManagerAction}
    (taken : manager.step action = some after) (steersNot : action.steers = false)
    : manager.Keeps after
      ∧ ∃ target',
          after.Targets target' setting
          ∧ ∀ position < manager.jobs.length, target' position = target position := by
  cases action with
  | request conditions request =>
      rcases step_request_jobs taken with same | ⟨new, justBuilt, added⟩
      · refine ⟨@keeps_from _ _ [] (by simpa using same), target, ?_, fun _ _ => rfl⟩
        intro position job found
        exact targets position job (same ▸ found)
      · refine ⟨keeps_from added,
          Function.update target manager.jobs.length new.engine.desiredConnections, ?_, ?_⟩
        · intro position job found
          rw [added] at found
          rcases getElem?_snoc_cases found with before | ⟨rfl, rfl⟩
          · have inside := (List.getElem?_eq_some_iff.mp before).1
            rw [Function.update_of_ne (by omega)]
            exact targets position job before
          · rw [Function.update_self]
            exact justBuilt.targets _
        · intro position inside
          exact Function.update_of_ne (by omega) _ _
  | job position action =>
      cases step_cases taken with
      | job found moved =>
          obtain ⟨own, same⟩ := moved.targets steersNot (targets position _ found)
          exact ⟨keeps_setThreads found same, target,
            targets.setThreads found (fun _ _ => ⟨rfl, rfl⟩) own, fun _ _ => rfl⟩

/-- The control thread enters a method of a job. -/
theorem enter_cases {position call : Nat} {api : Api}
    (entered : manager.enter position api = some (after, call))
    : ∃ (job : Job) (threads : Threaded) (dispatched : Bool),
        manager.jobs[position]? = some job
        ∧ threads.sys = { job.threads.sys with
            calls := job.threads.sys.calls ++ [api.entry], dispatched }
        ∧ after = manager.setThreads position threads
        ∧ call = job.threads.sys.calls.length := by
  simp only [enter] at entered
  split at entered
  · cases entered
  · rename_i job found
    split at entered
    · cases entered
    · rename_i threads moved
      cases entered
      cases Threaded.step_cases moved with
      | move action frame sys moves => cases moves
      | invoke api sys taken =>
          cases Sys.step_cases taken with
          | invoke => exact ⟨job, _, _, found, rfl, rfl, rfl⟩

/-- The call of a method that is finished has returned. -/
theorem returned_cases {position call : Nat} {job : Job}
    (returned : manager.returned position call = true)
    (found : manager.jobs[position]? = some job)
    : ∃ result, job.threads.sys.calls[call]? = some (.returned result) := by
  simp only [MuldDownloadManager.returned, found, Option.any_some, Threaded.finished,
    Bool.and_eq_true] at returned
  obtain ⟨ended, same, either⟩ := (Option.any_eq_true _ _).mp returned.1
  rw [same]
  rcases Bool.or_eq_true_iff.mp either with yes | no
  · exact ⟨true, congrArg some (eq_of_beq yes)⟩
  · exact ⟨false, congrArg some (eq_of_beq no)⟩

end MuldDownloadManager

-----------------------------------------------------------------------------------------
-- The passes
-----------------------------------------------------------------------------------------

variable {R : Type} [Double R]

/-- The call of the control thread that sets the target of a job. -/
def ControlPc.settingOf {N : Type} : ControlPc N → Nat → Option Nat
  | .setting _ current call, position => if position = current then some call else none
  | _, _ => none

/-- The pass has come to the decision for a job, or is over. -/
def ControlPc.Past {N : Type} : ControlPc N → Nat → Prop
  | .applying _ next, position => position < next
  | .setting _ current _, position | .enqueuing _ current _, position => position ≤ current
  | _, _ => True

/-- What a pass has read of the jobs so far. -/
structure InputsRead {N : Type} (manager : MuldDownloadManager) (jobs position : Nat)
    (inputs : List (ConnectionControlInput N))
    : Prop where
  inside : position ≤ jobs
  distinct : (inputs.map ConnectionControlInput.jobId).Nodup
  active : ∀ input ∈ inputs, input.active = true
  read
    : ∀ input ∈ inputs,
        input.jobId < position
        ∧ input.minConnections = 1
        ∧ ∃ job,
            manager.jobs[input.jobId]? = some job
            ∧ input.maxConnections = job.engine.maxConnections
            ∧ 1 ≤ job.engine.maxConnections

/-- The decisions are for different jobs, in the bounds of each, and divide the capacity. -/
structure Decided (capacity : Int) (manager : MuldDownloadManager)
    (decisions : List ConnectionControlDecision) : Prop where
  distinct : (decisions.map ConnectionControlDecision.jobId).Nodup
  bounded
    : ∀ decision ∈ decisions,
        1 ≤ decision.desiredConnections
        ∧ ∃ job,
            manager.jobs[decision.jobId]? = some job
            ∧ decision.desiredConnections ≤ job.engine.maxConnections
  total
    : (decisions.map ConnectionControlDecision.desiredConnections).sum
        ≤ max capacity decisions.length

/-- What a pass knows at its program point. -/
def ControlPc.Sound {N : Type} (manager : MuldDownloadManager)
    (decisions : List ConnectionControlDecision)
    : ControlPc N → Prop
  | .reading jobs position inputs => InputsRead manager jobs position inputs
  | .applying jobs _ | .setting jobs _ _ | .enqueuing jobs _ _ =>
      ∀ decision ∈ decisions, decision.jobId < jobs
  | _ => True

/-- A decision is made for an input, by induction on both lists. -/
theorem exists_of_mem_decided {N : Type} {inputs : List (ConnectionControlInput N)}
    {decisions : List ConnectionControlDecision}
    (decided : List.Forall₂ DecidedFor inputs decisions) {decision : ConnectionControlDecision}
    (member : decision ∈ decisions)
    : ∃ input ∈ inputs, DecidedFor input decision := by
  induction decided with
  | nil => cases member
  | @cons input _ _ _ head _ ih =>
      rcases List.mem_cons.mp member with rfl | later
      · exact ⟨input, List.mem_cons_self, head⟩
      · obtain ⟨first, among, decided⟩ := ih later
        exact ⟨first, List.mem_cons_of_mem _ among, decided⟩

theorem Decided.mono {capacity : Int} {before after : MuldDownloadManager}
    {decisions : List ConnectionControlDecision} (decided : Decided capacity before decisions)
    (keeps : before.Keeps after)
    : Decided capacity after decisions := by
  refine ⟨decided.distinct, ?_, decided.total⟩
  intro decision member
  obtain ⟨lower, job, found, upper⟩ := decided.bounded decision member
  obtain ⟨kept, still, same⟩ := keeps _ job found
  exact ⟨lower, kept, still, upper.trans_eq same.symm⟩

theorem InputsRead.mono {N : Type} {before after : MuldDownloadManager} {jobs position : Nat}
    {inputs : List (ConnectionControlInput N)} (read : InputsRead before jobs position inputs)
    (keeps : before.Keeps after)
    : InputsRead after jobs position inputs := by
  refine ⟨read.inside, read.distinct, read.active, ?_⟩
  intro input member
  obtain ⟨below, lowest, job, found, highest, positive⟩ := read.read input member
  obtain ⟨kept, still, same⟩ := keeps _ job found
  exact ⟨below, lowest, kept, still, highest.trans same.symm, positive.trans_eq same.symm⟩

theorem ControlPc.Sound.mono {N : Type} {before after : MuldDownloadManager}
    {decisions : List ConnectionControlDecision} {pc : ControlPc N}
    (sound : pc.Sound before decisions) (keeps : before.Keeps after)
    : pc.Sound after decisions := by
  cases pc with
  | reading => exact InputsRead.mono sound keeps
  | _ => exact sound

/-- The input of the next job is read. -/
theorem InputsRead.snoc {N : Type} {manager : MuldDownloadManager} {jobs position : Nat}
    {inputs : List (ConnectionControlInput N)} (read : InputsRead manager jobs position inputs)
    {job : Job} (inside : position < jobs) (found : manager.jobs[position]? = some job)
    (planned : job.engine.Planned) (throughputBps tokenWaitRatio : N)
    : InputsRead manager jobs (position + 1)
        (inputs ++ [job.controlInput position throughputBps tokenWaitRatio]) := by
  refine ⟨inside, ?_, ?_, ?_⟩
  · rw [List.map_append, List.nodup_append]
    refine ⟨read.distinct, List.nodup_singleton _, ?_⟩
    intro id member other new same
    obtain ⟨input, among, rfl⟩ := List.mem_map.mp member
    obtain rfl := List.mem_singleton.mp new
    exact Nat.ne_of_lt (read.read input among).1 same
  · intro input member
    rcases mem_snoc_cases member with before | rfl
    · exact read.active input before
    · rfl
  · intro input member
    rcases mem_snoc_cases member with before | rfl
    · exact (read.read input before).imp_left Nat.lt_succ_of_lt
    · exact ⟨Nat.lt_succ_self _, planned.minConnections, job, found, rfl,
        planned.lower.trans planned.upper⟩

/-- The minima of the inputs are all one. -/
theorem InputsRead.sum_lowest {N : Type} {manager : MuldDownloadManager} {jobs position : Nat}
    {inputs : List (ConnectionControlInput N)} (read : InputsRead manager jobs position inputs)
    : (inputs.map ConnectionControlInput.lowest).sum = inputs.length := by
  have ones : inputs.map ConnectionControlInput.lowest = inputs.map fun _ => (1 : Int) := by
    apply List.map_congr_left
    intro input member
    rw [ConnectionControlInput.lowest, (read.read input member).2.1]
    rfl
  rw [ones]
  simp

/-- What a tick makes of the inputs of a pass. -/
theorem InputsRead.decided {manager : MuldDownloadManager} {jobs position : Nat}
    {inputs : List (ConnectionControlInput R)} (read : InputsRead manager jobs position inputs)
    (controller : ConnectionController R) (sort : Sorter)
    : Decided controller.globalCapacity manager (controller.tick sort inputs).1
      ∧ ∀ decision ∈ (controller.tick sort inputs).1, decision.jobId < jobs := by
  have planned := planInputs_planned controller.states inputs
  rw [List.filter_eq_self.mpr read.active] at planned
  have lowered := trimToCapacity_lowered sort controller.globalCapacity
    (planInputs controller.states inputs).1
  have decided : List.Forall₂ DecidedFor inputs (controller.tick sort inputs).1 :=
    decided_of_planned planned lowered
  have length : (controller.tick sort inputs).1.length = inputs.length :=
    decided.length_eq.symm
  refine ⟨⟨?_, ?_, ?_⟩, ?_⟩
  · rw [jobIds_of_decided decided]
    exact read.distinct
  · intro decision member
    obtain ⟨input, among, made⟩ := exists_of_mem_decided decided member
    obtain ⟨_, lowest, job, found, highest, positive⟩ := read.read input among
    have lower := made.lower
    have upper := made.upper
    simp only [ConnectionControlInput.highest, ConnectionControlInput.lowest, lowest, highest]
      at lower upper
    exact ⟨by omega, job, made.jobId ▸ found, by omega⟩
  · have total := trimToCapacity_total sort controller.globalCapacity
      (floors_of_planned planned)
    rw [total_floor_of_planned planned, read.sum_lowest, ← length] at total
    have same : ((controller.tick sort inputs).1.map
        ConnectionControlDecision.desiredConnections).sum
        = Threads.total MutableDecision.scale.level
            (trimToCapacity sort controller.globalCapacity
              (planInputs controller.states inputs).1) :=
      congrArg List.sum (List.map_map ..)
    rw [same, total]
    split
    · rename_i fits
      exact le_max_of_le_left fits
    · exact le_rfl
  · intro decision member
    obtain ⟨input, among, made⟩ := exists_of_mem_decided decided member
    rw [made.jobId]
    exact (read.read input among).1.trans_le read.inside

theorem desiredByJob_none {decisions : List ConnectionControlDecision} {jobId : Nat}
    (undecided : desiredByJob decisions jobId = none)
    : ∀ decision ∈ decisions, decision.jobId ≠ jobId := by
  intro decision member same
  have nothing := List.find?_eq_none.mp (Option.map_eq_none_iff.mp undecided) decision
    (List.mem_reverse.mpr member)
  exact nothing (beq_iff_eq.mpr same)

theorem desiredByJob_some {decisions : List ConnectionControlDecision} {jobId : Nat}
    {desired : Int} (decided : desiredByJob decisions jobId = some desired)
    : { jobId, desiredConnections := desired } ∈ decisions := by
  obtain ⟨decision, found, rfl⟩ := Option.map_eq_some_iff.mp decided
  have own : decision.jobId = jobId := by simpa using List.find?_some found
  subst own
  exact List.mem_reverse.mp (List.mem_of_find?_eq_some found)

/-- With different jobs a job has one decision. -/
theorem Decided.unique {capacity : Int} {manager : MuldDownloadManager}
    {decisions : List ConnectionControlDecision} (decided : Decided capacity manager decisions)
    {left right : ConnectionControlDecision} (first : left ∈ decisions)
    (second : right ∈ decisions) (same : left.jobId = right.jobId)
    : left = right :=
  List.inj_on_of_nodup_map decided.distinct first second same

namespace Controlled

/-- The targets of the jobs follow the decisions, as far as the pass has come. -/
structure Steered {N : Type} (capacity : Int) (controlled : Controlled N) : Prop where
  globalCapacity : controlled.controller.globalCapacity = capacity
  targets
    : ∃ target,
        controlled.manager.Targets target controlled.pc.settingOf
        ∧ ∀ decision ∈ controlled.decisions,
            controlled.pc.Past decision.jobId
            → target decision.jobId = decision.desiredConnections
  decided : Decided capacity controlled.manager controlled.decisions
  sound : controlled.pc.Sound controlled.manager controlled.decisions

variable {capacity : Int} {controlled after : Controlled R}

/-- The program point moves without a call. -/
theorem Steered.goto {N : Type} {controlled : Controlled N}
    (steered : controlled.Steered capacity) {pc : ControlPc N}
    {controller : ConnectionController N}
    (kept : controller.globalCapacity = controlled.controller.globalCapacity)
    (quiet : pc.settingOf = controlled.pc.settingOf)
    (past
      : ∀ decision ∈ controlled.decisions,
          pc.Past decision.jobId
          → controlled.pc.Past decision.jobId)
    (sound : pc.Sound controlled.manager controlled.decisions)
    : Steered capacity { controlled with controller, pc } := by
  obtain ⟨target, targets, placed⟩ := steered.targets
  refine ⟨kept.trans steered.globalCapacity, ⟨target, ?_, ?_⟩, steered.decided, sound⟩
  · rw [← quiet] at targets
    exact targets
  · intro decision member reached
    exact placed decision member (past decision member reached)

theorem Steered.step (steered : controlled.Steered capacity) {action : ControlAction R}
    (taken : controlled.Step action after)
    : after.Steered capacity := by
  have sound := steered.sound
  cases taken with
  | manager steersNot taken =>
      obtain ⟨target, targets, placed⟩ := steered.targets
      obtain ⟨keeps, target', targets', same⟩ := targets.step taken steersNot
      refine ⟨steered.globalCapacity, ⟨target', targets', ?_⟩, steered.decided.mono keeps,
        ?_⟩
      · intro decision member past
        obtain ⟨_, job, found, _⟩ := steered.decided.bounded decision member
        rw [same _ (List.getElem?_eq_some_iff.mp found).1]
        exact placed decision member past
      · exact sound.mono keeps
  | stop =>
      exact ⟨steered.globalCapacity, steered.targets, steered.decided, steered.sound⟩
  | stopped at_pc stopping =>
      exact steered.goto rfl (by rw [at_pc]; rfl) (by rw [at_pc]; exact fun _ _ past => past)
        trivial
  | wake at_pc =>
      refine steered.goto rfl (by rw [at_pc]; rfl) (by rw [at_pc]; exact fun _ _ past => past) ?_
      exact ⟨Nat.zero_le _, .nil, by simp, by simp⟩
  | @read jobs position inputs job throughputBps tokenWaitRatio at_pc inside found =>
      rw [at_pc] at sound
      obtain ⟨target, targets, _⟩ := steered.targets
      have planned := (targets position job found).planned
      refine steered.goto rfl (by rw [at_pc]; rfl) (by rw [at_pc]; exact fun _ _ past => past) ?_
      exact sound.snoc inside found planned throughputBps tokenWaitRatio
  | remove throughputBps tokenWaitRatio at_pc inside =>
      rw [at_pc] at sound
      refine steered.goto rfl (by rw [at_pc]; rfl) (by rw [at_pc]; exact fun _ _ past => past) ?_
      exact ⟨inside, sound.distinct, sound.active, fun input member =>
        (sound.read input member).imp_left Nat.lt_succ_of_lt⟩
  | idle sort at_pc =>
      exact steered.goto rfl (by rw [at_pc]; rfl) (by rw [at_pc]; exact fun _ _ past => past)
        trivial
  | @tick jobs position inputs sort pc at_pc next =>
      rw [at_pc] at sound
      obtain ⟨target, targets, _⟩ := steered.targets
      obtain ⟨decided, below⟩ := sound.decided controlled.controller sort
      rw [steered.globalCapacity] at decided
      refine ⟨steered.globalCapacity, ⟨target, ?_, ?_⟩, decided, ?_⟩
      · rw [at_pc] at targets
        rcases next with rfl | ⟨rfl, _⟩ <;> exact targets
      · intro decision member past
        rcases next with rfl | ⟨rfl, none⟩
        · exact absurd past (Nat.not_lt_zero _)
        · rw [none] at member
          cases member
      · rcases next with rfl | ⟨rfl, _⟩
        · exact below
        · trivial
  | skip at_pc undecided =>
      rw [at_pc] at sound
      refine steered.goto rfl (by rw [at_pc]; rfl) ?_ sound
      intro decision member past
      rw [at_pc]
      exact Nat.lt_of_le_of_ne (Nat.le_of_lt_succ past)
        (desiredByJob_none undecided decision member)
  | @apply jobs position call desired manager at_pc found entered =>
      rw [at_pc] at sound
      obtain ⟨target, targets, placed⟩ := steered.targets
      rw [at_pc] at targets placed
      obtain ⟨job, threads, dispatched, present, moved, rfl, rfl⟩ :=
        MuldDownloadManager.enter_cases entered
      have own := targets position job present
      have decision := desiredByJob_some found
      obtain ⟨lower, other, same, upper⟩ := steered.decided.bounded _ decision
      obtain rfl := Option.some.inj (present.symm.trans same)
      have sameMax : threads.sys.shared.engine.maxConnections = job.engine.maxConnections := by
        rw [moved]
        rfl
      have keeps := MuldDownloadManager.keeps_setThreads present sameMax
      refine ⟨steered.globalCapacity, ⟨Function.update target position desired, ?_, ?_⟩,
        steered.decided.mono keeps, sound⟩
      · refine targets.setThreads present ?_ ?_
        · intro other apart
          exact ⟨Function.update_of_ne apart _ _, if_neg apart⟩
        · rw [moved, Function.update_self]
          simp only [ControlPc.settingOf, if_true]
          exact own.enter lower upper
      · intro made member past
        by_cases same : made.jobId = position
        · rw [same, Function.update_self]
          exact congrArg ConnectionControlDecision.desiredConnections
            (steered.decided.unique decision member same.symm)
        · rw [Function.update_of_ne same]
          exact placed made member (Nat.lt_of_le_of_ne past same)
  | applied at_pc outside =>
      rw [at_pc] at sound
      refine steered.goto rfl (by rw [at_pc]; rfl) ?_ trivial
      intro decision member _
      rw [at_pc]
      exact (sound decision member).trans_le outside
  | @enqueue jobs position call enqueuing manager at_pc returned entered =>
      rw [at_pc] at sound
      obtain ⟨target, targets, placed⟩ := steered.targets
      rw [at_pc] at targets placed
      obtain ⟨job, threads, dispatched, present, moved, rfl, rfl⟩ :=
        MuldDownloadManager.enter_cases entered
      have own := targets position job present
      simp only [ControlPc.settingOf, if_true] at own
      obtain ⟨result, ended⟩ := MuldDownloadManager.returned_cases returned present
      have quiet := own.returned (fun other same => (Option.some.inj same).symm) ended
      have sameMax : threads.sys.shared.engine.maxConnections = job.engine.maxConnections := by
        rw [moved]
        rfl
      have keeps := MuldDownloadManager.keeps_setThreads present sameMax
      refine ⟨steered.globalCapacity, ⟨target, ?_, placed⟩, steered.decided.mono keeps,
        sound⟩
      refine targets.setThreads present ?_ ?_
      · intro other apart
        exact ⟨rfl, (if_neg apart).symm⟩
      · rw [moved]
        exact quiet.invoke rfl
  | next at_pc =>
      rw [at_pc] at sound
      refine steered.goto rfl (by rw [at_pc]; rfl) ?_ sound
      intro decision _ past
      rw [at_pc]
      exact Nat.le_of_lt_succ past

/-- By the step lemma, from a manager without jobs. -/
theorem ReachableWhile.steered
    {meets : Controlled R → ControlAction R → Controlled R → Prop} {maxThreads : Int}
    {logger : Bool} (reached : ReachableWhile meets maxThreads logger controlled)
    : controlled.Steered (max 1 maxThreads) := by
  refine reached.invariant ?_ fun before action after _ steered taken _ =>
    steered.step (step_cases taken)
  refine ⟨max_eq_right (le_max_left _ _), ⟨fun _ => 1, ?_, by simp [create]⟩, ?_, trivial⟩
  · intro position job found
    simp [create, MuldDownloadManager.create] at found
  · exact ⟨.nil, by simp [create], by simp [create]⟩

/-- In every run of the control thread beside all other threads, between two passes the
targets of the jobs that the last tick decided are in place, for each job in its bounds, and
add up to no more than the capacity, or to one for each job when there are more jobs; and at
all times the targets of all jobs are in their bounds.
-/
theorem capacity_divided {maxThreads : Int} {logger : Bool}
    (reached : Reachable maxThreads logger controlled)
    : (∀ job ∈ controlled.manager.jobs,
        1 ≤ job.engine.desiredConnections
        ∧ job.engine.desiredConnections ≤ job.engine.maxConnections)
      ∧ (controlled.pc = .waiting
        → (controlled.decisions.map ConnectionControlDecision.jobId).Nodup
          ∧ (∀ decision ∈ controlled.decisions,
            ∃ job,
              controlled.manager.jobs[decision.jobId]? = some job
              ∧ job.engine.desiredConnections = decision.desiredConnections)
          ∧ (controlled.decisions.map ConnectionControlDecision.desiredConnections).sum
              ≤ max (max 1 maxThreads) controlled.decisions.length) := by
  have steered := ReachableWhile.steered reached
  obtain ⟨target, targets, placed⟩ := steered.targets
  constructor
  · intro job member
    obtain ⟨position, found⟩ := List.mem_iff_getElem?.mp member
    have planned := (targets position job found).planned
    exact ⟨planned.lower, planned.upper⟩
  · intro between
    rw [between] at targets placed
    refine ⟨steered.decided.distinct, ?_, steered.decided.total⟩
    intro decision member
    obtain ⟨_, job, found, _⟩ := steered.decided.bounded decision member
    have own := (targets _ job found).quiet
    exact ⟨job, found, own.trans (placed decision member trivial)⟩

/-- A server with range support that announces twenty bytes for every URL. -/
def twentyRanged : RequestConditions where
  answers := fun _ =>
    .connected (.response {
      status := 200
      contentLength := some "20".toList
      acceptRanges := some "bytes".toList
    } none)

/-- The download of a file. -/
def downloadRequest : PendingDownloadRequest where
  kind := .download
  url := { scheme := "http".toList, host := "h".toList, port := "80".toList, path := "/f".toList }
  destination := "f".toList
  onError := true
  handler := SharedState.obeyAll {} [.resume]

/-- The call of a job runs for some steps. -/
def callRuns (call count : Nat) : List (ControlAction Rat) :=
  List.replicate count (.manager (.job 0 (.act (.call call .run))))

/-- A pass raises the target of a job that was just started and enqueues its workers. -/
def onePass : List (ControlAction Rat) :=
  .manager (.request twentyRanged downloadRequest) :: callRuns 0 6
    ++ [.wake, .read 0 0, .tick .stable, .apply] ++ callRuns 1 1 ++ [.enqueue]
    ++ callRuns 2 8 ++ [.next, .apply]

/-- The control thread waits for its next tick. -/
def between (controlled : Controlled R) : Bool :=
  match controlled.pc with
  | .waiting => true
  | _ => false

theorem capacity_divided_three
    : ∃ (controlled : Controlled Rat) (job : Job),
        controlled.manager.jobs[0]? = some job
        ∧ job.engine.desiredConnections = 3 := by
  obtain ⟨controlled, reached, holds⟩ :=
    @Transition.exists_of_runWhile _ _ step Transition.anyStep (create 8 false) _ onePass
      (fun controlled => controlled.between
        && controlled.decisions == [{ jobId := 0, desiredConnections := 3 }])
      (by decide +kernel)
  simp only [Bool.and_eq_true, beq_iff_eq] at holds
  obtain ⟨waiting, decisions⟩ := holds
  have at_pc : controlled.pc = .waiting := by
    unfold between at waiting
    split at waiting
    · assumption
    · cases waiting
  obtain ⟨_, placed, _⟩ := (capacity_divided reached).2 at_pc
  rw [decisions] at placed
  obtain ⟨job, found, same⟩ := placed _ List.mem_cons_self
  exact ⟨controlled, job, found, same⟩

end Controlled

end Muld
