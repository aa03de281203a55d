import Muld.ConnectionController
import Muld.ManagerSteps

/-! `ConnectionControlLoop`, interleaved with all the other threads of the process. A pass
reads the jobs one after another, lets the controller decide and then sets the targets one
after another, while the jobs go on and new ones come in. Nothing but this loop sets the
bounds or the target of a job that is in `jobs_`.
-/

namespace Muld

-----------------------------------------------------------------------------------------
-- The loop
-----------------------------------------------------------------------------------------

/-- The methods of the engine that set the bounds or the target. -/
def Api.steers : Api → Bool
  | .setConnectionBounds _ _ => true
  | .setDesiredConnections _ => true
  | _ => false

/-- The action has a thread enter a method that sets the bounds or the target. -/
def ThreadAction.steers : ThreadAction → Bool
  | .act (.invoke api) => api.steers
  | .nest _ api => api.steers
  | _ => false

def ManagerAction.steers : ManagerAction → Bool
  | .request _ _ => false
  | .job _ action => action.steers

def Job.engine (job : Job) : DownloadEngine := job.threads.sys.shared.engine

namespace MuldDownloadManager

/-- The control thread enters a method of a job; the number is that of its call. -/
def enter (position : Nat) (api : Api) (manager : MuldDownloadManager)
    : Option (MuldDownloadManager × Nat) :=
  match manager.jobs[position]? with
  | none => none
  | some job =>
      match job.threads.step (.act (.invoke api)) with
      | none => none
      | some threads =>
          some (manager.setThreads position threads, job.threads.sys.calls.length)

/-- A call of the control thread has returned. -/
def returned (position call : Nat) (manager : MuldDownloadManager) : Bool :=
  manager.jobs[position]?.any fun job => job.threads.finished call

end MuldDownloadManager

/-- Where the control thread is. A pass is over the first `jobs` of the jobs, its snapshot.
-/
inductive ControlPc (R : Type)
  | waiting
  | reading (jobs position : Nat) (inputs : List (ConnectionControlInput R))
  | applying (jobs position : Nat)
  | setting (jobs position call : Nat)
  | enqueuing (jobs position call : Nat)
  | returned

/-- The control thread beside all the other threads of the process. -/
structure Controlled (R : Type) where
  manager : MuldDownloadManager
  controller : ConnectionController R
  stopController : Bool
  /-- What the last tick has decided. -/
  decisions : List ConnectionControlDecision
  pc : ControlPc R

inductive ControlAction (R : Type)
  /-- Another thread takes a step. -/
  | manager (action : ManagerAction)
  /-- The destructor of the manager sets `stop_controller_`. -/
  | stop
  | wake
  | read (throughputBps tokenWaitRatio : R)
  | tick (sort : Sorter)
  | apply
  | enqueue
  | next

variable {R : Type} [Double R]

/-- The input of an active job; its address is its position. -/
def Job.controlInput (position : Nat) (throughputBps tokenWaitRatio : R) (job : Job)
    : ConnectionControlInput R where
  jobId := position
  active := true
  desiredConnections := job.engine.desiredConnections
  minConnections := job.engine.minConnections
  maxConnections := job.engine.maxConnections
  throughputBps
  tokenWaitRatio

/-- `desired_by_job`, in which a later decision replaces an earlier one. -/
def desiredByJob (decisions : List ConnectionControlDecision) (jobId : Nat) : Option Int :=
  (decisions.reverse.find? fun decision => decision.jobId == jobId).map
    ConnectionControlDecision.desiredConnections

namespace Controlled

/-- A manager whose threads have just started. -/
def create (maxThreads : Int) (logger : Bool) : Controlled R where
  manager := .create maxThreads logger
  controller := .create (max 1 maxThreads)
  stopController := false
  decisions := []
  pc := .waiting

def step (controlled : Controlled R) : ControlAction R → Option (Controlled R)
  | .manager action =>
      if action.steers then none
      else
        match controlled.manager.step action with
        | none => none
        | some manager => some { controlled with manager }
  | .stop => some { controlled with stopController := true }
  | .wake =>
      match controlled.pc with
      | .waiting =>
          if controlled.stopController then some { controlled with pc := .returned }
          else some { controlled with pc := .reading controlled.manager.jobs.length 0 [] }
      | _ => none
  | .read throughputBps tokenWaitRatio =>
      match controlled.pc with
      | .reading jobs position inputs =>
          if position < jobs then
            match controlled.manager.jobs[position]? with
            | none => none
            | some job =>
                if job.engine.active then
                  let input := job.controlInput position throughputBps tokenWaitRatio
                  some { controlled with pc := .reading jobs (position + 1) (inputs ++ [input]) }
                else
                  some { controlled with
                    controller := controlled.controller.remove position
                    pc := .reading jobs (position + 1) inputs }
          else none
      | _ => none
  | .tick sort =>
      match controlled.pc with
      | .reading jobs position inputs =>
          if position < jobs then none
          else if inputs.isEmpty then some { controlled with pc := .waiting }
          else
            let (decisions, controller) := controlled.controller.tick sort inputs
            some { controlled with
              controller
              decisions
              pc := if decisions.isEmpty then .waiting else .applying jobs 0 }
      | _ => none
  | .apply =>
      match controlled.pc with
      | .applying jobs position =>
          if position < jobs then
            match desiredByJob controlled.decisions position with
            | none => some { controlled with pc := .applying jobs (position + 1) }
            | some desired =>
                match controlled.manager.enter position (.setDesiredConnections desired) with
                | none => none
                | some (manager, call) =>
                    some { controlled with manager, pc := .setting jobs position call }
          else some { controlled with pc := .waiting }
      | _ => none
  | .enqueue =>
      match controlled.pc with
      | .setting jobs position call =>
          if controlled.manager.returned position call then
            match controlled.manager.enter position .enqueueTasks with
            | none => none
            | some (manager, call) =>
                some { controlled with manager, pc := .enqueuing jobs position call }
          else none
      | _ => none
  | .next =>
      match controlled.pc with
      | .enqueuing jobs position call =>
          if controlled.manager.returned position call then
            some { controlled with pc := .applying jobs (position + 1) }
          else none
      | _ => none

/-- The steps of the control thread and of the others, one constructor for each branch. -/
inductive Step (controlled : Controlled R) : ControlAction R → Controlled R → Prop
  | manager {action : ManagerAction} {manager : MuldDownloadManager}
      (steersNot : action.steers = false)
      (taken : controlled.manager.step action = some manager)
    : Step controlled (.manager action) { controlled with manager }
  | stop : Step controlled .stop { controlled with stopController := true }
  | stopped (at_pc : controlled.pc = .waiting) (stopping : controlled.stopController = true)
    : Step controlled .wake { controlled with pc := .returned }
  | wake (at_pc : controlled.pc = .waiting)
    : Step controlled .wake
        { controlled with pc := .reading controlled.manager.jobs.length 0 [] }
  | read {jobs position : Nat} {inputs : List (ConnectionControlInput R)} {job : Job}
      (throughputBps tokenWaitRatio : R) (at_pc : controlled.pc = .reading jobs position inputs)
      (inside : position < jobs) (found : controlled.manager.jobs[position]? = some job)
    : Step controlled (.read throughputBps tokenWaitRatio)
        { controlled with
          pc := .reading jobs (position + 1)
            (inputs ++ [job.controlInput position throughputBps tokenWaitRatio]) }
  | remove {jobs position : Nat} {inputs : List (ConnectionControlInput R)}
      (throughputBps tokenWaitRatio : R) (at_pc : controlled.pc = .reading jobs position inputs)
      (inside : position < jobs)
    : Step controlled (.read throughputBps tokenWaitRatio)
        { controlled with
          controller := controlled.controller.remove position
          pc := .reading jobs (position + 1) inputs }
  | idle {jobs position : Nat} {inputs : List (ConnectionControlInput R)} (sort : Sorter)
      (at_pc : controlled.pc = .reading jobs position inputs)
    : Step controlled (.tick sort) { controlled with pc := .waiting }
  | tick {jobs position : Nat} {inputs : List (ConnectionControlInput R)} (sort : Sorter)
      (pc : ControlPc R) (at_pc : controlled.pc = .reading jobs position inputs)
      (next
        : pc = .applying jobs 0
          ∨ pc = .waiting ∧ (controlled.controller.tick sort inputs).1 = [])
    : Step controlled (.tick sort)
        { controlled with
          controller := (controlled.controller.tick sort inputs).2
          decisions := (controlled.controller.tick sort inputs).1
          pc }
  | skip {jobs position : Nat} (at_pc : controlled.pc = .applying jobs position)
      (undecided : desiredByJob controlled.decisions position = none)
    : Step controlled .apply { controlled with pc := .applying jobs (position + 1) }
  | apply {jobs position call : Nat} {desired : Int} {manager : MuldDownloadManager}
      (at_pc : controlled.pc = .applying jobs position)
      (decided : desiredByJob controlled.decisions position = some desired)
      (entered
        : controlled.manager.enter position (.setDesiredConnections desired)
            = some (manager, call))
    : Step controlled .apply { controlled with manager, pc := .setting jobs position call }
  | applied {jobs position : Nat} (at_pc : controlled.pc = .applying jobs position)
      (outside : jobs ≤ position)
    : Step controlled .apply { controlled with pc := .waiting }
  | enqueue {jobs position call enqueuing : Nat} {manager : MuldDownloadManager}
      (at_pc : controlled.pc = .setting jobs position call)
      (returned : controlled.manager.returned position call = true)
      (entered : controlled.manager.enter position .enqueueTasks = some (manager, enqueuing))
    : Step controlled .enqueue
        { controlled with manager, pc := .enqueuing jobs position enqueuing }
  | next {jobs position call : Nat} (at_pc : controlled.pc = .enqueuing jobs position call)
    : Step controlled .next { controlled with pc := .applying jobs (position + 1) }

variable {controlled after : Controlled R}

/-- Every step is one of the listed ones, by cases on the action and the program point. -/
theorem step_cases {action : ControlAction R} (taken : controlled.step action = some after)
    : controlled.Step action after := by
  cases action with
  | manager action =>
      simp only [step] at taken
      split at taken
      · cases taken
      · rename_i steersNot
        split at taken <;> cases taken
        exact .manager (eq_false_of_ne_true steersNot) ‹_›
  | stop =>
      cases taken
      exact .stop
  | wake =>
      simp only [step] at taken
      split at taken
      · split at taken <;> cases taken
        · exact .stopped ‹_› ‹_›
        · exact .wake ‹_›
      · cases taken
  | read throughputBps tokenWaitRatio =>
      simp only [step] at taken
      split at taken
      · split at taken
        · rename_i at_pc inside
          split at taken
          · cases taken
          · rename_i job found
            split at taken <;> cases taken
            · exact .read _ _ at_pc inside found
            · exact .remove _ _ at_pc inside
        · cases taken
      · cases taken
  | tick sort =>
      simp only [step] at taken
      split at taken
      · rename_i at_pc
        split at taken
        · cases taken
        · split at taken <;> cases taken
          · exact .idle sort at_pc
          · refine .tick sort _ at_pc ?_
            split
            · rename_i empty
              exact Or.inr ⟨rfl, List.isEmpty_iff.mp empty⟩
            · exact Or.inl rfl
      · cases taken
  | apply =>
      simp only [step] at taken
      split at taken
      · rename_i at_pc
        split at taken
        · split at taken
          · cases taken
            exact .skip at_pc ‹_›
          · split at taken <;> cases taken
            exact .apply at_pc ‹_› ‹_›
        · rename_i outside
          cases taken
          exact .applied at_pc (Nat.le_of_not_lt outside)
      · cases taken
  | enqueue =>
      simp only [step] at taken
      split at taken
      · rename_i at_pc
        split at taken
        · split at taken <;> cases taken
          exact .enqueue at_pc ‹_› ‹_›
        · cases taken
      · cases taken
  | next =>
      simp only [step] at taken
      split at taken
      · rename_i at_pc
        split at taken <;> cases taken
        exact .next at_pc
      · cases taken

/-- The states of the runs of a new manager whose steps all meet a condition. -/
abbrev ReachableWhile (meets : Controlled R → ControlAction R → Controlled R → Prop)
    (maxThreads : Int) (logger : Bool) : Controlled R → Prop :=
  Transition.Reachable step meets (create maxThreads logger)

/-- The states of all runs of a new manager. -/
abbrev Reachable (maxThreads : Int) (logger : Bool) : Controlled R → Prop :=
  ReachableWhile Transition.anyStep maxThreads logger

end Controlled

end Muld
