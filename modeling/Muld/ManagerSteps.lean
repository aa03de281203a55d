import Muld.Outcomes

/-! The manager with all its jobs: rounds of the dispatcher interleaved with the steps of the
threads of every job. An exception that leaves the dispatcher ends the process, and so does a
signal, so that no run goes on from there.
-/

namespace Muld

open LockTraces

inductive ManagerAction
  /-- The dispatcher processes the request at the front of the queue. -/
  | request (conditions : RequestConditions) (request : PendingDownloadRequest)
  /-- A thread of the job at this position takes a step. -/
  | job (position : Nat) (action : ThreadAction)

namespace MuldDownloadManager

def setThreads (position : Nat) (threads : Threaded) (manager : MuldDownloadManager)
    : MuldDownloadManager :=
  manager.onJob position fun job => { job with threads }

def step (manager : MuldDownloadManager) : ManagerAction → Option MuldDownloadManager
  | .request conditions request =>
      match manager.process conditions request with
      | (.error (.thrown _), _) => none
      | (.error .killed, _) => none
      | (_, dispatching) => some dispatching.manager
  | .job position action =>
      match manager.jobs[position]? with
      | none => none
      | some job =>
          match job.threads.step action with
          | none => none
          | some threads => some (manager.setThreads position threads)

/-- A step processes a request to its outcome, or moves a thread of one job. -/
inductive Step (manager : MuldDownloadManager) : ManagerAction → MuldDownloadManager → Prop
  | request {conditions : RequestConditions} {request : PendingDownloadRequest}
      {dispatching : Dispatching}
      (processed : (manager.process conditions request).2 = dispatching)
      (completes : Completes conditions manager request dispatching)
    : Step manager (.request conditions request) dispatching.manager
  | job {position : Nat} {job : Job} {action : ThreadAction} {threads : Threaded}
      (found : manager.jobs[position]? = some job)
      (taken : job.threads.Step action threads)
    : Step manager (.job position action) (manager.setThreads position threads)

variable {manager after : MuldDownloadManager}

/-- Every step of the manager is one of the listed ones, by cases on the action. -/
theorem step_cases {action : ManagerAction} (taken : manager.step action = some after)
    : manager.Step action after := by
  cases action with
  | request conditions request =>
      have ends := process_cases manager conditions request
      simp only [step] at taken
      generalize processed : manager.process conditions request = ended at ends taken
      cases ends with
      | completes contained alive completes =>
          rename_i result dispatching
          have same : dispatching.manager = after := by
            obtain (_ | exception | _) | done := result
            · exact Option.some.inj taken
            · exact absurd rfl (contained exception)
            · exact absurd rfl alive
            · exact Option.some.inj taken
          subst same
          exact .request (congrArg Prod.snd processed) completes
      | escapes => cases taken
      | killed => cases taken
  | job position action =>
      simp only [step] at taken
      split at taken
      · cases taken
      · rename_i job found
        split at taken
        · cases taken
        · rename_i threads moved
          obtain rfl := Option.some.inj taken
          exact .job found (Threaded.step_cases moved)

/-- The states of the runs of a new manager whose steps all meet a condition. -/
abbrev ReachableWhile
    (meets : MuldDownloadManager → ManagerAction → MuldDownloadManager → Prop)
    (maxThreads : Int) (logger : Bool) : MuldDownloadManager → Prop :=
  Transition.Reachable step meets (create maxThreads logger)

/-- The states of all runs of a new manager. -/
abbrev Reachable (maxThreads : Int) (logger : Bool) : MuldDownloadManager → Prop :=
  ReachableWhile Transition.anyStep maxThreads logger

-----------------------------------------------------------------------------------------
-- The jobs after a step
-----------------------------------------------------------------------------------------

/-- A job is the new one, or it was there before. -/
theorem mem_addJob {job other : Job} (member : other ∈ (manager.addJob job).jobs)
    : other = job ∨ other ∈ manager.jobs := by
  rcases List.mem_append.mp member with before | new
  · exact Or.inr before
  · exact Or.inl (List.mem_singleton.mp new)

/-- Moving the threads of a job changes that job only, and of it only the threads. -/
theorem getElem?_setThreads {position index : Nat} {job other : Job} {threads : Threaded}
    (found : manager.jobs[position]? = some job)
    (after : (manager.setThreads position threads).jobs[index]? = some other)
    : (index = position ∧ other = { job with threads })
      ∨ (index ≠ position ∧ manager.jobs[index]? = some other) := by
  rw [setThreads, onJob, List.getElem?_modify] at after
  by_cases same : position = index
  · subst same
    refine Or.inl ⟨rfl, ?_⟩
    simpa [found] using after.symm
  · exact Or.inr ⟨Ne.symm same, by simpa [same] using after⟩

end MuldDownloadManager

end Muld
