import Muld.NewJobs
import Muld.Scheduling

/-! Every job of the process takes the run of a single job. What precedes the dispatcher's
`AttachEngine` are the commands that reached the handler while it had no engine; they are
calls that have returned, so that the later calls of the job stand behind them.
-/

namespace Muld

open Threads WorkQueues

-----------------------------------------------------------------------------------------
-- A job behind calls that have returned
-----------------------------------------------------------------------------------------

/-- The state with the calls numbered behind some earlier ones. -/
def Shared.behind (earlier : Nat) (shared : Shared) : Shared :=
  shared.onHistory fun history =>
    { history with lastCancel := history.lastCancel.map (earlier + ·) }

@[simp]
theorem Shared.behind_engine (earlier : Nat) (shared : Shared)
    : (shared.behind earlier).engine = shared.engine := rfl

@[simp]
theorem Shared.behind_handler (earlier : Nat) (shared : Shared)
    : (shared.behind earlier).handler = shared.handler := rfl

@[simp]
theorem Shared.behind_maxThreads (earlier : Nat) (shared : Shared)
    : (shared.behind earlier).maxThreads = shared.maxThreads := rfl

@[simp]
theorem Shared.behind_nullWriter (earlier : Nat) (shared : Shared)
    : (shared.behind earlier).nullWriter = shared.nullWriter := rfl

@[simp]
theorem Shared.behind_cleanupArtifacts (earlier : Nat) (removeOutputFile : Bool)
    (shared : Shared)
    : (shared.behind earlier).cleanupArtifacts removeOutputFile
        = (shared.cleanupArtifacts removeOutputFile).behind earlier := by
  by_cases cleaned : shared.engine.artifactsCleaned = true
  · simp only [cleanupArtifacts, behind_engine, cleaned, if_true]
  · simp only [cleanupArtifacts, behind_engine, cleaned]
    rfl

/-- No step of a worker looks at the numbers of the calls, by cases on the program point. -/
theorem Worker.step_behind (earlier : Nat) (shared : Shared) (worker : Worker)
    (label : WorkerLabel)
    : worker.step (shared.behind earlier) label
        = (worker.step shared label).map (Prod.map (Shared.behind earlier) id) := by
  cases label with
  | run =>
      cases at_pc : worker.pc <;>
        simp only [step, at_pc, Shared.behind_engine, Shared.behind_cleanupArtifacts] <;>
        (repeat' split) <;> first | rfl | (simp only [*, reduceIte, reduceCtorEq]; rfl)
  | _ =>
      simp only [step, Shared.behind_engine]
      repeat' split
      all_goals first | rfl | (simp only [*, reduceIte, reduceCtorEq]; rfl)

/-- A call takes the same step under its new number, by cases on the program point. -/
theorem Call.step_behind (earlier index : Nat) (shared : Shared) (call : Call)
    (label : CallLabel)
    : call.step (earlier + index) (shared.behind earlier) label
        = (call.step index shared label).map (Prod.map (Shared.behind earlier) id) := by
  cases label with
  | run =>
      cases call <;>
        simp only [step, Shared.behind_engine, Shared.behind_handler,
          Shared.behind_maxThreads, Shared.behind_cleanupArtifacts] <;>
        (repeat' split) <;> first | rfl | (simp only [*, reduceIte, reduceCtorEq]; rfl)
  | stored outcome =>
      cases call <;> simp only [step, Shared.behind_engine] <;> (repeat' split) <;>
        first | rfl | (simp only [*, reduceIte, reduceCtorEq]; rfl)

def Action.behind (earlier : Nat) : Action → Action
  | .call index label => .call (earlier + index) label
  | action => action

namespace Sys

/-- The job with some calls that returned before all others. -/
def behind (earlier : Nat) (sys : Sys) : Sys :=
  { sys with
    shared := sys.shared.behind earlier
    calls := List.replicate earlier (.returned true) ++ sys.calls }

variable {sys after start : Sys} {earlier : Nat}

theorem behind_call (earlier index : Nat) (sys : Sys)
    : (sys.behind earlier).calls[earlier + index]? = sys.calls[index]? := by
  simp [behind, List.getElem?_append_right]

/-- The calls that have returned take no part in any step. -/
theorem step_behind {action : Action} (taken : sys.step action = some after)
    : (sys.behind earlier).step (action.behind earlier) = some (after.behind earlier) := by
  unfold step at taken ⊢
  simp only [behind, Shared.behind_nullWriter] at taken ⊢
  split at taken
  · cases taken
  rename_i alive
  simp only [alive, reduceIte, Bool.false_eq_true]
  cases action with
  | worker index label =>
      simp only [Action.behind] at taken ⊢
      split at taken
      · cases taken
      · rename_i worker found
        split at taken
        · cases taken
        · rename_i shared next moved
          cases taken
          simp only [Worker.step_behind, moved, Option.map_some, Prod.map, id]
  | call index label =>
      simp only [Action.behind] at taken ⊢
      split at taken
      · cases taken
      · rename_i call found
        split at taken
        · cases taken
        · rename_i shared next spawned moved
          cases taken
          have same := behind_call earlier index sys
          simp only [behind] at same
          simp only [same, found, Call.step_behind, moved, Option.map_some, Prod.map, id]
          rw [List.set_append_right _ _ (by simp)]
          simp
  | invoke api =>
      simp only [Action.behind] at taken ⊢
      split at taken
      · cases taken
      · rename_i allowed
        cases taken
        simp [allowed]

-----------------------------------------------------------------------------------------
-- Commands before there is an engine
-----------------------------------------------------------------------------------------

/-- The job before its `AttachEngine`, with a handler after some commands. -/
def commanded (shared : Shared) (handler : SharedState) (count : Nat) : Sys where
  shared := { shared with handler }
  workers := []
  calls := List.replicate count (.returned true)
  dispatched := false

/-- A command runs and returns. -/
theorem commanded_next {shared : Shared} {handler : SharedState} {count : Nat}
    (alive : shared.nullWriter = false) (detached : handler.engine = false)
    (command : HandlerCommand)
    (reached : Reachable start (commanded shared handler count))
    : Reachable start (commanded shared (handler.obey command) (count + 1)) := by
  have entered : (commanded shared handler count).step (.invoke command.api)
      = some { commanded shared handler count with
          calls := List.replicate count (.returned true) ++ [command.api.entry] } := by
    cases command <;> simp [step, commanded, alive, HandlerCommand.api, Api.dispatches]
  have returned : step
      { commanded shared handler count with
        calls := List.replicate count (.returned true) ++ [command.api.entry] }
      (.call count .run) = some (commanded shared (handler.obey command) (count + 1)) := by
    cases command <;>
      simp [step, commanded, alive, detached, HandlerCommand.api, Api.entry, Call.step,
        Call.wish, SharedState.obey, List.replicate_succ', List.set_append_right]
  exact (reached.next entered trivial).next returned trivial

/-- All commands run and return, by induction on them. -/
theorem commanded_all {shared : Shared} {handler : SharedState} {count : Nat}
    (alive : shared.nullWriter = false) (detached : handler.engine = false)
    (commands : List HandlerCommand)
    (reached : Reachable start (commanded shared handler count))
    : Reachable start
        (commanded shared (handler.obeyAll commands) (count + commands.length)) := by
  induction commands generalizing handler count with
  | nil => exact reached
  | cons command rest ih =>
      have detached' : (handler.obey command).engine = false := by
        cases command <;> exact detached
      have next := ih detached' (commanded_next alive detached command reached)
      rw [Nat.add_right_comm, Nat.add_assoc] at next
      exact next

end Sys

/-- The handler has no engine and has obeyed some commands. -/
def SharedState.Commanded (handler : SharedState) : Prop :=
  ∃ commands : List HandlerCommand, handler = SharedState.obeyAll {} commands

theorem SharedState.Commanded.obeyAll {handler : SharedState} (commanded : handler.Commanded)
    (commands : List HandlerCommand)
    : (handler.obeyAll commands).Commanded := by
  obtain ⟨before, rfl⟩ := commanded
  exact ⟨before ++ commands, by simp [SharedState.obeyAll]⟩

/-- The job takes a run of a single job that was just built. -/
def Sys.RunsAlone (sys : Sys) : Prop :=
  ∃ start earlier, start.Built ∧ Sys.Reachable start (sys.behind earlier)

/-- A job at the entry of its `AttachEngine` stands behind the commands to its handler. -/
theorem Job.JustBuilt.runsAlone {handler : SharedState} {job : Job}
    (justBuilt : job.JustBuilt handler) (commanded : handler.Commanded)
    : job.threads.sys.RunsAlone := by
  obtain ⟨shared, built, _, threads⟩ := justBuilt
  obtain ⟨commands, rfl⟩ := commanded
  refine ⟨Sys.unattached shared, commands.length, built, ?_⟩
  have alive : shared.nullWriter = false := built.nullWriter
  have history : shared.history = {} := built.history
  have obeyed : Sys.Reachable (Sys.unattached shared)
      (Sys.commanded shared (SharedState.obeyAll {} commands) commands.length) := by
    have base : Sys.Reachable (Sys.unattached shared) (Sys.commanded shared {} 0) := .start
    have all := Sys.commanded_all alive rfl commands base
    rwa [Nat.zero_add] at all
  have attaches : Sys.step
      (Sys.commanded shared (SharedState.obeyAll {} commands) commands.length)
      (.invoke .attachEngine) = some (job.threads.sys.behind commands.length) := by
    simp [Sys.step, Sys.commanded, alive, threads, Threaded.attaching, Sys.behind,
      Shared.behind, Shared.onHistory, history, Api.dispatches]
  exact obeyed.next attaches trivial

/-- The counters of connections do not see the calls that have returned. -/
theorem Sys.RunsAlone.counted {sys : Sys} (alone : sys.RunsAlone) : sys.Counted := by
  obtain ⟨start, earlier, built, reached⟩ := alone
  have counted := Sys.ReachableWhile.counted built reached
  have silent : total Call.planned (List.replicate earlier (.returned true)) = 0 := by
    refine total_eq_zero fun call member => ?_
    rw [List.eq_of_mem_replicate member]
    rfl
  refine ⟨counted.placed, counted.holding, ?_, ?_, counted.connected⟩
  · exact fun call member => counted.plans call (List.mem_append_right _ member)
  · have scheduled := counted.scheduled
    simp only [Sys.behind, total_append, silent, zero_add] at scheduled
    exact scheduled

theorem Sys.RunsAlone.step {sys after : Sys} (alone : sys.RunsAlone) {action : Action}
    (taken : sys.step action = some after)
    : after.RunsAlone := by
  obtain ⟨start, earlier, built, reached⟩ := alone
  exact ⟨start, earlier, built, reached.next (Sys.step_behind taken) trivial⟩

-----------------------------------------------------------------------------------------
-- The jobs of the process
-----------------------------------------------------------------------------------------

/-- The threads of a job take steps of the job, or none. -/
theorem Threaded.Step.sys_cases {threaded after : Threaded} {action : ThreadAction}
    (taken : threaded.Step action after)
    : after.sys = threaded.sys ∨ ∃ moved, threaded.sys.step moved = some after.sys := by
  cases taken with
  | move action frame sys moves outside taken => exact Or.inr ⟨_, taken⟩
  | invoke api sys taken => exact Or.inr ⟨_, taken⟩
  | nest frame api sys within idle taken => exact Or.inr ⟨_, taken⟩
  | leave => exact Or.inl rfl

namespace MuldDownloadManager

variable {manager after : MuldDownloadManager}

/-- The outputs of the jobs and their images; `fileAt` says which file a path leads to. -/
def files {File : Type*} (fileAt : Text → File) (manager : MuldDownloadManager) : List File :=
  manager.jobs.flatMap fun job =>
    [fileAt job.outputPath, fileAt (job.outputPath ++ ".muld".toList)]

/-- They are all different. The jobs of the model have files of their own, which are those of
the file system as long as this is so.
-/
def FilesApart {File : Type*} (fileAt : Text → File) (manager : MuldDownloadManager) : Prop :=
  (manager.files fileAt).Nodup

/-- A request keeps to files of its own: a download, which may resize its file and fail after
that, names none of a job's, and a loaded image lies beside its output.
-/
def OpensOwn {File : Type*} (fileAt : Text → File) (manager : MuldDownloadManager)
    (conditions : RequestConditions) (request : PendingDownloadRequest) : Prop :=
  match request.kind, conditions.readImageFromDisk with
  | .download, _ => fileAt request.destination ∉ manager.files fileAt
  | .load, .ok (some img) =>
      fileAt request.imagePath = fileAt (img.filePath ++ ".muld".toList)
  | .load, _ => True

instance {File : Type*} [DecidableEq File] (fileAt : Text → File)
    (manager : MuldDownloadManager) (conditions : RequestConditions)
    (request : PendingDownloadRequest)
    : Decidable (manager.OpensOwn fileAt conditions request) := by
  unfold OpensOwn
  split <;> infer_instance

/-- Every job takes a run of its own. -/
def RunAlone (manager : MuldDownloadManager) : Prop :=
  ∀ job ∈ manager.jobs, job.threads.sys.RunsAlone

theorem RunAlone.request (alone : manager.RunAlone) {conditions : RequestConditions}
    {request : PendingDownloadRequest} (commanded : request.handler.Commanded)
    (taken : manager.step (.request conditions request) = some after)
    : after.RunAlone := by
  rcases step_request_jobs taken with same | ⟨new, justBuilt, added⟩
  · intro job member
    exact alone job (same ▸ member)
  · intro job member
    rw [added] at member
    rcases mem_snoc_cases member with before | rfl
    · exact alone job before
    · exact justBuilt.runsAlone commanded

theorem RunAlone.job (alone : manager.RunAlone) {position : Nat} {action : ThreadAction}
    (taken : manager.step (.job position action) = some after)
    : after.RunAlone := by
  cases step_cases taken with
  | job found moved =>
      intro other member
      obtain ⟨index, at_index⟩ := List.mem_iff_getElem?.mp member
      rcases getElem?_setThreads found at_index with ⟨_, rfl⟩ | ⟨_, before⟩
      · have own := alone _ (List.mem_of_getElem? found)
        rcases moved.sys_cases with same | ⟨action, taken⟩
        · exact same ▸ own
        · exact own.step taken
      · exact alone other (List.mem_of_getElem? before)

end MuldDownloadManager

/-- The conditions that a request meets in a step. -/
def RuntimeAction.conditions? : RuntimeAction → Option RequestConditions
  | .dispatch conditions _ => some conditions
  | _ => none

namespace Runtime

variable {runtime after : Runtime} {meets : Runtime → RuntimeAction → Runtime → Prop}
  {maxThreads : Int} {logger : Bool}

/-- The handlers of the requests have obeyed commands, and the jobs take runs of their own. -/
structure RunAlone (runtime : Runtime) : Prop where
  commanded : ∀ request ∈ runtime.requests.added, request.handler.Commanded
  jobs : runtime.manager.RunAlone

theorem ClientCall.pending_commanded {call : ClientCall} {pending : PendingDownloadRequest}
    (valid : call.pending = .ok pending)
    : pending.handler.Commanded := by
  cases call with
  | download request onError =>
      simp only [ClientCall.pending, MuldDownloadManager.download] at valid
      split at valid
      · split at valid <;> cases valid
        exact ⟨_, rfl⟩
      · cases valid
  | load path onError =>
      simp only [ClientCall.pending, MuldDownloadManager.load] at valid
      split at valid <;> cases valid
      exact ⟨[], rfl⟩

theorem RunAlone.step (alone : runtime.RunAlone) (ordered : runtime.requests.Ordered)
    {action : RuntimeAction} (taken : runtime.Step action after)
    : after.RunAlone := by
  cases taken with
  | refused invalid => exact alone
  | push valid =>
      refine ⟨?_, alone.jobs⟩
      intro request member
      rcases mem_snoc_cases member with before | rfl
      · exact alone.commanded request before
      · exact ClientCall.pending_commanded valid
  | requests sync taken =>
      rename_i action requests
      rcases (WorkQueue.step_cases taken).added_cases with same | ⟨item, rfl⟩
      · exact ⟨same ▸ alone.commanded, alone.jobs⟩
      · cases sync
  | dispatch runs unprocessed taken =>
      have commanded := alone.commanded _ (ordered.mem_added runs)
      exact ⟨alone.commanded, alone.jobs.request (commanded.obeyAll _) taken⟩
  | nextRequest processed attached taken =>
      rcases (WorkQueue.step_cases taken).added_cases with same | ⟨item, other⟩
      · exact ⟨same ▸ alone.commanded, alone.jobs⟩
      · cases other
  | pool => exact ⟨alone.commanded, alone.jobs⟩
  | work runs taken => exact ⟨alone.commanded, alone.jobs.job taken⟩
  | nextTask => exact ⟨alone.commanded, alone.jobs⟩
  | job elsewhere taken => exact ⟨alone.commanded, alone.jobs.job taken⟩

theorem ReachableWhile.runAlone (reached : ReachableWhile meets maxThreads logger runtime)
    : runtime.RunAlone := by
  refine reached.invariant ⟨by simp [create, WorkQueue.create], ?_⟩ ?_
  · simp [create, MuldDownloadManager.create, MuldDownloadManager.RunAlone]
  · intro before action after earlier alone taken _
    have ordered := (ReachableWhile.requests earlier).ordered (WorkQueue.create_ordered 1)
    exact alone.step ordered (step_cases taken)

/-- The request that the dispatcher has taken. -/
def taken? (runtime : Runtime) : Option PendingDownloadRequest :=
  match runtime.requests.consumers[dispatcher]? with
  | some (.running request) => some request
  | _ => none

/-- The jobs keep files of their own, also while the dispatcher processes a request. -/
def KeepsFilesApart {File : Type*} (fileAt : Text → File) (before : Runtime)
    (action : RuntimeAction) (after : Runtime) : Prop :=
  after.manager.FilesApart fileAt
    ∧ ∀ conditions ∈ action.conditions?, ∀ request ∈ before.taken?,
        before.manager.OpensOwn fileAt conditions request

instance {File : Type*} [DecidableEq File] (fileAt : Text → File) (before : Runtime)
    (action : RuntimeAction) (after : Runtime)
    : Decidable (KeepsFilesApart fileAt before action after) := by
  unfold KeepsFilesApart MuldDownloadManager.FilesApart
  infer_instance

/-- In every run of the process in which the jobs have files of their own, every job is in a
state that a run of a single, newly built job reaches, up to calls that returned before all
others: whatever holds in all runs of single jobs holds for every job of the process.
-/
theorem jobs_run_alone {File : Type*} {fileAt : Text → File}
    (reached : ReachableWhile (KeepsFilesApart fileAt) maxThreads logger runtime) {job : Job}
    (member : job ∈ runtime.manager.jobs)
    : ∃ start earlier,
        start.Built ∧ Sys.Reachable start (job.threads.sys.behind earlier) :=
  (ReachableWhile.runAlone reached).jobs job member

/-- The engine of a download stands behind the two commands that `Download` gives itself. -/
theorem jobs_run_alone_download
    : ∃ (runtime : Runtime) (job : Job),
        job ∈ runtime.manager.jobs
        ∧ job.threads.sys.workers ≠ []
        ∧ ∃ start earlier,
            start.Built ∧ Sys.Reachable start (job.threads.sys.behind earlier) := by
  obtain ⟨runtime, reached, present⟩ :=
    @Transition.exists_of_runWhile _ _ step (KeepsFilesApart id) (create 1 false) _
      (downloads 0 "f") (fun runtime => runtime.manager.jobs.any fun job =>
        job.threads.sys.workers.length == 1) (by decide +kernel)
  obtain ⟨job, member, one⟩ := List.any_eq_true.mp present
  refine ⟨runtime, job, member, ?_, jobs_run_alone reached member⟩
  exact List.ne_nil_of_length_pos (by simp at one; omega)

end Runtime

end Muld
