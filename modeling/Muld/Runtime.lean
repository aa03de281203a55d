import Muld.ManagerSteps
import Muld.Library.WorkQueues

/-! The whole process: clients push requests, the dispatcher processes them one after another,
and a fixed number of pool threads runs the workers that the jobs have enqueued. A worker
takes its steps on a pool thread only; everything else that happens in a job happens on other
threads, or in a callback of one of its workers.
-/

namespace Muld

open WorkQueues

-----------------------------------------------------------------------------------------
-- What clients ask for
-----------------------------------------------------------------------------------------

/-- The commands of a handler. -/
inductive HandlerCommand
  | pause
  | resume
  | cancel
  | setSpeedLimit (bps : Nat)
deriving DecidableEq, Repr

/-- The method of the handler that a command is. -/
def HandlerCommand.api : HandlerCommand → Api
  | .pause => .handlerPause
  | .resume => .handlerResume
  | .cancel => .handlerCancel
  | .setSpeedLimit bps => .handlerSpeedLimit bps

/-- A command that reaches the handler before it has an engine. -/
def SharedState.obey (handler : SharedState) : HandlerCommand → SharedState
  | .pause => { handler with state := .paused, desiredState := .paused }
  | .resume => { handler with state := .queued, desiredState := .queued }
  | .cancel => { handler with state := .canceled, desiredState := .canceled }
  | .setSpeedLimit bps => { handler with desiredSpeedLimitBps := bps }

/-- The handler after some commands. -/
def SharedState.obeyAll (handler : SharedState) (commands : List HandlerCommand)
    : SharedState :=
  commands.foldl SharedState.obey handler

/-- `MuldRequest`; either pointer may be null. -/
structure MuldRequest where
  url : Option Text
  destination : Option Text
  speedLimitBps : Nat := 0
deriving DecidableEq, Repr

def invalidRequest (detail : String) : MuldError where
  code := .invalidRequest
  detail

/-- What `Download` pushes, or the error that it returns. -/
def MuldDownloadManager.download (request : MuldRequest) (onError : Bool)
    : Except MuldError PendingDownloadRequest :=
  match request.url, request.destination with
  | some url, some destination =>
      match parseUrl url with
      | .error exception => .error (invalidRequest exception.what)
      | .ok url => .ok {
          kind := .download
          url
          destination
          speedLimitBps := request.speedLimitBps
          onError
          handler := SharedState.obeyAll {} [.resume, .setSpeedLimit request.speedLimitBps]
        }
  | _, _ => .error (invalidRequest "URL and destination must not be null")

/-- What `Load` pushes, or the error that it returns. -/
def MuldDownloadManager.load (path : Text) (onError : Bool)
    : Except MuldError PendingDownloadRequest :=
  if path = [] then .error (invalidRequest "Path must not be empty")
  else .ok { kind := .load, imagePath := path, onError }

inductive ClientCall
  | download (request : MuldRequest) (onError : Bool)
  | load (path : Text) (onError : Bool)
deriving DecidableEq, Repr

def ClientCall.pending : ClientCall → Except MuldError PendingDownloadRequest
  | .download request onError => MuldDownloadManager.download request onError
  | .load path onError => MuldDownloadManager.load path onError

-----------------------------------------------------------------------------------------
-- The process
-----------------------------------------------------------------------------------------

/-- A `Task` of the pool. The tasks of a job are all alike in the source; here each stands for
one worker of the job, the one that begins when a thread has taken it.
-/
structure Task where
  job : Nat
  worker : Nat
deriving DecidableEq, Repr

namespace MuldDownloadManager

/-- The worker behind a task. -/
def worker? (manager : MuldDownloadManager) (task : Task) : Option Worker :=
  manager.jobs[task.job]?.bind fun job => job.threads.sys.workers[task.worker]?

/-- How many workers a job has had so far. -/
def workerCount (manager : MuldDownloadManager) (position : Nat) : Nat :=
  manager.jobs[position]?.elim 0 fun job => job.threads.sys.workers.length

end MuldDownloadManager

structure Runtime where
  manager : MuldDownloadManager
  /-- `pending_requests_`; its only consumer is the dispatcher. -/
  requests : WorkQueue PendingDownloadRequest
  /-- The dispatcher is through with the request that it has taken, up to `AttachEngine`. -/
  processed : Bool
  /-- `threadpool_`; its consumers are the pool threads. -/
  pool : WorkQueue Task

inductive RuntimeAction
  | client (call : ClientCall)
  /-- What the mutex and the condition variable of the requests do. -/
  | requests (action : QueueAction PendingDownloadRequest)
  /-- The dispatcher processes the request that it has taken; the commands have reached the
  handler in the meantime.
  -/
  | dispatch (conditions : RequestConditions) (commands : List HandlerCommand)
  /-- The dispatcher goes on with its loop. -/
  | nextRequest
  /-- What the mutex and the condition variable of the pool do. -/
  | pool (action : QueueAction Task)
  /-- A pool thread takes a step of the worker that it runs. -/
  | work (thread : Nat) (label : WorkerLabel)
  /-- `DownloadWorker` has returned to its pool thread. -/
  | nextTask (thread : Nat)
  /-- Another thread, or a callback, takes a step in a job. -/
  | job (position : Nat) (action : ThreadAction)

/-- A step of a worker itself. -/
def ThreadAction.isWork : ThreadAction → Bool
  | .act (.worker _ _) => true
  | _ => false

namespace Runtime

/-- A process whose threads have just started. -/
def create (maxThreads : Int) (logger : Bool) : Runtime where
  manager := .create maxThreads logger
  requests := .create 1
  processed := false
  pool := .create (max 1 maxThreads).toNat

/-- The pool after a step of a job: a worker that is new has been enqueued. -/
def enqueued (position : Nat) (before after : MuldDownloadManager) (pool : WorkQueue Task)
    : WorkQueue Task :=
  let worker := before.workerCount position
  if worker < after.workerCount position then pool.add { job := position, worker } else pool

/-- The dispatcher among the consumers of the requests. -/
abbrev dispatcher : Nat := 0

/-- `AttachEngine` of every job, which runs on the dispatcher, has returned. -/
def attached (runtime : Runtime) : Bool :=
  runtime.manager.jobs.all fun job => job.threads.finished 0

def step (runtime : Runtime) : RuntimeAction → Option Runtime
  | .client call =>
      match call.pending with
      | .error _ => some runtime
      | .ok pending => some { runtime with requests := runtime.requests.add pending }
  | .requests action =>
      if action.synchronises then
        match runtime.requests.step .drain action with
        | none => none
        | some requests => some { runtime with requests }
      else none
  | .dispatch conditions commands =>
      match runtime.requests.consumers[dispatcher]? with
      | some (.running request) =>
          if runtime.processed then none
          else
            let request := { request with handler := request.handler.obeyAll commands }
            match runtime.manager.step (.request conditions request) with
            | none => none
            | some manager => some { runtime with manager, processed := true }
      | _ => none
  | .nextRequest =>
      if runtime.processed && runtime.attached then
        match runtime.requests.step .drain (.finish dispatcher) with
        | none => none
        | some requests => some { runtime with requests, processed := false }
      else none
  | .pool action =>
      if action.synchronises then
        match runtime.pool.step .drop action with
        | none => none
        | some pool => some { runtime with pool }
      else none
  | .work thread label =>
      match runtime.pool.consumers[thread]? with
      | some (.running task) =>
          match runtime.manager.step (.job task.job (.act (.worker task.worker label))) with
          | none => none
          | some manager => some { runtime with manager }
      | _ => none
  | .nextTask thread =>
      match runtime.pool.consumers[thread]? with
      | some (.running task) =>
          if (runtime.manager.worker? task).any fun worker => worker.pc == .closed then
            match runtime.pool.step .drop (.finish thread) with
            | none => none
            | some pool => some { runtime with pool }
          else none
      | _ => none
  | .job position action =>
      if action.isWork then none
      else
        match runtime.manager.step (.job position action) with
        | none => none
        | some manager =>
            some { runtime with
              manager
              pool := enqueued position runtime.manager manager runtime.pool }

variable {runtime after : Runtime}

/-- The steps of the process, one constructor for each thing that can happen. -/
inductive Step (runtime : Runtime) : RuntimeAction → Runtime → Prop
  | refused {call : ClientCall} {error : MuldError} (invalid : call.pending = .error error)
    : Step runtime (.client call) runtime
  | push {call : ClientCall} {pending : PendingDownloadRequest}
      (valid : call.pending = .ok pending)
    : Step runtime (.client call)
        { runtime with requests := runtime.requests.add pending }
  | requests {action : QueueAction PendingDownloadRequest}
      {requests : WorkQueue PendingDownloadRequest}
      (sync : action.synchronises = true)
      (taken : runtime.requests.step .drain action = some requests)
    : Step runtime (.requests action) { runtime with requests }
  | dispatch {conditions : RequestConditions} {commands : List HandlerCommand}
      {request : PendingDownloadRequest} {manager : MuldDownloadManager}
      (runs : runtime.requests.consumers[dispatcher]? = some (.running request))
      (unprocessed : runtime.processed = false)
      (taken
        : runtime.manager.step (.request conditions
            { request with handler := request.handler.obeyAll commands }) = some manager)
    : Step runtime (.dispatch conditions commands)
        { runtime with manager, processed := true }
  | nextRequest {requests : WorkQueue PendingDownloadRequest}
      (processed : runtime.processed = true) (attached : runtime.attached = true)
      (taken : runtime.requests.step .drain (.finish dispatcher) = some requests)
    : Step runtime .nextRequest { runtime with requests, processed := false }
  | pool {action : QueueAction Task} {pool : WorkQueue Task}
      (sync : action.synchronises = true)
      (taken : runtime.pool.step .drop action = some pool)
    : Step runtime (.pool action) { runtime with pool }
  | work {thread : Nat} {label : WorkerLabel} {task : Task} {manager : MuldDownloadManager}
      (runs : runtime.pool.consumers[thread]? = some (.running task))
      (taken
        : runtime.manager.step (.job task.job (.act (.worker task.worker label)))
            = some manager)
    : Step runtime (.work thread label) { runtime with manager }
  | nextTask {thread : Nat} {task : Task} {worker : Worker} {pool : WorkQueue Task}
      (runs : runtime.pool.consumers[thread]? = some (.running task))
      (found : runtime.manager.worker? task = some worker) (closed : worker.pc = .closed)
      (taken : runtime.pool.step .drop (.finish thread) = some pool)
    : Step runtime (.nextTask thread) { runtime with pool }
  | job {position : Nat} {action : ThreadAction} {manager : MuldDownloadManager}
      (elsewhere : action.isWork = false)
      (taken : runtime.manager.step (.job position action) = some manager)
    : Step runtime (.job position action)
        { runtime with
          manager
          pool := enqueued position runtime.manager manager runtime.pool }

/-- Every step of the process is one of the listed ones, by cases on the action. -/
theorem step_cases {action : RuntimeAction} (taken : runtime.step action = some after)
    : runtime.Step action after := by
  cases action with
  | client call =>
      simp only [step] at taken
      split at taken <;> cases taken
      · exact .refused ‹_›
      · exact .push ‹_›
  | requests action =>
      simp only [step] at taken
      split at taken
      · rename_i sync
        split at taken <;> cases taken
        exact .requests sync ‹_›
      · cases taken
  | dispatch conditions commands =>
      simp only [step] at taken
      split at taken
      · rename_i request runs
        split at taken
        · cases taken
        · rename_i unprocessed
          split at taken <;> cases taken
          exact .dispatch runs (eq_false_of_ne_true unprocessed) ‹_›
      · cases taken
  | nextRequest =>
      simp only [step, Bool.and_eq_true] at taken
      split at taken
      · rename_i done
        split at taken <;> cases taken
        exact .nextRequest done.1 done.2 ‹_›
      · cases taken
  | pool action =>
      simp only [step] at taken
      split at taken
      · rename_i sync
        split at taken <;> cases taken
        exact .pool sync ‹_›
      · cases taken
  | work thread label =>
      simp only [step] at taken
      split at taken
      · rename_i task runs
        split at taken <;> cases taken
        exact .work runs ‹_›
      · cases taken
  | nextTask thread =>
      simp only [step] at taken
      split at taken
      · rename_i task runs
        split at taken
        · rename_i done
          obtain ⟨worker, found, closed⟩ := (Option.any_eq_true _ _).mp done
          split at taken <;> cases taken
          exact .nextTask runs found (by simpa using closed) ‹_›
        · cases taken
      · cases taken
  | job position action =>
      simp only [step] at taken
      split at taken
      · cases taken
      · rename_i elsewhere
        split at taken <;> cases taken
        exact .job (eq_false_of_ne_true elsewhere) ‹_›

/-- The states of the runs of a new process whose steps all meet a condition. -/
abbrev ReachableWhile (meets : Runtime → RuntimeAction → Runtime → Prop) (maxThreads : Int)
    (logger : Bool) : Runtime → Prop :=
  Transition.Reachable step meets (create maxThreads logger)

/-- The states of all runs of a new process. -/
abbrev Reachable (maxThreads : Int) (logger : Bool) : Runtime → Prop :=
  ReachableWhile Transition.anyStep maxThreads logger

-----------------------------------------------------------------------------------------
-- A download
-----------------------------------------------------------------------------------------

/-- A server that announces twenty bytes for every URL. -/
def twentyBytes : RequestConditions where
  answers := fun _ =>
    .connected (.response { status := 200, contentLength := some "20".toList } none)

/-- A client asks for a file, and the dispatcher attaches the engine and enqueues its worker. -/
def downloads (position : Nat) (destination : String) : List RuntimeAction :=
  [.client (.download
      { url := some "http://host/f".toList, destination := some destination.toList } true),
    .requests (.look 0), .dispatch twentyBytes []]
    ++ List.replicate 7 (.job position (.act (.call 0 .run)))
    ++ [.job position (.leave (.call 0))]
    ++ List.replicate 11 (.job position (.act (.call 0 .run)))
    ++ [.requests (.notifyOne none), .nextRequest, .pool (.notifyOne none)]

-----------------------------------------------------------------------------------------
-- The two queues
-----------------------------------------------------------------------------------------

/-- The queue of requests moves by its own steps. -/
theorem Step.requests_cases {action : RuntimeAction} (taken : runtime.Step action after)
    : after.requests = runtime.requests
      ∨ ∃ moved, runtime.requests.step .drain moved = some after.requests := by
  cases taken with
  | push => exact Or.inr ⟨.add _, rfl⟩
  | requests sync taken => exact Or.inr ⟨_, taken⟩
  | nextRequest processed attached taken => exact Or.inr ⟨_, taken⟩
  | _ => exact Or.inl rfl

/-- The queue of tasks moves by its own steps. -/
theorem Step.pool_cases {action : RuntimeAction} (taken : runtime.Step action after)
    : after.pool = runtime.pool
      ∨ ∃ moved, runtime.pool.step .drop moved = some after.pool := by
  cases taken with
  | pool sync taken => exact Or.inr ⟨_, taken⟩
  | nextTask runs found closed taken => exact Or.inr ⟨_, taken⟩
  | job elsewhere taken =>
      simp only [enqueued]
      split
      · exact Or.inr ⟨.add _, rfl⟩
      · exact Or.inl rfl
  | _ => exact Or.inl rfl

variable {meets : Runtime → RuntimeAction → Runtime → Prop} {maxThreads : Int} {logger : Bool}

theorem ReachableWhile.requests (reached : ReachableWhile meets maxThreads logger runtime)
    : WorkQueue.Reachable .drain (.create 1) runtime.requests :=
  reached.project Runtime.requests fun _ _ _ _ taken _ =>
    (step_cases taken).requests_cases.imp_right fun ⟨moved, taken⟩ => ⟨moved, taken, trivial⟩

theorem ReachableWhile.pool (reached : ReachableWhile meets maxThreads logger runtime)
    : WorkQueue.Reachable .drop (.create (max 1 maxThreads).toNat) runtime.pool :=
  reached.project Runtime.pool fun _ _ _ _ taken _ =>
    (step_cases taken).pool_cases.imp_right fun ⟨moved, taken⟩ => ⟨moved, taken, trivial⟩

end Runtime

end Muld
