import Muld.Runtime

/-! Requests are served one after another. The dispatcher looks at the books of the manager
only, which no thread of a job touches; so whatever these threads do in between, every request
ends as if the requests had been processed in their order with no job running.
-/

namespace Muld

open LockTraces Programs Threads WorkQueues

-----------------------------------------------------------------------------------------
-- The books
-----------------------------------------------------------------------------------------

/-- What the books say about a job. -/
structure JobRecord where
  outputPath : Text
  url : Url
  etag : Text
  lastModified : Text
deriving DecidableEq, Repr

def Job.record (job : Job) : JobRecord where
  outputPath := job.outputPath
  url := job.url
  etag := job.etag
  lastModified := job.lastModified

/-- A change of one element that a view sees as a change of its own. -/
theorem map_modify {τ ρ : Type*} {view : τ → ρ} {change : τ → τ} {change' : ρ → ρ}
    (sees : ∀ item, view (change item) = change' (view item)) (items : List τ) (index : Nat)
    : (items.modify index change).map view = (items.map view).modify index change' := by
  apply List.ext_getElem?
  intro position
  rw [List.getElem?_map, List.getElem?_modify, List.getElem?_modify, List.getElem?_map]
  cases items[position]? with
  | none => rfl
  | some item =>
      by_cases here : index = position <;> simp [here, sees]

namespace MuldDownloadManager

/-- The managers differ in the threads of their jobs at most. -/
structure SameBooks (left right : MuldDownloadManager) : Prop where
  logger : left.logger = right.logger
  maxThreads : left.maxThreads = right.maxThreads
  jobs : left.jobs.map Job.record = right.jobs.map Job.record
  jobsIndex : left.jobsIndex = right.jobsIndex
  loadedImages : left.loadedImages = right.loadedImages

variable {left right other : MuldDownloadManager}

theorem SameBooks.refl (manager : MuldDownloadManager) : manager.SameBooks manager :=
  ⟨rfl, rfl, rfl, rfl, rfl⟩

theorem SameBooks.trans (same : left.SameBooks right) (next : right.SameBooks other)
    : left.SameBooks other :=
  ⟨same.logger.trans next.logger, same.maxThreads.trans next.maxThreads,
    same.jobs.trans next.jobs, same.jobsIndex.trans next.jobsIndex,
    same.loadedImages.trans next.loadedImages⟩

theorem SameBooks.length (same : left.SameBooks right)
    : left.jobs.length = right.jobs.length := by
  simpa using congrArg List.length same.jobs

theorem SameBooks.indexed (same : left.SameBooks right) (key : Text)
    : left.indexed key = right.indexed key := by
  simp only [MuldDownloadManager.indexed, same.jobsIndex, same.length]

theorem SameBooks.addJob (same : left.SameBooks right) (job : Job)
    : (left.addJob job).SameBooks (right.addJob job) := by
  refine ⟨same.logger, same.maxThreads, ?_, ?_, same.loadedImages⟩
  · simp [MuldDownloadManager.addJob, same.jobs]
  · simp only [MuldDownloadManager.addJob, same.jobsIndex, same.length]

theorem SameBooks.insertImage (same : left.SameBooks right) (path : Text)
    : (left.insertImage path).SameBooks (right.insertImage path) :=
  ⟨same.logger, same.maxThreads, same.jobs, same.jobsIndex,
    congrArg (path :: ·) same.loadedImages⟩

theorem SameBooks.eraseImage (same : left.SameBooks right) (path : Text)
    : (left.eraseImage path).SameBooks (right.eraseImage path) :=
  ⟨same.logger, same.maxThreads, same.jobs, same.jobsIndex,
    congrArg (List.erase · path) same.loadedImages⟩

/-- New validators reach the record of their job. -/
theorem SameBooks.setValidators (same : left.SameBooks right) (position : Nat)
    (info : FileInfo)
    : (left.onJob position (.setValidators info)).SameBooks
        (right.onJob position (.setValidators info)) := by
  let validated (record : JobRecord) : JobRecord :=
    { record with etag := info.etag, lastModified := info.lastModified }
  have sees : ∀ job : Job, Job.record (job.setValidators info) = validated job.record :=
    fun _ => rfl
  refine ⟨same.logger, same.maxThreads, ?_, same.jobsIndex, same.loadedImages⟩
  rw [onJob, onJob, map_modify sees, map_modify sees, same.jobs]

/-- The threads of a job are not in the books. -/
theorem sameBooks_setThreads (manager : MuldDownloadManager) (position : Nat)
    (threads : Threaded)
    : (manager.setThreads position threads).SameBooks manager := by
  refine ⟨rfl, rfl, ?_, rfl, rfl⟩
  have unseen : ∀ job : Job, Job.record { job with threads } = id job.record := fun _ => rfl
  rw [setThreads, onJob, map_modify unseen, List.modify_id]

end MuldDownloadManager

/-- The books are the same and so is everything that was done. -/
structure Dispatching.Alike (left right : Dispatching) : Prop where
  manager : left.manager.SameBooks right.manager
  events : left.events = right.events

theorem Dispatching.Alike.emit {left right : Dispatching} (alike : left.Alike right)
    (event : Event)
    : (left.emit event).Alike (right.emit event) :=
  ⟨alike.manager, congrArg (· ++ [event]) alike.events⟩

-----------------------------------------------------------------------------------------
-- The dispatcher looks at the books only
-----------------------------------------------------------------------------------------

namespace Dispatch

open Dispatching (Alike)
open MuldDownloadManager (SameBooks)

variable {α : Type} {conditions : RequestConditions} {request : PendingDownloadRequest}

theorem agree_getManager {next next' : MuldDownloadManager → Dispatch α}
    (agree
      : ∀ manager manager', SameBooks manager manager' →
          Agree Alike (next manager) (next' manager'))
    : Agree Alike (getManager >>= next) (getManager >>= next') := by
  intro state state' alike
  exact agree state.manager state'.manager alike.manager state state' alike

theorem agree_emit (event : Event) : Agree Alike (emit event) (emit event) :=
  agree_update fun _ _ alike => alike.emit event

theorem agree_onManager {change change' : MuldDownloadManager → MuldDownloadManager}
    (keeps
      : ∀ manager manager', SameBooks manager manager' →
          SameBooks (change manager) (change' manager'))
    : Agree Alike (onManager change) (onManager change') :=
  agree_update fun _ _ alike => ⟨keeps _ _ alike.manager, alike.events⟩

theorem agree_locked {mutex : Mutex} {body body' : Dispatch α} (agree : Agree Alike body body')
    : Agree Alike (locked mutex body) (locked mutex body') :=
  Agree.bracket (fun _ _ alike => alike.emit _) (fun _ _ alike => alike.emit _) agree

theorem agree_escaping (result : Except Exception α)
    : Agree Alike (escaping result) (escaping result) := by
  cases result with
  | ok value => exact agree_pure value
  | error exception => exact agree_throw _

theorem agree_invoke (isSet : Bool) (function : ClientFunction)
    : Agree Alike (invoke isSet function) (invoke isSet function) := by
  cases isSet with
  | true => exact agree_emit _
  | false => exact agree_pure ()

theorem agree_failBeforeEngineStart (code : ErrorCode) (detail : String)
    : Agree Alike (failBeforeEngineStart request code detail)
        (failBeforeEngineStart request code detail) :=
  (agree_emit _).bind fun _ => (agree_locked (agree_pure ())).bind fun _ => agree_invoke _ _

theorem agree_publish (job : Job) : Agree Alike (publish job) (publish job) := by
  refine agree_getManager fun manager manager' same => ?_
  rw [same.length]
  exact (agree_locked (agree_onManager fun _ _ same => same.addJob job)).bind fun _ =>
    agree_emit _

theorem agree_release (code : ErrorCode) (detail : String)
    : Agree Alike (release request code detail : Dispatch α) (release request code detail) :=
  (agree_onManager fun _ _ same => same.eraseImage request.imagePath).bind fun _ =>
    (agree_failBeforeEngineStart code detail).bind fun _ => agree_throw _

theorem agree_refuse (code : ErrorCode) (detail : String)
    : Agree Alike (refuse request code detail : Dispatch α) (refuse request code detail) :=
  agree_locked (agree_release code detail)

theorem agree_reserve : Agree Alike (reserve request) (reserve request) := by
  refine agree_locked (agree_getManager fun manager manager' same => ?_)
  rw [same.loadedImages]
  split
  · exact (agree_failBeforeEngineStart _ _).bind fun _ => agree_throw _
  · exact agree_onManager fun _ _ same => same.insertImage _

theorem agree_checkIndex (key : Text)
    : Agree Alike (checkIndex request key) (checkIndex request key) := by
  refine agree_locked (agree_getManager fun manager manager' same => ?_)
  rw [same.indexed]
  split
  · exact agree_release _ _
  · exact agree_pure ()

theorem agree_checkTarget (img : LoadedImage)
    : Agree Alike (checkTarget conditions request img)
        (checkTarget conditions request img) := by
  refine (agree_escaping _).bind fun found => ?_
  split
  · refine (agree_escaping _).bind fun localSize => ?_
    split
    · exact agree_refuse _ _
    · exact agree_pure ()
  · exact agree_refuse _ _

theorem agree_startLoaded (img : LoadedImage)
    : Agree Alike (startLoaded conditions request img)
        (startLoaded conditions request img) := by
  refine agree_getManager fun manager manager' same => ?_
  rw [same.maxThreads]
  exact (agree_escaping _).bind fun _ => agree_publish _

theorem agree_load
    : Agree Alike (load conditions request) (load conditions request) := by
  refine (agree_escaping _).bind fun read => ?_
  cases read with
  | none => exact agree_failBeforeEngineStart _ _
  | some img =>
      refine agree_reserve.bind fun _ => ?_
      split
      · exact agree_refuse _ _
      · exact agree_refuse _ _
      · split
        · exact (agree_checkIndex _).bind fun _ =>
            (agree_checkTarget _).bind fun _ => agree_startLoaded _
        · exact agree_refuse _ _

theorem agree_startDownload (url : Url) (info : FileInfo)
    : Agree Alike (startDownload conditions request url info)
        (startDownload conditions request url info) := by
  refine agree_getManager fun manager manager' same => ?_
  rw [same.maxThreads, same.length]
  dsimp only
  split
  · exact agree_failBeforeEngineStart _ _
  · exact agree_failBeforeEngineStart _ _
  · exact agree_throw _
  · exact (agree_publish _).bind fun _ =>
      agree_onManager fun _ _ same => same.setValidators _ info

/-- By induction on the hosts. -/
theorem agree_logHosts (hosts : List Text)
    : Agree Alike (logHosts hosts) (logHosts hosts) := by
  refine agree_getManager fun manager manager' same => ?_
  rw [same.logger]
  induction hosts with
  | nil => exact agree_pure _
  | cons host rest ih => exact (agree_invoke _ _).bind fun _ => ih

theorem agree_download
    : Agree Alike (download conditions request) (download conditions request) := by
  refine (agree_logHosts _).bind fun _ => (agree_escaping _).bind fun fetched => ?_
  split
  · exact agree_failBeforeEngineStart _ _
  · exact agree_failBeforeEngineStart _ _
  · exact agree_failBeforeEngineStart _ _
  · exact agree_startDownload _ _

theorem agree_processRequest
    : Agree Alike (processRequest conditions request) (processRequest conditions request) := by
  refine (agree_locked (agree_pure ())).bind fun _ => ?_
  split
  · exact agree_load
  · exact agree_download

end Dispatch

-----------------------------------------------------------------------------------------
-- The requests one after another
-----------------------------------------------------------------------------------------

/-- A request that the dispatcher has processed, and what it did for it. -/
structure Processed where
  conditions : RequestConditions
  request : PendingDownloadRequest
  events : List Event

/-- What the client asked for, without the handler. -/
def PendingDownloadRequest.asked (request : PendingDownloadRequest) : PendingDownloadRequest :=
  { request with handler := {} }

namespace MuldDownloadManager

/-- The books after some requests, and what the dispatcher does for each of them, when no job
runs.
-/
def processAll
    : MuldDownloadManager
        → List (RequestConditions × PendingDownloadRequest)
        → MuldDownloadManager × List (List Event)
  | manager, [] => (manager, [])
  | manager, (conditions, request) :: rest =>
      let dispatching := (manager.process conditions request).2
      let (last, events) := dispatching.manager.processAll rest
      (last, dispatching.events :: events)

/-- The last request meets the books that those before it have left, by induction on them. -/
theorem processAll_concat (manager : MuldDownloadManager)
    (requests : List (RequestConditions × PendingDownloadRequest))
    (conditions : RequestConditions) (request : PendingDownloadRequest)
    : manager.processAll (requests ++ [(conditions, request)])
        = let (middle, events) := manager.processAll requests
          let dispatching := (middle.process conditions request).2
          (dispatching.manager, events ++ [dispatching.events]) := by
  induction requests generalizing manager with
  | nil => rfl
  | cons first rest ih =>
      simp only [List.cons_append, processAll, ih]

/-- A round of the dispatcher is one with the same books. -/
theorem SameBooks.process {left right : MuldDownloadManager} (same : left.SameBooks right)
    (conditions : RequestConditions) (request : PendingDownloadRequest)
    : (left.process conditions request).2.Alike (right.process conditions request).2 := by
  have agree : Agree Dispatching.Alike (Dispatch.processRequest conditions request)
      (Dispatch.processRequest conditions request) :=
    Dispatch.agree_processRequest
  exact (agree { manager := left } { manager := right } ⟨same, rfl⟩).2

theorem step_request_eq {manager after : MuldDownloadManager}
    {conditions : RequestConditions} {request : PendingDownloadRequest}
    (taken : manager.step (.request conditions request) = some after)
    : after = (manager.process conditions request).2.manager := by
  simp only [step] at taken
  split at taken
  · cases taken
  · cases taken
  · rename_i dispatching found
    rw [found]
    exact (Option.some.inj taken).symm

theorem step_job_sameBooks {manager after : MuldDownloadManager} {position : Nat}
    {action : ThreadAction} (taken : manager.step (.job position action) = some after)
    : after.SameBooks manager := by
  cases step_cases taken with
  | job found moved => exact sameBooks_setThreads manager position _

end MuldDownloadManager

namespace Runtime

open MuldDownloadManager (SameBooks)

/-- The request that the dispatcher processes in a step. -/
def processes (runtime : Runtime) : RuntimeAction → Option Processed
  | .dispatch conditions commands =>
      match runtime.requests.consumers[dispatcher]? with
      | some (.running request) =>
          let request := { request with handler := request.handler.obeyAll commands }
          some {
            conditions
            request
            events := (runtime.manager.process conditions request).2.events
          }
      | _ => none
  | _ => none

variable {runtime after : Runtime} {meets : Runtime → RuntimeAction → Runtime → Prop}
  {maxThreads : Int} {logger : Bool} {log : List Processed}

/-- What the dispatcher was asked to process, with the conditions it met. -/
def inputs (log : List Processed) : List (RequestConditions × PendingDownloadRequest) :=
  log.map fun processed => (processed.conditions, processed.request)

/-- The books are those of the requests alone, and so is what was done for each. -/
structure Serial (maxThreads : Int) (logger : Bool) (runtime : Runtime) (log : List Processed)
    : Prop where
  books
    : runtime.manager.SameBooks
        ((MuldDownloadManager.create maxThreads logger).processAll (inputs log)).1
  events
    : log.map Processed.events
        = ((MuldDownloadManager.create maxThreads logger).processAll (inputs log)).2

theorem Serial.step (serial : runtime.Serial maxThreads logger log) {action : RuntimeAction}
    (taken : runtime.Step action after)
    : after.Serial maxThreads logger (log ++ (runtime.processes action).toList) := by
  cases taken with
  | dispatch runs unprocessed taken =>
      rename_i conditions commands request manager
      obtain rfl := MuldDownloadManager.step_request_eq taken
      simp only [processes, runs, Option.toList]
      have alike := serial.books.process conditions
        { request with handler := request.handler.obeyAll commands }
      constructor
      · rw [inputs, List.map_append, List.map_singleton, MuldDownloadManager.processAll_concat]
        exact alike.manager
      · rw [inputs, List.map_append, List.map_append, List.map_singleton, List.map_singleton,
          MuldDownloadManager.processAll_concat, serial.events, alike.events]
        rfl
  | work runs taken =>
      simp only [processes, Option.toList_none, List.append_nil]
      exact ⟨(MuldDownloadManager.step_job_sameBooks taken).trans serial.books, serial.events⟩
  | job elsewhere taken =>
      simp only [processes, Option.toList_none, List.append_nil]
      exact ⟨(MuldDownloadManager.step_job_sameBooks taken).trans serial.books, serial.events⟩
  | refused | push | requests | nextRequest | pool | nextTask =>
      simp only [processes, Option.toList_none, List.append_nil]
      exact ⟨serial.books, serial.events⟩

/-- Whatever the threads of the jobs do in between, every request has the outcome, the
callbacks and the effect on the books that it has when the requests are processed one after
another with no job running.
-/
theorem requests_serial
    (logged : Transition.Logged step meets processes (create maxThreads logger) runtime log)
    : runtime.Serial maxThreads logger log :=
  logged.invariant ⟨.refl _, rfl⟩ fun _ _ _ _ _ serial taken _ => serial.step (step_cases taken)

/-- A file is downloaded, an image that is not there is refused, and the dispatcher is
stopped.
-/
def servedRun : List RuntimeAction :=
  downloads 0 "f"
    ++ [.client (.load "g.muld".toList true), .requests (.notifyOne none), .requests (.look 0),
      .dispatch twentyBytes [], .nextRequest, .requests .stop, .requests (.look 0)]

/-- The dispatcher has returned. -/
def dispatcherReturned (runtime : Runtime) : Bool :=
  match runtime.requests.consumers[dispatcher]? with
  | some .returned => true
  | _ => false

/-- A download and a refused image have the effect that they have on their own. -/
theorem requests_serial_two
    : ∃ (runtime : Runtime) (log : List Processed),
        log.length = 2
        ∧ Serial 1 false runtime log := by
  obtain ⟨runtime, log, logged, two⟩ :=
    @Transition.exists_logged _ _ step Transition.anyStep (create 1 false) _ processes _
      servedRun (fun _ log => log.length == 2) (by decide +kernel)
  exact ⟨runtime, log, by simpa using two, requests_serial logged⟩

-----------------------------------------------------------------------------------------
-- Every request is served
-----------------------------------------------------------------------------------------

/-- No client makes a call on a manager that is being destroyed. -/
def CallsBeforeStop (before : Runtime) (action : RuntimeAction) (_ : Runtime) : Prop :=
  match action with
  | .client _ => before.requests.stopped = false
  | _ => True

instance (before : Runtime) (action : RuntimeAction) (after : Runtime)
    : Decidable (CallsBeforeStop before action after) := by
  cases action <;> unfold CallsBeforeStop <;> infer_instance

/-- What the dispatcher was asked to process is what it has finished, with the request that it
is through with.
-/
structure Served (runtime : Runtime) (log : List Processed) : Prop where
  between
    : runtime.processed = false
      → log.map (·.request.asked) = runtime.requests.finished.map (·.asked)
  during
    : runtime.processed = true
      → ∃ request,
          runtime.requests.consumers[dispatcher]? = some (.running request)
          ∧ log.map (·.request.asked) = (runtime.requests.finished ++ [request]).map (·.asked)

theorem Served.step (served : runtime.Served log) {action : RuntimeAction}
    (taken : runtime.Step action after)
    : after.Served (log ++ (runtime.processes action).toList) := by
  cases taken with
  | requests sync taken =>
      simp only [processes, Option.toList_none, List.append_nil]
      have moved := WorkQueue.step_cases taken
      obtain ⟨_, finished, _⟩ := moved.sync_cases sync
      constructor
      · intro processed
        rw [finished]
        exact served.between processed
      · intro processed
        obtain ⟨request, runs, same⟩ := served.during processed
        rw [finished]
        exact ⟨request, moved.still_running sync runs, same⟩
  | dispatch runs unprocessed taken =>
      rename_i conditions commands request manager
      simp only [processes, runs, Option.toList]
      refine ⟨nofun, fun _ => ⟨request, runs, ?_⟩⟩
      rw [List.map_append, List.map_append, served.between unprocessed]
      rfl
  | nextRequest processed attached taken =>
      simp only [processes, Option.toList_none, List.append_nil]
      obtain ⟨request, runs, same⟩ := served.during processed
      cases WorkQueue.step_cases taken with
      | finish consumer item held =>
          obtain rfl : request = item := by
            have equal := runs.symm.trans held
            cases equal
            rfl
          exact ⟨fun _ => same, nofun⟩
  | refused | push | pool | work | nextTask | job =>
      simp only [processes, Option.toList_none, List.append_nil]
      exact ⟨served.between, served.during⟩

theorem logged_served
    (logged : Transition.Logged step meets processes (create maxThreads logger) runtime log)
    : runtime.Served log :=
  logged.invariant ⟨fun _ => rfl, nofun⟩ fun _ _ _ _ _ served taken _ =>
    served.step (step_cases taken)

/-- Before the stop, requests are added only. -/
theorem ReachableWhile.requests_early
    (reached : ReachableWhile CallsBeforeStop maxThreads logger runtime)
    : WorkQueue.ReachableWhile .drain WorkQueue.AddsBeforeStop (.create 1)
        runtime.requests := by
  refine reached.project Runtime.requests fun before action after _ moved early => ?_
  cases step_cases moved with
  | push valid => exact Or.inr ⟨.add _, rfl, early⟩
  | requests sync taken =>
      refine Or.inr ⟨_, taken, ?_⟩
      rename_i action requests
      cases action with
      | add item => cases sync
      | _ => trivial
  | nextRequest processed attached taken => exact Or.inr ⟨_, taken, trivial⟩
  | refused | dispatch | pool | work | nextTask | job => exact Or.inl rfl

/-- The dispatcher processes the requests in the order of the calls, each once, and when it
has returned it has processed all of them.
-/
theorem requests_served
    (logged
      : Transition.Logged step CallsBeforeStop processes (create maxThreads logger) runtime log)
    : log.map (·.request.asked) <+: runtime.requests.added.map (·.asked)
      ∧ (runtime.requests.consumers[dispatcher]? = some .returned
        → log.map (·.request.asked) = runtime.requests.added.map (·.asked)) := by
  have reached := ReachableWhile.requests_early logged.reachable
  have served := logged_served logged
  have ordered := reached.ordered (WorkQueue.create_ordered 1)
  have single : runtime.requests.consumers.length = 1 := reached.consumers_length
  have inTurn : runtime.requests.InTurn := reached.inTurn rfl rfl
  have whole : runtime.requests.added
      = runtime.requests.finished ++ runtime.requests.running ++ runtime.requests.items := by
    rw [ordered.added, inTurn]
  constructor
  · cases processed : runtime.processed with
    | false =>
        rw [served.between processed, whole, List.append_assoc]
        exact (List.prefix_append _ _).map _
    | true =>
        obtain ⟨request, runs, same⟩ := served.during processed
        have running := WorkQueue.running_single single runs
        rw [same, whole, running]
        exact (List.prefix_append _ _).map _
  · intro returned
    have unprocessed : runtime.processed = false := by
      by_contra processed
      obtain ⟨request, runs, _⟩ := served.during (eq_true_of_ne_false processed)
      rw [returned] at runs
      cases runs
    have drained := reached.drained (WorkQueue.create_drained 1) (List.mem_of_getElem? returned)
    have running := WorkQueue.running_single single returned
    rw [served.between unprocessed, whole, running, drained.1]
    simp

/-- Both requests have been processed when the dispatcher has returned. -/
theorem requests_served_two
    : ∃ (runtime : Runtime) (log : List Processed),
        log.length = 2
        ∧ log.map (·.request.asked) = runtime.requests.added.map (·.asked) := by
  obtain ⟨runtime, log, logged, last⟩ :=
    @Transition.exists_logged _ _ step CallsBeforeStop (create 1 false) _ processes _
      servedRun (fun runtime log => log.length == 2 && runtime.dispatcherReturned)
      (by decide +kernel)
  obtain ⟨two, returned⟩ := Bool.and_eq_true_iff.mp last
  refine ⟨runtime, log, by simpa using two, (requests_served logged).2 ?_⟩
  rw [dispatcherReturned] at returned
  split at returned
  · assumption
  · cases returned

end Runtime

end Muld
