import Muld.Runtime

/-! What a round of the dispatcher does to `jobs_`: nothing, or it adds one engine that was
just constructed, at the entry of `AttachEngine` and with the handler of the request.
-/

namespace Muld

open Programs

-----------------------------------------------------------------------------------------
-- Engines that were just constructed
-----------------------------------------------------------------------------------------

/-- One connection is the least that the engine may get, and its target is in the bounds. -/
structure DownloadEngine.Planned (engine : DownloadEngine) : Prop where
  minConnections : engine.minConnections = 1
  lower : 1 ≤ engine.desiredConnections
  upper : engine.desiredConnections ≤ engine.maxConnections

/-- No thread has acted on the engine. -/
structure DownloadEngine.Unstarted (engine : DownloadEngine) : Prop where
  state : engine.state = .initialized
  pendingWork : engine.pendingWork = []
  nextWorkItem : engine.nextWorkItem = 0
  nConnections : engine.nConnections = 0
  scheduledConnections : engine.scheduledConnections = 0
  writer : engine.writer = true
  artifactsCleaned : engine.artifactsCleaned = false
  diskLocked : engine.diskLocked = false
  callbacksAttached : engine.callbacksAttached = false
  nChunks : engine.nChunks < sizeModulus
  planned : engine.Planned

/-- The dispatcher sets the bounds, the target and the limit of an engine before others see
it.
-/
theorem DownloadEngine.Unstarted.prepare {engine : DownloadEngine}
    (unstarted : engine.Unstarted) (maxConnections desired : Int) (speedLimitBps : Nat)
    : Unstarted
        { (engine.setConnectionBounds 1 maxConnections).setDesiredConnections desired with
          speedLimitBps } := by
  have planned : ((engine.setConnectionBounds 1 maxConnections).setDesiredConnections
      desired).Planned := by
    simp only [setDesiredConnections_eq, setConnectionBounds_eq_desired, setBounds]
    have lowest : max 1 (if engine.ranged then 1 else 1) = (1 : Int) := by simp
    refine ⟨lowest, ?_, ?_⟩ <;> simp only [clampDesired, lowest] <;> omega
  simp only [setDesiredConnections_eq, setConnectionBounds_eq_desired] at planned ⊢
  obtain ⟨state, pendingWork, nextWorkItem, nConnections, scheduled, writer, cleaned, disk,
    callbacks, chunks, _⟩ := unstarted
  exact ⟨state, pendingWork, nextWorkItem, nConnections, scheduled, writer, cleaned, disk,
    callbacks, chunks, planned.minConnections, planned.lower, planned.upper⟩

theorem create_unstarted (maxConnections : Int) (fileSize : Nat) (ranged : Bool) {nChunks : Nat}
    [NeZero nChunks] (fits : nChunks < sizeModulus)
    : (DownloadEngine.create maxConnections fileSize ranged nChunks).Unstarted := by
  constructor
  case nChunks => simpa [DownloadEngine.create, DownloadEngine.nChunks] using fits
  case planned =>
    have positive : 1 ≤ if ranged then max 1 maxConnections else 1 := by split <;> omega
    refine ⟨rfl, ?_, ?_⟩ <;> simp only [DownloadEngine.create] <;> omega
  all_goals rfl

theorem ofImage_unstarted {image : JobImage} (fits : image.chunks.length < sizeModulus)
    : (DownloadEngine.ofImage image).Unstarted := by
  constructor
  case nChunks => simpa [DownloadEngine.ofImage, DownloadEngine.nChunks] using fits
  case planned =>
    have positive : 1 ≤ if image.ranged then max 1 image.maxConnections else 1 := by
      split <;> omega
    refine ⟨rfl, ?_, ?_⟩ <;> simp only [DownloadEngine.ofImage] <;> omega
  all_goals rfl

/-- A vector has fewer chunks than a `size_t` can count. -/
theorem Host.resizeChunks_ok {host : Host} {nChunks : Nat}
    (resized : host.resizeChunks nChunks = .ok ())
    : nChunks < sizeModulus := by
  have bound : Disk.maxObjectSize / chunkInfoSize < sizeModulus := by decide
  have positive : 0 < sizeModulus := by decide
  rw [resizeChunks] at resized
  split at resized
  · omega
  · split at resized
    · cases resized
    · omega

theorem newDownload_unstarted {host : Host} {info : FileInfo}
    {maxConnections initialConnections : Int} {speedLimitBps : Nat} {engine : DownloadEngine}
    (built
      : newDownload host info maxConnections initialConnections speedLimitBps = .ok engine)
    : engine.Unstarted := by
  obtain ⟨job, constructed, rfl⟩ := newDownload_eq_ok built
  obtain ⟨_, resized, some_chunk, rfl⟩ := DownloadEngine.construct_ok constructed
  exact (create_unstarted _ _ _ (Host.resizeChunks_ok resized)).prepare _ _ _

theorem loadedDownload_unstarted {host : Host} {img : LoadedImage} {url : Url}
    {engine : DownloadEngine} {speedLimitBps : Nat} {maxThreads : Int}
    (built : loadedDownload host img speedLimitBps maxThreads = .ok (url, engine))
    : engine.Unstarted := by
  obtain ⟨_, _, resized, _⟩ := loadedDownload_ok built
  simp only [loadedDownload, DownloadEngine.constructLoaded, bind, Except.bind] at built
  split at built
  · cases built
  · rename_i constructed
    split at constructed
    · cases constructed
    · split at constructed
      · cases constructed
      · split at constructed
        · cases constructed
        · cases constructed
          cases built
          exact (ofImage_unstarted (Host.resizeChunks_ok resized)).prepare _ _ _

/-- The job as it is before its `AttachEngine`, whose handler nobody has used. -/
def Sys.unattached (shared : Shared) : Sys where
  shared := { shared with handler := {} }
  workers := []
  calls := []
  dispatched := false

/-- The job of an engine that the dispatcher has just constructed. -/
def Sys.launched (engine : DownloadEngine) (file : Nat → Byte) (image : ImageFile)
    (maxThreads : Int) : Sys :=
  unattached {
    engine
    handler := {}
    output := some file
    image
    maxThreads
    history := {}
    nullWriter := false
  }

theorem DownloadEngine.Unstarted.launched {engine : DownloadEngine}
    (unstarted : engine.Unstarted) (file : Nat → Byte) (image : ImageFile) (maxThreads : Int)
    : (Sys.launched engine file image maxThreads).Built := by
  obtain ⟨state, pendingWork, nextWorkItem, nConnections, scheduled, writer, cleaned, disk,
    callbacks, chunks, _⟩ := unstarted
  exact ⟨rfl, rfl, state, pendingWork, nextWorkItem, nConnections, scheduled, writer, cleaned,
    disk, callbacks, rfl, rfl, rfl, chunks⟩

/-- The job has an engine that was just constructed, and is about to be attached. -/
def Job.JustBuilt (handler : SharedState) (job : Job) : Prop :=
  ∃ shared,
    (Sys.unattached shared).Built
    ∧ shared.engine.Planned
    ∧ job.threads = .attaching { shared with handler }

theorem DownloadEngine.Unstarted.justBuilt {engine : DownloadEngine}
    (unstarted : engine.Unstarted) {job : Job} {handler : SharedState} {file : Nat → Byte}
    {image : ImageFile} {maxThreads : Int}
    (threads
      : job.threads = .attaching {
          engine
          handler
          output := some file
          image
          maxThreads
          history := {}
          nullWriter := false
        })
    : job.JustBuilt handler :=
  ⟨_, unstarted.launched file image maxThreads, unstarted.planned, threads⟩

-----------------------------------------------------------------------------------------
-- Programs that leave the jobs alone
-----------------------------------------------------------------------------------------

/-- The jobs in the books are these. -/
def Dispatching.HasJobs (jobs : List Job) (dispatching : Dispatching) : Prop :=
  dispatching.manager.jobs = jobs

/-- The jobs in the books are these and perhaps a new one, just built for the request. -/
def Dispatching.MayAdd (handler : SharedState) (jobs : List Job) (dispatching : Dispatching)
    : Prop :=
  dispatching.manager.jobs = jobs
    ∨ ∃ job, job.JustBuilt handler ∧ dispatching.manager.jobs = jobs ++ [job]

namespace Dispatch

open Dispatching (HasJobs MayAdd)

variable {α β : Type} {program : Dispatch α} {conditions : RequestConditions}
  {request : PendingDownloadRequest} {jobs : List Job}

/-- However the program ends, the jobs are what they were. -/
def Quiet (program : Dispatch α) : Prop :=
  ∀ jobs, Meets (HasJobs jobs) program (fun _ => HasJobs jobs) (fun _ => HasJobs jobs)

theorem Quiet.bind {next : α → Dispatch β} (quiet : Quiet program)
    (quiet_next : ∀ value, Quiet (next value))
    : Quiet (program >>= next) :=
  fun jobs => (quiet jobs).bind fun value => quiet_next value jobs

theorem quiet_pure (value : α) : Quiet (pure value : Dispatch α) := fun _ _ same => same

theorem quiet_throw (exit : Exit) : Quiet (throw exit : Dispatch α) := fun _ _ same => same

theorem quiet_emit (event : Event) : Quiet (emit event) := fun _ _ same => same

theorem quiet_getManager : Quiet getManager := fun _ _ same => same

theorem quiet_onManager {change : MuldDownloadManager → MuldDownloadManager}
    (keeps : ∀ manager, (change manager).jobs = manager.jobs)
    : Quiet (onManager change) :=
  fun _ _ same => (keeps _).trans same

theorem Quiet.locked {mutex : Mutex} (quiet : Quiet program)
    : Quiet (Dispatch.locked mutex program) :=
  fun jobs => Meets.bracket (fun _ same => same) (quiet jobs)

theorem quiet_escaping (result : Except Exception α) : Quiet (escaping result) := by
  cases result with
  | ok value => exact quiet_pure value
  | error exception => exact quiet_throw _

theorem quiet_invoke (isSet : Bool) (function : ClientFunction)
    : Quiet (invoke isSet function) := by
  cases isSet with
  | true => exact quiet_emit _
  | false => exact quiet_pure ()

theorem quiet_failBeforeEngineStart (code : ErrorCode) (detail : String)
    : Quiet (failBeforeEngineStart request code detail) :=
  (quiet_emit _).bind fun _ => (quiet_pure ()).locked.bind fun _ => quiet_invoke _ _

theorem quiet_reserve : Quiet (reserve request) := by
  refine (quiet_getManager.bind fun manager => ?_).locked
  split
  · exact (quiet_failBeforeEngineStart _ _).bind fun _ => quiet_throw _
  · exact quiet_onManager fun _ => rfl

theorem quiet_release (code : ErrorCode) (detail : String)
    : Quiet (release request code detail : Dispatch α) :=
  have erases : Quiet (onManager (.eraseImage request.imagePath)) :=
    quiet_onManager fun _ => rfl
  erases.bind fun _ => (quiet_failBeforeEngineStart _ _).bind fun _ => quiet_throw _

theorem quiet_refuse (code : ErrorCode) (detail : String)
    : Quiet (refuse request code detail : Dispatch α) :=
  (quiet_release code detail).locked

theorem quiet_checkIndex (key : Text) : Quiet (checkIndex request key) := by
  refine (quiet_getManager.bind fun manager => ?_).locked
  split
  · exact quiet_release _ _
  · exact quiet_pure ()

theorem quiet_checkTarget (img : LoadedImage) : Quiet (checkTarget conditions request img) := by
  refine (quiet_escaping _).bind fun found => ?_
  split
  · refine (quiet_escaping _).bind fun localSize => ?_
    split
    · exact quiet_refuse _ _
    · exact quiet_pure ()
  · exact quiet_refuse _ _

/-- By induction on the hosts. -/
theorem quiet_logHosts (hosts : List Text) : Quiet (logHosts hosts) := by
  refine quiet_getManager.bind fun manager => ?_
  induction hosts with
  | nil => exact quiet_pure _
  | cons host rest ih => exact (quiet_invoke _ _).bind fun _ => ih

-----------------------------------------------------------------------------------------
-- Programs that may add a job
-----------------------------------------------------------------------------------------

/-- However the program ends, it has left the jobs alone or added one for the request. -/
def AddsOne (request : PendingDownloadRequest) (program : Dispatch Unit) : Prop :=
  ∀ jobs,
    Meets (HasJobs jobs) program (fun _ => MayAdd request.handler jobs)
      (fun _ => MayAdd request.handler jobs)

theorem Quiet.addsOne {program : Dispatch Unit} (quiet : Quiet program)
    : AddsOne request program :=
  fun jobs => (quiet jobs).weaken (fun _ same => same) (fun _ _ same => Or.inl same)
    (fun _ _ same => Or.inl same)

theorem Quiet.before {next : α → Dispatch Unit} (quiet : Quiet program)
    (adds : ∀ value, AddsOne request (next value))
    : AddsOne request (program >>= next) := by
  intro jobs
  refine Meets.bind ((quiet jobs).weaken (fun _ same => same) (fun _ _ same => same) ?_)
    fun value => adds value jobs
  exact fun _ _ same => Or.inl same

/-- What does not throw goes on with its value. -/
theorem addsOne_escaping {result : Except Exception α} {next : α → Dispatch Unit}
    (adds : ∀ value, result = .ok value → AddsOne request (next value))
    : AddsOne request (escaping result >>= next) :=
  fun jobs =>
    bind_escaping (fun value same => adds value same jobs) fun _ _ _ same => Or.inl same

/-- A change of the element behind a list. -/
theorem modify_last {τ : Type*} (items : List τ) (last : τ) (change : τ → τ)
    : (items ++ [last]).modify items.length change = items ++ [change last] := by
  rw [List.modify_eq_take_cons_drop (by simp)]
  simp

/-- A program that looks at the books finds the jobs in them. -/
theorem bind_getJobs {next : MuldDownloadManager → Dispatch α}
    {post : α → Dispatching → Prop} {early : Exit → Dispatching → Prop}
    (meets : ∀ manager, manager.jobs = jobs → Meets (HasJobs jobs) (next manager) post early)
    : Meets (HasJobs jobs) (getManager >>= next) post early := by
  have found : Meets (HasJobs jobs) getManager
      (fun manager dispatching => manager.jobs = jobs ∧ HasJobs jobs dispatching) early :=
    fun _ same => ⟨same, same⟩
  exact found.bind fun manager => Meets.assuming fun same => meets manager same

/-- A published job is at the end of the books. -/
theorem meets_publish_jobs {job : Job} {early : Exit → Dispatching → Prop}
    : Meets (HasJobs jobs) (publish job) (fun _ => HasJobs (jobs ++ [job])) early := by
  refine bind_getJobs fun manager _ => ?_
  have pushed
      : Meets (HasJobs jobs) (locked .jobs (onManager (.addJob job)))
          (fun _ => HasJobs (jobs ++ [job])) early :=
    Meets.bracket (fun _ same => same) fun _ same => congrArg (· ++ [job]) same
  exact pushed.bind fun _ => meets_update fun _ same => same

theorem addsOne_startLoaded (img : LoadedImage)
    : AddsOne request (startLoaded conditions request img) := by
  refine quiet_getManager.before fun manager => addsOne_escaping ?_
  rintro ⟨url, engine⟩ built jobs
  refine meets_publish_jobs.weaken (fun _ same => same) ?_ (fun _ _ => False.elim)
  exact fun _ _ same => Or.inr ⟨_, (loadedDownload_unstarted built).justBuilt rfl, same⟩

theorem addsOne_load : AddsOne request (load conditions request) := by
  refine addsOne_escaping ?_
  rintro (_ | img) _
  · exact (quiet_failBeforeEngineStart _ _).addsOne
  · refine quiet_reserve.before fun _ => ?_
    split
    · exact (quiet_refuse _ _).addsOne
    · exact (quiet_refuse _ _).addsOne
    · split
      · exact (quiet_checkIndex _).before fun _ =>
          (quiet_checkTarget _).before fun _ => addsOne_startLoaded _
      · exact (quiet_refuse _ _).addsOne

theorem addsOne_startDownload (url : Url) (info : FileInfo)
    : AddsOne request (startDownload conditions request url info) := by
  intro jobs
  refine bind_getJobs fun manager found => ?_
  dsimp only
  split
  · exact (quiet_failBeforeEngineStart _ _).addsOne jobs
  · exact (quiet_failBeforeEngineStart _ _).addsOne jobs
  · exact (quiet_throw _).addsOne jobs
  · rename_i engine built
    refine meets_publish_jobs.bind fun _ => meets_update fun dispatching same => ?_
    subst found
    have added := congrArg (List.modify · manager.jobs.length (.setValidators info)) same
    simp only [modify_last] at added
    refine Or.inr ⟨_, ?_, added⟩
    exact (newDownload_unstarted built).justBuilt rfl

theorem addsOne_download : AddsOne request (download conditions request) := by
  refine (quiet_logHosts _).before fun _ => addsOne_escaping ?_
  intro fetched _
  split
  · exact (quiet_failBeforeEngineStart _ _).addsOne
  · exact (quiet_failBeforeEngineStart _ _).addsOne
  · exact (quiet_failBeforeEngineStart _ _).addsOne
  · exact addsOne_startDownload _ _

theorem addsOne_processRequest : AddsOne request (processRequest conditions request) := by
  refine (quiet_pure ()).locked.before fun _ => ?_
  split
  · exact addsOne_load
  · exact addsOne_download

end Dispatch

namespace MuldDownloadManager

/-- A round of the dispatcher leaves `jobs_` alone or adds an engine that was just
constructed, with the handler of the request.
-/
theorem step_request_jobs {manager after : MuldDownloadManager}
    {conditions : RequestConditions} {request : PendingDownloadRequest}
    (taken : manager.step (.request conditions request) = some after)
    : after.jobs = manager.jobs
      ∨ ∃ job, job.JustBuilt request.handler ∧ after.jobs = manager.jobs ++ [job] := by
  have adds : Dispatch.AddsOne request (Dispatch.processRequest conditions request) :=
    Dispatch.addsOne_processRequest
  have ends := adds manager.jobs { manager } rfl
  simp only [step, process] at taken
  generalize ending (Dispatch.processRequest conditions request) { manager } = ended
    at ends taken
  obtain ⟨(_ | exception | _) | done, dispatching⟩ := ended
  · exact Option.some.inj taken ▸ ends
  · cases taken
  · cases taken
  · exact Option.some.inj taken ▸ ends

end MuldDownloadManager

end Muld
