import Muld.Fetching
import Muld.Reentrancy
import Muld.StoredJob
import Muld.Library.LockTraces
import Muld.Library.Programs

/-! `DownloadDispatcherLoop`: what becomes of one pending request. The dispatcher is the only
thread that writes the books of the manager; it takes `jobs_mtx_` for each access and gives it
back between them.
-/

namespace Muld

open FileStreams LockTraces Programs

-----------------------------------------------------------------------------------------
-- The manager
-----------------------------------------------------------------------------------------

/-- An engine of `jobs_` with its handler and the threads that run their methods. -/
structure Job where
  outputPath : Text
  url : Url
  etag : Text
  lastModified : Text
  threads : Threaded

def identityKey (outputPath url : Text) : Text := outputPath ++ '\n' :: url

/-- `GetIdentityKey`. -/
def Job.getIdentityKey (job : Job) : Text := identityKey job.outputPath (getUrlString job.url)

def Job.setValidators (info : FileInfo) (job : Job) : Job :=
  { job with etag := info.etag, lastModified := info.lastModified }

structure MuldDownloadManager where
  /-- `logger_` is set. -/
  logger : Bool
  maxThreads : Int
  jobs : List Job
  /-- The positions in `jobs_` of the engines that the keys lead to. -/
  jobsIndex : Text → Option Nat
  loadedImages : List Text

/-- A manager without jobs. -/
def MuldDownloadManager.create (maxThreads : Int) (logger : Bool) : MuldDownloadManager where
  logger
  maxThreads := max 1 maxThreads
  jobs := []
  jobsIndex := fun _ => none
  loadedImages := []

/-- The key leads to an engine; one in `jobs_` has not expired. -/
def MuldDownloadManager.indexed (manager : MuldDownloadManager) (key : Text) : Bool :=
  (manager.jobsIndex key).any (· < manager.jobs.length)

/-- Add an engine at the end of `jobs_` and under its key. -/
def MuldDownloadManager.addJob (job : Job) (manager : MuldDownloadManager)
    : MuldDownloadManager :=
  { manager with
    jobs := manager.jobs ++ [job]
    jobsIndex := Function.update manager.jobsIndex job.getIdentityKey manager.jobs.length }

def MuldDownloadManager.onJob (position : Nat) (change : Job → Job)
    (manager : MuldDownloadManager) : MuldDownloadManager :=
  { manager with jobs := manager.jobs.modify position change }

def MuldDownloadManager.insertImage (path : Text) (manager : MuldDownloadManager)
    : MuldDownloadManager :=
  { manager with loadedImages := path :: manager.loadedImages }

def MuldDownloadManager.eraseImage (path : Text) (manager : MuldDownloadManager)
    : MuldDownloadManager :=
  { manager with loadedImages := manager.loadedImages.erase path }

inductive RequestKind
  | download
  | load
deriving DecidableEq, Repr

structure PendingDownloadRequest where
  kind : RequestKind
  url : Url := {}
  destination : Text := []
  speedLimitBps : Nat := 0
  imagePath : Text := []
  /-- The handler has an `on_error`. -/
  onError : Bool
  handler : SharedState := {}

-----------------------------------------------------------------------------------------
-- Images and engines
-----------------------------------------------------------------------------------------

/-- A `JobImage` with its strings as texts. -/
structure LoadedImage where
  filePath : Text
  url : Text
  etag : Text
  lastModified : Text
  job : JobImage
deriving DecidableEq, Repr

def textOf (field : Disk.StringField) : Text := field.items.map fun byte => .ofNat byte.toNat

def LoadedImage.ofDisk (image : Disk.JobImage) : LoadedImage where
  filePath := textOf image.filePath
  url := textOf image.url
  etag := textOf image.etag
  lastModified := textOf image.lastModified
  job := .ofDisk image

/-- The files, the memory and the network while the dispatcher processes one request. -/
structure RequestConditions where
  /-- The content of the image file, if it can be opened. -/
  imageFile : Option Bytes := none
  /-- There is memory for buffers of these sizes. -/
  grants : List Nat → Bool := fun _ => true
  answers : Nat → Answer
  /-- `std::filesystem::exists` of the path in the image. -/
  targetExists : Except Exception Bool := .ok true
  /-- `std::filesystem::file_size` of it. -/
  targetSize : Except Exception Nat := .ok 0
  host : Host := {}
  /-- What the output file holds when the engine has opened it. -/
  output : Nat → Byte := fun _ => 0

/-- `ReadImageFromDisk`: none where it returns false, and the exceptions of its buffers. -/
def RequestConditions.readImageFromDisk (conditions : RequestConditions)
    : Except Exception (Option LoadedImage) :=
  match conditions.imageFile with
  | none => .ok none
  | some content =>
      let (result, reading) := Disk.readImage {} ⟨.between [] content, []⟩
      if conditions.grants reading.asked then
        match result with
        | .ok (image, _) => .ok (some (.ofDisk image))
        | .error .refused => .ok none
        | .error .lengthError => .error (.other "length_error")
      else .error (.other "std::bad_alloc")

/-- What the server says about the URL in an image. -/
def resolveImage (conditions : RequestConditions) (img : LoadedImage)
    : Except Exception (Option (FileInfo × Url)) := do
  let url ← parseUrl img.url
  resolveValidatedFileInfo conditions.answers maxRedirectAllow 0 url

/-- `MatchesStoredFile`. -/
def matchesStoredFile (img : LoadedImage) (info : FileInfo) : Bool :=
  !(0 < img.job.fileSize && 0 < info.totalSize && img.job.fileSize != info.totalSize)
    && !(img.etag != [] && info.etag != [] && img.etag != info.etag)
    && !(img.lastModified != [] && info.lastModified != []
      && img.lastModified != info.lastModified)

/-- The image with what the server says now. -/
def LoadedImage.correct (info : FileInfo) (correctedUrl : Url) (img : LoadedImage)
    : LoadedImage :=
  { img with
    url := getUrlString correctedUrl
    etag := info.etag
    lastModified := info.lastModified
    job := { img.job with fileSize := info.totalSize, ranged := info.supportsRange } }

/-- The constructor of an engine from an image. -/
def DownloadEngine.constructLoaded (host : Host) (image : LoadedImage)
    : Except Exception (Url × DownloadEngine) := do
  let url ← parseUrl image.url
  host.openWriter image.job.fileSize
  host.resizeChunks image.job.chunks.length
  return (url, .ofImage image.job)

/-- `PER_JOB_CONNECTION_CAP`. -/
def perJobConnectionCap : Int := 8

/-- A `double` converted to `int`. For a value out of range C++ promises nothing; this is
what x86-64 makes of it.
-/
def doubleToInt (value : Nat) : Int := if value ≤ intMax then value else -(2 ^ 31)

/-- `by_speed`: one connection for each started MiB a second and one more. -/
def connectionsBySpeed (speedLimitBps : Nat) : Int :=
  Int.bmod (doubleToInt (speedLimitBps ⌈/⌉ (1024 * 1024)) + 1) (2 ^ 32)

/-- `ComputeMaxConnections`. -/
def computeMaxConnections (supportsRange : Bool) (speedLimitBps : Nat) (globalCapacity : Int)
    : Int :=
  if supportsRange = false ∨ globalCapacity ≤ 1 then 1
  else
    let cap := max 1 (min globalCapacity perJobConnectionCap)
    if speedLimitBps = 0 then cap else max 1 (min (connectionsBySpeed speedLimitBps) cap)

theorem computeMaxConnections_mem (supportsRange : Bool) (speedLimitBps : Nat)
    (globalCapacity : Int)
    : 1 ≤ computeMaxConnections supportsRange speedLimitBps globalCapacity
      ∧ computeMaxConnections supportsRange speedLimitBps globalCapacity
          ≤ max 1 (min globalCapacity perJobConnectionCap) := by
  unfold computeMaxConnections
  split
  · omega
  · dsimp only
    split <;> omega

/-- `ComputeInitialDesiredConnections`. -/
def computeInitialDesiredConnections (speedLimitBps : Nat) (maxConnections : Int) : Int :=
  if maxConnections ≤ 1 then 1
  else if 0 < speedLimitBps ∧ speedLimitBps ≤ 512 * 1024 then 1
  else min 2 maxConnections

/-- The engine that the dispatcher makes for an image. -/
def loadedDownload (host : Host) (image : LoadedImage) (speedLimitBps : Nat)
    (maxThreads : Int) : Except Exception (Url × DownloadEngine) := do
  let (url, job) ← DownloadEngine.constructLoaded host image
  let maxConnections := computeMaxConnections image.job.ranged speedLimitBps maxThreads
  let initialConnections := max 1 (min (max 1 image.job.maxConnections) maxConnections)
  let job := job.setConnectionBounds 1 maxConnections
  let job := job.setDesiredConnections initialConnections
  return (url, { job with speedLimitBps })

/-- The threads of a job at the entry of `AttachEngine`, which runs on the dispatcher. -/
def Threaded.attaching (shared : Shared) : Threaded where
  sys := { shared, workers := [], calls := [Api.attachEngine.entry], dispatched := true }
  callers := [none]
  hosts := [none]
  inside := []

-----------------------------------------------------------------------------------------
-- Events
-----------------------------------------------------------------------------------------

inductive Mutex
  | jobs
  | pending
  /-- `mtx` of the handler. -/
  | handler
  | callbacks
  | disk
  | rate
  | speed
  | error
  | wait
  /-- `mtx_` of the thread pool. -/
  | pool
deriving DecidableEq, Repr

/-- The functions of the client that the library invokes. -/
inductive ClientFunction
  | logger (message : String)
  | onProgress
  | onChunkProgress
  | onStateChange
  | onFinish
  | onError
deriving DecidableEq, Repr

inductive Deed
  | callback (function : ClientFunction)
  | failBeforeEngineStart (error : MuldError)
  /-- `AttachEngine` with the engine at this position, whose callbacks run on the thread. -/
  | attachEngine (position : Nat)
deriving DecidableEq, Repr

abbrev Event := LockEvent Mutex Deed

/-- What may run code of the client. -/
def Deed.exposed : Deed → Bool
  | .callback _ | .attachEngine _ => true
  | .failBeforeEngineStart _ => false

/-- What ends a request. -/
def Deed.isOutcome : Deed → Bool
  | .attachEngine _ | .failBeforeEngineStart _ => true
  | .callback _ => false

/-- The outcomes among some events. -/
def outcomes (events : List Event) : List Deed := (deeds events).filter Deed.isOutcome

-----------------------------------------------------------------------------------------
-- One request
-----------------------------------------------------------------------------------------

/-- The books of the manager, and what the dispatcher has done for the request. -/
structure Dispatching where
  manager : MuldDownloadManager
  events : List Event := []

/-- How the processing of a request ends before its last statement. -/
inductive Exit
  /-- `continue`. -/
  | next
  /-- An exception leaves the loop. -/
  | thrown (exception : Exception)
  /-- A signal ends the process. -/
  | killed
deriving DecidableEq, Repr

abbrev Dispatch := Program Dispatching Exit

def Dispatching.emit (event : Event) (dispatching : Dispatching) : Dispatching :=
  { dispatching with events := dispatching.events ++ [event] }

namespace Dispatch

variable {α : Type}

def emit (event : Event) : Dispatch Unit := update (Dispatching.emit event)

def getManager : Dispatch MuldDownloadManager := do
  return (← get).manager

def onManager (change : MuldDownloadManager → MuldDownloadManager) : Dispatch Unit :=
  update fun dispatching => { dispatching with manager := change dispatching.manager }

/-- Run a body with a mutex locked; it is unlocked however the body ends. -/
def locked (mutex : Mutex) (body : Dispatch α) : Dispatch α :=
  bracket (Dispatching.emit (.lock mutex)) (Dispatching.emit (.unlock mutex)) body

/-- Go on with a result; nothing here catches an exception. -/
def escaping (result : Except Exception α) : Dispatch α := throwing (result.mapError .thrown)

/-- Invoke a function of the client, if it is set. -/
def invoke (isSet : Bool) (function : ClientFunction) : Dispatch Unit :=
  if isSet then emit (.act (.callback function)) else pure ()

/-- `FailBeforeEngineStart`. -/
def failBeforeEngineStart (request : PendingDownloadRequest) (code : ErrorCode)
    (detail : String) : Dispatch Unit := do
  emit (.act (.failBeforeEngineStart { code, detail }))
  locked .handler (pure ())
  invoke request.onError .onError

/-- Put the engine into the books and attach it to the handler of the request. -/
def publish (job : Job) : Dispatch Unit := do
  let manager ← getManager
  locked .jobs (onManager (.addJob job))
  emit (.act (.attachEngine manager.jobs.length))

-----------------------------------------------------------------------------------------
-- A Load
-----------------------------------------------------------------------------------------

/-- Reserve the image, unless it is loaded already. -/
def reserve (request : PendingDownloadRequest) : Dispatch Unit :=
  locked .jobs do
    let manager ← getManager
    if request.imagePath ∈ manager.loadedImages then
      failBeforeEngineStart request .duplicateJob "Job already loaded"
      throw .next
    else onManager (.insertImage request.imagePath)

/-- Undo the reservation, fail and go on with the next request. -/
def release (request : PendingDownloadRequest) (code : ErrorCode) (detail : String)
    : Dispatch α := do
  onManager (.eraseImage request.imagePath)
  failBeforeEngineStart request code detail
  throw .next

/-- The exits of a `Load` behind the reservation; they run inside the lock. -/
def refuse (request : PendingDownloadRequest) (code : ErrorCode) (detail : String)
    : Dispatch α :=
  locked .jobs (release request code detail)

/-- Refuse an image whose job has an engine. -/
def checkIndex (request : PendingDownloadRequest) (key : Text) : Dispatch Unit :=
  locked .jobs do
    let manager ← getManager
    if manager.indexed key then
      release request .fetchFileInfoFailed "Attachment does not match with current content"
    else pure ()

/-- Refuse an image whose file is not there or has another size. -/
def checkTarget (conditions : RequestConditions) (request : PendingDownloadRequest)
    (img : LoadedImage) : Dispatch Unit := do
  if ← escaping conditions.targetExists then
    let localSize ← escaping conditions.targetSize
    if 0 < img.job.fileSize ∧ localSize ≠ img.job.fileSize then
      refuse request .diskError "Target file size does not match stored job image"
    else pure ()
  else refuse request .diskError "Target file is missing on disk"

/-- Construct the engine of an image and publish it. Its output and its image are files of its
own, as they are in the source while no other job has them; the image is the one beside the
output, where the engine stores it.
-/
def startLoaded (conditions : RequestConditions) (request : PendingDownloadRequest)
    (img : LoadedImage) : Dispatch Unit := do
  let manager ← getManager
  let (url, engine) ←
    escaping (loadedDownload conditions.host img request.speedLimitBps manager.maxThreads)
  publish {
    outputPath := img.filePath
    url
    etag := img.etag
    lastModified := img.lastModified
    threads := .attaching {
      engine
      handler := request.handler
      output := some conditions.output
      image := .stored img.job.chunks
      maxThreads := manager.maxThreads
      history := {}
      nullWriter := false
    }
  }

def load (conditions : RequestConditions) (request : PendingDownloadRequest)
    : Dispatch Unit := do
  match ← escaping conditions.readImageFromDisk with
  | none => failBeforeEngineStart request .diskError "Can not load download"
  | some img =>
      reserve request
      match resolveImage conditions img with
      | .error exception => refuse request .invalidRequest exception.what
      | .ok none => refuse request .fetchFileInfoFailed "Failed to fetch URL"
      | .ok (some (info, correctedUrl)) =>
          if matchesStoredFile img info then
            let img := img.correct info correctedUrl
            checkIndex request (identityKey img.filePath img.url)
            checkTarget conditions request img
            startLoaded conditions request img
          else
            refuse request .fetchFileInfoFailed
              "Attachment does not match with current content"

-----------------------------------------------------------------------------------------
-- A Download
-----------------------------------------------------------------------------------------

/-- The line that the dispatcher logs before a request. -/
def connectingMessage (host : Text) : String :=
  "Resolving and connecting to " ++ String.ofList host ++ "..."

def logHosts (hosts : List Text) : Dispatch Unit := do
  let manager ← getManager
  hosts.forM fun host => invoke manager.logger (.logger (connectingMessage host))

/-- Construct the engine of a fresh download and publish it, with files of its own. -/
def startDownload (conditions : RequestConditions) (request : PendingDownloadRequest)
    (url : Url) (info : FileInfo) : Dispatch Unit := do
  let manager ← getManager
  let maxConnections :=
    computeMaxConnections info.supportsRange request.speedLimitBps manager.maxThreads
  let initialConnections :=
    computeInitialDesiredConnections request.speedLimitBps maxConnections
  match
    newDownload conditions.host info maxConnections initialConnections request.speedLimitBps
  with
  | .error (.thrown (.systemError what)) =>
      failBeforeEngineStart request .diskWriteFailed what
  | .error (.thrown (.other what)) => failBeforeEngineStart request .systemError what
  | .error .divisionByZero => throw .killed
  | .ok engine =>
      publish {
        outputPath := request.destination
        url
        etag := []
        lastModified := []
        threads := .attaching {
          engine
          handler := request.handler
          output := some conditions.output
          image := .absent
          maxThreads := manager.maxThreads
          history := {}
          nullWriter := false
        }
      }
      onManager (.onJob manager.jobs.length (.setValidators info))

def download (conditions : RequestConditions) (request : PendingDownloadRequest)
    : Dispatch Unit := do
  let followed := followRedirects conditions.answers (maxRedirectAllow - 1) 0 request.url
  logHosts followed.1
  match ← escaping followed.2 with
  | .unsupportedScheme url =>
      failBeforeEngineStart request .notSupported
        (String.ofList url.scheme ++ " is not supported!")
  | .answered _ (.redirect _) =>
      failBeforeEngineStart request .maxRedirectsExceeded "Exceeded max redirects"
  | .answered _ (.failed error) =>
      failBeforeEngineStart request error.errorCode error.message
  | .answered url (.successful info) => startDownload conditions request url info

/-- One round of the loop, with the request at the front of the queue. -/
def processRequest (conditions : RequestConditions) (request : PendingDownloadRequest)
    : Dispatch Unit := do
  locked .pending (pure ())
  match request.kind with
  | .load => load conditions request
  | .download => download conditions request

end Dispatch

/-- What one round of the loop does to the books of the manager. -/
def MuldDownloadManager.process (manager : MuldDownloadManager)
    (conditions : RequestConditions) (request : PendingDownloadRequest)
    : Except Exit Unit × Dispatching :=
  ending (Dispatch.processRequest conditions request) { manager }

end Muld
