import Muld.ChunkCounts
import Muld.Dispatcher

/-! What becomes of a pending request, said once: it is attached, it fails and leaves the
books as they were, or an exception or a signal ends the dispatcher. Each case comes with what
has to be the case before, so that the cases are decided by the request and its conditions.
-/

namespace Muld

open LockTraces Programs

-----------------------------------------------------------------------------------------
-- What decides
-----------------------------------------------------------------------------------------

section Conditions

variable (conditions : RequestConditions) (manager : MuldDownloadManager)
  (request : PendingDownloadRequest)

/-- The key that the index is searched for. -/
def LoadedImage.correctedKey (img : LoadedImage) (correctedUrl : Url) : Text :=
  identityKey img.filePath (getUrlString correctedUrl)

/-- The image is there, is not loaded, and the server knows its file. -/
structure Resolved (img : LoadedImage) (info : FileInfo) (correctedUrl : Url) : Prop where
  read : conditions.readImageFromDisk = .ok (some img)
  unreserved : request.imagePath ∉ manager.loadedImages
  resolved : resolveImage conditions img = .ok (some (info, correctedUrl))

/-- The file is the one of the image, and no engine has its key. -/
structure Confirmed (img : LoadedImage) (info : FileInfo) (correctedUrl : Url)
    : Prop extends Resolved conditions manager request img info correctedUrl where
  matched : matchesStoredFile img info = true
  unindexed : manager.indexed (img.correctedKey correctedUrl) = false

/-- The target is there and has the size that the server announces, if it announces one. -/
structure OnDisk (img : LoadedImage) (info : FileInfo) (correctedUrl : Url) : Prop
    extends Confirmed conditions manager request img info correctedUrl where
  found : conditions.targetExists = .ok true
  sized : ∃ localSize, conditions.targetSize = .ok localSize
    ∧ (0 < info.totalSize → localSize = info.totalSize)

/-- A call outside every `try` throws on the way of a `Load`. -/
inductive LoadEscapes : Prop
  | reading {exception : Exception} (thrown : conditions.readImageFromDisk = .error exception)
  | finding {img : LoadedImage} {info : FileInfo} {url : Url} {exception : Exception}
      (confirmed : Confirmed conditions manager request img info url)
      (thrown : conditions.targetExists = .error exception)
  | sizing {img : LoadedImage} {info : FileInfo} {url : Url} {exception : Exception}
      (confirmed : Confirmed conditions manager request img info url)
      (found : conditions.targetExists = .ok true)
      (thrown : conditions.targetSize = .error exception)
  | opening {img : LoadedImage} {info : FileInfo} {url : Url} {exception : Exception}
      (onDisk : OnDisk conditions manager request img info url)
      (thrown : conditions.host.openWriter info.totalSize = .error exception)
  | resizing {img : LoadedImage} {info : FileInfo} {url : Url} {exception : Exception}
      (onDisk : OnDisk conditions manager request img info url)
      (thrown : conditions.host.resizeChunks img.job.chunks.length = .error exception)

/-- A `Download` follows a redirect to the empty string, or it opens the output of a file
whose number of chunks becomes zero.
-/
inductive DownloadEscapes : Prop
  | following (empty : FollowsEmpty conditions.answers (maxRedirectAllow - 1) 0 request.url)
  | dividing {url : Url} {info : FileInfo}
      (fetched
        : (followRedirects conditions.answers (maxRedirectAllow - 1) 0 request.url).2
            = .ok (.answered url (.successful info)))
      (opened : conditions.host.openWriter info.totalSize = .ok ())
      (wraps : CountWraps info)

/-- A `Load` whose image can be read is turned away. -/
inductive LoadRefused : Prop
  | reserved {img : LoadedImage} (read : conditions.readImageFromDisk = .ok (some img))
      (reserved : request.imagePath ∈ manager.loadedImages)
  | unresolved {img : LoadedImage} (read : conditions.readImageFromDisk = .ok (some img))
      (unreserved : request.imagePath ∉ manager.loadedImages)
      (unresolved : ∀ found, resolveImage conditions img ≠ .ok (some found))
  | changed {img : LoadedImage} {info : FileInfo} {url : Url}
      (resolved : Resolved conditions manager request img info url)
      (changed : matchesStoredFile img info = false)
  | indexed {img : LoadedImage} {info : FileInfo} {url : Url}
      (resolved : Resolved conditions manager request img info url)
      (matched : matchesStoredFile img info = true)
      (indexed : manager.indexed (img.correctedKey url) = true)
  | missing {img : LoadedImage} {info : FileInfo} {url : Url}
      (confirmed : Confirmed conditions manager request img info url)
      (missing : conditions.targetExists = .ok false)
  | resized {img : LoadedImage} {info : FileInfo} {url : Url} {localSize : Nat}
      (confirmed : Confirmed conditions manager request img info url)
      (found : conditions.targetExists = .ok true)
      (sized : conditions.targetSize = .ok localSize) (announced : 0 < info.totalSize)
      (resized : localSize ≠ info.totalSize)

/-- An exception leaves the loop, or a signal ends the process. -/
def Escapes : Prop :=
  match request.kind with
  | .load => LoadEscapes conditions manager request
  | .download => DownloadEscapes conditions request

/-- An `on_error` runs in the scope of a lock of the manager. -/
def ReportsLocked : Prop :=
  request.kind = .load ∧ request.onError = true ∧ LoadRefused conditions manager request

/-- The engine of a file is constructed for a `Download`. -/
def Constructs (info : FileInfo) : Prop :=
  let maxConnections :=
    computeMaxConnections info.supportsRange request.speedLimitBps manager.maxThreads
  ∃ engine,
    newDownload conditions.host info maxConnections
        (computeInitialDesiredConnections request.speedLimitBps maxConnections)
        request.speedLimitBps
      = .ok engine

/-- Where the engine of a job comes from. -/
inductive Origin (job : Job) : Prop
  | downloaded {info : FileInfo} (kind : request.kind = .download)
      (fetched
        : (followRedirects conditions.answers (maxRedirectAllow - 1) 0 request.url).2
            = .ok (.answered job.url (.successful info)))
      (constructs : Constructs conditions manager request info)
      (path : job.outputPath = request.destination)
  | loaded {img : LoadedImage} {info : FileInfo} {url : Url} (kind : request.kind = .load)
      (onDisk : OnDisk conditions manager request img info url)
      (path : job.outputPath = img.filePath)
      (parsed : parseUrl (getUrlString url) = .ok job.url)

end Conditions

section Conditions

variable {conditions : RequestConditions} {manager : MuldDownloadManager}
  {request : PendingDownloadRequest}

/-- A `Load` that is turned away does not get to a call that throws. -/
theorem LoadRefused.returns (refused : LoadRefused conditions manager request)
    : ¬ LoadEscapes conditions manager request := by
  intro escapes
  cases refused <;> cases escapes <;> grind [Resolved, Confirmed, OnDisk]

/-- An image that is not there ends the `Load` before anything else. -/
theorem unreadable (read : conditions.readImageFromDisk = .ok none)
    : ¬ LoadEscapes conditions manager request ∧ ¬ LoadRefused conditions manager request := by
  constructor
  · intro escapes
    cases escapes <;> grind [Resolved, Confirmed, OnDisk]
  · intro refused
    cases refused <;> grind [Resolved, Confirmed, OnDisk]

/-- A `Load` that gets to its file is not turned away before. -/
theorem OnDisk.accepted {img : LoadedImage} {info : FileInfo} {url : Url}
    (onDisk : OnDisk conditions manager request img info url)
    : ¬ LoadRefused conditions manager request := by
  intro refused
  cases refused <;> grind [Resolved, Confirmed, OnDisk]

/-- With a file that can be opened it gets to its engine. -/
theorem OnDisk.returns {img : LoadedImage} {info : FileInfo} {url : Url}
    (onDisk : OnDisk conditions manager request img info url)
    (opened : conditions.host.openWriter info.totalSize = .ok ())
    (resized : conditions.host.resizeChunks img.job.chunks.length = .ok ())
    : ¬ LoadEscapes conditions manager request := by
  intro escapes
  cases escapes <;> grind [Resolved, Confirmed, OnDisk]

end Conditions

theorem resolveImage_path {conditions : RequestConditions} {img : LoadedImage}
    {info : FileInfo} {corrected : Url}
    (resolved : resolveImage conditions img = .ok (some (info, corrected)))
    : corrected.path ≠ [] := by
  simp only [resolveImage, bind, Except.bind] at resolved
  split at resolved
  · cases resolved
  · exact resolveValidatedFileInfo_path (parseUrl_path ‹_›) resolved

-----------------------------------------------------------------------------------------
-- Engines
-----------------------------------------------------------------------------------------

section Engines

variable {host : Host} {img : LoadedImage} {url : Url} {engine : DownloadEngine}
  {speedLimitBps : Nat} {maxThreads : Int}

theorem loadedDownload_ok
    (built : loadedDownload host img speedLimitBps maxThreads = .ok (url, engine))
    : parseUrl img.url = .ok url
      ∧ host.openWriter img.job.fileSize = .ok ()
      ∧ host.resizeChunks img.job.chunks.length = .ok ()
      ∧ engine.state = .initialized := by
  simp only [loadedDownload, DownloadEngine.constructLoaded, bind, Except.bind] at built
  split at built
  · cases built
  · rename_i constructed
    split at constructed
    · cases constructed
    · rename_i parsed
      split at constructed
      · cases constructed
      · rename_i opened
        split at constructed
        · cases constructed
        · rename_i resized
          cases constructed
          cases built
          simp [parsed, opened, resized, DownloadEngine.setConnectionBounds_eq_desired,
            DownloadEngine.setDesiredConnections_eq, DownloadEngine.setBounds,
            DownloadEngine.ofImage]

/-- The URL of a corrected image can be parsed, so that only the host can refuse. -/
theorem loadedDownload_error {info : FileInfo} {exception : Exception} (path : url.path ≠ [])
    (thrown
      : loadedDownload host (img.correct info url) speedLimitBps maxThreads
          = .error exception)
    : host.openWriter info.totalSize = .error exception
      ∨ host.resizeChunks img.job.chunks.length = .error exception := by
  obtain ⟨url', parsed⟩ := parseUrl_isOk (getUrlString_ne_nil path)
  simp only [loadedDownload, DownloadEngine.constructLoaded, bind, Except.bind,
    LoadedImage.correct, parsed] at thrown
  split at thrown
  · rename_i refused
    split at refused
    · rename_i opening
      cases refused
      cases thrown
      exact Or.inl opening
    · split at refused
      · rename_i resizing
        cases refused
        cases thrown
        exact Or.inr resizing
      · cases refused
  · cases thrown

theorem newDownload_initialized {info : FileInfo} {maxConnections initialConnections : Int}
    (built
      : newDownload host info maxConnections initialConnections speedLimitBps = .ok engine)
    : engine.state = .initialized := by
  obtain ⟨job, constructed, rfl⟩ := newDownload_eq_ok built
  obtain ⟨_, _, some_chunk, rfl⟩ := DownloadEngine.construct_ok constructed
  simp [DownloadEngine.setConnectionBounds_eq_desired, DownloadEngine.setDesiredConnections_eq,
    DownloadEngine.setBounds, DownloadEngine.create]

/-- The validators of the engine that was added last are not part of its key. -/
theorem MuldDownloadManager.onJob_addJob (manager : MuldDownloadManager) (job : Job)
    (info : FileInfo)
    : (manager.addJob job).onJob manager.jobs.length (.setValidators info)
        = manager.addJob (job.setValidators info) := by
  have last : (manager.jobs ++ [job]).modify manager.jobs.length (.setValidators info)
      = manager.jobs ++ [job.setValidators info] := by
    rw [List.modify_eq_take_cons_drop (by simp)]
    simp
  simp only [onJob, addJob, last, Job.setValidators, Job.getIdentityKey]

end Engines

-----------------------------------------------------------------------------------------
-- What has been done
-----------------------------------------------------------------------------------------

namespace Dispatching

/-- The books, the outcomes so far and the mutexes that are held; `clean` says that what may
run code of the client was done with none held.
-/
structure Shows (manager : MuldDownloadManager) (done : List Deed) (holds : List Mutex)
    (clean : Prop) (dispatching : Dispatching) : Prop where
  manager : dispatching.manager = manager
  done : outcomes dispatching.events = done
  held : heldAfter [] dispatching.events = holds
  unlocked : Unlocked Deed.exposed [] dispatching.events ↔ clean
  unblocked : Unblocked [] dispatching.events

variable {manager : MuldDownloadManager} {done : List Deed} {holds : List Mutex}
  {clean : Prop} {dispatching : Dispatching} {mutex : Mutex}

theorem shows_start : Shows manager [] [] True { manager } := by
  constructor <;> simp [outcomes, deeds, heldAfter, Unlocked, Unblocked]

theorem Shows.lock (shows : Shows manager done holds clean dispatching)
    (free : mutex ∉ holds)
    : Shows manager done (mutex :: holds) clean (dispatching.emit (.lock mutex)) where
  manager := shows.manager
  done := by simpa [emit, outcomes, deeds_append, deeds] using shows.done
  held := by simp [emit, heldAfter_append, heldAfter, shows.held]
  unlocked := by simpa [emit, unlocked_append, Unlocked] using shows.unlocked
  unblocked := by
    simpa [emit, unblocked_append, Unblocked, shows.held, free] using shows.unblocked

theorem Shows.unlock (shows : Shows manager done (mutex :: holds) clean dispatching)
    : Shows manager done holds clean (dispatching.emit (.unlock mutex)) where
  manager := shows.manager
  done := by simpa [emit, outcomes, deeds_append, deeds] using shows.done
  held := by simp [emit, heldAfter_append, heldAfter, shows.held]
  unlocked := by simpa [emit, unlocked_append, Unlocked] using shows.unlocked
  unblocked := by simpa [emit, unblocked_append, Unblocked] using shows.unblocked

/-- What is exposed is clean if nothing is held. -/
theorem Shows.act (shows : Shows manager done holds clean dispatching) (deed : Deed)
    : Shows manager (done ++ [deed].filter Deed.isOutcome) holds
        (clean ∧ (deed.exposed = true → holds = [])) (dispatching.emit (.act deed)) where
  manager := shows.manager
  done := by
    rw [← shows.done, emit, outcomes, deeds_append, List.filter_append]
    rfl
  held := by simp [emit, heldAfter_append, heldAfter, shows.held]
  unlocked := by
    rw [emit, unlocked_append, shows.unlocked, shows.held]
    simp only [Unlocked, and_true]
  unblocked := by simpa [emit, unblocked_append, Unblocked] using shows.unblocked

theorem Shows.onManager (shows : Shows manager done holds clean dispatching)
    (change : MuldDownloadManager → MuldDownloadManager)
    : Shows (change manager) done holds clean
        { dispatching with manager := change dispatching.manager } where
  manager := congrArg change shows.manager
  done := shows.done
  held := shows.held
  unlocked := shows.unlocked
  unblocked := shows.unblocked

theorem Shows.congr {clean' : Prop} (shows : Shows manager done holds clean dispatching)
    (same : clean ↔ clean')
    : Shows manager done holds clean' dispatching :=
  { shows with unlocked := shows.unlocked.trans same }

theorem Shows.fail (shows : Shows manager [] holds clean dispatching) (error : MuldError)
    : Shows manager [.failBeforeEngineStart error] holds clean
        (dispatching.emit (.act (.failBeforeEngineStart error))) :=
  (shows.act (.failBeforeEngineStart error)).congr (by simp [Deed.exposed])

theorem Shows.attach (shows : Shows manager [] [] clean dispatching) (position : Nat)
    : Shows manager [.attachEngine position] [] clean
        (dispatching.emit (.act (.attachEngine position))) :=
  (shows.act (.attachEngine position)).congr (by simp)

theorem Shows.callback (shows : Shows manager done holds clean dispatching)
    (function : ClientFunction)
    : Shows manager done holds (clean ∧ holds = [])
        (dispatching.emit (.act (.callback function))) := by
  have acted := shows.act (.callback function)
  rw [List.filter_eq_nil_iff.mpr (by simp [Deed.isOutcome]), List.append_nil] at acted
  exact acted.congr (by simp [Deed.exposed])

end Dispatching

open Dispatching (Shows)

namespace Dispatch

variable {manager : MuldDownloadManager} {done : List Deed} {holds : List Mutex}
  {clean : Prop} {α : Type} {post : α → Dispatching → Prop}
  {early : Exit → Dispatching → Prop} {conditions : RequestConditions}
  {request : PendingDownloadRequest} {code : ErrorCode} {detail : String}

theorem meets_getManager
    : Meets (Shows manager done holds clean) getManager
        (fun found dispatching =>
          found = manager ∧ Shows manager done holds clean dispatching)
        early :=
  fun _ shows => ⟨shows.manager, shows⟩

/-- A program that looks at the books goes on with what they are. -/
theorem bind_getManager {next : MuldDownloadManager → Dispatch α}
    (meets : Meets (Shows manager done holds clean) (next manager) post early)
    : Meets (Shows manager done holds clean) (getManager >>= next) post early :=
  meets_getManager.bind fun _ => Meets.assuming fun same => same ▸ meets

theorem meets_locked {mutex : Mutex} {body : Dispatch α} (free : mutex ∉ holds)
    (meets
      : Meets (Shows manager done (mutex :: holds) clean) body
          (fun value dispatching => post value (dispatching.emit (.unlock mutex)))
          (fun exit dispatching => early exit (dispatching.emit (.unlock mutex))))
    : Meets (Shows manager done holds clean) (locked mutex body) post early :=
  Meets.bracket (fun _ shows => shows.lock free) meets

/-- A section without a body. -/
theorem meets_locked_pure {mutex : Mutex} (free : mutex ∉ holds)
    : Meets (Shows manager done holds clean) (locked mutex (pure ()))
        (fun _ => Shows manager done holds clean) early :=
  meets_locked free (meets_pure fun _ shows => shows.unlock)

/-- An exception leaves the loop; a result is gone on with. -/
theorem bind_escaping {β : Type} {result : Except Exception β} {next : β → Dispatch α}
    {pre : Dispatching → Prop}
    (value : ∀ value, result = .ok value → Meets pre (next value) post early)
    (thrown
      : ∀ exception,
          result = .error exception
          → ∀ dispatching, pre dispatching → early (.thrown exception) dispatching)
    : Meets pre (escaping result >>= next) post early := by
  refine Meets.throwing ?_ ?_
  · intro reached same
    cases result with
    | ok found =>
        obtain rfl := Except.ok.inj same
        exact value found rfl
    | error exception => cases same
  · intro exit same
    cases result with
    | ok found => cases same
    | error exception =>
        obtain rfl := Except.error.inj same
        exact thrown exception rfl

/-- `FailBeforeEngineStart` runs an `on_error` in the locks of its caller. -/
theorem meets_failBeforeEngineStart (free : .handler ∉ holds)
    : Meets (Shows manager [] holds clean) (failBeforeEngineStart request code detail)
        (fun _ =>
          Shows manager [.failBeforeEngineStart { code, detail }] holds
            (clean ∧ (request.onError = true → holds = [])))
        early := by
  refine Meets.after_update (fun _ shows => shows.fail _) ?_
  refine (meets_locked_pure free).bind fun _ => ?_
  rw [invoke]
  split
  · rename_i isSet
    exact meets_update fun _ shows => (shows.callback _).congr (by simp [isSet])
  · rename_i unset
    exact meets_pure fun _ shows => shows.congr (by simp [unset])

end Dispatch

-----------------------------------------------------------------------------------------
-- How a request ends
-----------------------------------------------------------------------------------------

/-- The engine of the job was just constructed. -/
def Job.Fresh (job : Job) : Prop :=
  ∃ shared, job.threads = .attaching shared ∧ shared.engine.state = .initialized

/-- The request has failed and the books are as they were, or it has an engine. -/
inductive Completes (conditions : RequestConditions) (manager : MuldDownloadManager)
    (request : PendingDownloadRequest) (dispatching : Dispatching) : Prop
  | failed {error : MuldError} (returns : ¬ Escapes conditions manager request)
      (shows
        : Shows manager [.failBeforeEngineStart error] []
            (¬ ReportsLocked conditions manager request) dispatching)
  | attached {job : Job} {loadedImages : List Text}
      (returns : ¬ Escapes conditions manager request)
      (accepted : ¬ ReportsLocked conditions manager request)
      (origin : Origin conditions manager request job)
      (fresh : job.Fresh)
      (shows
        : Shows ({ manager with loadedImages }.addJob job)
            [.attachEngine manager.jobs.length] [] True dispatching)

/-- A request that ends early has completed, or it ends the dispatcher. -/
def EndsEarly (conditions : RequestConditions) (manager : MuldDownloadManager)
    (request : PendingDownloadRequest) (exit : Exit) (dispatching : Dispatching) : Prop :=
  match exit with
  | .next => Completes conditions manager request dispatching
  | .thrown _ | .killed =>
      Escapes conditions manager request
        ∧ ¬ ReportsLocked conditions manager request
        ∧ ∃ books, Shows books [] [] True dispatching

namespace Dispatch

variable {manager : MuldDownloadManager} {conditions : RequestConditions}
  {request : PendingDownloadRequest} {code : ErrorCode} {detail : String} {α : Type}
  {post : α → Dispatching → Prop} {early : Exit → Dispatching → Prop}
  {dispatching : Dispatching} {img : LoadedImage} {info : FileInfo} {url : Url}

theorem meets_publish {job : Job}
    : Meets (Shows manager [] [] True) (publish job)
        (fun _ => Shows (manager.addJob job) [.attachEngine manager.jobs.length] [] True)
        early := by
  refine bind_getManager ?_
  have pushed
      : Meets (Shows manager [] [] True)
          (locked .jobs (onManager (.addJob job)))
          (fun _ => Shows (manager.addJob job) [] [] True) early :=
    meets_locked (by simp) (meets_update fun _ shows => (shows.onManager _).unlock)
  exact pushed.bind fun _ => meets_update fun _ shows => shows.attach _

-----------------------------------------------------------------------------------------
-- The exits of a Load
-----------------------------------------------------------------------------------------

section Load

variable (isLoad : request.kind = .load)

include isLoad

theorem completes_of_refused (refused : LoadRefused conditions manager request)
    {error : MuldError}
    (shows
      : Shows manager [.failBeforeEngineStart error] [] (request.onError = false) dispatching)
    : Completes conditions manager request dispatching := by
  refine .failed ?_ (shows.congr ?_)
  · simpa [Escapes, isLoad] using refused.returns
  · simp [ReportsLocked, isLoad, refused]

theorem endsEarly_of_escapes (escapes : LoadEscapes conditions manager request)
    (exception : Exception) {books : MuldDownloadManager}
    (shows : Shows books [] [] True dispatching)
    : EndsEarly conditions manager request (.thrown exception) dispatching := by
  refine ⟨?_, ?_, books, shows⟩
  · simpa [Escapes, isLoad] using escapes
  · rintro ⟨_, _, refused⟩
    exact refused.returns escapes

theorem meets_reserve {img : LoadedImage}
    (read : conditions.readImageFromDisk = .ok (some img))
    : Meets (Shows manager [] [] True) (reserve request)
        (fun _ dispatching =>
          request.imagePath ∉ manager.loadedImages
          ∧ Shows (manager.insertImage request.imagePath) [] [] True dispatching)
        (EndsEarly conditions manager request) := by
  refine meets_locked (by simp) (bind_getManager ?_)
  split
  · rename_i reserved
    refine (meets_failBeforeEngineStart (by simp)).bind fun _ => meets_throw ?_
    intro _ shows
    exact completes_of_refused isLoad (.reserved read reserved)
      (shows.unlock.congr (by simp))
  · rename_i unreserved
    exact meets_update fun _ shows => ⟨unreserved, (shows.onManager _).unlock⟩

/-- The books are as they were before the reservation. -/
theorem meets_release (refused : LoadRefused conditions manager request)
    : Meets (Shows (manager.insertImage request.imagePath) [] [.jobs] True)
        (release request code detail : Dispatch α) post
        (fun exit dispatching =>
          EndsEarly conditions manager request exit (dispatching.emit (.unlock .jobs))) := by
  have undone : (manager.insertImage request.imagePath).eraseImage request.imagePath
      = manager := by
    simp [MuldDownloadManager.insertImage, MuldDownloadManager.eraseImage]
  have erases (dispatching : Dispatching)
      (shows : Shows (manager.insertImage request.imagePath) [] [.jobs] True dispatching)
      : Shows manager [] [.jobs] True
          { dispatching with manager := dispatching.manager.eraseImage request.imagePath } :=
    undone ▸ shows.onManager _
  refine Meets.after_update erases ?_
  refine (meets_failBeforeEngineStart (by simp)).bind fun _ => meets_throw ?_
  intro _ shows
  exact completes_of_refused isLoad refused (shows.unlock.congr (by simp))

theorem meets_refuse (refused : LoadRefused conditions manager request)
    : Meets (Shows (manager.insertImage request.imagePath) [] [] True)
        (refuse request code detail : Dispatch α) post
        (EndsEarly conditions manager request) :=
  meets_locked (by simp) (meets_release isLoad refused)

theorem meets_checkIndex (resolved : Resolved conditions manager request img info url)
    (matched : matchesStoredFile img info = true)
    : Meets (Shows (manager.insertImage request.imagePath) [] [] True)
        (checkIndex request (img.correctedKey url))
        (fun _ dispatching =>
          Confirmed conditions manager request img info url
          ∧ Shows (manager.insertImage request.imagePath) [] [] True dispatching)
        (EndsEarly conditions manager request) := by
  refine meets_locked (by simp) (bind_getManager ?_)
  split
  · rename_i indexed
    exact meets_release isLoad (.indexed resolved matched indexed)
  · rename_i unindexed
    have confirmed : Confirmed conditions manager request img info url :=
      { resolved with matched, unindexed := eq_false_of_ne_true unindexed }
    exact meets_pure fun _ shows => ⟨confirmed, shows.unlock⟩

theorem meets_checkTarget (confirmed : Confirmed conditions manager request img info url)
    : Meets (Shows (manager.insertImage request.imagePath) [] [] True)
        (checkTarget conditions request (img.correct info url))
        (fun _ dispatching =>
          OnDisk conditions manager request img info url
          ∧ Shows (manager.insertImage request.imagePath) [] [] True dispatching)
        (EndsEarly conditions manager request) := by
  refine bind_escaping ?_ ?_
  · intro found targetExists
    cases found with
    | false => exact meets_refuse isLoad (.missing confirmed targetExists)
    | true =>
        refine bind_escaping ?_ ?_
        · intro localSize targetSize
          split
          · rename_i resized
            exact meets_refuse isLoad
              (.resized confirmed targetExists targetSize resized.1 resized.2)
          · rename_i fits
            have onDisk : OnDisk conditions manager request img info url :=
              { confirmed with
                found := targetExists
                sized := ⟨localSize, targetSize, fun announced =>
                  not_not.mp fun resized => fits ⟨announced, resized⟩⟩ }
            exact meets_pure fun _ shows => ⟨onDisk, shows⟩
        · intro exception thrown _ shows
          exact endsEarly_of_escapes isLoad (.sizing confirmed targetExists thrown) _ shows
  · intro exception thrown _ shows
    exact endsEarly_of_escapes isLoad (.finding confirmed thrown) _ shows

theorem meets_startLoaded (onDisk : OnDisk conditions manager request img info url)
    : Meets (Shows (manager.insertImage request.imagePath) [] [] True)
        (startLoaded conditions request (img.correct info url))
        (fun _ => Completes conditions manager request)
        (EndsEarly conditions manager request) := by
  refine bind_getManager (bind_escaping ?_ ?_)
  · rintro ⟨url', engine⟩ built
    obtain ⟨parsed, opened, resized, initialized⟩ := loadedDownload_ok built
    refine meets_publish.weaken (fun _ shows => shows) ?_ (fun _ _ => False.elim)
    intro _ dispatching shows
    refine .attached ?_ ?_ ?_ ⟨_, rfl, initialized⟩ shows
    · simpa [Escapes, isLoad] using onDisk.returns opened resized
    · rintro ⟨_, _, refused⟩
      exact onDisk.accepted refused
    · exact .loaded isLoad onDisk rfl parsed
  · intro exception thrown _ shows
    refine endsEarly_of_escapes isLoad ?_ exception shows
    rcases loadedDownload_error (resolveImage_path onDisk.resolved) thrown with opening | resizing
    · exact .opening onDisk opening
    · exact .resizing onDisk resizing

theorem meets_load
    : Meets (Shows manager [] [] True) (load conditions request)
        (fun _ => Completes conditions manager request)
        (EndsEarly conditions manager request) := by
  refine bind_escaping ?_ ?_
  · rintro (_ | img) read
    · refine (meets_failBeforeEngineStart (by simp)).weaken (fun _ shows => shows) ?_
        (fun _ _ => False.elim)
      intro _ dispatching shows
      obtain ⟨returns, accepted⟩ := unreadable read
      refine .failed ?_ (shows.congr ?_)
      · simpa [Escapes, isLoad] using returns
      · simp [ReportsLocked, accepted]
    · refine (meets_reserve isLoad read).bind fun _ => Meets.assuming fun unreserved => ?_
      split
      · rename_i exception unresolved
        exact meets_refuse isLoad (.unresolved read unreserved (by simp [unresolved]))
      · rename_i unresolved
        exact meets_refuse isLoad (.unresolved read unreserved (by simp [unresolved]))
      · rename_i info url resolved
        have resolved : Resolved conditions manager request img info url :=
          ⟨read, unreserved, resolved⟩
        split
        · rename_i matched
          refine (meets_checkIndex isLoad resolved matched).bind fun _ =>
            Meets.assuming fun confirmed => ?_
          refine (meets_checkTarget isLoad confirmed).bind fun _ =>
            Meets.assuming fun onDisk => ?_
          exact meets_startLoaded isLoad onDisk
        · rename_i changed
          exact meets_refuse isLoad (.changed resolved (eq_false_of_ne_true changed))
  · intro exception thrown _ shows
    exact endsEarly_of_escapes isLoad (.reading thrown) exception shows

end Load

-----------------------------------------------------------------------------------------
-- The exits of a Download
-----------------------------------------------------------------------------------------

/-- By induction on the hosts. -/
theorem meets_logHosts (hosts : List Text)
    : Meets (Shows manager [] [] True) (logHosts hosts)
        (fun _ => Shows manager [] [] True) early := by
  refine bind_getManager ?_
  induction hosts with
  | nil => exact meets_pure fun _ shows => shows
  | cons host rest ih =>
      have logged
          : Meets (Shows manager [] [] True)
              (invoke manager.logger (.logger (connectingMessage host)))
              (fun _ => Shows manager [] [] True) early := by
        cases manager.logger with
        | true => exact meets_update fun _ shows => (shows.callback _).congr (by simp)
        | false => exact meets_pure fun _ shows => shows
      exact logged.bind fun _ => ih

section Download

variable (isDownload : request.kind = .download)

include isDownload

theorem silent_of_download : ¬ ReportsLocked conditions manager request := by
  rintro ⟨isLoad, _⟩
  rw [isDownload] at isLoad
  cases isLoad

/-- A `Download` fails with no lock held. -/
theorem meets_fail (returns : ¬ Escapes conditions manager request)
    : Meets (Shows manager [] [] True) (failBeforeEngineStart request code detail)
        (fun _ => Completes conditions manager request) early := by
  refine (meets_failBeforeEngineStart (by simp)).weaken (fun _ shows => shows) ?_
    (fun _ _ early => early)
  intro _ dispatching shows
  exact .failed returns (shows.congr (by simp [silent_of_download isDownload]))

/-- A file that has come to the dispatcher escapes only by the division: it has counted one to
eight connections, so that the one division by zero is the constructor's.
-/
theorem escapes_iff_divides
    (fetched
      : (followRedirects conditions.answers (maxRedirectAllow - 1) 0 request.url).2
          = .ok (.answered url (.successful info)))
    (initialConnections : Int)
    : Escapes conditions manager request
      ↔ newDownload conditions.host info
            (computeMaxConnections info.supportsRange request.speedLimitBps manager.maxThreads)
            initialConnections request.speedLimitBps
          = .error .divisionByZero := by
  obtain ⟨lower, upper⟩ :=
    computeMaxConnections_mem info.supportsRange request.speedLimitBps manager.maxThreads
  rw [newDownload_divisionByZero lower
    (Int.le_trans upper (Int.max_le.mpr ⟨by decide, Int.min_le_right _ _⟩))]
  simp only [Escapes, isDownload]
  constructor
  · rintro (empty | ⟨fetched', opened, wraps⟩)
    · obtain ⟨exception, thrown⟩ := followRedirects_throws.mpr empty
      rw [fetched] at thrown
      cases thrown
    · rw [fetched] at fetched'
      cases fetched'
      exact ⟨opened, wraps⟩
  · rintro ⟨opened, wraps⟩
    exact .dividing fetched opened wraps

theorem meets_startDownload
    (fetched
      : (followRedirects conditions.answers (maxRedirectAllow - 1) 0 request.url).2
          = .ok (.answered url (.successful info)))
    : Meets (Shows manager [] [] True) (startDownload conditions request url info)
        (fun _ => Completes conditions manager request)
        (EndsEarly conditions manager request) := by
  refine bind_getManager ?_
  dsimp only
  have divides := @escapes_iff_divides manager conditions request info url isDownload fetched
  split
  · rename_i thrown
    exact meets_fail isDownload fun escapes => by simp [(divides _).mp escapes] at thrown
  · rename_i thrown
    exact meets_fail isDownload fun escapes => by simp [(divides _).mp escapes] at thrown
  · rename_i divided
    exact fun _ shows =>
      ⟨(divides _).mpr divided, silent_of_download isDownload, manager, shows⟩
  · rename_i engine built
    have returns : ¬ Escapes conditions manager request :=
      fun escapes => by simp [(divides _).mp escapes] at built
    refine meets_publish.bind fun _ => meets_update fun dispatching shows => ?_
    have shows := shows.onManager
      (.onJob manager.jobs.length (.setValidators info))
    rw [MuldDownloadManager.onJob_addJob] at shows
    refine .attached returns (silent_of_download isDownload) ?_
      ⟨_, rfl, newDownload_initialized built⟩ shows
    exact .downloaded isDownload fetched ⟨engine, built⟩ rfl

theorem meets_download
    : Meets (Shows manager [] [] True) (download conditions request)
        (fun _ => Completes conditions manager request)
        (EndsEarly conditions manager request) := by
  refine (meets_logHosts _).bind fun _ => bind_escaping ?_ ?_
  · intro fetched same
    have returns (unsuccessful : ∀ url info, fetched ≠ .answered url (.successful info))
        : ¬ Escapes conditions manager request := by
      simp only [Escapes, isDownload]
      rintro (empty | ⟨found, _, _⟩)
      · obtain ⟨exception, thrown⟩ := followRedirects_throws.mpr empty
        rw [same] at thrown
        cases thrown
      · rw [same] at found
        exact unsuccessful _ _ (Except.ok.inj found)
    split
    · exact meets_fail isDownload (returns (by simp))
    · exact meets_fail isDownload (returns (by simp))
    · exact meets_fail isDownload (returns (by simp))
    · exact meets_startDownload isDownload same
  · intro exception thrown _ shows
    refine ⟨?_, silent_of_download isDownload, manager, shows⟩
    simp only [Escapes, isDownload]
    exact .following (followRedirects_throws.mp ⟨exception, thrown⟩)

end Download

theorem meets_processRequest
    : Meets (Shows manager [] [] True) (processRequest conditions request)
        (fun _ => Completes conditions manager request)
        (EndsEarly conditions manager request) := by
  refine (meets_locked_pure (by simp)).bind fun _ => ?_
  split
  · exact meets_load ‹_›
  · exact meets_download ‹_›

end Dispatch

-----------------------------------------------------------------------------------------
-- One outcome
-----------------------------------------------------------------------------------------

/-- No exception leaves the loop and no signal ends the process, the request is attached or
failed once, and where it fails the books are those from before it.
-/
structure OneOutcome (manager : MuldDownloadManager) (result : Except Exit Unit × Dispatching)
    : Prop where
  contained : ∀ exception, result.1 ≠ .error (.thrown exception)
  alive : result.1 ≠ .error .killed
  one : ∃ outcome, outcomes result.2.events = [outcome]
  restored
    : (∃ error, .failBeforeEngineStart error ∈ outcomes result.2.events)
      → result.2.manager = manager

variable {manager : MuldDownloadManager} {conditions : RequestConditions}
  {request : PendingDownloadRequest} {dispatching : Dispatching}

/-- The processing of a request completes it, or it ends the dispatcher. -/
inductive Ending (conditions : RequestConditions) (manager : MuldDownloadManager)
    (request : PendingDownloadRequest) : Except Exit Unit × Dispatching → Prop
  | completes {result : Except Exit Unit} {dispatching : Dispatching}
      (contained : ∀ exception, result ≠ .error (.thrown exception))
      (alive : result ≠ .error .killed)
      (completes : Completes conditions manager request dispatching)
    : Ending conditions manager request (result, dispatching)
  | escapes {exception : Exception} {dispatching : Dispatching} {books : MuldDownloadManager}
      (escapes : Escapes conditions manager request)
      (accepted : ¬ ReportsLocked conditions manager request)
      (shows : Shows books [] [] True dispatching)
    : Ending conditions manager request (.error (.thrown exception), dispatching)
  | killed {dispatching : Dispatching} {books : MuldDownloadManager}
      (escapes : Escapes conditions manager request)
      (accepted : ¬ ReportsLocked conditions manager request)
      (shows : Shows books [] [] True dispatching)
    : Ending conditions manager request (.error .killed, dispatching)

/-- Every round of the loop ends in one of these ways. -/
theorem process_cases (manager : MuldDownloadManager) (conditions : RequestConditions)
    (request : PendingDownloadRequest)
    : Ending conditions manager request (manager.process conditions request) := by
  have ends : EndsIn (fun _ => Completes conditions manager request)
      (EndsEarly conditions manager request) (manager.process conditions request) :=
    Dispatch.meets_processRequest _ Dispatching.shows_start
  generalize manager.process conditions request = ended at ends ⊢
  obtain ⟨(_ | exception | _) | done, dispatching⟩ := ended
  · exact .completes (by simp) (by simp) ends
  · obtain ⟨escapes, accepted, books, shows⟩ := ends
    exact .escapes escapes accepted shows
  · obtain ⟨escapes, accepted, books, shows⟩ := ends
    exact .killed escapes accepted shows
  · exact .completes (by simp) (by simp) ends

theorem Completes.one (completes : Completes conditions manager request dispatching)
    : ∃ outcome, outcomes dispatching.events = [outcome] := by
  cases completes with
  | failed _ shows => exact ⟨_, shows.done⟩
  | attached _ _ _ _ shows => exact ⟨_, shows.done⟩

theorem Completes.returns (completes : Completes conditions manager request dispatching)
    : ¬ Escapes conditions manager request := by
  cases completes <;> assumption

/-- A request that has failed leaves the books as they were. -/
theorem Completes.restored (completes : Completes conditions manager request dispatching)
    {error : MuldError}
    (failed : .failBeforeEngineStart error ∈ outcomes dispatching.events)
    : dispatching.manager = manager := by
  cases completes with
  | failed _ shows => exact shows.manager
  | attached _ _ _ _ shows => simp [shows.done] at failed

/-- A request has exactly one outcome if and only if no call outside the `try` blocks throws
and nothing is divided by zero: no redirect to the empty string is followed, no file is opened
whose number of chunks becomes zero, the image is read without an exception, the file of a
confirmed image can be looked at, and its output can be opened.
-/
theorem one_outcome (manager : MuldDownloadManager) (conditions : RequestConditions)
    (request : PendingDownloadRequest)
    : OneOutcome manager (manager.process conditions request)
      ↔ ¬ Escapes conditions manager request := by
  have ends := process_cases manager conditions request
  generalize manager.process conditions request = ended at ends ⊢
  cases ends with
  | completes contained alive completes =>
      refine iff_of_true ⟨contained, alive, completes.one, ?_⟩ completes.returns
      rintro ⟨error, failed⟩
      exact completes.restored failed
  | escapes escapes =>
      exact iff_of_false (fun outcome => outcome.contained _ rfl) (not_not.mpr escapes)
  | killed escapes =>
      exact iff_of_false (fun outcome => outcome.alive rfl) (not_not.mpr escapes)

/-- A `Load` that is turned away fails. -/
theorem LoadRefused.fails (isLoad : request.kind = .load)
    (refused : LoadRefused conditions manager request)
    : ∃ error,
        outcomes (manager.process conditions request).2.events
          = [.failBeforeEngineStart error] := by
  have ends := process_cases manager conditions request
  generalize manager.process conditions request = ended at ends ⊢
  cases ends with
  | escapes escapes | killed escapes =>
      simp only [Escapes, isLoad] at escapes
      exact absurd escapes refused.returns
  | completes _ _ completes =>
      cases completes with
      | failed _ shows => exact ⟨_, shows.done⟩
      | attached _ _ origin _ _ =>
          cases origin with
          | downloaded kind => simp [isLoad] at kind
          | loaded _ onDisk => exact absurd refused onDisk.accepted

/-- A server that answers every request by a redirect without a target. -/
def redirectsNowhere : RequestConditions where
  answers := fun _ => .connected (.response { status := 302, location := some [] } none)

/-- A redirect to the empty string ends the dispatcher. -/
theorem empty_redirect_escapes
    : ¬ ∀ (manager : MuldDownloadManager) (conditions : RequestConditions)
        (request : PendingDownloadRequest),
        OneOutcome manager (manager.process conditions request) := by
  intro always
  have outcome := always (.create 8 false) redirectsNowhere {
    kind := .download
    url := { scheme := "http".toList, host := "host".toList, path := "/file".toList }
    destination := "file".toList
    onError := true
  }
  exact outcome.contained (.other "URL cannot be empty") (by decide +kernel)

end Muld
