import Muld.ManagerSteps

/-! One engine per job. A `Load` looks its key up before it makes an engine; a `Download`
does not, the key of a `Load` is the one of its engine only where its URL string survives
parsing, and an engine that has failed or was canceled can be started again.
-/

namespace Muld

open LockTraces Threads

-----------------------------------------------------------------------------------------
-- Keys
-----------------------------------------------------------------------------------------

/-- Not Completed, Failed or Canceled. -/
def DownloadState.unfinished (state : DownloadState) : Bool :=
  state != .completed && state != .failed && state != .canceled

namespace Threaded

/-- The engine of the job has not finished. -/
def unfinished (threaded : Threaded) : Bool := threaded.sys.shared.engine.state.unfinished

/-- An engine that has failed or was canceled goes on where a `Start` or `Resume` is accepted.
-/
theorem Step.restarts {threaded after : Threaded} {action : ThreadAction}
    (taken : threaded.Step action after) (before : threaded.unfinished = false)
    (again : after.unfinished = true)
    : ∃ index label,
        action = .act (.call index label)
        ∧ threaded.sys.calls[index]? = some .startSet
        ∧ DownloadEngine.admits .queued threaded.sys.shared.engine.state = true := by
  simp only [unfinished] at before again
  cases taken with
  | move action frame sys moves outside taken =>
      cases Sys.step_cases taken with
      | worker index worker next label shared found stepped =>
          rcases stepped.state with same | ⟨_, _, queued, _⟩ | ⟨_, _, completed⟩
              | ⟨_, _, _, failed⟩
          · simp [same, before] at again
          · simp [queued, DownloadState.unfinished] at before
          · simp [completed, DownloadState.unfinished] at again
          · simp [failed, DownloadState.unfinished] at again
      | call index call next label shared spawned found stepped =>
          rcases stepped.accepts with ⟨same, _⟩ | ⟨rfl, _, admitted, _⟩ | ⟨_, _, admitted, _⟩
              | ⟨_, _, _, rfl⟩
          · simp [same, before] at again
          · exact ⟨index, label, rfl, found, admitted⟩
          · simp only [DownloadEngine.admits] at admitted
            cases state : threaded.sys.shared.engine.state <;>
              simp [state, DownloadState.unfinished] at admitted before
          · simp [DownloadState.unfinished] at again
      | invoke => cases moves
  | invoke api sys taken =>
      cases Sys.step_cases taken
      simp [before] at again
  | nest frame api sys within idle taken =>
      cases Sys.step_cases taken
      simp [before] at again
  | leave => simp [before] at again

end Threaded

/-- The engine of the job has not finished. -/
def Job.unfinished (job : Job) : Bool := job.threads.unfinished

/-- The string of the URL is the string of the URL that is parsed from it. -/
def Url.Survives (url : Url) : Prop :=
  (parseUrl (getUrlString url)).map getUrlString = .ok (getUrlString url)

/-- The keys of the engines that a request makes if no check of the books stops it. -/
inductive Creates (conditions : RequestConditions) (manager : MuldDownloadManager)
    (request : PendingDownloadRequest) : Text → Prop
  | downloaded {url : Url} {info : FileInfo} (kind : request.kind = .download)
      (fetched
        : (followRedirects conditions.answers (maxRedirectAllow - 1) 0 request.url).2
            = .ok (.answered url (.successful info)))
      (constructs : Constructs conditions manager request info)
    : Creates conditions manager request
        (identityKey request.destination (getUrlString url))
  | loaded {img : LoadedImage} {info : FileInfo} {url reparsed : Url}
      (kind : request.kind = .load)
      (resolved : Resolved conditions manager request img info url)
      (parsed : parseUrl (getUrlString url) = .ok reparsed)
    : Creates conditions manager request (img.correctedKey reparsed)

namespace MuldDownloadManager

/-- No two engines that are not Completed, Failed or Canceled have the same key. -/
def OneEngine (manager : MuldDownloadManager) : Prop :=
  ∀ (left right : Nat) (first second : Job),
    manager.jobs[left]? = some first
    → manager.jobs[right]? = some second
    → first.unfinished = true
    → second.unfinished = true
    → first.getIdentityKey = second.getIdentityKey
    → left = right

/-- No unfinished engine, other than the one at an excepted position, has the key. -/
def Free (manager : MuldDownloadManager) (key : Text) (excepted : Option Nat) : Prop :=
  ∀ (index : Nat) (job : Job),
    manager.jobs[index]? = some job
    → some index ≠ excepted
    → job.unfinished = true
    → job.getIdentityKey ≠ key

/-- A `Download` makes an engine only for a key that no unfinished engine has, and the URL
string of a `Load` survives being parsed again.
-/
def RequestApart (manager : MuldDownloadManager) (conditions : RequestConditions)
    (request : PendingDownloadRequest) : Prop :=
  match request.kind with
  | .download => ∀ key, Creates conditions manager request key → manager.Free key none
  | .load => ∀ img info url, Resolved conditions manager request img info url → url.Survives

/-- Requests keep apart, and a failed or canceled engine is started only while no other
unfinished engine has its key.
-/
def KeepsApart (before : MuldDownloadManager) (action : ManagerAction)
    (_ : MuldDownloadManager) : Prop :=
  match action with
  | .request conditions request => before.RequestApart conditions request
  | .job position (.act (.call index _)) =>
      ∀ job,
        before.jobs[position]? = some job
        → job.unfinished = false
        → job.threads.sys.calls[index]? = some .startSet
        → DownloadEngine.admits .queued job.threads.sys.shared.engine.state = true
        → before.Free job.getIdentityKey (some position)
  | .job _ _ => True

/-- Every key in the books is in the index. -/
def KeysIndexed (manager : MuldDownloadManager) : Prop :=
  ∀ job ∈ manager.jobs, manager.indexed job.getIdentityKey = true

variable {manager after : MuldDownloadManager} {job : Job}

-----------------------------------------------------------------------------------------
-- The index
-----------------------------------------------------------------------------------------

/-- A key that was indexed still is when a job is added. -/
theorem indexed_addJob {key : Text} (indexed : manager.indexed key = true)
    : (manager.addJob job).indexed key = true := by
  simp only [MuldDownloadManager.indexed, addJob, Option.any_eq_true, decide_eq_true_eq,
    List.length_append, List.length_singleton] at indexed ⊢
  obtain ⟨position, found, inside⟩ := indexed
  by_cases same : key = job.getIdentityKey
  · subst same
    exact ⟨_, Function.update_self _ _ _, Nat.lt_succ_self _⟩
  · exact ⟨position, (Function.update_of_ne same _ _).trans found, Nat.lt_succ_of_lt inside⟩

theorem indexed_addJob_self : (manager.addJob job).indexed job.getIdentityKey = true := by
  simp [MuldDownloadManager.indexed, addJob]

theorem KeysIndexed.addJob (keys : manager.KeysIndexed) : (manager.addJob job).KeysIndexed := by
  intro other member
  rcases mem_addJob member with rfl | before
  · exact indexed_addJob_self
  · exact indexed_addJob (keys other before)

theorem KeysIndexed.setThreads (keys : manager.KeysIndexed) {position : Nat}
    {threads : Threaded} (found : manager.jobs[position]? = some job)
    : (manager.setThreads position threads).KeysIndexed := by
  intro other member
  have length : (manager.setThreads position threads).jobs.length = manager.jobs.length :=
    List.length_modify _ _ _
  have same (key : Text)
      : (manager.setThreads position threads).indexed key = manager.indexed key := by
    simp only [MuldDownloadManager.indexed, length]
    rfl
  rw [same]
  obtain ⟨index, at_index⟩ := List.mem_iff_getElem?.mp member
  rcases getElem?_setThreads found at_index with ⟨_, rfl⟩ | ⟨_, before⟩
  · exact keys job (List.mem_of_getElem? found)
  · exact keys other (List.mem_of_getElem? before)

-----------------------------------------------------------------------------------------
-- One step
-----------------------------------------------------------------------------------------

/-- An engine whose key is free is the only one with it. -/
theorem OneEngine.addJob (one : manager.OneEngine)
    (free : manager.Free job.getIdentityKey none)
    : (manager.addJob job).OneEngine := by
  intro left right first second atLeft atRight going going' same
  rcases getElem?_snoc_cases atLeft with before | ⟨rfl, rfl⟩
  · rcases getElem?_snoc_cases atRight with before' | ⟨rfl, rfl⟩
    · exact one left right first second before before' going going' same
    · exact absurd same (free left first before (by simp) going)
  · rcases getElem?_snoc_cases atRight with before' | ⟨rfl, _⟩
    · exact absurd same.symm (free right second before' (by simp) going')
    · rfl

theorem OneEngine.setThreads (one : manager.OneEngine) {position : Nat} {threads : Threaded}
    (found : manager.jobs[position]? = some job)
    (free
      : job.unfinished = false
        → threads.unfinished = true
        → manager.Free job.getIdentityKey (some position))
    : (manager.setThreads position threads).OneEngine := by
  -- the moved engine against another one
  have apart : ∀ (index : Nat) (other : Job), index ≠ position →
      manager.jobs[index]? = some other → other.unfinished = true →
      threads.unfinished = true → other.getIdentityKey ≠ job.getIdentityKey := by
    intro index other different before going moved same
    cases earlier : job.unfinished with
    | true => exact different (one index position other job before found going earlier same)
    | false => exact free earlier moved index other before (by simpa using different) going same
  intro left right first second atLeft atRight going going' same
  rcases getElem?_setThreads found atLeft with ⟨rfl, rfl⟩ | ⟨different, before⟩
  · rcases getElem?_setThreads found atRight with ⟨rfl, _⟩ | ⟨different', before'⟩
    · rfl
    · exact absurd same.symm (apart right second different' before' going' going)
  · rcases getElem?_setThreads found atRight with ⟨rfl, rfl⟩ | ⟨_, before'⟩
    · exact absurd same (apart left first different before going going')
    · exact one left right first second before before' going going' same

variable {conditions : RequestConditions} {request : PendingDownloadRequest}

/-- The key of an engine that is made is free. -/
theorem RequestApart.free (apart : manager.RequestApart conditions request)
    (keys : manager.KeysIndexed) (origin : Origin conditions manager request job)
    : manager.Free job.getIdentityKey none := by
  cases origin with
  | downloaded kind fetched constructs path =>
      simp only [RequestApart, kind] at apart
      rw [Job.getIdentityKey, path]
      exact apart _ (.downloaded kind fetched constructs)
  | loaded kind onDisk path parsed =>
      simp only [RequestApart, kind] at apart
      rename_i img info url
      have survives := apart img info url onDisk.toResolved
      rw [Url.Survives, parsed] at survives
      have key : job.getIdentityKey = img.correctedKey url := by
        rw [Job.getIdentityKey, path, Except.ok.inj survives]
        rfl
      intro index other found _ _ same
      have indexed := keys other (List.mem_of_getElem? found)
      rw [same, key, onDisk.unindexed] at indexed
      cases indexed

/-- A step that keeps the engines apart leaves one engine for each key. -/
theorem OneEngine.step (one : manager.OneEngine) (keys : manager.KeysIndexed)
    {action : ManagerAction} (taken : manager.Step action after)
    (apart : manager.KeepsApart action after)
    : after.OneEngine ∧ after.KeysIndexed := by
  cases taken with
  | request processed completes =>
      cases completes with
      | failed _ shows => exact shows.manager ▸ ⟨one, keys⟩
      | attached _ _ origin _ shows =>
          rw [shows.manager]
          have free : manager.Free _ none := RequestApart.free apart keys origin
          exact ⟨one.addJob free, keys.addJob⟩
  | job found taken =>
      refine ⟨one.setThreads found ?_, keys.setThreads found⟩
      intro finished again
      obtain ⟨index, label, rfl, starts, admitted⟩ := taken.restarts finished again
      exact apart _ found finished starts admitted

/-- In every run that keeps the engines apart no two unfinished engines have the same key,
and a request for an engine with the key of an unfinished one fails.
-/
theorem one_engine {maxThreads : Int} {logger : Bool}
    (reached : ReachableWhile KeepsApart maxThreads logger manager)
    : manager.OneEngine
      ∧ ∀ (conditions : RequestConditions) (request : PendingDownloadRequest) (job : Job),
          manager.RequestApart conditions request
          → job ∈ manager.jobs
          → job.unfinished = true
          → Creates conditions manager request job.getIdentityKey
          → ∃ error,
              outcomes (manager.process conditions request).2.events
                = [.failBeforeEngineStart error] := by
  have inv : manager.OneEngine ∧ manager.KeysIndexed := by
    induction reached with
    | start => constructor <;> simp [OneEngine, KeysIndexed, create]
    | next _ taken apart ih => exact ih.1.step ih.2 (step_cases taken) apart
  refine ⟨inv.1, ?_⟩
  intro conditions request job apart member going creates
  generalize same : job.getIdentityKey = key at creates
  cases creates with
  | downloaded kind fetched constructs =>
      simp only [RequestApart, kind] at apart
      obtain ⟨index, found⟩ := List.mem_iff_getElem?.mp member
      exact absurd same
        (apart _ (.downloaded kind fetched constructs) index job found (by simp) going)
  | loaded kind resolved parsed =>
      simp only [RequestApart, kind] at apart
      rename_i img info url reparsed
      have survives := apart img info url resolved
      rw [Url.Survives, parsed] at survives
      have indexed := inv.2 job member
      rw [same, LoadedImage.correctedKey, Except.ok.inj survives] at indexed
      refine LoadRefused.fails kind ?_
      cases matched : matchesStoredFile img info with
      | true => exact .indexed resolved matched indexed
      | false => exact .changed resolved matched

-----------------------------------------------------------------------------------------
-- Runs
-----------------------------------------------------------------------------------------

theorem step_request {conditions : RequestConditions} {request : PendingDownloadRequest}
    (done : (manager.process conditions request).1 = .ok ())
    : manager.step (.request conditions request)
        = some (manager.process conditions request).2.manager := by
  simp only [step]
  generalize manager.process conditions request = ended at done ⊢
  obtain ⟨result, dispatching⟩ := ended
  subst done
  rfl

/-- A server that announces twenty bytes for every URL, and an image file on disk. -/
def serves (imageFile : Option FileStreams.Bytes) : RequestConditions where
  imageFile
  answers := fun _ =>
    .connected (.response { status := 200, contentLength := some "20".toList } none)

def downloadFile : PendingDownloadRequest where
  kind := .download
  url := {
    scheme := "http".toList
    host := "host".toList
    port := "80".toList
    path := "/f".toList
  }
  destination := "f".toList
  onError := true

/-- The same file and URL in the layout without a version. -/
def imageOfFile : FileStreams.Bytes :=
  [1, 0, 0, 0, 0, 0, 0, 0, 102] ++ [13, 0, 0, 0, 0, 0, 0, 0]
    ++ "http://host/f".toList.map (fun character => UInt8.ofNat character.toNat)
    ++ [0, 0, 0, 0, 0, 0, 0, 0]

def loadFile : PendingDownloadRequest where
  kind := .load
  imagePath := "f.muld".toList
  onError := true

/-- The keys of the jobs, and which of them have not finished. -/
def keys (manager : MuldDownloadManager) : List (Text × Bool) :=
  manager.jobs.map fun job => (job.getIdentityKey, job.unfinished)

/-- What that image reads as. -/
def fileImage : LoadedImage where
  filePath := "f".toList
  url := "http://host/f".toList
  etag := []
  lastModified := []
  job := { fileSize := 0, maxConnections := 0, ranged := false, chunks := [] }

/-- A `Load` of a file that is being downloaded is refused. -/
theorem one_engine_load_refused
    : ∃ manager : MuldDownloadManager,
        manager.OneEngine
        ∧ keys manager = [("f\nhttp://host/f".toList, true)]
        ∧ ∃ error,
            outcomes (manager.process (serves (some imageOfFile)) loadFile).2.events
              = [.failBeforeEngineStart error] := by
  have apart : (create 8 false).RequestApart (serves none) downloadFile := by
    intro key creates index job found
    simp [create] at found
  have reached : ReachableWhile KeepsApart 8 false
      ((create 8 false).process (serves none) downloadFile).2.manager :=
    .next .start (step_request (by decide +kernel)) apart
  have present : keys ((create 8 false).process (serves none) downloadFile).2.manager
      = [("f\nhttp://host/f".toList, true)] := by
    decide +kernel
  have unloaded : ((create 8 false).process (serves none) downloadFile).2.manager.loadedImages
      = [] := by
    decide +kernel
  generalize ((create 8 false).process (serves none) downloadFile).2.manager = manager
    at reached present unloaded
  obtain ⟨one, refuses⟩ := one_engine reached
  obtain ⟨job, none_else, jobs, same, rest⟩ := List.map_eq_cons_iff.mp present
  obtain ⟨key, going⟩ := Prod.mk.inj same
  have read : (serves (some imageOfFile)).readImageFromDisk = .ok (some fileImage) := by
    decide +kernel
  have resolved : resolveImage (serves (some imageOfFile)) fileImage
      = .ok (some ({ totalSize := 20 }, downloadFile.url)) := by
    decide +kernel
  refine ⟨manager, one, present, refuses _ loadFile job ?_ ?_ going ?_⟩
  · intro img info url found
    obtain rfl : fileImage = img := by
      have same := found.read
      rw [read] at same
      exact Option.some.inj (Except.ok.inj same)
    have same := found.resolved
    rw [resolved] at same
    cases same
    rw [Url.Survives]
    decide +kernel
  · exact jobs ▸ List.mem_cons_self
  · have same : "f\nhttp://host/f".toList = fileImage.correctedKey downloadFile.url := by
      decide +kernel
    rw [key, same]
    exact .loaded rfl ⟨read, by simp [unloaded], resolved⟩ (by decide +kernel)

/-- A `Download` of a file that is being downloaded already makes a second engine for it. -/
theorem second_download_unrefused
    : ¬ ∀ (maxThreads : Int) (logger : Bool) (manager : MuldDownloadManager),
        Reachable maxThreads logger manager → manager.OneEngine := by
  intro never
  obtain ⟨manager, reached, twice⟩ :=
    @Transition.exists_of_runWhile _ _ step Transition.anyStep (create 8 false) _
      [.request (serves none) downloadFile, .request (serves none) downloadFile]
      (fun manager => decide (keys manager
        = [("f\nhttp://host/f".toList, true), ("f\nhttp://host/f".toList, true)]))
      (by decide +kernel)
  obtain ⟨first, rest, jobs, same, others⟩ :=
    List.map_eq_cons_iff.mp (of_decide_eq_true twice)
  obtain ⟨second, last, others, same', _⟩ := List.map_eq_cons_iff.mp others
  obtain ⟨key, going⟩ := Prod.mk.inj same
  obtain ⟨key', going'⟩ := Prod.mk.inj same'
  have equal := never 8 false manager reached 0 1 first second (by simp [jobs])
    (by simp [jobs, others]) going going' (key.trans key'.symm)
  cases equal

end MuldDownloadManager

end Muld
