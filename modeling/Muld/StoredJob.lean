import Muld.Connections
import Muld.Notifications
import Muld.ImageUpdate

/-! An engine together with the strings of its job and the image file that its stores write.
The calls here are sequential: what the engine itself does in them is what the critical
sections and notifications of the shared state do.
-/

namespace Muld

open FileStreams
open Disk (StringField ChunkTable JobImageIndex)

/-- The entry of the image file for an entry of the scan. -/
def ChunkState.toDisk (entry : ChunkState) : Disk.ChunkState where
  startRange := UInt64.ofNat entry.startRange
  endRange := UInt64.ofNat entry.endRange
  downloaded := UInt64.ofNat entry.downloaded

/-- What the engine takes from an entry of the image file. -/
def ChunkState.ofDisk (entry : Disk.ChunkState) : ChunkState where
  startRange := entry.startRange.toNat
  endRange := entry.endRange.toNat
  downloaded := entry.downloaded.toNat

/-- The fields of an image that the engine is rebuilt from. -/
def JobImage.ofDisk (image : Disk.JobImage) : JobImage where
  fileSize := image.fileSize.toNat
  maxConnections := image.maxConnections.toInt
  ranged := image.ranged
  chunks := image.chunks.items.map ChunkState.ofDisk

/-- The clock and the disk during one `StoreUnlocked`. -/
structure StoreConditions where
  now : UInt64
  /-- The file opened by the update in place. -/
  update : Device := .working
  /-- The file opened by the rewrite. -/
  rewrite : Device := .working
deriving DecidableEq, Repr

structure StoredJob where
  shared : Shared
  outputPath : StringField
  /-- `GetUrlString(url_)`. -/
  url : StringField
  etag : StringField
  lastModified : StringField
  createdAt : UInt64
  updatedAt : UInt64
  imageIndex : JobImageIndex
  /-- The content of `outputPath_ + ".muld"`, if it exists. -/
  file : Option Bytes

namespace StoredJob

def engine (job : StoredJob) : DownloadEngine := job.shared.engine

def onEngine (job : StoredJob) (operation : DownloadEngine → DownloadEngine) : StoredJob :=
  { job with shared := job.shared.onEngine operation }

-----------------------------------------------------------------------------------------
-- Construction
-----------------------------------------------------------------------------------------

/-- The arguments of a constructor of the engine. -/
inductive Origin
  | fresh (outputPath url : StringField) (maxConnections : Int32) (fileSize : UInt64)
      (ranged : Bool) (nChunks : Fin (Disk.maxObjectSize / Disk.chunkStateSize + 1))
      [NeZero nChunks.val] (now : UInt64)
  | loaded (image : Disk.JobImage) (url : StringField)

/-- The arguments for twenty bytes in two chunks. -/
def Origin.twoChunks : Origin := @fresh .empty .empty 8 20 true 2 ⟨by decide⟩ 0

/-- The job right after the construction of its engine, with what the image file and the rest
of the shared state are at that time.
-/
def ofOrigin (shared : Shared) (file : Option Bytes) : Origin → StoredJob
  | @Origin.fresh outputPath url maxConnections fileSize ranged nChunks _ now =>
      {
        shared := { shared with
          engine := .create maxConnections.toInt fileSize.toNat ranged nChunks.val }
        outputPath
        url
        etag := .empty
        lastModified := .empty
        createdAt := now
        updatedAt := now
        imageIndex := {}
        file
      }
  | .loaded image url =>
      {
        shared := { shared with engine := .ofImage (.ofDisk image) }
        outputPath := image.filePath
        url
        etag := image.etag
        lastModified := image.lastModified
        createdAt := image.createdAt
        updatedAt := image.updatedAt
        imageIndex := {}
        file
      }

-----------------------------------------------------------------------------------------
-- Calls
-----------------------------------------------------------------------------------------

/-- The scan of `StoreUnlocked`. -/
def scan (job : StoredJob) : List ChunkState := job.engine.chunksInfo.map ChunkInfo.toState

def entries (job : StoredJob) : ChunkTable := .ofList (job.scan.map ChunkState.toDisk)

/-- The image that `StoreUnlocked` makes of the engine. -/
def image (now : UInt64) (job : StoredJob) : Disk.JobImage where
  filePath := job.outputPath
  fileSize := UInt64.ofNat job.engine.fileSize
  maxConnections := Int32.ofInt job.engine.maxConnections
  ranged := job.engine.ranged
  url := job.url
  etag := job.etag
  lastModified := job.lastModified
  createdAt := job.createdAt
  updatedAt := now
  chunks := job.entries

/-- `Store`, which uses the writer. -/
def store (conditions : StoreConditions) (job : StoredJob) : Option StoredJob :=
  if job.engine.writer then
    let (updated, file) :=
      if job.engine.imageStored then
        Disk.updateImageChunksOnDisk job.imageIndex job.entries conditions.now
          conditions.update job.file
      else (false, job.file)
    if updated then
      some { job with
        shared := job.shared.lockDisk.storeImage job.scan .written
        updatedAt := conditions.now
        file }
    else
      let written :=
        Disk.writeImageToDisk (job.image conditions.now) conditions.rewrite job.imageIndex file
      let outcome : StoreOutcome :=
        if written.returned then .written
        else if conditions.rewrite.opens then .writeFailed
        else .openFailed
      some { job with
        shared := job.shared.lockDisk.storeImage job.scan outcome
        updatedAt := conditions.now
        imageIndex := written.index
        file := written.file }
  else none

def setValidators (etag lastModified : StringField) (job : StoredJob) : StoredJob :=
  { job with etag, lastModified }

def setConnectionBounds (minConnections maxConnections : Int32) (job : StoredJob) : StoredJob :=
  job.onEngine (.setConnectionBounds minConnections.toInt maxConnections.toInt)

/-- The arguments of a `NotifyChunkReceived`, and the conditions of the stores it may make. -/
structure Received where
  chunkId : Nat
  bytes : UInt64
  elapsed : Bool := false
  counted : StoreConditions
  completed : StoreConditions
deriving DecidableEq, Repr

def countStored (call : Received) (job : StoredJob) : Option StoredJob :=
  let counted := job.onEngine (.addFromLastStore call.bytes.toNat)
  if counted.engine.needsStore then counted.store call.counted else some counted

/-- The store, the cleanup, which removes the image, and `on_finish`. -/
def finishCompleted (conditions : StoreConditions) (job : StoredJob) : Option StoredJob :=
  (job.store conditions).map fun stored =>
    { stored with
      shared := (stored.shared.cleanupArtifacts false).reportFinish
      file := if stored.engine.artifactsCleaned then stored.file else none }

def complete (conditions : StoreConditions) (job : StoredJob) : Option StoredJob :=
  match job.engine.state with
  | .downloading | .paused | .failed =>
      (job.onEngine fun engine => { engine with state := .completed }).finishCompleted conditions
  | _ => some job

def finishChunk (call : Received) (job : StoredJob) : Option StoredJob :=
  if job.engine.chunkFinished call.chunkId then
    if job.engine.lastChunk then (job.onEngine .bumpDownloaded).complete call.completed
    else some (job.onEngine .bumpDownloaded)
  else some job

/-- The part of the call that the shared state knows about. -/
def Received.notification (call : Received) : Notification where
  chunkId := call.chunkId
  bytes := call.bytes.toNat
  elapsed := call.elapsed

/-- `NotifyChunkReceived`. -/
def notifyChunkReceived (call : Received) (job : StoredJob) : Option StoredJob :=
  match (job.engine.updateReceived call.chunkId call.bytes.toNat).chunksInfo[call.chunkId]? with
  | none => none
  | some chunk =>
      (({ job with shared := job.shared.receive call.notification chunk }).countStored call).bind
        (finishChunk call)

-----------------------------------------------------------------------------------------
-- The engine behind the calls
-----------------------------------------------------------------------------------------

variable {job after : StoredJob}

/-- A store of the job is a store of the shared state with some outcome. -/
theorem shared_of_store {conditions : StoreConditions}
    (taken : job.store conditions = some after)
    : ∃ outcome : StoreOutcome, job.shared.store outcome = some after.shared := by
  rw [store] at taken
  split at taken
  case isFalse => contradiction
  rename_i writer
  have open_ : job.shared.engine.writer = true := writer
  generalize (if job.engine.imageStored then _ else _ : Bool × Option Bytes) = update at taken
  obtain ⟨updated, file⟩ := update
  dsimp only at taken
  split at taken <;> cases taken
  · exact ⟨.written, by rw [Shared.store, if_pos open_]; rfl⟩
  · exact ⟨_, by rw [Shared.store, if_pos open_]; rfl⟩

theorem shared_of_countStored {call : Received} (taken : job.countStored call = some after)
    : ∃ outcome : StoreOutcome,
        job.shared.countStored call.bytes.toNat outcome = some after.shared := by
  simp only [countStored] at taken
  split at taken
  · rename_i due
    obtain ⟨outcome, stored⟩ := shared_of_store taken
    exact ⟨outcome, by rw [Shared.countStored]; exact (if_pos due).trans stored⟩
  · rename_i early
    cases taken
    exact ⟨.written, by rw [Shared.countStored]; exact if_neg early⟩

theorem shared_of_finishCompleted {conditions : StoreConditions}
    (taken : job.finishCompleted conditions = some after)
    : ∃ outcome : StoreOutcome, job.shared.finishCompleted outcome = some after.shared := by
  obtain ⟨stored, kept, rfl⟩ := Option.map_eq_some_iff.mp taken
  obtain ⟨outcome, sharedStored⟩ := shared_of_store kept
  exact ⟨outcome, by rw [Shared.finishCompleted, sharedStored]; rfl⟩

theorem shared_of_complete {conditions : StoreConditions}
    (taken : job.complete conditions = some after)
    : ∃ outcome : StoreOutcome, job.shared.complete outcome = some after.shared := by
  simp only [complete, engine] at taken
  simp only [Shared.complete]
  cases state : job.shared.engine.state <;> simp only [state] at taken
  case downloading | paused | failed => exact shared_of_finishCompleted taken
  all_goals
    cases taken
    exact ⟨.written, rfl⟩

theorem shared_of_finishChunk {call : Received} (taken : job.finishChunk call = some after)
    : ∃ outcome : StoreOutcome,
        job.shared.finishChunk call.chunkId outcome = some after.shared := by
  rw [finishChunk] at taken
  split at taken
  case isTrue finished =>
    have finished : job.shared.engine.chunkFinished call.chunkId = true := finished
    simp only [Shared.finishChunk, if_pos finished]
    split at taken
    case isTrue last =>
      have last : job.shared.engine.lastChunk = true := last
      simp only [if_pos last]
      exact shared_of_complete taken
    case isFalse more =>
      have more : ¬ job.shared.engine.lastChunk = true := more
      cases taken
      exact ⟨.written, by rw [if_neg more]; rfl⟩
  case isFalse unfinished =>
    have unfinished : ¬ job.shared.engine.chunkFinished call.chunkId = true := unfinished
    cases taken
    exact ⟨.written, by rw [Shared.finishChunk, if_neg unfinished]⟩

/-- A notification of the job is one of the shared state, which decides everything but the
file.
-/
theorem shared_of_notifyChunkReceived {call : Received}
    (taken : job.notifyChunkReceived call = some after)
    : ∃ (counted completed : StoreOutcome),
        job.shared.notifyChunkReceived
            { call.notification with stored := counted, completed }
          = some after.shared := by
  simp only [notifyChunkReceived] at taken
  split at taken
  · contradiction
  rename_i chunk found
  obtain ⟨middle, counted, finished⟩ := Option.bind_eq_some_iff.mp taken
  obtain ⟨stored, sharedCounted⟩ := shared_of_countStored counted
  obtain ⟨completed, sharedFinished⟩ := shared_of_finishChunk finished
  have found : (job.shared.engine.updateReceived call.notification.chunkId
      call.notification.bytes).chunksInfo[call.notification.chunkId]? = some chunk := found
  refine ⟨stored, completed, ?_⟩
  simp only [Shared.notifyChunkReceived, found]
  exact Option.bind_eq_some_iff.mpr ⟨middle.shared, sharedCounted, sharedFinished⟩

end StoredJob

end Muld
