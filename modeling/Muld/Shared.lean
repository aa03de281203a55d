import Muld.DownloadEngine
import Muld.Library.Content

/-! The state that workers and calls share: the engine, the two files on disk and the
handler that mirrors the engine. The operations here are the critical sections of the
disk mutex and of the handler mutex.
-/

namespace Muld

abbrev Byte := UInt8

/-- What `outputPath_ + ".muld"` holds. -/
inductive ImageFile
  | absent
  /-- A file that a failed write left behind. -/
  | damaged
  | stored (chunks : List ChunkState)
deriving DecidableEq, Repr

/-- How the file operations of one `StoreUnlocked` ended. -/
inductive StoreOutcome
  | written
  /-- The image could not be opened for writing. -/
  | openFailed
  | writeFailed
deriving DecidableEq, Repr

/-- The state behind a `DownloadHandler`. -/
structure SharedState where
  state : DownloadState := .initialized
  desiredState : DownloadState := .initialized
  desiredSpeedLimitBps : Nat := 0
  error : MuldError := {}
  /-- `engine` is set. -/
  engine : Bool := false
  progress : DownloadProgress := { totalBytes := 0, downloadedBytes := 0 }
  chunks : List ChunkProgress := []
deriving DecidableEq, Repr

/-- Facts about the past that no step reads. -/
structure History where
  /-- A `Start` or `Resume` was accepted. -/
  startAccepted : Bool := false
  /-- A `Cancel` was accepted. -/
  cancelAccepted : Bool := false
  /-- The call whose `Cancel` was accepted with no `Start` or `Resume` accepted since. -/
  lastCancel : Option Nat := none
  /-- A `BuildPendingWork` has ended. -/
  built : Bool := false
  /-- Nothing was accepted by `SetState` since the last `BuildPendingWork`, which has ended.
  -/
  undisturbed : Bool := false
  /-- How often `on_finish` was invoked. -/
  finishes : Nat := 0
deriving DecidableEq, Repr

structure Shared where
  engine : DownloadEngine
  handler : SharedState
  output : Option (Nat → Byte)
  image : ImageFile
  /-- `max_threads_` of the manager. -/
  maxThreads : Int
  history : History
  /-- A null `writer_` was used; the process does not go on from here. -/
  nullWriter : Bool

namespace Shared

/-- Apply an engine operation. -/
def onEngine (shared : Shared) (operation : DownloadEngine → DownloadEngine) : Shared :=
  { shared with engine := operation shared.engine }

def onHistory (shared : Shared) (operation : History → History) : Shared :=
  { shared with history := operation shared.history }

-----------------------------------------------------------------------------------------
-- Callbacks into the handler
-----------------------------------------------------------------------------------------

/-- Run a callback that `AttachEngine` installed, if it has installed them. -/
def callback (shared : Shared) (run : SharedState → SharedState) : Shared :=
  { shared with
    handler :=
      if shared.engine.callbacksAttached then run shared.handler else shared.handler }

/-- What the installed callback leaves alone, every callback does. -/
theorem callback_keeps {α : Type} (field : SharedState → α) {shared : Shared}
    {run : SharedState → SharedState} (keeps : ∀ handler, field (run handler) = field handler)
    : field (shared.callback run).handler = field shared.handler := by
  simp only [callback]
  split
  · exact keeps _
  · rfl

/-- `on_state_change`. -/
def reportState (state : DownloadState) (shared : Shared) : Shared :=
  shared.callback fun handler => { handler with state }

/-- `on_finish`. -/
def reportFinish (shared : Shared) : Shared :=
  (shared.callback fun handler => { handler with state := .completed }).onHistory
    fun history => { history with finishes := history.finishes + 1 }

/-- `on_error`. -/
def reportError (error : MuldError) (shared : Shared) : Shared :=
  shared.callback fun handler => { handler with error, state := .failed }

/-- `on_progress`. -/
def reportProgress (downloadedBytes : Nat) (shared : Shared) : Shared :=
  shared.callback fun handler =>
    { handler with progress := { totalBytes := shared.engine.fileSize, downloadedBytes } }

/-- The chunk list of the handler, enlarged so that `chunkId` is an index of it. -/
def resizeChunks (chunks : List ChunkProgress) (chunkId : Nat) : List ChunkProgress :=
  chunks ++ List.replicate (chunkId + 1 - chunks.length)
    { downloadedBytes := 0, totalBytes := 0 }

/-- `on_chunk_progress`. -/
def reportChunk (chunkId : Nat) (event : ChunkProgress) (shared : Shared) : Shared :=
  shared.callback fun handler =>
    { handler with chunks := (resizeChunks handler.chunks chunkId).set chunkId event }

-----------------------------------------------------------------------------------------
-- Critical sections of the disk mutex
-----------------------------------------------------------------------------------------

def lockDisk (shared : Shared) : Shared :=
  shared.onEngine fun engine => { engine with diskLocked := true }

/-- The end of `StoreUnlocked`, after the scan of the chunks: the image is written, the
byte counter is reset and the mutex released.
-/
def storeImage (scan : List ChunkState) (outcome : StoreOutcome) (shared : Shared)
    : Shared :=
  { shared with
    engine := {
      shared.engine with
      imageStored := outcome == .written
      nReceivedBytesFromLastStore := 0
      diskLocked := false
    }
    image :=
      match outcome with
      | .written => .stored scan
      | .openFailed => shared.image
      | .writeFailed => .damaged
  }

/-- `CleanupArtifacts`. -/
def cleanupArtifacts (removeOutputFile : Bool) (shared : Shared) : Shared :=
  if shared.engine.artifactsCleaned then shared
  else
    { shared with
      engine := { shared.engine with writer := false, artifactsCleaned := true }
      image := .absent
      output := if removeOutputFile then none else shared.output
    }

/-- In the engine a cleanup only drops the writer, and nothing when it ran before. -/
@[simp]
theorem cleanupArtifacts_engine (removeOutputFile : Bool) (shared : Shared)
    : (shared.cleanupArtifacts removeOutputFile).engine
        = { shared.engine with
            writer := shared.engine.writer && shared.engine.artifactsCleaned
            artifactsCleaned := true } := by
  unfold cleanupArtifacts
  split
  · rename_i cleaned
    rw [cleaned, Bool.and_true, ← cleaned]
  · rename_i open_
    simp [eq_false_of_ne_true open_]

@[simp]
theorem cleanupArtifacts_handler (removeOutputFile : Bool) (shared : Shared)
    : (shared.cleanupArtifacts removeOutputFile).handler = shared.handler := by
  unfold cleanupArtifacts
  split <;> rfl

@[simp]
theorem cleanupArtifacts_history (removeOutputFile : Bool) (shared : Shared)
    : (shared.cleanupArtifacts removeOutputFile).history = shared.history := by
  unfold cleanupArtifacts
  split <;> rfl

@[simp]
theorem cleanupArtifacts_nullWriter (removeOutputFile : Bool) (shared : Shared)
    : (shared.cleanupArtifacts removeOutputFile).nullWriter = shared.nullWriter := by
  unfold cleanupArtifacts
  split <;> rfl

@[simp]
theorem cleanupArtifacts_false_output (shared : Shared)
    : (shared.cleanupArtifacts false).output = shared.output := by
  unfold cleanupArtifacts
  split <;> rfl

/-- A cleanup leaves the output as it is or removes it. -/
theorem cleanupArtifacts_output (removeOutputFile : Bool) (shared : Shared)
    : (shared.cleanupArtifacts removeOutputFile).output = shared.output
      ∨ (shared.cleanupArtifacts removeOutputFile).output = none := by
  cases removeOutputFile
  · exact Or.inl (by simp)
  · unfold cleanupArtifacts
    split
    · exact Or.inl rfl
    · exact Or.inr rfl

/-- `Writer::Write`, storing the bytes it reports. -/
def writeOutput (offset : Nat) (bytes : List Byte) (shared : Shared) : Shared :=
  { shared with output := shared.output.map fun file => Content.write file offset bytes }

end Shared

end Muld
