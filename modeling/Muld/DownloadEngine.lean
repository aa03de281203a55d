import Muld.ChunkInfo
import Mathlib.Data.Int.Order.Basic

/-! The record behind `DownloadEngine` and its atomic operations.
Each definition below is one indivisible step of a method: one load, store, exchange or
read-modify-write of an atomic, or one critical section. The methods that take several
such steps are the programs of workers and calls.
-/

namespace Muld

/-- The fields of the engine that decide what a step does. -/
structure DownloadEngine where
  state : DownloadState
  ranged : Bool
  error : MuldError
  fileSize : Nat
  nTotalReceivedBytes : Nat
  /-- `writer_` holds a writer. -/
  writer : Bool
  imageStored : Bool
  artifactsCleaned : Bool
  nReceivedBytesFromLastStore : Nat
  nDownloadedChunks : Nat
  chunksInfo : List ChunkInfo
  pendingWork : List WorkItem
  nextWorkItem : Nat
  nConnections : Int
  scheduledConnections : Int
  minConnections : Int
  maxConnections : Int
  desiredConnections : Int
  releaseBudget : Int
  speedLimitBps : Nat
  /-- `disk_mtx_` is held across the scan of a store. -/
  diskLocked : Bool
  /-- `callbacks_` are those of a handler. -/
  callbacksAttached : Bool

namespace DownloadEngine

/-- `nChunks_`. -/
def nChunks (engine : DownloadEngine) : Nat := engine.chunksInfo.length

-----------------------------------------------------------------------------------------
-- Construction
-----------------------------------------------------------------------------------------

/-- The range of chunk `index` in a layout of `nChunks` chunks of `chunkSize` bytes. -/
def layoutChunk (fileSize nChunks chunkSize index : Nat) : ChunkInfo where
  chunkId := index
  startRange := wrap (index * chunkSize)
  endRange :=
    if index = nChunks - 1 then wrapSub fileSize 1
    else wrapSub (wrap (index * chunkSize + chunkSize)) 1
  received := 0

/-- A job may have one chunk. -/
theorem one_chunk : NeZero (1 : Nat) := ⟨Nat.one_ne_zero⟩

/-- The constructor of a fresh job. It divides by the number of chunks. -/
def create (maxConnections : Int) (fileSize : Nat) (ranged : Bool) (nChunks : Nat)
    [NeZero nChunks]
    : DownloadEngine :=
  let effectiveMax := if ranged then max 1 maxConnections else 1
  let chunkSize := wrapSub (wrap (fileSize + nChunks)) 1 / nChunks
  {
    state := .initialized
    ranged
    error := {}
    fileSize
    nTotalReceivedBytes := 0
    writer := true
    imageStored := false
    artifactsCleaned := false
    nReceivedBytesFromLastStore := 0
    nDownloadedChunks := 0
    chunksInfo := (List.range nChunks).map (layoutChunk fileSize nChunks chunkSize)
    pendingWork := []
    nextWorkItem := 0
    nConnections := 0
    scheduledConnections := 0
    minConnections := 1
    maxConnections := effectiveMax
    desiredConnections := min 2 effectiveMax
    releaseBudget := 0
    speedLimitBps := 0
    diskLocked := false
    callbacksAttached := false
  }

/-- The chunk rebuilt from an entry of a stored image. -/
def imageChunk (chunkId : Nat) (entry : ChunkState) : ChunkInfo :=
  let chunk : ChunkInfo :=
    { chunkId, startRange := entry.startRange, endRange := entry.endRange, received := 0 }
  chunk.updateReceived entry.downloaded

/-- The constructor of a job loaded from a stored image. -/
def ofImage (image : JobImage) : DownloadEngine :=
  let effectiveMax := if image.ranged then max 1 image.maxConnections else 1
  let chunks := image.chunks.zipIdx.map fun (entry, chunkId) => imageChunk chunkId entry
  let alreadyDownloaded := wrap (image.chunks.map ChunkState.downloaded).sum
  {
    state := .initialized
    ranged := image.ranged
    error := {}
    fileSize := image.fileSize
    nTotalReceivedBytes := alreadyDownloaded
    writer := true
    imageStored := true
    artifactsCleaned := false
    nReceivedBytesFromLastStore := alreadyDownloaded
    nDownloadedChunks := finishedCount chunks
    chunksInfo := chunks
    pendingWork := []
    nextWorkItem := 0
    nConnections := 0
    scheduledConnections := 0
    minConnections := 1
    maxConnections := effectiveMax
    desiredConnections := min 2 effectiveMax
    releaseBudget := 0
    speedLimitBps := 0
    diskLocked := false
    callbacksAttached := false
  }

-----------------------------------------------------------------------------------------
-- The state machine
-----------------------------------------------------------------------------------------

/-- The states from which `SetState` admits a transition to `next`; its last branch
overrides any state.
-/
def admits (next current : DownloadState) : Bool :=
  match next with
  | .queued =>
      current == .initialized || current == .paused || current == .canceled
        || current == .failed
  | .downloading => current == .queued
  | .paused => current == .downloading || current == .queued
  | .canceled =>
      current == .downloading || current == .queued || current == .paused
        || current == .failed
  | .failed => current == .downloading || current == .queued
  | .initialized | .completed => true

/-- The compare-and-swap loop of `SetState`, up to the point where it succeeds or finds a
state it does not admit.
-/
def setState (next : DownloadState) (engine : DownloadEngine) : Option DownloadEngine :=
  if admits next engine.state then some { engine with state := next } else none

/-- An admitted transition changes the state only. -/
theorem setState_eq_some_iff {next : DownloadState} {engine after : DownloadEngine}
    : engine.setState next = some after
        ↔ admits next engine.state = true ∧ { engine with state := next } = after := by
  rw [setState, Option.ite_none_right_eq_some, Option.some.injEq]

theorem setState_eq_none_iff {next : DownloadState} {engine : DownloadEngine}
    : engine.setState next = none ↔ admits next engine.state = false := by
  rw [setState, ite_eq_right_iff, Bool.eq_false_iff]
  exact forall_congr' fun _ => iff_of_false (Option.some_ne_none _) id

-----------------------------------------------------------------------------------------
-- Connections
-----------------------------------------------------------------------------------------

/-- `PlanNewWorkers` acts on these states only. -/
def active (engine : DownloadEngine) : Bool :=
  engine.state == .queued || engine.state == .downloading

/-- The budget of `ShouldReleaseConnection` after granting one release, if it had one. -/
def shouldReleaseConnection (engine : DownloadEngine) : Option DownloadEngine :=
  if 0 < engine.releaseBudget then
    some { engine with releaseBudget := engine.releaseBudget - 1 }
  else none

/-- The two stores of `SetConnectionBounds`, after its arguments are corrected. -/
def setBounds (minConnections maxConnections : Int) (engine : DownloadEngine)
    : DownloadEngine :=
  let lower := max 1 (if engine.ranged then minConnections else 1)
  let upper := max lower (if engine.ranged then maxConnections else 1)
  { engine with minConnections := lower, maxConnections := upper }

/-- The exchange in `SetDesiredConnections`; it returns how far the target went down. -/
def exchangeDesired (engine : DownloadEngine) (desired : Int) : Int × DownloadEngine :=
  let clamped := max engine.minConnections (min desired engine.maxConnections)
  (engine.desiredConnections - clamped, { engine with desiredConnections := clamped })

/-- The addition to `releaseBudget_` in `SetDesiredConnections`. -/
def addBudget (lowered : Int) (engine : DownloadEngine) : DownloadEngine :=
  { engine with releaseBudget := wrapInt (engine.releaseBudget + lowered) }

/-- The first decrement of `NotifyConnectionClose`, reset to zero when it would go below.
-/
def releaseScheduled (engine : DownloadEngine) : DownloadEngine :=
  { engine with scheduledConnections := max 0 (engine.scheduledConnections - 1) }

-----------------------------------------------------------------------------------------
-- Work
-----------------------------------------------------------------------------------------

/-- The item `GetNextWorkItem` hands out. -/
def nextItem (engine : DownloadEngine) : Option WorkItem :=
  engine.pendingWork[engine.nextWorkItem]?

/-- The increment in `GetNextWorkItem`. -/
def advanceWork (engine : DownloadEngine) : DownloadEngine :=
  { engine with nextWorkItem := engine.nextWorkItem + 1 }

/-- The scan of `BuildPendingWork`. -/
def rebuildPending (engine : DownloadEngine) : DownloadEngine :=
  { engine with pendingWork := pendingItems 0 0 engine.chunksInfo }

/-- The last two stores of `BuildPendingWork`. -/
def resetNext (engine : DownloadEngine) : DownloadEngine :=
  { engine with nextWorkItem := 0 }

def resetCount (finished : Nat) (engine : DownloadEngine) : DownloadEngine :=
  { engine with nDownloadedChunks := finished }

/-- `BuildPendingWork` run to its end. -/
def buildPendingWork (engine : DownloadEngine) : DownloadEngine :=
  engine.rebuildPending.resetNext.resetCount (finishedCount engine.chunksInfo)

-----------------------------------------------------------------------------------------
-- Received bytes
-----------------------------------------------------------------------------------------

/-- `UpdateReceived` on the chunk a notification names. -/
def updateReceived (chunkId bytes : Nat) (engine : DownloadEngine) : DownloadEngine :=
  { engine with
    chunksInfo := engine.chunksInfo.modify chunkId fun chunk => chunk.updateReceived bytes }

/-- Received bytes replace the chunk they are for. -/
theorem updateReceived_chunksInfo {engine : DownloadEngine} {chunkId : Nat}
    {chunk : ChunkInfo} (found : engine.chunksInfo[chunkId]? = some chunk) (bytes : Nat)
    : (engine.updateReceived chunkId bytes).chunksInfo
        = engine.chunksInfo.set chunkId (chunk.updateReceived bytes) := by
  obtain ⟨inside, rfl⟩ := List.getElem?_eq_some_iff.mp found
  exact List.modify_eq_set_get _ inside

theorem updateReceived_getElem?_self (chunkId bytes : Nat) (engine : DownloadEngine)
    : (engine.updateReceived chunkId bytes).chunksInfo[chunkId]?
        = engine.chunksInfo[chunkId]?.map fun chunk => chunk.updateReceived bytes := by
  simp [updateReceived]

theorem updateReceived_getElem?_other {chunkId other : Nat} (bytes : Nat)
    (engine : DownloadEngine) (different : chunkId ≠ other)
    : (engine.updateReceived chunkId bytes).chunksInfo[other]? = engine.chunksInfo[other]? := by
  simp [updateReceived, different]

/-- Received bytes leave every range alone. -/
theorem updateReceived_getElem?_range {chunkId bytes index : Nat} {engine : DownloadEngine}
    {chunk : ChunkInfo} (found : engine.chunksInfo[index]? = some chunk)
    : ∃ updated,
        (engine.updateReceived chunkId bytes).chunksInfo[index]? = some updated
        ∧ updated.startRange = chunk.startRange
        ∧ updated.endRange = chunk.endRange := by
  by_cases same : chunkId = index
  · subst same
    exact ⟨chunk.updateReceived bytes, by simp [updateReceived_getElem?_self, found], rfl, rfl⟩
  · exact ⟨chunk, by rw [updateReceived_getElem?_other _ _ same, found], rfl, rfl⟩

/-- A chunk after a notification is an old one, or the named one with the bytes added. -/
theorem mem_updateReceived {chunkId bytes : Nat} {engine : DownloadEngine}
    {updated : ChunkInfo} (member : updated ∈ (engine.updateReceived chunkId bytes).chunksInfo)
    : updated ∈ engine.chunksInfo
      ∨ ∃ chunk,
          engine.chunksInfo[chunkId]? = some chunk ∧ updated = chunk.updateReceived bytes := by
  obtain ⟨index, found⟩ := List.mem_iff_getElem?.mp member
  by_cases same : chunkId = index
  · subst same
    rw [updateReceived_getElem?_self, Option.map_eq_some_iff] at found
    obtain ⟨chunk, present, rfl⟩ := found
    exact Or.inr ⟨chunk, present, rfl⟩
  · rw [updateReceived_getElem?_other _ _ same] at found
    exact Or.inl (List.mem_of_getElem? found)

/-- What received bytes leave alone in a chunk, they leave alone in all. -/
theorem updateReceived_map {β : Type*} (view : ChunkInfo → β) {chunkId bytes : Nat}
    {engine : DownloadEngine} (keeps : ∀ chunk, view (chunk.updateReceived bytes) = view chunk)
    : (engine.updateReceived chunkId bytes).chunksInfo.map view = engine.chunksInfo.map view := by
  apply List.ext_getElem?
  intro index
  rw [List.getElem?_map, List.getElem?_map]
  by_cases same : chunkId = index
  · subst same
    rw [updateReceived_getElem?_self, Option.map_map]
    exact congrArg (fun kept => Option.map kept _) (funext keeps)
  · rw [updateReceived_getElem?_other _ _ same]

/-- The ranges of the chunks. -/
def ranges (engine : DownloadEngine) : List (Nat × Nat) :=
  engine.chunksInfo.map fun chunk => (chunk.startRange, chunk.endRange)

@[simp]
theorem updateReceived_ranges (chunkId bytes : Nat) (engine : DownloadEngine)
    : (engine.updateReceived chunkId bytes).ranges = engine.ranges :=
  updateReceived_map (fun chunk => (chunk.startRange, chunk.endRange)) (fun _ => rfl)

def addTotal (bytes : Nat) (engine : DownloadEngine) : DownloadEngine :=
  { engine with nTotalReceivedBytes := wrap (engine.nTotalReceivedBytes + bytes) }

def addFromLastStore (bytes : Nat) (engine : DownloadEngine) : DownloadEngine :=
  { engine with
    nReceivedBytesFromLastStore := wrap (engine.nReceivedBytesFromLastStore + bytes) }

def needsStore (engine : DownloadEngine) : Bool :=
  decide (10 * 1024 * 1024 ≤ engine.nReceivedBytesFromLastStore)

/-- A notification is about the chunk that fills the download if the counter it bumps
was one short of the number of chunks.
-/
def lastChunk (engine : DownloadEngine) : Bool :=
  engine.nDownloadedChunks == wrapSub engine.nChunks 1

def bumpDownloaded (engine : DownloadEngine) : DownloadEngine :=
  { engine with nDownloadedChunks := engine.nDownloadedChunks + 1 }

/-- The chunk with the given id counts as finished. -/
def chunkFinished (chunkId : Nat) (engine : DownloadEngine) : Bool :=
  (engine.chunksInfo[chunkId]?).any ChunkInfo.isFinished

theorem chunkFinished_of_found {engine : DownloadEngine} {chunkId : Nat} {chunk : ChunkInfo}
    (found : engine.chunksInfo[chunkId]? = some chunk)
    : engine.chunkFinished chunkId = chunk.isFinished := by
  simp [chunkFinished, found]

/-- Finished chunks stay finished while no counter wraps. -/
theorem chunkFinished_updateReceived {engine : DownloadEngine} {chunkId bytes other : Nat}
    (fits
      : ∀ chunk,
          engine.chunksInfo[chunkId]? = some chunk → chunk.received + bytes < sizeModulus)
    (finished : engine.chunkFinished other = true)
    : (engine.updateReceived chunkId bytes).chunkFinished other = true := by
  by_cases same : chunkId = other
  · subst same
    rw [chunkFinished, updateReceived_getElem?_self]
    cases found : engine.chunksInfo[chunkId]? with
    | none => simp [chunkFinished, found] at finished
    | some chunk =>
        rw [chunkFinished_of_found found] at finished
        exact ChunkInfo.isFinished_updateReceived (fits chunk found) finished
  · rwa [chunkFinished, updateReceived_getElem?_other _ _ same]

/-- Every chunk is finished. -/
def AllFinished (engine : DownloadEngine) : Prop :=
  ∀ chunk ∈ engine.chunksInfo, chunk.isFinished = true

instance (engine : DownloadEngine) : Decidable engine.AllFinished := by
  unfold AllFinished
  infer_instance

/-- All chunks are finished when as many are finished as there are. -/
theorem allFinished_iff (engine : DownloadEngine)
    : engine.AllFinished ↔ engine.nChunks ≤ finishedCount engine.chunksInfo := by
  have most : finishedCount engine.chunksInfo ≤ engine.nChunks := List.countP_le_length
  constructor
  · intro all
    exact Nat.le_of_eq (List.countP_eq_length.mpr all).symm
  · intro enough
    exact List.countP_eq_length.mp (Nat.le_antisymm most enough)

/-- A notification about the last chunk finds the counter one short of the chunks. -/
theorem lastChunk_iff {engine : DownloadEngine} (some_chunk : 0 < engine.nChunks)
    (fits : engine.nChunks < sizeModulus)
    : engine.lastChunk = true ↔ engine.nDownloadedChunks + 1 = engine.nChunks := by
  rw [lastChunk, beq_iff_eq, wrapSub_of_le some_chunk fits]
  omega

end DownloadEngine

end Muld
