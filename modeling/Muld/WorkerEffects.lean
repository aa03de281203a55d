import Muld.Regions

/-! What a step of a worker can change, one statement for each part of the state. Invariants
are derived from these statements; only an invariant about a single branch looks at the
steps themselves.
-/

namespace Muld

namespace Worker

variable {shared shared' : Shared} {worker next : Worker} {label : WorkerLabel}

/-- A held item needs a program point that can hold one. -/
def Placed (worker : Worker) : Prop :=
  worker.item.isSome → worker.pc.mayHold = true

theorem Step.placed (taken : Step shared worker label shared' next) (placed : worker.Placed)
    : next.Placed := by
  cases taken
  case store site outcome at_pc open_ =>
    cases site <;> simp_all [Placed, afterStore, WorkerPc.mayHold, StoreSite.mayHold]
  all_goals simp_all [Placed, WorkerPc.mayHold, StoreSite.mayHold]

/-- Inside the loop over a work item the item is held. -/
def Holding (worker : Worker) : Prop :=
  worker.pc.mayHold = true → worker.pc ≠ .failSet → worker.item.isSome

theorem Step.holding (taken : Step shared worker label shared' next)
    (holding : worker.Holding)
    : next.Holding := by
  cases taken
  case store site outcome at_pc open_ =>
    cases site <;> simp_all [Holding, afterStore, WorkerPc.mayHold, StoreSite.mayHold]
  case streamStop at_pc _ =>
    rcases at_pc with at_pc | at_pc <;> simp_all [Holding, WorkerPc.mayHold]
  case allow at_pc _ _ =>
    rcases at_pc with at_pc | at_pc <;> simp_all [Holding, WorkerPc.mayHold]
  all_goals simp_all [Holding, WorkerPc.mayHold, StoreSite.mayHold]

/-- The scheduled counter moves only when a worker starts to close. -/
theorem Step.scheduledConnections (taken : Step shared worker label shared' next)
    : (shared'.engine.scheduledConnections = shared.engine.scheduledConnections
        ∧ next.pc.scheduled = worker.pc.scheduled)
      ∨ (worker.pc = .closeScheduled
        ∧ next.pc = .closeConnection
        ∧ shared'.engine.scheduledConnections
          = max 0 (shared.engine.scheduledConnections - 1)) := by
  cases taken
  case closeScheduled at_pc => exact Or.inr ⟨at_pc, rfl, rfl⟩
  case store site outcome at_pc open_ =>
    cases site <;> simp_all [Shared.storeImage, afterStore, WorkerPc.scheduled]
  case throw at_pc _ _ => exact Or.inl ⟨rfl, (WorkerPc.scheduled_of_throws at_pc).symm⟩
  case release at_pc _ =>
    rcases at_pc with at_pc | at_pc <;> exact Or.inl ⟨rfl, by rw [at_pc]; rfl⟩
  case streamStop at_pc _ =>
    rcases at_pc with at_pc | at_pc <;> exact Or.inl ⟨rfl, by rw [at_pc]; rfl⟩
  case allow at_pc _ _ =>
    rcases at_pc with at_pc | at_pc <;> exact Or.inl ⟨rfl, by rw [at_pc]; rfl⟩
  all_goals
    refine Or.inl ⟨?_, ?_⟩
    · first | rfl | simp
    · first | rfl | simp_all [WorkerPc.scheduled]

/-- The connection counter moves when a worker connects and when it closes. -/
theorem Step.nConnections (taken : Step shared worker label shared' next)
    : (shared'.engine.nConnections = shared.engine.nConnections
        ∧ next.pc.connected = worker.pc.connected)
      ∨ (worker.pc = .queued
        ∧ next.pc = .openCas
        ∧ shared'.engine.nConnections = shared.engine.nConnections + 1)
      ∨ (worker.pc = .closeConnection
        ∧ shared'.engine.nConnections = shared.engine.nConnections - 1
        ∧ (next.pc = .closed ∧ shared'.engine.nConnections ≠ 0 ∨ next.pc = .closeCheck)) := by
  cases taken
  case connect at_pc => exact Or.inr (Or.inl ⟨at_pc, rfl, rfl⟩)
  case closeOne at_pc others => exact Or.inr (Or.inr ⟨at_pc, rfl, Or.inl ⟨rfl, others⟩⟩)
  case closeLast at_pc last => exact Or.inr (Or.inr ⟨at_pc, rfl, Or.inr rfl⟩)
  case store site outcome at_pc open_ =>
    cases site <;> simp_all [Shared.storeImage, afterStore, WorkerPc.connected]
  case throw at_pc _ _ => exact Or.inl ⟨rfl, (WorkerPc.connected_of_throws at_pc).symm⟩
  case release at_pc _ =>
    rcases at_pc with at_pc | at_pc <;> exact Or.inl ⟨rfl, by rw [at_pc]; rfl⟩
  case streamStop at_pc _ =>
    rcases at_pc with at_pc | at_pc <;> exact Or.inl ⟨rfl, by rw [at_pc]; rfl⟩
  case allow at_pc _ _ =>
    rcases at_pc with at_pc | at_pc <;> exact Or.inl ⟨rfl, by rw [at_pc]; rfl⟩
  all_goals
    refine Or.inl ⟨?_, ?_⟩
    · first | rfl | simp
    · first | rfl | simp_all [WorkerPc.connected]

/-- The state moves when a worker opens, completes the download or fails. -/
theorem Step.state (taken : Step shared worker label shared' next)
    : shared'.engine.state = shared.engine.state
      ∨ (worker.pc = .openCas
        ∧ next.pc = .openReport
        ∧ shared.engine.state = .queued
        ∧ shared'.engine.state = .downloading)
      ∨ ((worker.pc = .completeCas ∧ shared.engine.state = .downloading
          ∨ worker.pc = .completeForce)
        ∧ next.pc = .storeLock .complete
        ∧ shared'.engine.state = .completed)
      ∨ (worker.pc = .failSet
        ∧ next.pc = .failReport
        ∧ (shared.engine.state = .downloading ∨ shared.engine.state = .queued)
        ∧ shared'.engine.state = .failed) := by
  cases taken
  case openWon at_pc found => exact Or.inr (Or.inl ⟨at_pc, rfl, found, rfl⟩)
  case complete at_pc found =>
    exact Or.inr (Or.inr (Or.inl ⟨Or.inl ⟨at_pc, found⟩, rfl, rfl⟩))
  case force at_pc => exact Or.inr (Or.inr (Or.inl ⟨Or.inr at_pc, rfl, rfl⟩))
  case fail at_pc admitted =>
    exact Or.inr (Or.inr (Or.inr
      ⟨at_pc, rfl, by simpa [DownloadEngine.admits] using admitted, rfl⟩))
  all_goals exact Or.inl (by first | rfl | simp)

theorem Step.pendingWork (taken : Step shared worker label shared' next)
    : shared'.engine.pendingWork = shared.engine.pendingWork := by
  cases taken <;> first | rfl | simp

theorem Step.ranged (taken : Step shared worker label shared' next)
    : shared'.engine.ranged = shared.engine.ranged := by
  cases taken <;> first | rfl | simp

theorem Step.fileSize (taken : Step shared worker label shared' next)
    : shared'.engine.fileSize = shared.engine.fileSize := by
  cases taken <;> first | rfl | simp

/-- The work list advances where a worker asks for an item. -/
theorem Step.nextWorkItem (taken : Step shared worker label shared' next)
    : shared'.engine.nextWorkItem = shared.engine.nextWorkItem
      ∨ (worker.pc = .takeItem
        ∧ shared'.engine.nextWorkItem = shared.engine.nextWorkItem + 1) := by
  cases taken
  case takeNone at_pc _ => exact Or.inr ⟨at_pc, rfl⟩
  case take item at_pc _ => exact Or.inr ⟨at_pc, rfl⟩
  all_goals exact Or.inl (by first | rfl | simp)

/-- A worker keeps its item, drops it or takes the next one. -/
theorem Step.item (taken : Step shared worker label shared' next)
    : next.item = worker.item
      ∨ next.item = none
      ∨ ∃ item,
          worker.pc = .takeItem
          ∧ shared.engine.nextItem = some item
          ∧ shared' = shared.onEngine .advanceWork
          ∧ next = { worker with
              pc := .pollInner, item := some item, currentOffset := item.rangeStart } := by
  cases taken
  case take item at_pc found => exact Or.inr (Or.inr ⟨item, at_pc, found, rfl, rfl⟩)
  all_goals first | exact Or.inl rfl | exact Or.inr (Or.inl rfl)

/-- A worker that asks for an item gets the next one, if there is one. -/
theorem Step.takes (taken : Step shared worker label shared' next)
    (at_pc : worker.pc = .takeItem) {item : WorkItem}
    (available : shared.engine.nextItem = some item)
    : next.item = some item := by
  cases taken
  case take found =>
    rw [found] at available
    exact available
  all_goals simp_all [WorkerPc.throws]

/-- The received bytes move only where a worker notifies about its own chunk. -/
theorem Step.chunksInfo (taken : Step shared worker label shared' next)
    : shared'.engine.chunksInfo = shared.engine.chunksInfo
      ∨ ∃ item,
          worker.pc = .notifyUpdate
          ∧ next = worker.goto .notifyTotal
          ∧ worker.item = some item
          ∧ shared'.engine = shared.engine.updateReceived item.chunkId worker.bytesRead := by
  cases taken
  case update item at_pc held => exact Or.inr ⟨item, at_pc, rfl, held, rfl⟩
  all_goals exact Or.inl (by first | rfl | simp)

/-- A worker counts bytes in one place only. -/
theorem Step.chunksInfo_eq (taken : Step shared worker label shared' next)
    (elsewhere : worker.pc ≠ .notifyUpdate)
    : shared'.engine.chunksInfo = shared.engine.chunksInfo := by
  rcases taken.chunksInfo with same | ⟨_, at_pc, _⟩
  · exact same
  · exact absurd at_pc elsewhere

/-- The output file changes where a worker writes at its offset and where the last worker
cleans up after a `Cancel`.
-/
theorem Step.output (taken : Step shared worker label shared' next)
    : shared'.output = shared.output
      ∨ (∃ count,
          worker.pc = .write
          ∧ shared' = shared.writeOutput worker.currentOffset (worker.buffer.take count))
      ∨ (worker.pc = .closeCleanup ∧ shared' = shared.cleanupArtifacts true) := by
  cases taken
  case writePart count at_pc _ _ _ => exact Or.inr (Or.inl ⟨count, at_pc, rfl⟩)
  case writeLast at_pc _ _ =>
    exact Or.inr (Or.inl ⟨worker.buffer.length, at_pc, by rw [List.take_length]⟩)
  case closeCleanup at_pc _ => exact Or.inr (Or.inr ⟨at_pc, rfl⟩)
  all_goals exact Or.inl (by first | rfl | simp)

theorem Step.ranges (taken : Step shared worker label shared' next)
    : shared'.engine.ranges = shared.engine.ranges := by
  rcases taken.chunksInfo with same | ⟨item, _, _, _, moved⟩
  · rw [DownloadEngine.ranges, same, DownloadEngine.ranges]
  · rw [moved, DownloadEngine.updateReceived_ranges]

theorem Step.nChunks (taken : Step shared worker label shared' next)
    : shared'.engine.nChunks = shared.engine.nChunks := by
  rcases taken.chunksInfo with same | ⟨item, _, _, _, moved⟩
  · simp [DownloadEngine.nChunks, same]
  · simp [DownloadEngine.nChunks, moved, DownloadEngine.updateReceived]

theorem Step.startAccepted (taken : Step shared worker label shared' next)
    : shared'.history.startAccepted = shared.history.startAccepted := by
  cases taken <;> first | rfl | simp

theorem Step.cancelAccepted (taken : Step shared worker label shared' next)
    : shared'.history.cancelAccepted = shared.history.cancelAccepted := by
  cases taken <;> first | rfl | simp

theorem Step.lastCancel (taken : Step shared worker label shared' next)
    : shared'.history.lastCancel = shared.history.lastCancel := by
  cases taken <;> first | rfl | simp

/-- A worker cleans up a canceled download when it was the last one to close. -/
theorem Step.cleans (taken : Step shared worker label shared' next)
    (next_pc : next.pc = .closeCleanup)
    : worker.pc = .closeCheck ∧ shared.engine.state = .canceled ∧ shared' = shared := by
  cases taken
  case closeCanceled at_pc found => exact ⟨at_pc, found, rfl⟩
  case store site _ _ _ => cases site <;> cases next_pc
  all_goals simp_all

/-- A worker completes the download after the bump it took for the last one. -/
theorem Step.completing (taken : Step shared worker label shared' next)
    (next_pc : next.pc.completing = true)
    : (worker.pc = .notifyBump
        ∧ next.item = worker.item
        ∧ shared.engine.lastChunk = true
        ∧ next.pc = .completeCas)
      ∨ (worker.pc = .completeCas ∧ next.pc = .completeForce) := by
  cases taken
  case bumpLast at_pc last => exact Or.inl ⟨at_pc, rfl, last, rfl⟩
  case completeStopped at_pc _ => exact Or.inr ⟨at_pc, rfl⟩
  case store site _ _ _ => cases site <;> cases next_pc
  case nullWriter at_pc _ =>
    rcases at_pc with at_pc | ⟨_, at_pc⟩ <;> simp [at_pc, WorkerPc.completing] at next_pc
  all_goals simp_all [WorkerPc.completing]

/-- A worker that completes the download goes on to do so, has done so, or finds a state
that its compare-and-swap does not expect.
-/
theorem Step.completes (taken : Step shared worker label shared' next)
    (at_pc : worker.pc.completing = true)
    : next.pc.completing = true
      ∨ shared'.engine.state = .completed
      ∨ (worker.pc = .completeCas
        ∧ shared.engine.state ≠ .downloading
        ∧ shared.engine.state ≠ .paused
        ∧ shared.engine.state ≠ .failed
        ∧ shared' = shared) := by
  cases pc : worker.pc <;> simp only [pc, WorkerPc.completing] at at_pc <;> try contradiction
  case completeCas =>
    cases taken
    case complete => exact Or.inr (Or.inl rfl)
    case completeStopped => exact Or.inl rfl
    case completeMissed found => exact Or.inr (Or.inr ⟨rfl, found.1, found.2.1, found.2.2, rfl⟩)
    all_goals simp_all [WorkerPc.throws]
  case completeForce =>
    cases taken
    case force => exact Or.inr (Or.inl rfl)
    all_goals simp_all [WorkerPc.throws]

/-- `Completed` is final for workers. -/
theorem Step.stays_completed (taken : Step shared worker label shared' next)
    (completed : shared.engine.state = .completed)
    : shared'.engine.state = .completed := by
  rcases taken.state with same | ⟨_, _, queued, _⟩ | ⟨_, _, done⟩ | ⟨_, _, live, _⟩
  · rw [same, completed]
  · simp [completed] at queued
  · exact done
  · simp [completed] at live

/-- The counter of finished chunks moves by one bump at a time. -/
theorem Step.nDownloadedChunks (taken : Step shared worker label shared' next)
    : shared'.engine.nDownloadedChunks = shared.engine.nDownloadedChunks
      ∨ (worker.pc = .notifyBump
        ∧ shared'.engine.nDownloadedChunks = shared.engine.nDownloadedChunks + 1
        ∧ (shared.engine.lastChunk = true → next.pc = .completeCas)) := by
  cases taken
  case bump at_pc more => exact Or.inr ⟨at_pc, rfl, by simp [more]⟩
  case bumpLast at_pc _ => exact Or.inr ⟨at_pc, rfl, fun _ => rfl⟩
  all_goals exact Or.inl (by first | rfl | simp)

/-- A completed download goes on until `on_finish` was invoked. -/
theorem Step.finishing (taken : Step shared worker label shared' next)
    (at_pc : worker.pc.finishing = true)
    : next.pc.finishing = true ∨ 0 < shared'.history.finishes := by
  cases taken
  case finishReport => exact Or.inr (Nat.succ_pos _)
  case lock site found _ => cases site <;> simp_all [WorkerPc.finishing]
  case scan => exact Or.inl at_pc
  case scanned site found _ => cases site <;> simp_all [WorkerPc.finishing]
  case store site _ found _ => cases site <;> simp_all [WorkerPc.finishing, afterStore]
  case nullWriter => exact Or.inl at_pc
  case throw found _ _ =>
    cases pc : worker.pc <;> simp_all [WorkerPc.throws, WorkerPc.finishing]
  case release found _ =>
    rcases found with found | found <;> simp [found, WorkerPc.finishing] at at_pc
  case streamStop found _ =>
    rcases found with found | found <;> simp [found, WorkerPc.finishing] at at_pc
  case allow found _ _ =>
    rcases found with found | found <;> simp [found, WorkerPc.finishing] at at_pc
  case cleanup => exact Or.inl rfl
  all_goals simp [‹worker.pc = _›, WorkerPc.finishing] at at_pc

/-- A worker gets to the end of a completed download by completing it. -/
theorem Step.entersFinishing (taken : Step shared worker label shared' next)
    (after : next.pc.finishing = true)
    : worker.pc.finishing = true ∨ shared'.engine.state = .completed := by
  cases taken
  case complete => exact Or.inr rfl
  case force => exact Or.inr rfl
  case lock site at_pc _ =>
    cases site <;> first | cases after; done | exact Or.inl (by rw [at_pc]; rfl)
  case scan => exact Or.inl after
  case scanned site at_pc _ =>
    cases site <;> first | cases after; done | exact Or.inl (by rw [at_pc]; rfl)
  case store site _ at_pc _ =>
    cases site <;> first | cases after; done | exact Or.inl (by rw [at_pc]; rfl)
  case nullWriter => exact Or.inl after
  case cleanup at_pc _ => exact Or.inl (by rw [at_pc]; rfl)
  case writePart at_pc _ _ _ => simp [at_pc, WorkerPc.finishing] at after
  all_goals cases after

theorem Step.finishes (taken : Step shared worker label shared' next)
    : shared.history.finishes ≤ shared'.history.finishes := by
  cases taken
  case finishReport => exact Nat.le_succ _
  all_goals exact Nat.le_of_eq (by first | rfl | simp)

theorem Step.built (taken : Step shared worker label shared' next)
    : shared'.history.built = shared.history.built := by
  cases taken <;> first | rfl | simp

/-- A worker never clears a disturbance; while there is none, the state moves only by
opening or completing.
-/
theorem Step.undisturbed (taken : Step shared worker label shared' next)
    (after : shared'.history.undisturbed = true)
    : shared.history.undisturbed = true
      ∧ (shared'.engine.state = shared.engine.state
        ∨ (worker.pc = .openCas
          ∧ shared.engine.state = .queued
          ∧ shared'.engine.state = .downloading)
        ∨ shared'.engine.state = .completed) := by
  cases taken
  case openWon at_pc found => exact ⟨after, Or.inr (Or.inl ⟨at_pc, found, rfl⟩)⟩
  case complete => exact ⟨after, Or.inr (Or.inr rfl)⟩
  case force => exact ⟨after, Or.inr (Or.inr rfl)⟩
  case fail => cases after
  case cleanup => exact ⟨by simpa using after, Or.inl (by simp)⟩
  case closeCleanup => exact ⟨by simpa using after, Or.inl (by simp)⟩
  all_goals exact ⟨after, Or.inl rfl⟩

/-- A worker that opens connects first and tries to enter the downloading state next. -/
theorem Step.opening (taken : Step shared worker label shared' next)
    (at_pc : worker.pc = .queued ∨ worker.pc = .openCas)
    (found : shared.engine.state = .queued)
    : next.pc = .openCas ∨ shared'.engine.state = .downloading := by
  rcases at_pc with at_pc | at_pc <;> cases taken
  case inl.connect => exact Or.inl rfl
  case inr.openWon => exact Or.inr rfl
  case inr.openLost other => exact absurd found other
  all_goals simp_all [WorkerPc.throws]

/-- A worker that counts its bytes adds them to its own chunk. -/
theorem Step.counts (taken : Step shared worker label shared' next)
    (at_pc : worker.pc = .notifyUpdate)
    : ∃ item,
        worker.item = some item
        ∧ next = worker.goto .notifyTotal
        ∧ shared' = shared.onEngine (.updateReceived item.chunkId worker.bytesRead) := by
  cases taken
  case update item _ held => exact ⟨item, held, rfl, rfl⟩
  all_goals simp_all [WorkerPc.throws]

/-- A worker that has thrown ends with its item given up. -/
theorem Step.fails (taken : Step shared worker label shared' next)
    (at_pc : worker.pc = .failSet)
    : next.item = none := by
  cases taken
  case fail => rfl
  case failRefused => rfl
  all_goals simp_all [WorkerPc.throws]

/-- A worker that holds an item after its step had not failed. -/
theorem Step.not_failed (taken : Step shared worker label shared' next) {item : WorkItem}
    (held : next.item = some item)
    : worker.pc ≠ .failSet := by
  intro at_pc
  rw [taken.fails at_pc] at held
  contradiction

/-- A body counts as ended when the parser says so. -/
theorem Step.ended (taken : Step shared worker label shared' next)
    (next_pc : next.pc = .streamed true)
    : worker.pc = .streamHead
      ∧ label = .isDone true
      ∧ shared' = shared
      ∧ next.item = worker.item := by
  cases taken
  case bodyDone at_pc => exact ⟨at_pc, rfl, rfl, rfl⟩
  case store site _ _ _ => cases site <;> cases next_pc
  all_goals simp_all

/-- The ways a worker gives up the item it holds. -/
theorem Step.drop (taken : Step shared worker label shared' next) (placed : worker.Placed)
    (held : worker.item.isSome) (dropped : next.item = none)
    : (worker.pc = .pollInner ∧ 0 < shared.engine.releaseBudget)
      ∨ (worker.pc = .checkState ∧ shared.engine.state ≠ .downloading ∧ shared' = shared)
      ∨ worker.pc = .streamed true
      ∨ (worker.pc = .failSet
        ∧ (shared'.history.undisturbed = false
          ∨ (DownloadEngine.admits .failed shared.engine.state = false ∧ shared' = shared))) := by
  have holds := placed held
  cases taken
  case release at_pc budget =>
    rcases at_pc with outer | inner
    · rw [outer] at holds
      contradiction
    · exact Or.inl ⟨inner, budget⟩
  case takeNone at_pc _ =>
    rw [at_pc] at holds
    contradiction
  case stop at_pc found => exact Or.inr (Or.inl ⟨at_pc, found, rfl⟩)
  case finishItem at_pc => exact Or.inr (Or.inr (Or.inl at_pc))
  case fail at_pc _ => exact Or.inr (Or.inr (Or.inr ⟨at_pc, Or.inl rfl⟩))
  case failRefused at_pc refused =>
    exact Or.inr (Or.inr (Or.inr ⟨at_pc, Or.inr ⟨refused, rfl⟩⟩))
  all_goals simp_all

end Worker

end Muld
