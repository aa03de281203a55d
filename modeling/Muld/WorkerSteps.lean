import Muld.Downloader

/-! Everything a worker can do in one step, said once.
Invariants are derived from this relation and never unfold the step function.
-/

namespace Muld

/-- The program points from which an exception reaches `Fail`. -/
def WorkerPc.throws : WorkerPc → Bool
  | .setup | .request | .write | .readEnd | .streamed _ => true
  | _ => false

namespace Worker

/-- The steps of a worker, one constructor for each branch of the source. -/
inductive Step (shared : Shared) (worker : Worker)
    : WorkerLabel → Shared → Worker → Prop
  | connect (at_pc : worker.pc = .queued)
    : Step shared worker .run
        (shared.onEngine fun engine =>
          { engine with nConnections := engine.nConnections + 1 })
        (worker.goto .openCas)
  | openWon (at_pc : worker.pc = .openCas) (found : shared.engine.state = .queued)
    : Step shared worker .run
        (shared.onEngine fun engine => { engine with state := .downloading })
        (worker.goto .openReport)
  | openLost (at_pc : worker.pc = .openCas) (found : shared.engine.state ≠ .queued)
    : Step shared worker .run shared (worker.goto .setup)
  | openReport (at_pc : worker.pc = .openReport)
    : Step shared worker .run (shared.reportState .downloading) (worker.goto .setup)
  | setup (at_pc : worker.pc = .setup)
    : Step shared worker .run shared (worker.goto .pollOuter)
  | throw (label : WorkerLabel) (error : MuldError) (at_pc : worker.pc.throws = true)
      (writes : worker.pc = .write → shared.engine.writer = true)
      (interrupted
        : ∀ finished,
            worker.pc = .streamed finished
            → finished = false ∧ shared.engine.ranged = false)
    : Step shared worker label shared (worker.throw error)
  | release (at_pc : worker.pc = .pollOuter ∨ worker.pc = .pollInner)
      (budget : 0 < shared.engine.releaseBudget)
    : Step shared worker .run
        (shared.onEngine fun engine =>
          { engine with releaseBudget := engine.releaseBudget - 1 })
        worker.leave
  | keepOuter (at_pc : worker.pc = .pollOuter) (budget : shared.engine.releaseBudget ≤ 0)
    : Step shared worker .run shared (worker.goto .takeItem)
  | keepInner (at_pc : worker.pc = .pollInner) (budget : shared.engine.releaseBudget ≤ 0)
    : Step shared worker .run shared (worker.goto .checkState)
  | takeNone (at_pc : worker.pc = .takeItem) (none_left : shared.engine.nextItem = none)
    : Step shared worker .run (shared.onEngine .advanceWork) worker.leave
  | take (item : WorkItem) (at_pc : worker.pc = .takeItem)
      (next : shared.engine.nextItem = some item)
    : Step shared worker .run (shared.onEngine .advanceWork)
        { worker with
          pc := .pollInner, item := some item, currentOffset := item.rangeStart }
  | proceed (at_pc : worker.pc = .checkState) (found : shared.engine.state = .downloading)
    : Step shared worker .run shared (worker.goto .request)
  | stop (at_pc : worker.pc = .checkState) (found : shared.engine.state ≠ .downloading)
    : Step shared worker .run shared worker.leave
  | header (status : Nat) (reason : String) (at_pc : worker.pc = .request)
      (valid : validateResponse shared.engine.ranged status reason = none)
    : Step shared worker (.header status reason) shared
        { worker with
          pc := .streamHead
          bodyStart := if shared.engine.ranged then worker.currentOffset else 0
          bodyPosition := 0 }
  | bodyDone (at_pc : worker.pc = .streamHead)
    : Step shared worker (.isDone true) shared (worker.goto (.streamed true))
  | bodyOpen (at_pc : worker.pc = .streamHead)
    : Step shared worker (.isDone false) shared (worker.goto .streamState)
  | streamProceed (at_pc : worker.pc = .streamState)
      (found : shared.engine.state = .downloading)
    : Step shared worker .run shared (worker.goto .budget)
  | streamStop (label : WorkerLabel)
      (at_pc : worker.pc = .streamState ∨ worker.pc = .awaitBudget)
      (found : shared.engine.state ≠ .downloading)
    : Step shared worker label shared (worker.goto (.streamed false))
  | limited (at_pc : worker.pc = .budget)
    : Step shared worker .run shared (worker.goto .awaitBudget)
  | allow (label : WorkerLabel) (bytes : Nat)
      (at_pc : worker.pc = .budget ∨ worker.pc = .awaitBudget)
      (positive : 0 < bytes) (fits : bytes ≤ bufferSize)
    : Step shared worker label shared { worker with pc := .read, allowedBytes := bytes }
  | readNothing (ending : ReadEnd) (at_pc : worker.pc = .read)
    : Step shared worker (.read [] ending) shared
        { worker with pc := .readEnd, buffer := [], bytesRead := 0, readEnd := ending }
  | readBytes (bytes : List Byte) (ending : ReadEnd) (at_pc : worker.pc = .read)
      (fits : bytes.length ≤ worker.allowedBytes) (some_read : bytes ≠ [])
    : Step shared worker (.read bytes ending) shared
        { worker with
          pc := .write
          bodyPosition := worker.bodyPosition + bytes.length
          buffer := bytes
          bytesRead := bytes.length
          readEnd := ending }
  | writePart (count : Nat) (at_pc : worker.pc = .write) (positive : 0 < count)
      (part : count < worker.buffer.length) (open_ : shared.engine.writer = true)
    : Step shared worker (.wrote count)
        (shared.writeOutput worker.currentOffset (worker.buffer.take count))
        { worker with
          currentOffset := worker.currentOffset + count
          buffer := worker.buffer.drop count }
  | writeLast (at_pc : worker.pc = .write) (left : worker.buffer ≠ [])
      (open_ : shared.engine.writer = true)
    : Step shared worker (.wrote worker.buffer.length)
        (shared.writeOutput worker.currentOffset worker.buffer)
        { worker with
          pc := .notifyUpdate
          currentOffset := worker.currentOffset + worker.buffer.length
          buffer := [] }
  | nullWriter (label : WorkerLabel)
      (at_pc : worker.pc = .write ∨ ∃ site, worker.pc = .storeWrite site)
      (closed : shared.engine.writer = false)
    : Step shared worker label { shared with nullWriter := true } worker
  | continueBody (at_pc : worker.pc = .readEnd)
    : Step shared worker .run shared (worker.goto .streamHead)
  | interrupt (at_pc : worker.pc = .readEnd)
    : Step shared worker .run shared (worker.goto (.streamed false))
  | finishItem (at_pc : worker.pc = .streamed true)
    : Step shared worker .run shared { worker with pc := .pollOuter, item := none }
  | retry (at_pc : worker.pc = .streamed false) (ranged : shared.engine.ranged = true)
    : Step shared worker .run shared (worker.goto .pollInner)
  | update (item : WorkItem) (at_pc : worker.pc = .notifyUpdate)
      (held : worker.item = some item)
    : Step shared worker .run
        (shared.onEngine (.updateReceived item.chunkId worker.bytesRead))
        (worker.goto .notifyTotal)
  | total (elapsed : Bool) (at_pc : worker.pc = .notifyTotal)
    : Step shared worker (.clock elapsed) (shared.onEngine (.addTotal worker.bytesRead))
        { worker with pc := .notifyEvent, fireProgress := elapsed }
  | event (chunk : ChunkInfo) (at_pc : worker.pc = .notifyEvent)
      (found : worker.chunk? shared.engine = some chunk)
    : Step shared worker .run shared
        { worker with
          pc := .notifyEventReport
          event :=
            { downloadedBytes := chunk.getReceivedSize, totalBytes := chunk.getTotalSize } }
  | eventReport (item : WorkItem) (at_pc : worker.pc = .notifyEventReport)
      (held : worker.item = some item) (fire : worker.fireProgress = true)
    : Step shared worker .run (shared.reportChunk item.chunkId worker.event)
        (worker.goto .notifyProgress)
  | eventReportOnly (item : WorkItem) (at_pc : worker.pc = .notifyEventReport)
      (held : worker.item = some item) (quiet : worker.fireProgress = false)
    : Step shared worker .run (shared.reportChunk item.chunkId worker.event)
        (worker.goto .notifyCount)
  | progress (at_pc : worker.pc = .notifyProgress)
    : Step shared worker .run shared
        { worker with
          pc := .notifyProgressReport, progress := shared.engine.nTotalReceivedBytes }
  | progressReport (at_pc : worker.pc = .notifyProgressReport)
    : Step shared worker .run (shared.reportProgress worker.progress)
        (worker.goto .notifyCount)
  | count (at_pc : worker.pc = .notifyCount) (unlocked : shared.engine.diskLocked = false)
      (few : (shared.engine.addFromLastStore worker.bytesRead).needsStore = false)
    : Step shared worker .run (shared.onEngine (.addFromLastStore worker.bytesRead))
        (worker.goto .notifyFinished)
  | countStore (at_pc : worker.pc = .notifyCount)
      (unlocked : shared.engine.diskLocked = false)
      (many : (shared.engine.addFromLastStore worker.bytesRead).needsStore = true)
    : Step shared worker .run (shared.onEngine (.addFromLastStore worker.bytesRead))
        (worker.goto (.storeLock .notify))
  | unfinished (chunk : ChunkInfo) (at_pc : worker.pc = .notifyFinished)
      (found : worker.chunk? shared.engine = some chunk)
      (unfinished : chunk.isFinished = false)
    : Step shared worker .run shared (worker.goto .readEnd)
  | finished (chunk : ChunkInfo) (at_pc : worker.pc = .notifyFinished)
      (found : worker.chunk? shared.engine = some chunk) (finished : chunk.isFinished = true)
    : Step shared worker .run shared (worker.goto .notifyBump)
  | bump (at_pc : worker.pc = .notifyBump) (more : shared.engine.lastChunk = false)
    : Step shared worker .run (shared.onEngine .bumpDownloaded) (worker.goto .readEnd)
  | bumpLast (at_pc : worker.pc = .notifyBump) (last : shared.engine.lastChunk = true)
    : Step shared worker .run (shared.onEngine .bumpDownloaded) (worker.goto .completeCas)
  | complete (at_pc : worker.pc = .completeCas)
      (found : shared.engine.state = .downloading)
    : Step shared worker .run
        (shared.onEngine fun engine => { engine with state := .completed })
        (worker.goto (.storeLock .complete))
  | completeStopped (at_pc : worker.pc = .completeCas)
      (found : shared.engine.state = .paused ∨ shared.engine.state = .failed)
    : Step shared worker .run shared (worker.goto .completeForce)
  | completeMissed (at_pc : worker.pc = .completeCas)
      (found
        : shared.engine.state ≠ .downloading
          ∧ shared.engine.state ≠ .paused
          ∧ shared.engine.state ≠ .failed)
    : Step shared worker .run shared (worker.goto .readEnd)
  | force (at_pc : worker.pc = .completeForce)
    : Step shared worker .run
        (shared.onEngine fun engine => { engine with state := .completed })
        (worker.goto (.storeLock .complete))
  | cleanup (at_pc : worker.pc = .completeCleanup)
      (unlocked : shared.engine.diskLocked = false)
    : Step shared worker .run (shared.cleanupArtifacts false) (worker.goto .finishReport)
  | finishReport (at_pc : worker.pc = .finishReport)
    : Step shared worker .run shared.reportFinish (worker.goto .readEnd)
  | lock (site : StoreSite) (at_pc : worker.pc = .storeLock site)
      (unlocked : shared.engine.diskLocked = false)
    : Step shared worker .run shared.lockDisk
        { worker with pc := .storeScan site, scan := [] }
  | scan (site : StoreSite) (chunk : ChunkInfo) (at_pc : worker.pc = .storeScan site)
      (found : shared.engine.chunksInfo[worker.scan.length]? = some chunk)
    : Step shared worker .run shared { worker with scan := worker.scan ++ [chunk.toState] }
  | scanned (site : StoreSite) (at_pc : worker.pc = .storeScan site)
      (found : shared.engine.chunksInfo[worker.scan.length]? = none)
    : Step shared worker .run shared (worker.goto (.storeWrite site))
  | store (site : StoreSite) (outcome : StoreOutcome) (at_pc : worker.pc = .storeWrite site)
      (open_ : shared.engine.writer = true)
    : Step shared worker (.stored outcome) (shared.storeImage worker.scan outcome)
        (worker.goto (afterStore site))
  | fail (at_pc : worker.pc = .failSet)
      (admitted : DownloadEngine.admits .failed shared.engine.state = true)
    : Step shared worker .run
        { shared with
          engine := { shared.engine with state := .failed }
          history := { shared.history with undisturbed := false } }
        { worker with pc := .failReport, item := none }
  | failRefused (at_pc : worker.pc = .failSet)
      (refused : DownloadEngine.admits .failed shared.engine.state = false)
    : Step shared worker .run shared worker.leave
  | failReport (at_pc : worker.pc = .failReport)
    : Step shared worker .run (shared.reportState .failed) (worker.goto (.storeLock .fail))
  | failError (at_pc : worker.pc = .failError)
    : Step shared worker .run
        (shared.onEngine fun engine => { engine with error := worker.failure })
        (worker.goto .failErrorReport)
  | failErrorReport (at_pc : worker.pc = .failErrorReport)
    : Step shared worker .run (shared.reportError shared.engine.error)
        (worker.goto .closeScheduled)
  | closeScheduled (at_pc : worker.pc = .closeScheduled)
    : Step shared worker .run (shared.onEngine .releaseScheduled)
        (worker.goto .closeConnection)
  | closeOne (at_pc : worker.pc = .closeConnection)
      (others : shared.engine.nConnections - 1 ≠ 0)
    : Step shared worker .run
        (shared.onEngine fun engine =>
          { engine with nConnections := engine.nConnections - 1 })
        (worker.goto .closed)
  | closeLast (at_pc : worker.pc = .closeConnection)
      (last : shared.engine.nConnections - 1 = 0)
    : Step shared worker .run
        (shared.onEngine fun engine =>
          { engine with nConnections := engine.nConnections - 1 })
        (worker.goto .closeCheck)
  | closeCanceled (at_pc : worker.pc = .closeCheck)
      (found : shared.engine.state = .canceled)
    : Step shared worker .run shared (worker.goto .closeCleanup)
  | closeOther (at_pc : worker.pc = .closeCheck) (found : shared.engine.state ≠ .canceled)
    : Step shared worker .run shared (worker.goto .closed)
  | closeCleanup (at_pc : worker.pc = .closeCleanup)
      (unlocked : shared.engine.diskLocked = false)
    : Step shared worker .run (shared.cleanupArtifacts true) (worker.goto .closed)

/-- A step that needs no decision of the environment is one of the listed ones, by cases
on the program point.
-/
private theorem run_cases {shared shared' : Shared} {worker worker' : Worker}
    (taken : worker.step shared .run = some (shared', worker'))
    : Step shared worker .run shared' worker' := by
  cases at_pc : worker.pc <;> simp only [step, at_pc] at taken
  case queued => cases taken; exact .connect at_pc
  case openCas =>
    split at taken <;> cases taken
    · exact .openWon at_pc ‹_›
    · exact .openLost at_pc ‹_›
  case openReport => cases taken; exact .openReport at_pc
  case setup => cases taken; exact .setup at_pc
  case pollOuter =>
    simp only [DownloadEngine.shouldReleaseConnection] at taken
    split at taken <;> rename_i found <;> split at found <;> cases found <;> cases taken
    · exact .release (.inl at_pc) ‹_›
    · exact .keepOuter at_pc (Int.not_lt.mp ‹_›)
  case takeItem =>
    split at taken <;> cases taken
    · exact .takeNone at_pc ‹_›
    · exact .take _ at_pc ‹_›
  case pollInner =>
    simp only [DownloadEngine.shouldReleaseConnection] at taken
    split at taken <;> rename_i found <;> split at found <;> cases found <;> cases taken
    · exact .release (.inr at_pc) ‹_›
    · exact .keepInner at_pc (Int.not_lt.mp ‹_›)
  case checkState =>
    split at taken <;> cases taken
    · exact .proceed at_pc ‹_›
    · exact .stop at_pc ‹_›
  case streamState =>
    split at taken <;> cases taken
    · exact .streamProceed at_pc ‹_›
    · exact .streamStop _ (.inl at_pc) ‹_›
  case budget =>
    split at taken <;> cases taken
    · exact .allow _ _ (.inl at_pc) (by decide) (Nat.le_refl _)
    · exact .limited at_pc
  case readEnd =>
    split at taken <;> cases taken
    · exact .continueBody at_pc
    · exact .continueBody at_pc
    · exact .interrupt at_pc
    · exact .throw _ _ (by simp [at_pc, WorkerPc.throws]) (by simp [at_pc]) (by simp [at_pc])
  case streamed finished =>
    split at taken
    · rename_i complete
      subst complete
      cases taken
      exact .finishItem at_pc
    · rename_i partial_
      obtain rfl : finished = false := by simpa using partial_
      split at taken <;> cases taken
      · exact .retry at_pc ‹_›
      · rename_i notRanged
        refine .throw _ _ (by simp [at_pc, WorkerPc.throws]) (by simp [at_pc]) ?_
        intro finished same
        rw [at_pc] at same
        cases same
        exact ⟨rfl, by simpa using notRanged⟩
  case notifyUpdate =>
    split at taken <;> cases taken
    exact .update _ at_pc ‹_›
  case notifyEvent =>
    split at taken <;> cases taken
    exact .event _ at_pc ‹_›
  case notifyEventReport =>
    split at taken
    · cases fire : worker.fireProgress <;> simp only [fire] at taken <;> cases taken
      · exact .eventReportOnly _ at_pc ‹_› fire
      · exact .eventReport _ at_pc ‹_› fire
    · cases taken
  case notifyProgress => cases taken; exact .progress at_pc
  case notifyProgressReport => cases taken; exact .progressReport at_pc
  case notifyCount =>
    split at taken
    · cases taken
    · rename_i unlocked
      cases many : (shared.engine.addFromLastStore worker.bytesRead).needsStore <;>
        simp only [many] at taken <;> cases taken
      · exact .count at_pc (eq_false_of_ne_true unlocked) many
      · exact .countStore at_pc (eq_false_of_ne_true unlocked) many
  case notifyFinished =>
    split at taken
    · rename_i chunk found
      cases done : chunk.isFinished <;> simp only [done] at taken <;> cases taken
      · exact .unfinished chunk at_pc found done
      · exact .finished chunk at_pc found done
    · cases taken
  case notifyBump =>
    cases last : shared.engine.lastChunk <;> simp only [last] at taken <;> cases taken
    · exact .bump at_pc last
    · exact .bumpLast at_pc last
  case completeCas =>
    split at taken <;> cases taken
    · exact .complete at_pc ‹_›
    · exact .completeStopped at_pc (.inl ‹_›)
    · exact .completeStopped at_pc (.inr ‹_›)
    · exact .completeMissed at_pc ⟨‹_›, ‹_›, ‹_›⟩
  case completeForce => cases taken; exact .force at_pc
  case completeCleanup =>
    split at taken <;> cases taken
    exact .cleanup at_pc (eq_false_of_ne_true ‹_›)
  case finishReport => cases taken; exact .finishReport at_pc
  case storeLock site =>
    split at taken <;> cases taken
    exact .lock site at_pc (eq_false_of_ne_true ‹_›)
  case storeScan site =>
    split at taken <;> cases taken
    · rw [← at_pc]
      exact .scan site _ at_pc ‹_›
    · exact .scanned site at_pc ‹_›
  case failSet =>
    split at taken
    · rename_i found
      obtain ⟨admitted, rfl⟩ := DownloadEngine.setState_eq_some_iff.mp found
      cases taken
      exact .fail at_pc admitted
    · rename_i found
      cases taken
      exact .failRefused at_pc (DownloadEngine.setState_eq_none_iff.mp found)
  case failReport => cases taken; exact .failReport at_pc
  case failError => cases taken; exact .failError at_pc
  case failErrorReport => cases taken; exact .failErrorReport at_pc
  case closeScheduled => cases taken; exact .closeScheduled at_pc
  case closeConnection =>
    by_cases last : shared.engine.nConnections - 1 = 0
    · rw [if_pos last] at taken
      cases taken
      exact .closeLast at_pc last
    · rw [if_neg last] at taken
      cases taken
      exact .closeOne at_pc last
  case closeCheck =>
    by_cases canceled : shared.engine.state = .canceled
    · rw [if_pos canceled] at taken
      cases taken
      exact .closeCanceled at_pc canceled
    · rw [if_neg canceled] at taken
      cases taken
      exact .closeOther at_pc canceled
  case closeCleanup =>
    split at taken <;> cases taken
    exact .closeCleanup at_pc (eq_false_of_ne_true ‹_›)
  all_goals cases taken

/-- Every step of a worker is one of the listed ones, by cases on the label. -/
theorem step_cases {shared shared' : Shared} {worker worker' : Worker} {label : WorkerLabel}
    (taken : worker.step shared label = some (shared', worker'))
    : Step shared worker label shared' worker' := by
  cases label with
  | run => exact run_cases taken
  | setupFails error =>
      simp only [step] at taken
      split at taken <;> cases taken
      rename_i at_pc
      exact .throw _ _ (by simp [at_pc, WorkerPc.throws]) (by simp [at_pc]) (by simp [at_pc])
  | networkFails what =>
      simp only [step] at taken
      split at taken <;> cases taken
      rename_i at_pc
      exact .throw _ _ (by simp [at_pc, WorkerPc.throws]) (by simp [at_pc]) (by simp [at_pc])
  | header status reason =>
      simp only [step] at taken
      split at taken
      · rename_i at_pc
        split at taken <;> cases taken
        · exact .throw _ _ (by simp [at_pc, WorkerPc.throws]) (by simp [at_pc])
            (by simp [at_pc])
        · exact .header status reason at_pc ‹_›
      · cases taken
  | isDone done =>
      simp only [step] at taken
      split at taken
      · rename_i at_pc
        cases done <;> cases taken
        · exact .bodyOpen at_pc
        · exact .bodyDone at_pc
      · cases taken
  | allow bytes =>
      simp only [step] at taken
      split at taken
      · rename_i at_pc
        split at taken
        · split at taken <;> cases taken
          exact .streamStop _ (.inr at_pc) ‹_›
        · split at taken <;> cases taken
          exact .allow _ bytes (.inr at_pc) (Nat.pos_of_ne_zero ‹_›) ‹_›
      · cases taken
  | read bytes ending =>
      simp only [step] at taken
      split at taken
      · rename_i found
        obtain ⟨at_pc, fits⟩ := found
        cases bytes with
        | nil =>
            cases taken
            exact .readNothing ending at_pc
        | cons head rest =>
            cases taken
            exact .readBytes (head :: rest) ending at_pc fits (by simp)
      · cases taken
  | wrote count =>
      simp only [step] at taken
      split at taken
      · rename_i found
        obtain ⟨at_pc, positive, fits⟩ := found
        split at taken
        · rename_i open_
          by_cases last : count = worker.buffer.length
          · subst last
            simp only [if_true, List.take_length, List.drop_length] at taken
            cases taken
            exact .writeLast at_pc (List.ne_nil_of_length_pos positive) open_
          · rw [if_neg last] at taken
            cases taken
            rw [← at_pc]
            exact .writePart count at_pc positive (by omega) open_
        · cases taken
          exact .nullWriter _ (.inl at_pc) (eq_false_of_ne_true ‹_›)
      · cases taken
  | writeFails =>
      simp only [step] at taken
      split at taken
      · rename_i at_pc
        split at taken <;> cases taken
        · exact .throw _ _ (by simp [at_pc, WorkerPc.throws]) (fun _ => ‹_›) (by simp [at_pc])
        · exact .nullWriter _ (.inl at_pc) (eq_false_of_ne_true ‹_›)
      · cases taken
  | clock elapsed =>
      simp only [step] at taken
      split at taken <;> cases taken
      exact .total elapsed ‹_›
  | stored outcome =>
      simp only [step] at taken
      split at taken
      · rename_i site at_pc
        split at taken <;> cases taken
        · exact .store site outcome at_pc ‹_›
        · exact .nullWriter _ (.inr ⟨site, at_pc⟩) (eq_false_of_ne_true ‹_›)
      · cases taken

end Worker

end Muld
