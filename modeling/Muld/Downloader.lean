import Muld.Shared

/-! `DownloadWorker` as a program of atomic steps.
A worker is a task of the thread pool together with the program point it has reached.
Labels carry what the network, the disk and the clock decide.
-/

namespace Muld

/-- The error code `http::read` ends with. -/
inductive ReadEnd
  | none
  | needBuffer
  /-- Partial message, truncated stream, end of file or connection reset. -/
  | interrupted
  | fatal (what : String)
deriving DecidableEq, Repr

/-- The callers of `Store` inside a worker. -/
inductive StoreSite
  | notify
  | complete
  | fail
deriving DecidableEq, Repr

/-- Program points of `DownloadWorker` and of the engine methods it calls. -/
inductive WorkerPc
  | queued
  -- ConnectionGuard, NotifyConnectionOpen
  | openCas
  | openReport
  | setup
  -- DownloadWorkerImpl
  | pollOuter
  | takeItem
  | pollInner
  | checkState
  | request
  -- StreamBodyToDisk
  | streamHead
  | streamState
  | budget
  | awaitBudget
  | read
  | write
  | readEnd
  | streamed (finished : Bool)
  -- NotifyChunkReceived
  | notifyUpdate
  | notifyTotal
  | notifyEvent
  | notifyEventReport
  | notifyProgress
  | notifyProgressReport
  | notifyCount
  | notifyFinished
  | notifyBump
  | completeCas
  | completeForce
  | completeCleanup
  | finishReport
  -- Store
  | storeLock (site : StoreSite)
  | storeScan (site : StoreSite)
  | storeWrite (site : StoreSite)
  -- Fail
  | failSet
  | failReport
  | failError
  | failErrorReport
  -- NotifyConnectionClose
  | closeScheduled
  | closeConnection
  | closeCheck
  | closeCleanup
  | closed
deriving DecidableEq, Repr

/-- A task of the pool and the locals of the worker that runs it. -/
structure Worker where
  pc : WorkerPc := .queued
  /-- `work_item`, between `GetNextWorkItem` and the end of the loop over it. -/
  item : Option WorkItem := none
  currentOffset : Nat := 0
  /-- The file offset of the first byte of the response body. -/
  bodyStart : Nat := 0
  /-- How many bytes of the body have been read. -/
  bodyPosition : Nat := 0
  allowedBytes : Nat := 0
  /-- The bytes of `body_buffer` that are not written yet. -/
  buffer : List Byte := []
  bytesRead : Nat := 0
  readEnd : ReadEnd := .none
  fireProgress : Bool := false
  event : ChunkProgress := { downloadedBytes := 0, totalBytes := 0 }
  progress : Nat := 0
  scan : List ChunkState := []
  failure : MuldError := {}
deriving DecidableEq, Repr

/-- What the environment decides about a step of a worker. -/
inductive WorkerLabel
  | run
  /-- Name resolution fails or the scheme is not supported. -/
  | setupFails (error : MuldError)
  /-- Connecting, sending or reading throws. -/
  | networkFails (what : String)
  /-- A response header arrives. -/
  | header (status : Nat) (reason : String)
  /-- `parser.is_done()`. -/
  | isDone (done : Bool)
  /-- The bytes `AcquireReadBudget` grants, or zero when it finds the download stopped. -/
  | allow (bytes : Nat)
  | read (bytes : List Byte) (ending : ReadEnd)
  /-- `Write` reports this many bytes. -/
  | wrote (count : Nat)
  | writeFails
  /-- Whether half a second has passed since the last speed calculation. -/
  | clock (elapsed : Bool)
  | stored (outcome : StoreOutcome)
deriving DecidableEq, Repr

/-- `BUFFER_SIZE` of `StreamBodyToDisk`. -/
def bufferSize : Nat := 32768

/-- `ValidateResponse`: the status and message of the exception it throws, if any. -/
def validateResponse (ranged : Bool) (status : Nat) (reason : String) : Option MuldError :=
  if ranged then
    if status = 206 then none
    else if status = 200 then
      some {
        code := .httpError
        httpStatus := status
        detail := "Server ignored Range header and want to sent entire file."
      }
    else
      some {
        code := .httpError
        httpStatus := status
        detail := "HTTP Error during chunk download: " ++ reason
      }
  else if status = 200 then none
  else
    some {
      code := .httpError
      httpStatus := status
      detail := "Unexpected HTTP status during download: " ++ reason
    }

/-- A `DiskException` for the current offset. -/
def diskError (offset : Nat) : MuldError where
  code := .diskError
  detail := "Failed to write chunk data to disk at offset " ++ toString offset

/-- The exception for an interrupted connection that cannot be resumed. -/
def interruptedError : MuldError where
  code := .httpError
  detail := "Connection interrupted and server does not support Range requests."

def networkError (what : String) : MuldError where
  code := .networkError
  detail := "Network interrupted: " ++ what

namespace Worker

def goto (worker : Worker) (pc : WorkerPc) : Worker := { worker with pc }

/-- Leave the loops over work items, by `return` or by running out of items. -/
def leave (worker : Worker) : Worker := { worker with pc := .closeScheduled, item := none }

/-- Throw to the handlers at the end of the worker, which call `Fail`. -/
def throw (worker : Worker) (error : MuldError) : Worker :=
  { worker with pc := .failSet, failure := error }

@[simp]
theorem goto_pc (worker : Worker) (pc : WorkerPc) : (worker.goto pc).pc = pc := rfl

@[simp]
theorem goto_item (worker : Worker) (pc : WorkerPc) : (worker.goto pc).item = worker.item :=
  rfl

@[simp]
theorem leave_pc (worker : Worker) : worker.leave.pc = .closeScheduled := rfl

@[simp]
theorem leave_item (worker : Worker) : worker.leave.item = none := rfl

@[simp]
theorem throw_pc (worker : Worker) (error : MuldError) : (worker.throw error).pc = .failSet :=
  rfl

@[simp]
theorem throw_item (worker : Worker) (error : MuldError)
    : (worker.throw error).item = worker.item := rfl

/-- The chunk the worker is downloading. -/
def chunkId (worker : Worker) : Option Nat := worker.item.map WorkItem.chunkId

/-- The chunk behind the current work item. -/
def chunk? (engine : DownloadEngine) (worker : Worker) : Option ChunkInfo :=
  worker.item.bind fun item => engine.chunksInfo[item.chunkId]?

/-- The chunk of the worker has all its bytes. -/
def chunkDone (engine : DownloadEngine) (worker : Worker) : Bool :=
  (worker.chunk? engine).any ChunkInfo.isFinished

/-- Where a worker goes on after a store. -/
def afterStore : StoreSite → WorkerPc
  | .notify => .notifyFinished
  | .complete => .completeCleanup
  | .fail => .failError

/-- One atomic step of a worker. -/
def step (shared : Shared) (worker : Worker) : WorkerLabel → Option (Shared × Worker)
  | .run =>
      match worker.pc with
      | .queued =>
          some (shared.onEngine fun engine =>
            { engine with nConnections := engine.nConnections + 1 }, worker.goto .openCas)
      | .openCas =>
          if shared.engine.state = .queued then
            some (shared.onEngine fun engine => { engine with state := .downloading },
              worker.goto .openReport)
          else some (shared, worker.goto .setup)
      | .openReport => some (shared.reportState .downloading, worker.goto .setup)
      | .setup => some (shared, worker.goto .pollOuter)
      | .pollOuter =>
          match shared.engine.shouldReleaseConnection with
          | some engine => some ({ shared with engine }, worker.leave)
          | none => some (shared, worker.goto .takeItem)
      | .takeItem =>
          match shared.engine.nextItem with
          | none => some (shared.onEngine .advanceWork, worker.leave)
          | some item =>
              some (shared.onEngine .advanceWork,
                { worker with
                  pc := .pollInner
                  item := some item
                  currentOffset := item.rangeStart })
      | .pollInner =>
          match shared.engine.shouldReleaseConnection with
          | some engine => some ({ shared with engine }, worker.leave)
          | none => some (shared, worker.goto .checkState)
      | .checkState =>
          if shared.engine.state = .downloading then some (shared, worker.goto .request)
          else some (shared, worker.leave)
      | .streamState =>
          if shared.engine.state = .downloading then some (shared, worker.goto .budget)
          else some (shared, worker.goto (.streamed false))
      | .budget =>
          -- the limit is read once; without one the whole buffer is allowed
          if shared.engine.speedLimitBps = 0 then
            some (shared, { worker with pc := .read, allowedBytes := bufferSize })
          else some (shared, worker.goto .awaitBudget)
      | .readEnd =>
          match worker.readEnd with
          | .none | .needBuffer => some (shared, worker.goto .streamHead)
          | .interrupted => some (shared, worker.goto (.streamed false))
          | .fatal what => some (shared, worker.throw (networkError what))
      | .streamed finished =>
          -- an interrupted body can only be continued by a ranged request
          if finished then some (shared, { worker with pc := .pollOuter, item := none })
          else if shared.engine.ranged then some (shared, worker.goto .pollInner)
          else some (shared, worker.throw interruptedError)
      | .notifyUpdate =>
          match worker.item with
          | some item =>
              some (shared.onEngine (.updateReceived item.chunkId worker.bytesRead),
                worker.goto .notifyTotal)
          | none => none
      | .notifyEvent =>
          match worker.chunk? shared.engine with
          | some chunk =>
              some (shared, {
                worker with
                pc := .notifyEventReport
                event := {
                  downloadedBytes := chunk.getReceivedSize
                  totalBytes := chunk.getTotalSize
                }
              })
          | none => none
      | .notifyEventReport =>
          match worker.item with
          | some item =>
              some (shared.reportChunk item.chunkId worker.event,
                worker.goto (if worker.fireProgress then .notifyProgress else .notifyCount))
          | none => none
      | .notifyProgress =>
          some (shared, { worker with
            pc := .notifyProgressReport, progress := shared.engine.nTotalReceivedBytes })
      | .notifyProgressReport =>
          some (shared.reportProgress worker.progress, worker.goto .notifyCount)
      | .notifyCount =>
          if shared.engine.diskLocked then none
          else
            let counted := shared.engine.addFromLastStore worker.bytesRead
            some ({ shared with engine := counted },
              worker.goto (if counted.needsStore then .storeLock .notify else .notifyFinished))
      | .notifyFinished =>
          match worker.chunk? shared.engine with
          | some chunk =>
              some (shared, worker.goto (if chunk.isFinished then .notifyBump else .readEnd))
          | none => none
      | .notifyBump =>
          some (shared.onEngine .bumpDownloaded,
            worker.goto (if shared.engine.lastChunk then .completeCas else .readEnd))
      | .completeCas =>
          match shared.engine.state with
          | .downloading =>
              some (shared.onEngine fun engine => { engine with state := .completed },
                worker.goto (.storeLock .complete))
          | .paused | .failed => some (shared, worker.goto .completeForce)
          | _ => some (shared, worker.goto .readEnd)
      | .completeForce =>
          some (shared.onEngine fun engine => { engine with state := .completed },
            worker.goto (.storeLock .complete))
      | .completeCleanup =>
          if shared.engine.diskLocked then none
          else some (shared.cleanupArtifacts false, worker.goto .finishReport)
      | .finishReport => some (shared.reportFinish, worker.goto .readEnd)
      | .storeLock site =>
          if shared.engine.diskLocked then none
          else some (shared.lockDisk, { worker with pc := .storeScan site, scan := [] })
      | .storeScan site =>
          match shared.engine.chunksInfo[worker.scan.length]? with
          | some chunk => some (shared, { worker with scan := worker.scan ++ [chunk.toState] })
          | none => some (shared, worker.goto (.storeWrite site))
      | .failSet =>
          match shared.engine.setState .failed with
          | some engine =>
              some ({ shared with
                engine
                history := { shared.history with undisturbed := false } },
                { worker with pc := .failReport, item := none })
          | none => some (shared, worker.leave)
      | .failReport => some (shared.reportState .failed, worker.goto (.storeLock .fail))
      | .failError =>
          some (shared.onEngine fun engine => { engine with error := worker.failure },
            worker.goto .failErrorReport)
      | .failErrorReport =>
          some (shared.reportError shared.engine.error, worker.goto .closeScheduled)
      | .closeScheduled =>
          some (shared.onEngine .releaseScheduled, worker.goto .closeConnection)
      | .closeConnection =>
          some (shared.onEngine fun engine =>
            { engine with nConnections := engine.nConnections - 1 },
            worker.goto (if shared.engine.nConnections - 1 = 0 then .closeCheck else .closed))
      | .closeCheck =>
          some (shared,
            worker.goto (if shared.engine.state = .canceled then .closeCleanup else .closed))
      | .closeCleanup =>
          if shared.engine.diskLocked then none
          else some (shared.cleanupArtifacts true, worker.goto .closed)
      | _ => none
  | .setupFails error =>
      if worker.pc = .setup then some (shared, worker.throw error) else none
  | .networkFails what =>
      if worker.pc = .request then some (shared, worker.throw (networkError what)) else none
  | .header status reason =>
      if worker.pc = .request then
        match validateResponse shared.engine.ranged status reason with
        | some error => some (shared, worker.throw error)
        | none =>
            -- without a Range header the body is the file from its first byte on
            some (shared, {
              worker with
              pc := .streamHead
              bodyStart := if shared.engine.ranged then worker.currentOffset else 0
              bodyPosition := 0
            })
      else none
  | .isDone done =>
      if worker.pc = .streamHead then
        some (shared, worker.goto (if done then .streamed true else .streamState))
      else none
  | .allow bytes =>
      if worker.pc = .awaitBudget then
        if bytes = 0 then
          if shared.engine.state = .downloading then none
          else some (shared, worker.goto (.streamed false))
        else if bytes ≤ bufferSize then
          some (shared, { worker with pc := .read, allowedBytes := bytes })
        else none
      else none
  | .read bytes ending =>
      if worker.pc = .read ∧ bytes.length ≤ worker.allowedBytes then
        some (shared, {
          worker with
          pc := if bytes = [] then .readEnd else .write
          bodyPosition := worker.bodyPosition + bytes.length
          buffer := bytes
          bytesRead := bytes.length
          readEnd := ending
        })
      else none
  | .wrote count =>
      if worker.pc = .write ∧ 0 < count ∧ count ≤ worker.buffer.length then
        if shared.engine.writer then
          some (shared.writeOutput worker.currentOffset (worker.buffer.take count), {
            worker with
            pc := if count = worker.buffer.length then .notifyUpdate else .write
            currentOffset := worker.currentOffset + count
            buffer := worker.buffer.drop count
          })
        else some ({ shared with nullWriter := true }, worker)
      else none
  | .writeFails =>
      if worker.pc = .write then
        if shared.engine.writer then
          some (shared, worker.throw (diskError worker.currentOffset))
        else some ({ shared with nullWriter := true }, worker)
      else none
  | .clock elapsed =>
      if worker.pc = .notifyTotal then
        some (shared.onEngine (.addTotal worker.bytesRead),
          { worker with pc := .notifyEvent, fireProgress := elapsed })
      else none
  | .stored outcome =>
      match worker.pc with
      | .storeWrite site =>
          if shared.engine.writer then
            some (shared.storeImage worker.scan outcome, worker.goto (afterStore site))
          else some ({ shared with nullWriter := true }, worker)
      | _ => none

end Worker

end Muld
