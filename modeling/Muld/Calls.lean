import Muld.Downloader

/-! The methods of the engine, the handler and the manager as programs of atomic steps.
A call in progress is the program point it has reached; a method entered from a client
callback is one more call in progress.
-/

namespace Muld

/-- Program points of the calls other threads make. -/
inductive Call
  -- DownloadEngine::Start and Resume
  | startSet
  | startReport
  | drain
  | resetBudget
  | rebuild
  | resetNext (finished : Nat)
  | resetCount (finished : Nat)
  -- EnqueueTasks, PlanNewWorkers
  | planState
  | planScheduled
  | planDesired (scheduled : Int)
  | planCas (scheduled toAdd : Int)
  | enqueue (count : Nat)
  -- DownloadEngine::Pause
  | pauseSet
  | pauseReport
  -- DownloadEngine::Cancel
  | cancelSet
  | cancelReport
  | cancelCheck
  | cancelCleanup
  -- DownloadEngine::Store, alone or before the pause of Terminate
  | storeLock (terminate : Bool)
  | storeScan (terminate : Bool) (scan : List ChunkState)
  | storeWrite (terminate : Bool) (scan : List ChunkState)
  -- Terminate, IsFinished
  | terminateCount
  | terminateState (rest : List DownloadState)
  -- SetConnectionBounds, SetDesiredConnections
  | bounds (minConnections maxConnections : Int)
  | desire (desired : Int)
  | addBudget (lowered : Int)
  -- SetSpeedLimit
  | speedLimit (bps : Nat)
  -- DownloadHandler
  | handlerPause
  | handlerResume
  | handlerCancel
  | handlerSpeedLimit (bps : Nat)
  | attachCallbacks
  | attachDesired
  | attachSpeed (desired : DownloadState)
  | attachPublish (desired : DownloadState) (bps : Nat)
  | attachDispatch (desired : DownloadState)
  | failBeforeEngineStart (error : MuldError)
  | returned (result : Bool)
deriving DecidableEq, Repr

/-- What the environment decides about a step of a call. -/
inductive CallLabel
  | run
  | stored (outcome : StoreOutcome)
deriving DecidableEq, Repr

/-- The states `IsFinished` compares with, in its order. -/
def finishedStates : List DownloadState := [.canceled, .paused, .completed, .failed]

/-- The methods a client, the dispatcher or the controller can enter. -/
inductive Api
  | start
  | resume
  | pause
  | cancel
  | store
  | terminate
  | enqueueTasks
  | setConnectionBounds (minConnections maxConnections : Int)
  | setDesiredConnections (desired : Int)
  | handlerPause
  | handlerResume
  | handlerCancel
  | handlerSpeedLimit (bps : Nat)
  | attachEngine
  | failBeforeEngineStart (error : MuldError)
deriving DecidableEq, Repr

/-- The first program point of a method; `Start` and `Resume` have the same body. -/
def Api.entry : Api → Call
  | .start => .startSet
  | .resume => .startSet
  | .pause => .pauseSet
  | .cancel => .cancelSet
  | .store => .storeLock false
  | .terminate => .terminateCount
  | .enqueueTasks => .planState
  | .setConnectionBounds minConnections maxConnections =>
      .bounds minConnections maxConnections
  | .setDesiredConnections desired => .desire desired
  | .handlerPause => .handlerPause
  | .handlerResume => .handlerResume
  | .handlerCancel => .handlerCancel
  | .handlerSpeedLimit bps => .handlerSpeedLimit bps
  | .attachEngine => .attachCallbacks
  | .failBeforeEngineStart error => .failBeforeEngineStart error

namespace Call

/-- Record a wish in the handler; without an engine it becomes the handler's state too. -/
def wish (shared : Shared) (wanted : DownloadState) : Shared :=
  { shared with
    handler := {
      shared.handler with
      desiredState := wanted
      state := if shared.handler.engine then shared.handler.state else wanted
    } }

/-- The mirror of the engine that `AttachEngine` fills under the handler mutex. -/
def publish (shared : Shared) (bps : Nat) : Shared :=
  { shared with
    engine := { shared.engine with speedLimitBps := bps }
    handler := {
      shared.handler with
      engine := true
      progress := { shared.handler.progress with totalBytes := shared.engine.fileSize }
      chunks := shared.engine.chunksInfo.map fun chunk =>
        { downloadedBytes := chunk.getReceivedSize, totalBytes := chunk.getTotalSize }
    } }

/-- One atomic step of the call with the given index: the shared state after it, the
program point reached, and a worker if one was enqueued.
-/
def step (index : Nat) (shared : Shared)
    : Call → CallLabel → Option (Shared × Call × List Worker)
  | .startSet, .run =>
      match shared.engine.setState .queued with
      | some engine =>
          some ({ shared with
            engine
            history := { shared.history with
              startAccepted := true, lastCancel := none, undisturbed := false } },
            .startReport, [])
      | none => some (shared, .returned false, [])
  | .startReport, .run => some (shared.reportState .queued, .drain, [])
  | .drain, .run =>
      -- the loop spins until the previous workers are gone
      if shared.engine.scheduledConnections = 0 then some (shared, .resetBudget, []) else none
  | .resetBudget, .run =>
      some (shared.onEngine fun engine => { engine with releaseBudget := 0 }, .rebuild, [])
  | .rebuild, .run =>
      some ((shared.onEngine .rebuildPending).onHistory
        fun history => { history with undisturbed := false },
        .resetNext (finishedCount shared.engine.chunksInfo), [])
  | .resetNext finished, .run =>
      some (shared.onEngine .resetNext, .resetCount finished, [])
  | .resetCount finished, .run =>
      some ((shared.onEngine (.resetCount finished)).onHistory
        fun history => { history with built := true, undisturbed := true }, .planState, [])
  | .planState, .run =>
      if 0 < shared.maxThreads ∧ shared.engine.active then some (shared, .planScheduled, [])
      else some (shared, .returned true, [])
  | .planScheduled, .run =>
      some (shared, .planDesired shared.engine.scheduledConnections, [])
  | .planDesired scheduled, .run =>
      let toAdd := min (shared.engine.desiredConnections - scheduled) shared.maxThreads
      if scheduled < shared.engine.desiredConnections ∧ 0 < toAdd then
        some (shared, .planCas scheduled toAdd, [])
      else some (shared, .returned true, [])
  | .planCas scheduled toAdd, .run =>
      if shared.engine.scheduledConnections = scheduled then
        some (shared.onEngine fun engine =>
          { engine with scheduledConnections := scheduled + toAdd }, .enqueue toAdd.toNat, [])
      else some (shared, .planScheduled, [])
  | .enqueue 0, .run => some (shared, .returned true, [])
  | .enqueue (count + 1), .run => some (shared, .enqueue count, [{}])
  | .pauseSet, .run =>
      match shared.engine.setState .paused with
      | some engine =>
          some ({ shared with
            engine
            history := { shared.history with undisturbed := false } }, .pauseReport, [])
      | none => some (shared, .returned false, [])
  | .pauseReport, .run => some (shared.reportState .paused, .returned true, [])
  | .cancelSet, .run =>
      match shared.engine.setState .canceled with
      | some engine =>
          some ({ shared with
            engine
            history := { shared.history with
              cancelAccepted := true, lastCancel := some index, undisturbed := false } },
            .cancelReport, [])
      | none => some (shared, .returned false, [])
  | .cancelReport, .run => some (shared.reportState .canceled, .cancelCheck, [])
  | .cancelCheck, .run =>
      if shared.engine.nConnections = 0 then some (shared, .cancelCleanup, [])
      else some (shared, .returned true, [])
  | .cancelCleanup, .run =>
      if shared.engine.diskLocked then none
      else some (shared.cleanupArtifacts true, .returned true, [])
  | .storeLock terminate, .run =>
      if shared.engine.diskLocked then none
      else some (shared.lockDisk, .storeScan terminate [], [])
  | .storeScan terminate scan, .run =>
      match shared.engine.chunksInfo[scan.length]? with
      | some chunk => some (shared, .storeScan terminate (scan ++ [chunk.toState]), [])
      | none => some (shared, .storeWrite terminate scan, [])
  | .storeWrite terminate scan, .stored outcome =>
      if shared.engine.writer then
        some (shared.storeImage scan outcome,
          if terminate then .pauseSet else .returned true, [])
      else some ({ shared with nullWriter := true }, .storeWrite terminate scan, [])
  | .terminateCount, .run =>
      if shared.engine.nDownloadedChunks = shared.engine.nChunks then
        some (shared, .returned true, [])
      else some (shared, .terminateState finishedStates, [])
  | .terminateState [], .run => some (shared, .storeLock true, [])
  | .terminateState (finished :: rest), .run =>
      if shared.engine.state = finished then some (shared, .returned true, [])
      else some (shared, .terminateState rest, [])
  | .bounds minConnections maxConnections, .run =>
      some (shared.onEngine (.setBounds minConnections maxConnections),
        .desire shared.engine.desiredConnections, [])
  | .desire desired, .run =>
      let (lowered, engine) := shared.engine.exchangeDesired desired
      some ({ shared with engine },
        if 0 < lowered then .addBudget lowered else .returned true, [])
  | .addBudget lowered, .run =>
      some (shared.onEngine (.addBudget lowered), .returned true, [])
  | .speedLimit bps, .run =>
      some (shared.onEngine fun engine => { engine with speedLimitBps := bps },
        .returned true, [])
  | .handlerPause, .run =>
      some (wish shared .paused,
        if shared.handler.engine then .pauseSet else .returned true, [])
  | .handlerResume, .run =>
      some (wish shared .queued,
        if shared.handler.engine then .startSet else .returned true, [])
  | .handlerCancel, .run =>
      some (wish shared .canceled,
        if shared.handler.engine then .cancelSet else .returned true, [])
  | .handlerSpeedLimit bps, .run =>
      some ({ shared with handler := { shared.handler with desiredSpeedLimitBps := bps } },
        if shared.handler.engine then .speedLimit bps else .returned true, [])
  | .attachCallbacks, .run =>
      some (shared.onEngine fun engine => { engine with callbacksAttached := true },
        .attachDesired, [])
  | .attachDesired, .run =>
      some (shared, .attachSpeed shared.handler.desiredState, [])
  | .attachSpeed desired, .run =>
      some (shared, .attachPublish desired shared.handler.desiredSpeedLimitBps, [])
  | .attachPublish desired bps, .run =>
      some (publish shared bps, .attachDispatch desired, [])
  | .attachDispatch desired, .run =>
      some (shared,
        match desired with
        | .canceled => .cancelSet
        | .paused => .pauseSet
        | .queued => .startSet
        | _ => .returned true,
        [])
  | .failBeforeEngineStart error, .run =>
      some ({ shared with
        handler := { shared.handler with
          error, state := .failed, desiredState := .failed } }, .returned true, [])
  | _, _ => none

end Call

end Muld
