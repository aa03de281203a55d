import Muld.Delivery

/-! No step reads the output file. A run whose output file is left out takes the same steps,
so what does not speak about the bytes on disk holds whatever was on disk at the start.
-/

namespace Muld

/-- The shared state without the output file. -/
def Shared.withoutOutput (shared : Shared) : Shared := { shared with output := none }

namespace Shared

@[simp]
theorem withoutOutput_engine (shared : Shared) : shared.withoutOutput.engine = shared.engine :=
  rfl

@[simp]
theorem withoutOutput_handler (shared : Shared)
    : shared.withoutOutput.handler = shared.handler := rfl

@[simp]
theorem withoutOutput_maxThreads (shared : Shared)
    : shared.withoutOutput.maxThreads = shared.maxThreads := rfl

theorem withoutOutput_cleanupArtifacts (removeOutputFile : Bool) (shared : Shared)
    : shared.withoutOutput.cleanupArtifacts removeOutputFile
        = (shared.cleanupArtifacts removeOutputFile).withoutOutput := by
  by_cases cleaned : shared.engine.artifactsCleaned = true
  · simp [cleanupArtifacts, cleaned]
  · simp [cleanupArtifacts, cleaned, withoutOutput]

end Shared

namespace Worker

/-- The result of a worker step without the output file. -/
def eraseOutput (result : Shared × Worker) : Shared × Worker :=
  (result.1.withoutOutput, result.2)

/-- A worker takes the same step without the output file, by cases on the label and the
program point.
-/
theorem step_withoutOutput (shared : Shared) (worker : Worker) (label : WorkerLabel)
    : worker.step shared.withoutOutput label
        = (worker.step shared label).map eraseOutput := by
  cases label
  case run =>
    cases at_pc : worker.pc <;>
      simp only [step, at_pc, Shared.withoutOutput_cleanupArtifacts, Shared.withoutOutput_engine,
        apply_ite (Option.map eraseOutput), Option.map_none]
    case pollOuter => cases shared.engine.shouldReleaseConnection <;> rfl
    case takeItem => cases shared.engine.nextItem <;> rfl
    case pollInner => cases shared.engine.shouldReleaseConnection <;> rfl
    case readEnd => cases worker.readEnd <;> rfl
    case notifyUpdate => cases worker.item <;> rfl
    case notifyEvent => cases worker.chunk? shared.engine <;> rfl
    case notifyEventReport => cases worker.item <;> rfl
    case notifyFinished => cases worker.chunk? shared.engine <;> rfl
    case completeCas => cases shared.engine.state <;> rfl
    case storeScan site => cases shared.engine.chunksInfo[worker.scan.length]? <;> rfl
    case failSet => cases shared.engine.setState .failed <;> rfl
    all_goals rfl
  case header status reason =>
    simp only [step, Shared.withoutOutput_engine, apply_ite (Option.map eraseOutput)]
    cases validateResponse shared.engine.ranged status reason <;> rfl
  case stored outcome =>
    cases at_pc : worker.pc <;>
      simp only [step, at_pc, Shared.withoutOutput_engine, apply_ite (Option.map eraseOutput)] <;>
      rfl
  all_goals
    simp only [step, Shared.withoutOutput_engine, apply_ite (Option.map eraseOutput)]
    rfl

end Worker

namespace Call

/-- The result of a call step without the output file. -/
def eraseOutput (result : Shared × Call × List Worker) : Shared × Call × List Worker :=
  (result.1.withoutOutput, result.2)

/-- A call takes the same step without the output file, by cases on the program point. -/
theorem step_withoutOutput (index : Nat) (shared : Shared) (call : Call) (label : CallLabel)
    : call.step index shared.withoutOutput label
        = (call.step index shared label).map eraseOutput := by
  cases label
  case stored outcome =>
    cases call <;>
      simp only [step, Shared.withoutOutput_engine, apply_ite (Option.map eraseOutput)] <;>
      rfl
  case run =>
    cases call <;>
      simp only [step, Shared.withoutOutput_cleanupArtifacts, Shared.withoutOutput_engine,
        Shared.withoutOutput_maxThreads, apply_ite (Option.map eraseOutput), Option.map_none]
    case startSet => cases shared.engine.setState .queued <;> rfl
    case pauseSet => cases shared.engine.setState .paused <;> rfl
    case cancelSet => cases shared.engine.setState .canceled <;> rfl
    case enqueue count => cases count <;> rfl
    case storeScan terminate scan => cases shared.engine.chunksInfo[scan.length]? <;> rfl
    case terminateState states =>
      cases states
      case nil => rfl
      case cons finished rest =>
        simp only [apply_ite (Option.map eraseOutput)]
        rfl
    all_goals rfl

end Call

namespace Sys

/-- The system without the output file. -/
def withoutOutput (sys : Sys) : Sys := { sys with shared := sys.shared.withoutOutput }

/-- The system takes the same step without the output file. -/
theorem step_withoutOutput {sys after : Sys} {action : Action}
    (taken : sys.step action = some after)
    : sys.withoutOutput.step action = some after.withoutOutput := by
  unfold step at taken ⊢
  split at taken
  · contradiction
  · rename_i valid
    rw [if_neg (show ¬ sys.withoutOutput.shared.nullWriter = true from valid)]
    cases action with
    | worker index label =>
        simp only [withoutOutput] at taken ⊢
        split at taken
        · contradiction
        · rename_i worker found
          simp only [Worker.step_withoutOutput]
          split at taken
          · contradiction
          · rename_i shared next moved
            cases taken
            rw [moved]
            rfl
    | call index label =>
        simp only [withoutOutput] at taken ⊢
        split at taken
        · contradiction
        · rename_i call found
          simp only [Call.step_withoutOutput]
          split at taken
          · contradiction
          · rename_i shared next spawned moved
            cases taken
            rw [moved]
            rfl
    | invoke api =>
        simp only [withoutOutput] at taken ⊢
        split at taken
        · contradiction
        · rename_i allowed
          cases taken
          exact if_neg allowed

variable {meets : Sys → Action → Sys → Prop} {start sys : Sys}

theorem Built.withoutOutput (built : start.Built) : start.withoutOutput.Built where
  workers := built.workers
  calls := built.calls
  state := built.state
  pendingWork := built.pendingWork
  nextWorkItem := built.nextWorkItem
  nConnections := built.nConnections
  scheduledConnections := built.scheduledConnections
  writer := built.writer
  artifactsCleaned := built.artifactsCleaned
  diskLocked := built.diskLocked
  callbacksAttached := built.callbacksAttached
  handler := built.handler
  history := built.history
  nullWriter := built.nullWriter
  nChunks := built.nChunks

/-- Without the output file nothing has to agree with it. -/
theorem Built.delivered_withoutOutput (built : start.Built) (remote : Nat → Byte)
    (received
      : ∀ chunk ∈ start.shared.engine.chunksInfo, chunk.received ≤ chunk.getTotalSize)
    : start.withoutOutput.Delivered remote where
  received := received
  disk := by
    intro file present
    contradiction
  origin := by
    intro _ item member
    rw [built.withoutOutput.pendingWork] at member
    contradiction
  course := by
    intro worker member
    rw [built.withoutOutput.workers] at member
    contradiction

/-- A run is a run without the output file, under any condition that does not read it. -/
theorem ReachableWhile.withoutOutput
    (blind
      : ∀ before action after,
          meets before action after
          → meets before.withoutOutput action after.withoutOutput)
    (reached : ReachableWhile meets start sys)
    : ReachableWhile meets start.withoutOutput sys.withoutOutput := by
  induction reached with
  | start => exact .start
  | next _ taken met ih => exact ih.next (step_withoutOutput taken) (blind _ _ _ met)

end Sys

end Muld
