import Muld.Notifications
import Muld.Connections

/-! The methods of the engine as sequential calls. Each is the run of its program when no
other thread steps in between; workers open and close between the calls.
-/

namespace Muld

open Threads

/-- A method of the engine and what the clock and the disk decide about it. -/
inductive EngineCall
  | start
  | resume
  | pause
  | fail (error : MuldError) (outcome : StoreOutcome)
  | store (outcome : StoreOutcome)
  | notifyChunkReceived (call : Notification)
  | notifyConnectionOpen
  | notifyConnectionClose
deriving DecidableEq, Repr

namespace Shared

/-- `SetState` and its report; none if the state does not admit the transition. -/
def setState (next : DownloadState) (shared : Shared) : Option Shared :=
  (shared.engine.setState next).map fun engine =>
    ({ shared with engine } : Shared).reportState next

/-- `EnqueueTasks`, as far as the engine goes. -/
def enqueueTasks (shared : Shared) : Shared :=
  shared.onEngine fun engine => (engine.planNewWorkers shared.maxThreads).2

/-- The rest of `Start` once no worker of an earlier generation is scheduled. -/
def restart (shared : Shared) : Shared :=
  let reset := shared.onEngine fun engine => { engine with releaseBudget := 0 }
  let built := (reset.onEngine .buildPendingWork).onHistory fun history =>
    { history with startAccepted := true, lastCancel := none, built := true, undisturbed := true }
  built.enqueueTasks

/-- `Start` and `Resume`. While workers are scheduled the call does not return. -/
def start (shared : Shared) : Option Shared :=
  match shared.setState .queued with
  | none => some shared
  | some queued =>
      if queued.engine.scheduledConnections = 0 then some queued.restart else none

/-- `Pause`. -/
def pause (shared : Shared) : Shared :=
  match shared.setState .paused with
  | none => shared
  | some paused => paused.onHistory fun history => { history with undisturbed := false }

/-- `Fail`. -/
def fail (error : MuldError) (outcome : StoreOutcome) (shared : Shared) : Option Shared :=
  match shared.setState .failed with
  | none => some shared
  | some failed =>
      let disturbed := failed.onHistory fun history => { history with undisturbed := false }
      (disturbed.store outcome).map fun stored =>
        (stored.onEngine fun engine => { engine with error }).reportError error

/-- `NotifyConnectionOpen`. -/
def notifyConnectionOpen (shared : Shared) : Shared :=
  let opened := shared.onEngine .notifyConnectionOpen
  if shared.engine.state = .queued then opened.reportState .downloading else opened

/-- `NotifyConnectionClose`. -/
def notifyConnectionClose (shared : Shared) : Shared :=
  let closed := shared.onEngine .notifyConnectionClose
  if closed.engine.nConnections = 0 ∧ closed.engine.state = .canceled then
    closed.cleanupArtifacts true
  else closed

/-- What a call does; none if it does not return. -/
def call (shared : Shared) : EngineCall → Option Shared
  | .start => shared.start
  | .resume => shared.start
  | .pause => some shared.pause
  | .fail error outcome => shared.fail error outcome
  | .store outcome => shared.store outcome
  | .notifyChunkReceived call => shared.notifyChunkReceived call
  | .notifyConnectionOpen => some shared.notifyConnectionOpen
  | .notifyConnectionClose => some shared.notifyConnectionClose

end Shared

-----------------------------------------------------------------------------------------
-- The calls as runs of their programs
-----------------------------------------------------------------------------------------

namespace Call

variable {index : Nat} {start : Shared × Call} {shared after : Shared} {call next : Call}

/-- The runs of a call that no other thread interrupts. -/
abbrev RunsTo (index : Nat) (start : Shared × Call) : Shared × Call → Prop :=
  Transition.Reachable
    (fun pair label =>
      (pair.2.step index pair.1 label).map fun result => (result.1, result.2.1))
    Transition.anyStep start

theorem RunsTo.moves (reached : RunsTo index start (shared, call)) (label : CallLabel)
    (taken : call.step index shared label = some (after, next, []))
    : RunsTo index start (after, next) :=
  reached.next (Option.map_eq_some_iff.mpr ⟨_, taken, rfl⟩) trivial

/-- A run that enqueues workers is one, by induction on its steps. -/
theorem RunsTo.alone {spawned : List Worker} (reached : RunsTo index start (shared, call))
    (alone : RunsAlone index shared call after next spawned)
    : RunsTo index start (after, next) := by
  induction alone with
  | done shared call => exact reached
  | next taken rest ih => exact ih (reached.moves .run taken)
  | enqueue taken rest ih =>
      exact ih (reached.next (Option.map_eq_some_iff.mpr ⟨_, taken, rfl⟩) trivial)

theorem RunsTo.scan {terminate : Bool} (front rest : List ChunkInfo)
    (chunks : shared.engine.chunksInfo = front ++ rest)
    (reached : RunsTo index start (shared, .storeScan terminate (front.map ChunkInfo.toState)))
    : RunsTo index start
        (shared, .storeScan terminate (shared.engine.chunksInfo.map ChunkInfo.toState)) := by
  induction rest generalizing front with
  | nil =>
      rw [List.append_nil] at chunks
      rwa [chunks]
  | cons head rest ih =>
      have next : shared.engine.chunksInfo[front.length]? = some head := by
        simp [chunks]
      have read
          : (Call.storeScan terminate (front.map ChunkInfo.toState)).step index shared .run
            = some
                (shared, .storeScan terminate ((front ++ [head]).map ChunkInfo.toState), []) := by
        simp [step, next]
      exact ih (front ++ [head]) (by simp [chunks]) (reached.moves .run read)

/-- `Start` and `Resume` run alone. -/
theorem runsTo_start (taken : shared.start = some after)
    : ∃ result, RunsTo index (shared, .startSet) (after, .returned result) := by
  rw [Shared.start, Shared.setState] at taken
  cases admitted : shared.engine.setState .queued with
  | none =>
      rw [admitted] at taken
      cases taken
      refine ⟨false, RunsTo.moves .start .run ?_⟩
      simp only [step, admitted]
  | some engine =>
      rw [admitted] at taken
      simp only [Option.map_some] at taken
      split at taken
      · rename_i drained
        cases taken
        let accepted : Shared :=
          { shared with
            engine
            history := { shared.history with
              startAccepted := true, lastCancel := none, undisturbed := false } }
        have at_report : RunsTo index (shared, .startSet) (accepted, .startReport) :=
          RunsTo.moves .start .run (by simp only [step, admitted]; rfl)
        have at_drain := at_report.moves .run rfl
        have at_reset : RunsTo index (shared, .startSet)
            (accepted.reportState .queued, .resetBudget) :=
          at_drain.moves .run (if_pos drained)
        have at_plan := (((at_reset.moves .run rfl).moves .run rfl).moves .run rfl).moves .run rfl
        have planned := at_plan.alone runsAlone_planState
        exact ⟨true, planned⟩
      · contradiction

/-- `Pause` runs alone. -/
theorem runsTo_pause
    : ∃ result, RunsTo index (shared, .pauseSet) (shared.pause, .returned result) := by
  rw [Shared.pause, Shared.setState]
  cases admitted : shared.engine.setState .paused with
  | none =>
      refine ⟨false, RunsTo.moves .start .run ?_⟩
      simp only [step, admitted]
      rfl
  | some engine =>
      let accepted : Shared :=
        { shared with engine, history := { shared.history with undisturbed := false } }
      have at_report : RunsTo index (shared, .pauseSet) (accepted, .pauseReport) :=
        RunsTo.moves .start .run (by simp only [step, admitted]; rfl)
      exact ⟨true, at_report.moves .run rfl⟩

/-- `Store` runs alone. -/
theorem runsTo_store {outcome : StoreOutcome} (unlocked : shared.engine.diskLocked = false)
    (taken : shared.store outcome = some after)
    : RunsTo index (shared, .storeLock false) (after, .returned true) := by
  rw [Shared.store] at taken
  split at taken <;> cases taken
  rename_i open_
  have at_scan : RunsTo index (shared, .storeLock false) (shared.lockDisk, .storeScan false []) :=
    RunsTo.moves .start .run (by simp only [step, unlocked]; rfl)
  have scanned := at_scan.scan [] _ rfl
  have at_write : RunsTo index (shared, .storeLock false)
      (shared.lockDisk, .storeWrite false (shared.engine.chunksInfo.map ChunkInfo.toState)) :=
    scanned.moves .run (by simp [step, Shared.lockDisk, Shared.onEngine])
  have open_locked : shared.lockDisk.engine.writer = true := open_
  exact at_write.moves (.stored outcome) (by simp only [step, open_locked, if_true]; rfl)

end Call

namespace Worker

variable {shared after : Shared} {worker : Worker}

/-- `Fail` runs alone. -/
theorem runsTo_fail {error : MuldError} {outcome : StoreOutcome} (at_pc : worker.pc = .failSet)
    (reason : worker.failure = error) (unlocked : shared.engine.diskLocked = false)
    (taken : shared.fail error outcome = some after)
    : ∃ next : Worker, RunsTo (shared, worker) (after, next) ∧ next.pc = .closeScheduled := by
  rw [Shared.fail, Shared.setState] at taken
  cases admitted : shared.engine.setState .failed with
  | none =>
      rw [admitted] at taken
      cases taken
      exact ⟨worker.leave, RunsTo.moves .start .run (by simp only [step, at_pc, admitted]), rfl⟩
  | some engine =>
      rw [admitted] at taken
      obtain ⟨stored, kept, rfl⟩ := Option.map_eq_some_iff.mp taken
      let accepted : Shared :=
        { shared with engine, history := { shared.history with undisturbed := false } }
      have at_report : RunsTo (shared, worker)
          (accepted, { worker with pc := .failReport, item := none }) :=
        RunsTo.moves .start .run (by simp only [step, at_pc, admitted]; rfl)
      have at_lock := at_report.moves .run rfl
      have free : (accepted.reportState .failed).engine.diskLocked = false := by
        obtain ⟨_, rfl⟩ := DownloadEngine.setState_eq_some_iff.mp admitted
        exact unlocked
      have at_error := at_lock.stores rfl free kept
      have at_report_error := at_error.moves .run rfl
      rw [← reason]
      exact ⟨_, at_report_error.moves .run rfl, rfl⟩

/-- `NotifyConnectionOpen` runs alone. -/
theorem runsTo_open (at_pc : worker.pc = .queued)
    : ∃ next : Worker,
        RunsTo (shared, worker) (shared.notifyConnectionOpen, next) ∧ next.pc = .setup := by
  let counted := shared.onEngine fun engine =>
    { engine with nConnections := engine.nConnections + 1 }
  have at_cas : RunsTo (shared, worker) (counted, worker.goto .openCas) :=
    RunsTo.moves .start .run (by simp only [step, at_pc]; rfl)
  rw [Shared.notifyConnectionOpen]
  by_cases queued : shared.engine.state = .queued
  · have at_report : RunsTo (shared, worker)
        (shared.onEngine .notifyConnectionOpen, worker.goto .openReport) := by
      refine at_cas.moves .run ?_
      have opened : shared.engine.notifyConnectionOpen
          = { counted.engine with state := .downloading } := by
        simp only [DownloadEngine.notifyConnectionOpen, if_pos queued]
        rfl
      simp only [Shared.onEngine, opened]
      exact if_pos queued
    rw [if_pos queued]
    exact ⟨_, at_report.moves .run rfl, rfl⟩
  · have opened : shared.onEngine .notifyConnectionOpen = counted := by
      simp only [Shared.onEngine, DownloadEngine.notifyConnectionOpen, if_neg queued]
      rfl
    rw [if_neg queued, opened]
    exact ⟨_, at_cas.moves .run (if_neg queued), rfl⟩

/-- `NotifyConnectionClose` runs alone. -/
theorem runsTo_close (at_pc : worker.pc = .closeScheduled)
    (unlocked : shared.engine.diskLocked = false)
    : ∃ next : Worker,
        RunsTo (shared, worker) (shared.notifyConnectionClose, next) ∧ next.pc = .closed := by
  have at_connection : RunsTo (shared, worker)
      (shared.onEngine .releaseScheduled, worker.goto .closeConnection) :=
    RunsTo.moves .start .run (by simp only [step, at_pc])
  let closed := shared.onEngine .notifyConnectionClose
  have at_remaining : RunsTo (shared, worker)
      (closed, worker.goto (if closed.engine.nConnections = 0 then .closeCheck else .closed)) :=
    at_connection.moves .run rfl
  rw [Shared.notifyConnectionClose]
  by_cases last : closed.engine.nConnections = 0
  · rw [if_pos last] at at_remaining
    have at_check := at_remaining.moves .run rfl
    by_cases canceled : closed.engine.state = .canceled
    · rw [if_pos canceled] at at_check
      rw [if_pos ⟨last, canceled⟩]
      have free : ¬ closed.engine.diskLocked = true := by
        have same : closed.engine.diskLocked = shared.engine.diskLocked := rfl
        rw [same, unlocked]
        exact Bool.false_ne_true
      exact ⟨_, at_check.moves .run (if_neg free), rfl⟩
    · rw [if_neg canceled] at at_check
      rw [if_neg (mt And.right canceled)]
      exact ⟨_, at_check, rfl⟩
  · rw [if_neg last] at at_remaining
    rw [if_neg (mt And.left last)]
    exact ⟨_, at_remaining, rfl⟩

end Worker

/-- The program of a method takes the shared state from one to the other, undisturbed. -/
def EngineCall.Runs (before after : Shared) : EngineCall → Prop
  | .start | .resume =>
      ∃ result, Call.RunsTo 0 (before, .startSet) (after, .returned result)
  | .pause => ∃ result, Call.RunsTo 0 (before, .pauseSet) (after, .returned result)
  | .store _ => Call.RunsTo 0 (before, .storeLock false) (after, .returned true)
  | .fail error _ =>
      ∀ worker : Worker,
        worker.pc = .failSet
        → worker.failure = error
        → ∃ next, Worker.RunsTo (before, worker) (after, next) ∧ next.pc = .closeScheduled
  | .notifyChunkReceived call =>
      ∀ (worker : Worker) (item : WorkItem),
        worker.pc = .notifyUpdate
        → worker.item = some item
        → call.chunkId = item.chunkId
        → call.bytes = worker.bytesRead
        → ∃ next, Worker.RunsTo (before, worker) (after, next) ∧ next.pc = .readEnd
  | .notifyConnectionOpen =>
      ∀ worker : Worker,
        worker.pc = .queued
        → ∃ next, Worker.RunsTo (before, worker) (after, next) ∧ next.pc = .setup
  | .notifyConnectionClose =>
      ∀ worker : Worker,
        worker.pc = .closeScheduled
        → ∃ next, Worker.RunsTo (before, worker) (after, next) ∧ next.pc = .closed

/-- What a call does is what its program does. -/
theorem Shared.call_runs {before after : Shared} {call : EngineCall}
    (unlocked : before.engine.diskLocked = false) (taken : before.call call = some after)
    : call.Runs before after := by
  cases call with
  | start => exact Call.runsTo_start taken
  | resume => exact Call.runsTo_start taken
  | pause =>
      cases taken
      exact Call.runsTo_pause
  | fail error outcome =>
      intro worker at_pc reason
      exact Worker.runsTo_fail at_pc reason unlocked taken
  | store outcome => exact Call.runsTo_store unlocked taken
  | notifyChunkReceived call =>
      intro worker item at_pc held names counts
      obtain ⟨next, ran, next_pc, _⟩ :=
        Worker.runsTo_notifyChunkReceived at_pc held names counts unlocked taken
      exact ⟨next, ran, next_pc⟩
  | notifyConnectionOpen =>
      cases taken
      intro worker at_pc
      exact Worker.runsTo_open at_pc
  | notifyConnectionClose =>
      cases taken
      intro worker at_pc
      exact Worker.runsTo_close at_pc unlocked

end Muld
