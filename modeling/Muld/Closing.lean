import Muld.Accounting
import Muld.DiskMutex

/-! The workers of a download that is not active close. No worker requests anything any
more, so each of them has a bounded number of steps left, and none of them waits for another
thread once all calls have returned.
-/

namespace Muld

open Threads

/-- How many steps a worker has left at most, once the download is not active. -/
def Worker.remaining (nChunks : Nat) (worker : Worker) : Nat :=
  match worker.pc with
  | .closed => 0
  | .closeCleanup => 1
  | .closeCheck => 2
  | .closeConnection => 3
  | .closeScheduled => 4
  | .failErrorReport => 5
  | .failError => 6
  | .storeWrite .fail => 7
  | .storeScan .fail => 8 + (nChunks - worker.scan.length)
  | .storeLock .fail => 9 + nChunks
  | .failReport => 10 + nChunks
  | .failSet => 11 + nChunks
  | .checkState => 12 + nChunks
  | .pollInner => 13 + nChunks
  | .takeItem => 14 + nChunks
  | .pollOuter => 15 + nChunks
  | .streamed _ => 16 + nChunks
  | .setup | .streamState => 17 + nChunks
  | .openReport | .streamHead => 18 + nChunks
  | .openCas | .request | .readEnd => 19 + nChunks
  | .queued | .finishReport => 20 + nChunks
  | .completeCleanup => 21 + nChunks
  | .storeWrite .complete => 22 + nChunks
  | .storeScan .complete => 23 + nChunks + (nChunks - worker.scan.length)
  | .storeLock .complete => 24 + 2 * nChunks
  | .completeForce => 25 + 2 * nChunks
  | .completeCas => 26 + 2 * nChunks
  | .notifyBump => 27 + 2 * nChunks
  | .notifyFinished => 28 + 2 * nChunks
  | .storeWrite .notify => 29 + 2 * nChunks
  | .storeScan .notify => 30 + 2 * nChunks + (nChunks - worker.scan.length)
  | .storeLock .notify => 31 + 3 * nChunks
  | .notifyCount => 32 + 3 * nChunks
  | .notifyProgressReport => 33 + 3 * nChunks
  | .notifyProgress => 34 + 3 * nChunks
  | .notifyEventReport => 35 + 3 * nChunks
  | .notifyEvent => 36 + 3 * nChunks
  | .notifyTotal => 37 + 3 * nChunks
  | .notifyUpdate => 38 + 3 * nChunks
  | .write => 39 + 3 * nChunks + worker.buffer.length
  | .read => 40 + 3 * nChunks + worker.allowedBytes
  | .awaitBudget => 41 + 3 * nChunks + bufferSize
  | .budget => 42 + 3 * nChunks + bufferSize

/-- The writer is used here. -/
def WorkerPc.writes : WorkerPc → Bool
  | .write | .storeWrite _ => true
  | _ => false

def Call.writes : Call → Bool
  | .storeWrite .. => true
  | _ => false

/-- A null writer is used where the call writes without one. -/
theorem Call.Step.nullWriter_writes {index : Nat} {shared shared' : Shared} {call next : Call}
    {label : CallLabel} {spawned : List Worker}
    (taken : Call.Step index shared call label shared' next spawned)
    : shared'.nullWriter = shared.nullWriter
      ∨ (call.writes = true ∧ shared.engine.writer = false) := by
  cases taken
  case nullWriter closed => exact Or.inr ⟨rfl, closed⟩
  all_goals exact Or.inl (by first | rfl | simp)

namespace Worker

variable {shared shared' : Shared} {worker next : Worker} {label : WorkerLabel}

theorem Step.nullWriter_writes (taken : Step shared worker label shared' next)
    : shared'.nullWriter = shared.nullWriter
      ∨ (worker.pc.writes = true ∧ shared.engine.writer = false) := by
  cases taken
  case nullWriter at_pc closed =>
    refine Or.inr ⟨?_, closed⟩
    rcases at_pc with at_pc | ⟨_, at_pc⟩ <;> rw [at_pc] <;> rfl
  all_goals exact Or.inl (by first | rfl | simp)

/-- A closed worker takes no step. -/
theorem Step.not_closed (taken : Step shared worker label shared' next)
    : worker.pc ≠ .closed := by
  intro closed
  cases taken
  all_goals simp_all [WorkerPc.throws]

/-- While the download is not active, every step of a worker brings it closer to its end. -/
theorem Step.remaining (taken : Step shared worker label shared' next)
    (inactive : shared.engine.active = false)
    : shared'.nullWriter = true
      ∨ next.remaining shared.engine.nChunks < worker.remaining shared.engine.nChunks := by
  cases taken
  case nullWriter => exact Or.inl rfl
  all_goals right
  case openWon found => simp [DownloadEngine.active, found] at inactive
  case proceed found => simp [DownloadEngine.active, found] at inactive
  case streamProceed found => simp [DownloadEngine.active, found] at inactive
  case complete found => simp [DownloadEngine.active, found] at inactive
  case fail admitted =>
    simp only [DownloadEngine.active, DownloadEngine.admits] at inactive admitted
    grind
  case throw at_pc _ _ =>
    cases pc : worker.pc <;> simp only [WorkerPc.throws, pc, Bool.false_eq_true] at at_pc
    all_goals
      simp only [Worker.remaining, pc, throw_pc]
      omega
  case release at_pc _ =>
    rcases at_pc with at_pc | at_pc
    all_goals
      simp only [Worker.remaining, at_pc, leave_pc]
      omega
  case streamStop at_pc _ =>
    rcases at_pc with at_pc | at_pc
    all_goals
      simp only [Worker.remaining, at_pc, goto_pc]
      omega
  case allow at_pc positive fits =>
    rcases at_pc with at_pc | at_pc
    all_goals
      simp only [Worker.remaining, at_pc]
      omega
  case lock site at_pc _ =>
    cases site <;> simp only [Worker.remaining, at_pc, List.length_nil] <;> omega
  case scan site chunk at_pc found =>
    obtain ⟨inside, _⟩ := List.getElem?_eq_some_iff.mp found
    have room : worker.scan.length < shared.engine.nChunks := inside
    cases site <;>
      simp only [Worker.remaining, at_pc, List.length_append, List.length_singleton] <;> omega
  case scanned site at_pc _ =>
    cases site <;> simp only [Worker.remaining, at_pc, goto_pc] <;> omega
  case store site _ at_pc _ =>
    cases site <;> simp only [Worker.remaining, at_pc, goto_pc, afterStore] <;> omega
  case writePart count at_pc positive part _ =>
    simp only [Worker.remaining, at_pc, List.length_drop]
    omega
  case readBytes fits _ =>
    simp only [Worker.remaining, ‹worker.pc = _›]
    omega
  all_goals
    simp only [Worker.remaining, ‹worker.pc = _›, goto_pc, leave_pc]
    omega

/-- The chunk of the worker's item exists. -/
def Inside (engine : DownloadEngine) (worker : Worker) : Prop :=
  ∀ item, worker.item = some item → item.chunkId < engine.nChunks

/-- A worker that has not closed can take a step, unless it waits for the disk mutex. -/
theorem exists_step (holding : worker.Holding) (inside : worker.Inside shared.engine)
    (open_ : worker.pc ≠ .closed) (inactive : shared.engine.active = false)
    (free : shared.engine.diskLocked = false ∨ worker.pc.scanning = true)
    : ∃ label, (worker.step shared label).isSome = true := by
  have held : worker.pc.mayHold = true → worker.pc ≠ .failSet
      → ∃ item chunk, worker.item = some item ∧ worker.chunk? shared.engine = some chunk := by
    intro holds other
    obtain ⟨item, found⟩ := Option.isSome_iff_exists.mp (holding holds other)
    have bound : item.chunkId < shared.engine.chunksInfo.length := inside item found
    exact ⟨item, shared.engine.chunksInfo[item.chunkId], found, by simp [chunk?, found, bound]⟩
  have stopped : shared.engine.state ≠ .downloading := by
    intro downloading
    simp [DownloadEngine.active, downloading] at inactive
  cases pc : worker.pc
  case closed => exact absurd pc open_
  case request => exact ⟨.networkFails "", by simp [step, pc]⟩
  case streamHead => exact ⟨.isDone true, by simp [step, pc]⟩
  case awaitBudget => exact ⟨.allow 0, by simp [step, pc, stopped]⟩
  case read => exact ⟨.read [] .none, by simp [step, pc]⟩
  case write =>
    refine ⟨.writeFails, ?_⟩
    simp only [step, pc, if_true]
    split <;> rfl
  case notifyTotal => exact ⟨.clock false, by simp [step, pc]⟩
  case storeWrite site =>
    refine ⟨.stored .written, ?_⟩
    simp only [step, pc]
    split <;> rfl
  all_goals refine ⟨.run, ?_⟩
  case notifyUpdate =>
    obtain ⟨item, _, found, _⟩ := held (by rw [pc]; rfl) (by simp [pc])
    simp [step, pc, found]
  case notifyEvent =>
    obtain ⟨_, chunk, _, found⟩ := held (by rw [pc]; rfl) (by simp [pc])
    simp [step, pc, found]
  case notifyEventReport =>
    obtain ⟨item, _, found, _⟩ := held (by rw [pc]; rfl) (by simp [pc])
    simp [step, pc, found]
  case notifyFinished =>
    obtain ⟨_, chunk, _, found⟩ := held (by rw [pc]; rfl) (by simp [pc])
    simp [step, pc, found]
  all_goals
    first
      | (simp only [pc, WorkerPc.scanning, Bool.false_eq_true, or_false] at free
         simp [step, pc, free]
         done)
      | (simp only [step, pc]
         repeat' split
         all_goals rfl)

end Worker

namespace Sys

variable {meets : Sys → Action → Sys → Prop} {start sys : Sys}

/-- Some thread is inside a store while the disk mutex is locked. -/
def LockHeld (sys : Sys) : Prop :=
  sys.shared.engine.diskLocked = true
  → (∃ worker ∈ sys.workers, worker.pc.scanning = true)
    ∨ ∃ call ∈ sys.calls, call.scan?.isSome = true

/-- The items handed out and waiting belong to chunks of the file. -/
structure ItemsInside (sys : Sys) : Prop where
  pending
    : ∀ item ∈ sys.shared.engine.pendingWork, item.chunkId < sys.shared.engine.nChunks
  held : ∀ worker ∈ sys.workers, worker.Inside sys.shared.engine

theorem ReachableWhile.lockHeld (built : start.Built)
    (reached : ReachableWhile meets start sys)
    : sys.LockHeld := by
  intro locked
  have one := reached.oneStore built
  by_contra nobody
  push Not at nobody
  have workers : total Worker.storeShare sys.workers = 0 :=
    total_eq_zero fun worker member => if_neg (nobody.1 worker member)
  have calls : total Call.storeShare sys.calls = 0 :=
    total_eq_zero fun call member => if_neg (nobody.2 call member)
  rw [OneStore, workers, calls, DownloadEngine.lockShare, if_pos locked] at one
  contradiction

theorem ReachableWhile.itemsInside (built : start.Built)
    (reached : ReachableWhile meets start sys)
    : sys.ItemsInside :=
  have named := reached.named built
  ⟨named.pending, named.held⟩

-----------------------------------------------------------------------------------------
-- Winding down
-----------------------------------------------------------------------------------------

/-- Every call has returned and the engine is neither `Queued` nor `Downloading`. -/
structure Stopped (sys : Sys) : Prop where
  returned : ∀ call ∈ sys.calls, call = .returned true ∨ call = .returned false
  inactive : sys.shared.engine.active = false

/-- A thread that writes or stores finds the writer. -/
def FindsWriter (before : Sys) (action : Action) (_ : Sys) : Prop :=
  match action with
  | .worker index _ =>
      ∀ worker ∈ before.workers[index]?,
        worker.pc.writes = true → before.shared.engine.writer = true
  | .call index _ =>
      ∀ call ∈ before.calls[index]?,
        call.writes = true → before.shared.engine.writer = true
  | .invoke _ => True

instance (before : Sys) (action : Action) (after : Sys)
    : Decidable (FindsWriter before action after) :=
  match action with
  | .worker .. | .call .. | .invoke .. => by unfold FindsWriter; infer_instance

/-- A process whose threads find the writer goes on. -/
theorem FindsWriter.running {action : Action} {after : Sys}
    (finds : FindsWriter sys action after) (moved : sys.step action = some after)
    (running : sys.shared.nullWriter = false)
    : after.shared.nullWriter = false := by
  cases step_cases moved with
  | worker index worker next label shared found taken =>
      rcases taken.nullWriter_writes with same | ⟨writes, closed⟩
      · exact same.trans running
      · simp [finds worker found writes] at closed
  | call index call next label shared spawned found taken =>
      rcases taken.nullWriter_writes with same | ⟨writes, closed⟩
      · exact same.trans running
      · simp [finds call found writes] at closed
  | invoke => exact running

/-- Only workers take steps, and they find the writer where they use it. -/
def WorkersOnly (before : Sys) (action : Action) (after : Sys) : Prop :=
  match action with
  | .worker .. => FindsWriter before action after
  | _ => False

instance (before : Sys) (action : Action) (after : Sys)
    : Decidable (WorkersOnly before action after) :=
  match action with
  | .worker .. | .call .. | .invoke .. => by unfold WorkersOnly; infer_instance

/-- No worker can take a step. -/
def WorkersRest (sys : Sys) : Prop :=
  ∀ index label, sys.step (.worker index label) = none

/-- The steps that the workers have left at most; the use of a null writer is the last. -/
def remaining (sys : Sys) : Nat :=
  if sys.shared.nullWriter then 0
  else
    (total (fun worker => (worker.remaining sys.shared.engine.nChunks : Int))
      sys.workers).toNat + 1

/-- The workers take a bounded number of steps more, and when none of them can take one, all
have closed and no connection is scheduled.
-/
def WindsDown (sys : Sys) : Prop :=
  ∃ bound, ∀ (actions : List Action) (after : Sys),
    Transition.runWhile step WorkersOnly sys actions = some after
    → actions.length ≤ bound
      ∧ after.shared.engine.active = false
      ∧ (after.WorkersRest
        → (∀ worker ∈ after.workers, worker.pc = .closed)
          ∧ after.shared.engine.scheduledConnections = 0)

/-- What winds down has no connection scheduled once its workers rest. -/
theorem WindsDown.unscheduled (windsDown : sys.WindsDown) (rest : sys.WorkersRest)
    : sys.shared.engine.scheduledConnections = 0 := by
  obtain ⟨_, ends⟩ := windsDown
  exact ((ends [] sys rfl).2.2 rest).2

theorem workersRest_of_closed (closed : ∀ worker ∈ sys.workers, worker.pc = .closed)
    : sys.WorkersRest := by
  intro index label
  by_contra moves
  obtain ⟨after, moved⟩ := Option.ne_none_iff_exists'.mp moves
  cases step_cases moved with
  | worker _ worker next _ shared found taken =>
      exact taken.not_closed (closed worker (List.mem_of_getElem? found))

theorem Stopped.worker_step (stopped : sys.Stopped) {after : Sys} {index : Nat}
    {label : WorkerLabel} (moved : sys.step (.worker index label) = some after)
    : after.Stopped ∧ after.remaining < sys.remaining := by
  have running : sys.shared.nullWriter = false := by
    cases crashed : sys.shared.nullWriter with
    | false => rfl
    | true => simp [step, crashed] at moved
  cases step_cases moved with
  | worker _ worker next _ shared found taken =>
      have inactive : shared.engine.active = false := by
        rcases taken.state with same | ⟨_, _, before, _⟩ | ⟨_, _, after⟩ | ⟨_, _, _, after⟩
        · simpa [DownloadEngine.active, same] using stopped.inactive
        · have active := stopped.inactive
          simp [DownloadEngine.active, before] at active
        · simp [DownloadEngine.active, after]
        · simp [DownloadEngine.active, after]
      refine ⟨⟨stopped.returned, inactive⟩, ?_⟩
      have positive : ∀ worker : Worker, 0 ≤ (worker.remaining sys.shared.engine.nChunks : Int) :=
        fun _ => Int.natCast_nonneg _
      have own := share_le_total positive (List.mem_of_getElem? found)
      have whole : sys.remaining = (total (fun worker =>
          (worker.remaining sys.shared.engine.nChunks : Int)) sys.workers).toNat + 1 := by
        simp [remaining, running]
      rw [whole, remaining]
      rcases taken.remaining stopped.inactive with crashed | lower
      · rw [if_pos crashed]
        omega
      · simp only [taken.nChunks, total_set _ found]
        split <;> omega

/-- Nobody waits for anybody in a stopped system, except for the end of a store. -/
theorem Stopped.closed (stopped : sys.Stopped) (counted : sys.Counted)
    (inside : sys.ItemsInside) (lockHeld : sys.LockHeld)
    (running : sys.shared.nullWriter = false) (rest : sys.WorkersRest)
    : ∀ worker ∈ sys.workers, worker.pc = .closed := by
  have moves : ∀ worker ∈ sys.workers, worker.pc ≠ .closed →
      ¬ (sys.shared.engine.diskLocked = false ∨ worker.pc.scanning = true) := by
    intro worker member open_ free
    obtain ⟨index, found⟩ := List.mem_iff_getElem?.mp member
    obtain ⟨label, taken⟩ := Worker.exists_step (counted.holding worker member)
      (inside.held worker member) open_ stopped.inactive free
    obtain ⟨⟨shared, next⟩, moved⟩ := Option.isSome_iff_exists.mp taken
    have none_moves := rest index label
    simp [step, running, found, moved] at none_moves
  intro worker member
  by_contra open_
  cases locked : sys.shared.engine.diskLocked with
  | false => exact moves worker member open_ (Or.inl locked)
  | true =>
      rcases lockHeld locked with ⟨holder, present, scans⟩ | ⟨call, present, scans⟩
      · refine moves holder present ?_ (Or.inr scans)
        intro closed
        rw [closed] at scans
        cases scans
      · rcases stopped.returned call present with rfl | rfl <;> cases scans

/-- Where all workers have closed and all calls returned, no connection is scheduled. -/
theorem Counted.unscheduled (counted : sys.Counted)
    (closed : ∀ worker ∈ sys.workers, worker.pc = .closed)
    (returned : ∀ call ∈ sys.calls, call = .returned true ∨ call = .returned false)
    : sys.shared.engine.scheduledConnections = 0 := by
  have workers : total Worker.scheduledShare sys.workers = 0 := by
    refine total_eq_zero fun worker member => ?_
    simp [Worker.scheduledShare, closed worker member, WorkerPc.scheduled]
  have calls : total Call.planned sys.calls = 0 := by
    refine total_eq_zero fun call member => ?_
    rcases returned call member with rfl | rfl <;> rfl
  rw [counted.scheduled, workers, calls, add_zero]

/-- A stopped system winds down, by induction on the steps of its workers. -/
theorem Stopped.windsDown (stopped : sys.Stopped) (running : sys.shared.nullWriter = false)
    (built : start.Built) (reached : ReachableWhile meets start sys)
    : sys.WindsDown := by
  have lowers : ∀ before action next,
      Reachable start before ∧ before.Stopped ∧ before.shared.nullWriter = false
      → before.step action = some next
      → WorkersOnly before action next
      → (Reachable start next ∧ next.Stopped ∧ next.shared.nullWriter = false)
        ∧ next.remaining < before.remaining := by
    intro before action next ⟨earlier, stops, runs⟩ taken only
    cases action with
    | worker index label =>
        obtain ⟨following, lower⟩ := stops.worker_step taken
        have finds : FindsWriter before (.worker index label) next := only
        exact ⟨⟨earlier.next taken trivial, following, finds.running taken runs⟩, lower⟩
    | call => exact only.elim
    | invoke => exact only.elim
  refine ⟨sys.remaining, fun actions after ran => ?_⟩
  obtain ⟨⟨reachable, still, runs⟩, short⟩ :=
    Transition.length_le_of_runWhile
      (fun after => Reachable start after ∧ after.Stopped ∧ after.shared.nullWriter = false)
      remaining lowers ⟨reached.any, stopped, running⟩ ran
  refine ⟨by omega, still.inactive, fun rest => ?_⟩
  have counted := ReachableWhile.counted built reachable
  have closed := still.closed counted (ReachableWhile.itemsInside built reachable)
    (ReachableWhile.lockHeld built reachable) runs rest
  exact ⟨closed, counted.unscheduled closed still.returned⟩

end Sys

end Muld
