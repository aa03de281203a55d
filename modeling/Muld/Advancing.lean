import Muld.Closing
import Muld.Completion
import Muld.Orphans

/-! A download that nothing stops and that a server serves goes on. Each worker has a next
step, and the steps bring the download closer to its end: the bytes that the chunks lack
and the items that wait become fewer, and between two of these steps a worker has a bounded
number of others.
-/

namespace Muld

open Threads

/-- The program points of a worker that nothing has stopped, in a download that is not
completed.
-/
def WorkerPc.onTrack : WorkerPc → Bool
  | .storeLock site | .storeScan site | .storeWrite site => site == .notify
  | .streamed finished => finished
  | .completeForce | .completeCleanup | .finishReport | .failSet | .failReport | .failError
  | .failErrorReport | .closeCleanup => false
  | _ => true

/-- The program points between the test whether the body has ended and the read. -/
def WorkerPc.reading : WorkerPc → Bool
  | .streamState | .budget | .awaitBudget | .read => true
  | _ => false

/-- The program points at which a worker may wait for the disk mutex. -/
def WorkerPc.locks : WorkerPc → Bool
  | .notifyCount | .storeLock _ => true
  | _ => false

/-- The worker is about to close or has closed. -/
def WorkerPc.leaving : WorkerPc → Bool
  | .closeScheduled | .closeConnection | .closeCheck | .closeCleanup | .closed => true
  | _ => false

namespace Worker

/-- What the environment decides while the network and the disk do their work: the server
answers with the requested range and sends some of it at each read, the parser says that the
body has ended when it has, and each write takes some bytes.
-/
def Attended (remote : Nat → Byte) (engine : DownloadEngine) (worker : Worker)
    : WorkerLabel → Prop
  | .setupFails _ | .networkFails _ | .writeFails => False
  | .header status _ => status = 206
  | .isDone done => done = worker.chunkDone engine
  | .allow bytes => 0 < bytes
  | .read bytes ending =>
      0 < bytes.length
      ∧ (ending = .none ∨ ending = .needBuffer)
      ∧ worker.Served remote engine (.read bytes ending)
  | .wrote count => 0 < count
  | .run | .clock _ | .stored _ => True

instance (remote : Nat → Byte) (engine : DownloadEngine) (worker : Worker)
    (label : WorkerLabel)
    : Decidable (worker.Attended remote engine label) :=
  match label with
  | .setupFails _ | .networkFails _ | .writeFails => instDecidableFalse
  | .header status _ => Nat.decEq status 206
  | .isDone done => instDecidableEqBool done (worker.chunkDone engine)
  | .allow bytes => Nat.decLt 0 bytes
  | .read bytes ending =>
      @instDecidableAnd _ _ (Nat.decLt 0 bytes.length)
        (@instDecidableAnd _ _
          (@instDecidableOr _ _ (instDecidableEqReadEnd ending .none)
            (instDecidableEqReadEnd ending .needBuffer))
          (instDecidableServed remote engine worker (.read bytes ending)))
  | .wrote count => Nat.decLt 0 count
  | .run | .clock _ | .stored _ => instDecidableTrue

theorem Attended.served {remote : Nat → Byte} {engine : DownloadEngine} {worker : Worker}
    {label : WorkerLabel} (attended : worker.Attended remote engine label)
    : worker.Served remote engine label := by
  cases label
  case read => exact attended.2.2
  all_goals trivial

/-- A worker that nothing has stopped. -/
structure Steady (engine : DownloadEngine) (worker : Worker) : Prop where
  onTrack : worker.pc.onTrack = true
  readEnd
    : worker.pc ≠ .closed → worker.readEnd = .none ∨ worker.readEnd = .needBuffer
  allowedBytes
    : worker.pc = .read → 0 < worker.allowedBytes ∧ worker.allowedBytes ≤ bufferSize
  buffer : worker.pc = .write → worker.buffer ≠ [] ∧ worker.buffer.length ≤ bufferSize
  /-- It reads only while its chunk lacks bytes. -/
  unfinished : worker.pc.reading = true → worker.chunkDone engine = false

theorem steady_of_closed {engine : DownloadEngine} {worker : Worker}
    (closed : worker.pc = .closed)
    : worker.Steady engine := by
  constructor <;> simp [closed, WorkerPc.onTrack, WorkerPc.reading]

theorem steady_fresh (engine : DownloadEngine) : ({} : Worker).Steady engine := by
  constructor <;> simp [WorkerPc.onTrack, WorkerPc.reading]

/-- How many steps a worker has left at most before it counts bytes or asks for an item, or
until it has closed.
-/
def effort (nChunks : Nat) (worker : Worker) : Nat :=
  match worker.pc with
  | .closed => 0
  | .closeCleanup => 1
  | .closeCheck => 2
  | .closeConnection => 3
  | .closeScheduled => 4
  | .takeItem => 5
  | .pollOuter => 6
  | .setup | .streamed _ => 7
  | .openReport | .notifyUpdate => 8
  | .openCas => 9
  | .queued => 10
  | .write => 8 + min worker.buffer.length bufferSize
  | .read => 9 + bufferSize
  | .awaitBudget => 10 + bufferSize
  | .budget => 11 + bufferSize
  | .streamState => 12 + bufferSize
  | .streamHead => 13 + bufferSize
  | .request | .readEnd => 14 + bufferSize
  | .checkState | .completeCas => 15 + bufferSize
  | .pollInner | .notifyBump => 16 + bufferSize
  | .notifyFinished => 17 + bufferSize
  | .storeWrite _ => 18 + bufferSize
  | .storeScan _ => 19 + bufferSize + (nChunks - worker.scan.length)
  | .storeLock _ => 20 + bufferSize + nChunks
  | .notifyCount => 21 + bufferSize + nChunks
  | .notifyProgressReport => 22 + bufferSize + nChunks
  | .notifyProgress => 23 + bufferSize + nChunks
  | .notifyEventReport => 24 + bufferSize + nChunks
  | .notifyEvent => 25 + bufferSize + nChunks
  | .notifyTotal => 26 + bufferSize + nChunks
  | _ => 0

/-- A bound of `effort`. -/
def fullEffort (nChunks : Nat) : Nat := 27 + bufferSize + nChunks

theorem effort_lt (nChunks : Nat) (worker : Worker)
    : worker.effort nChunks < fullEffort nChunks := by
  rw [effort, fullEffort]
  split <;> omega

variable {remote : Nat → Byte} {shared shared' : Shared} {worker next : Worker}

/-- What a worker finds in a download that nothing stops. -/
structure Free (shared : Shared) (worker : Worker) : Prop where
  open_ : shared.engine.writer = true
  ranged : shared.engine.ranged = true
  budget : shared.engine.releaseBudget ≤ 0
  uncanceled : shared.engine.state ≠ .canceled
  /-- Behind its opening the download is in the downloading state. -/
  downloading
    : worker.pc.scheduled = true
      → worker.pc = .queued ∨ worker.pc = .openCas ∨ shared.engine.state = .downloading

/-- A worker that nothing has stopped and that does not wait for the disk mutex has a next
step.
-/
theorem Steady.exists_step (steady : worker.Steady shared.engine) (free : worker.Free shared)
    (holding : worker.Holding) (inside : worker.Inside shared.engine)
    (open_ : worker.pc ≠ .closed)
    (unlocked : worker.pc.locks = true → shared.engine.diskLocked = false)
    (sent
      : worker.pc = .read
        → worker.Served remote shared.engine
            (.read [remote (worker.bodyStart + worker.bodyPosition)] .none))
    : ∃ label,
        worker.Attended remote shared.engine label
        ∧ (worker.step shared label).isSome = true := by
  have held : worker.pc.mayHold = true → worker.pc ≠ .failSet
      → ∃ item chunk, worker.item = some item ∧ worker.chunk? shared.engine = some chunk := by
    intro holds other
    obtain ⟨item, found⟩ := Option.isSome_iff_exists.mp (holding holds other)
    have bound : item.chunkId < shared.engine.chunksInfo.length := inside item found
    exact ⟨item, shared.engine.chunksInfo[item.chunkId], found, by simp [chunk?, found, bound]⟩
  cases pc : worker.pc
  case closed => exact absurd pc open_
  case request =>
    refine ⟨.header 206 "", rfl, ?_⟩
    simp only [step, pc, if_true]
    split <;> rfl
  case streamHead => exact ⟨.isDone (worker.chunkDone shared.engine), rfl, by simp [step, pc]⟩
  case awaitBudget => exact ⟨.allow 1, Nat.one_pos, by simp [step, pc, bufferSize]⟩
  case read =>
    have fits : 1 ≤ worker.allowedBytes := (steady.allowedBytes pc).1
    exact ⟨.read [remote (worker.bodyStart + worker.bodyPosition)] .none,
      ⟨Nat.one_pos, Or.inl rfl, sent pc⟩, by simp [step, pc, fits]⟩
  case write =>
    have some_left := List.length_pos_iff.mpr (steady.buffer pc).1
    exact ⟨.wrote worker.buffer.length, some_left, by simp [step, pc, some_left, free.open_]⟩
  case notifyTotal => exact ⟨.clock false, trivial, by simp [step, pc]⟩
  case storeWrite site => exact ⟨.stored .written, trivial, by simp [step, pc, free.open_]⟩
  all_goals refine ⟨.run, trivial, ?_⟩
  case notifyUpdate =>
    obtain ⟨item, _, found, _⟩ := held (by rw [pc]; rfl) (by simp [pc])
    simp [step, pc, found]
  case notifyEvent =>
    obtain ⟨_, chunk, _, found⟩ := held (by rw [pc]; rfl) (by simp [pc])
    simp [step, pc, found]
  case notifyEventReport =>
    obtain ⟨item, _, found, _⟩ := held (by rw [pc]; rfl) (by simp [pc])
    simp [step, pc, found]
  case notifyFinished =>
    obtain ⟨_, chunk, _, found⟩ := held (by rw [pc]; rfl) (by simp [pc])
    simp [step, pc, found]
  case notifyCount => simp [step, pc, unlocked (by rw [pc]; rfl)]
  case storeLock site => simp [step, pc, unlocked (by rw [pc]; rfl)]
  case completeCleanup =>
    have track := steady.onTrack
    simp [pc, WorkerPc.onTrack] at track
  case closeCleanup =>
    have track := steady.onTrack
    simp [pc, WorkerPc.onTrack] at track
  all_goals
    simp only [step, pc]
    repeat' split
    all_goals rfl

variable {label : WorkerLabel}

/-- Where an exception or an interruption would take a worker off its track, the network and
the disk keep it there.
-/
theorem Attended.onTrack (attended : worker.Attended remote shared.engine label)
    (steady : worker.Steady shared.engine) (free : worker.Free shared)
    (moved : worker.step shared label = some (shared', next))
    (throws : worker.pc.throws = true)
    : next.pc.onTrack = true := by
  have track := steady.onTrack
  have ending := steady.readEnd (by rintro closed; simp [closed, WorkerPc.throws] at throws)
  cases label
  case run =>
    cases pc : worker.pc <;> simp only [pc, WorkerPc.throws, Bool.false_eq_true] at throws
    case setup =>
      simp only [step, pc] at moved
      cases moved
      rfl
    case readEnd =>
      rcases ending with ending | ending <;> simp only [step, pc, ending] at moved <;>
        cases moved <;> rfl
    case streamed finished =>
      simp only [pc, WorkerPc.onTrack] at track
      simp only [step, pc, track, if_true] at moved
      cases moved
      rfl
    all_goals simp [step, pc] at moved
  case header status reason =>
    obtain rfl : status = 206 := attended
    have valid : validateResponse shared.engine.ranged 206 reason = none := by
      rw [free.ranged]
      rfl
    simp only [step, valid] at moved
    split at moved <;> cases moved
    rfl
  case wrote count =>
    simp only [step, free.open_, if_true] at moved
    split at moved <;> cases moved
    simp only
    split <;> rfl
  case setupFails => exact attended.elim
  case networkFails => exact attended.elim
  case writeFails => exact attended.elim
  all_goals
    cases pc : worker.pc <;> simp_all [step, WorkerPc.throws]

/-- Where the network and the disk do their work, a step of a worker completes the download
or leaves the worker on its track.
-/
theorem Step.onTrack (taken : Step shared worker label shared' next)
    (attended : worker.Attended remote shared.engine label)
    (moved : worker.step shared label = some (shared', next))
    (steady : worker.Steady shared.engine) (free : worker.Free shared)
    : shared'.engine.state = .completed ∨ next.pc.onTrack = true := by
  have track := steady.onTrack
  have downloading := free.downloading
  by_cases throws : worker.pc.throws = true
  · exact Or.inr (attended.onTrack steady free moved throws)
  · cases taken
    case throw at_pc _ _ => exact absurd at_pc throws
    case complete => exact Or.inl rfl
    case streamStop at_pc other =>
      rcases at_pc with at_pc | at_pc <;> simp [at_pc, WorkerPc.scheduled, other] at downloading
    case nullWriter closed => simp [free.open_] at closed
    case closeCanceled found => exact absurd found free.uncanceled
    case lock site at_pc _ => exact Or.inr (by simpa [at_pc, WorkerPc.onTrack] using track)
    case scan site chunk at_pc _ => exact Or.inr track
    case scanned site at_pc _ => exact Or.inr (by simpa [at_pc, WorkerPc.onTrack] using track)
    case store site outcome at_pc _ =>
      simp only [at_pc, WorkerPc.onTrack, beq_iff_eq] at track
      subst track
      exact Or.inr rfl
    all_goals
      first
        | exact Or.inr rfl
        | exact absurd (by rw [‹worker.pc = _›]; rfl) throws
        | simp_all [WorkerPc.onTrack, WorkerPc.scheduled]

variable {label : WorkerLabel}

/-- What no step of a worker on its track changes. -/
theorem Step.continues (taken : Step shared worker label shared' next)
    (track : worker.pc.onTrack = true) (free : worker.Free shared)
    : shared'.engine.writer = shared.engine.writer
      ∧ shared'.engine.releaseBudget = shared.engine.releaseBudget
      ∧ shared'.history.undisturbed = shared.history.undisturbed
      ∧ shared'.nullWriter = shared.nullWriter := by
  cases taken
  case release budget => exact absurd budget (Int.not_lt.mpr free.budget)
  case nullWriter closed => simp [free.open_] at closed
  case cleanup at_pc _ => simp [at_pc, WorkerPc.onTrack] at track
  case closeCleanup at_pc _ => simp [at_pc, WorkerPc.onTrack] at track
  case fail at_pc _ => simp [at_pc, WorkerPc.onTrack] at track
  all_goals exact ⟨rfl, rfl, rfl, rfl⟩

/-- Where the network and the disk do their work, a step that leaves a worker on its track
brings it closer to its next count of bytes, its next item or its end, or is one of these.
-/
theorem Step.effort (taken : Step shared worker label shared' next)
    (attended : worker.Attended remote shared.engine label)
    (steady : worker.Steady shared.engine) (free : worker.Free shared)
    (track : next.pc.onTrack = true)
    : next.effort shared.engine.nChunks < worker.effort shared.engine.nChunks
      ∨ worker.pc = .notifyUpdate
      ∨ (worker.pc = .takeItem ∧ shared.engine.nextItem.isSome = true) := by
  have onTrack := steady.onTrack
  cases taken
  case update at_pc _ => exact Or.inr (Or.inl at_pc)
  case take at_pc found => exact Or.inr (Or.inr ⟨at_pc, by rw [found]; rfl⟩)
  all_goals left
  case throw => cases track
  case release budget => exact absurd budget (Int.not_lt.mpr free.budget)
  case nullWriter closed => simp [free.open_] at closed
  case streamStop at_pc other =>
    have downloading := free.downloading
    rcases at_pc with at_pc | at_pc <;> simp [at_pc, WorkerPc.scheduled, other] at downloading
  case allow at_pc _ _ =>
    rcases at_pc with at_pc | at_pc <;> simp only [Worker.effort, at_pc] <;> omega
  case lock site at_pc _ =>
    simp only [Worker.effort, at_pc, List.length_nil]
    omega
  case scan site chunk at_pc found =>
    obtain ⟨inside, _⟩ := List.getElem?_eq_some_iff.mp found
    have room : worker.scan.length < shared.engine.nChunks := inside
    simp only [Worker.effort, at_pc, List.length_append, List.length_singleton]
    omega
  case store site _ at_pc _ =>
    simp only [at_pc, WorkerPc.onTrack, beq_iff_eq] at onTrack
    subst onTrack
    simp only [Worker.effort, at_pc, goto_pc, afterStore]
    omega
  case readNothing => exact absurd attended.1 (Nat.lt_irrefl 0)
  case readBytes at_pc fits _ =>
    have bounded := (steady.allowedBytes at_pc).2
    simp only [Worker.effort, at_pc]
    omega
  case writePart at_pc positive part _ =>
    have bounded := (steady.buffer at_pc).2
    simp only [Worker.effort, at_pc, List.length_drop]
    omega
  case writeLast at_pc left _ =>
    have some_left := List.length_pos_iff.mpr left
    simp only [Worker.effort, at_pc, bufferSize]
    omega
  all_goals
    first
      | (simp only [Worker.effort, ‹worker.pc = _›, goto_pc, leave_pc]
         omega)
      | (simp [WorkerPc.onTrack] at track
         done)
      | simp [‹worker.pc = _›, WorkerPc.onTrack] at onTrack

/-- While an item waits, a worker on its track does not leave. -/
theorem Step.stays (taken : Step shared worker label shared' next)
    (onTrack : worker.pc.onTrack = true) (free : worker.Free shared)
    (available : shared.engine.nextItem.isSome = true) (before : worker.pc.leaving = false)
    : next.pc.leaving = false := by
  cases taken
  case takeNone none_left => simp [none_left] at available
  case release budget => exact absurd budget (Int.not_lt.mpr free.budget)
  case nullWriter closed => simp [free.open_] at closed
  case stop at_pc other =>
    have downloading := free.downloading
    simp [at_pc, WorkerPc.scheduled, other] at downloading
  case store site _ _ _ => cases site <;> rfl
  case scan => exact before
  case writePart => exact before
  all_goals
    first
      | rfl
      | simp [‹worker.pc = _›, WorkerPc.onTrack, WorkerPc.leaving] at onTrack before

/-- Where the network and the disk do their work, a step that leaves a worker on its track
leaves it steady.
-/
theorem Step.steady (taken : Step shared worker label shared' next)
    (attended : worker.Attended remote shared.engine label)
    (steady : worker.Steady shared.engine) (free : worker.Free shared)
    (track : next.pc.onTrack = true)
    : next.Steady shared'.engine where
  onTrack := track
  readEnd := by
    intro stays
    have before := steady.readEnd taken.not_closed
    cases taken
    case readNothing => exact attended.2.1
    case readBytes => exact attended.2.1
    all_goals exact before
  allowedBytes := by
    intro at_read
    cases taken
    case allow positive fits => exact ⟨positive, fits⟩
    case writePart at_pc _ part _ => simp [at_pc] at at_read
    case scan at_pc _ => simp [at_pc] at at_read
    case nullWriter closed => simp [free.open_] at closed
    case store site _ at_pc _ => cases site <;> cases at_read
    all_goals cases at_read
  buffer := by
    intro at_write
    cases taken
    case readBytes at_pc fits some_read =>
      exact ⟨some_read, Nat.le_trans fits (steady.allowedBytes at_pc).2⟩
    case writePart at_pc _ part _ =>
      refine ⟨?_, ?_⟩
      · rw [← List.length_pos_iff, List.length_drop]
        omega
      · have bounded := (steady.buffer at_pc).2
        rw [List.length_drop]
        omega
    case scan at_pc _ => simp [at_pc] at at_write
    case nullWriter closed => simp [free.open_] at closed
    case store site _ at_pc _ => cases site <;> cases at_write
    all_goals cases at_write
  unfinished := by
    intro reads
    have before := steady.unfinished
    cases taken
    case bodyOpen => exact Eq.symm attended
    case streamProceed at_pc _ => exact before (by rw [at_pc]; rfl)
    case limited at_pc => exact before (by rw [at_pc]; rfl)
    case allow at_pc _ _ => rcases at_pc with at_pc | at_pc <;> exact before (by rw [at_pc]; rfl)
    case writePart at_pc _ _ _ => simp [at_pc, WorkerPc.reading] at reads
    case scan at_pc _ => simp [at_pc, WorkerPc.reading] at reads
    case nullWriter closed => simp [free.open_] at closed
    case store site _ at_pc _ => cases site <;> cases reads
    all_goals cases reads

end Worker

-----------------------------------------------------------------------------------------
-- What is left of a download
-----------------------------------------------------------------------------------------

/-- How many bytes a chunk lacks. -/
def ChunkInfo.lacking (chunk : ChunkInfo) : Nat := chunk.getTotalSize - chunk.received

/-- How many bytes the chunks lack and how many items wait. -/
def DownloadEngine.workLeft (engine : DownloadEngine) : Nat :=
  (engine.chunksInfo.map ChunkInfo.lacking).sum
    + (engine.pendingWork.length - engine.nextWorkItem)

namespace Worker

variable {shared shared' : Shared} {worker next : Worker} {label : WorkerLabel}

/-- No step that counts no bytes adds work; one that gets an item makes the work less. -/
theorem Step.workLeft (taken : Step shared worker label shared' next)
    (uncounted : worker.pc ≠ .notifyUpdate)
    : shared'.engine.workLeft ≤ shared.engine.workLeft
      ∧ (worker.pc = .takeItem
        → shared.engine.nextItem.isSome = true
        → shared'.engine.workLeft < shared.engine.workLeft) := by
  simp only [DownloadEngine.workLeft, taken.chunksInfo_eq uncounted, taken.pendingWork]
  constructor
  · rcases taken.nextWorkItem with same | ⟨_, advanced⟩ <;> omega
  · intro at_pc available
    obtain ⟨item, found⟩ := Option.isSome_iff_exists.mp available
    have inside := (List.getElem?_eq_some_iff.mp found).1
    have advanced : shared'.engine.nextWorkItem = shared.engine.nextWorkItem + 1 := by
      cases taken
      case take => rfl
      all_goals simp_all [WorkerPc.throws]
    omega

end Worker

namespace Sys

variable {meets : Sys → Action → Sys → Prop} {remote : Nat → Byte} {start sys : Sys}

/-- A download that nothing stops: every call has returned, nothing was accepted since the
work list was rebuilt, and the workers go on with every chunk that lacks bytes.
-/
structure Advancing (sys : Sys) : Prop where
  returned : ∀ call ∈ sys.calls, call = .returned true ∨ call = .returned false
  running : sys.shared.nullWriter = false
  live : sys.shared.engine.state = .queued ∨ sys.shared.engine.state = .downloading
  open_ : sys.shared.engine.writer = true
  budget : sys.shared.engine.releaseBudget ≤ 0
  undisturbed : sys.shared.history.undisturbed = true
  built : sys.shared.history.built = true
  circulating : sys.Circulating
  steady : ∀ worker ∈ sys.workers, worker.Steady sys.shared.engine
  /-- While an item waits, some worker is to ask for one. -/
  staffed
    : sys.shared.engine.nextItem.isSome = true
      → ∃ worker ∈ sys.workers, worker.pc.leaving = false
  /-- Once all chunks are counted, a worker is about to complete the download. -/
  full
    : sys.shared.engine.nChunks ≤ sys.shared.engine.nDownloadedChunks
      → ∃ worker ∈ sys.workers, worker.pc = .completeCas

/-- The work that is left and the steps that the workers have left before they do some. -/
def effort (sys : Sys) : Nat :=
  sys.shared.engine.workLeft * Worker.fullEffort sys.shared.engine.nChunks
    + (total (fun worker => (worker.effort sys.shared.engine.nChunks : Int)) sys.workers).toNat

theorem Advancing.free (advancing : sys.Advancing) (ranged : sys.shared.engine.ranged = true)
    {worker : Worker} (member : worker ∈ sys.workers)
    : worker.Free sys.shared where
  open_ := advancing.open_
  ranged := ranged
  budget := advancing.budget
  uncanceled := by rcases advancing.live with state | state <;> simp [state]
  downloading := by
    intro scheduled
    rcases advancing.live with queued | downloading
    · have opening :=
        advancing.circulating.opening advancing.undisturbed queued worker member scheduled
      exact opening.imp_right Or.inl
    · exact Or.inr (Or.inr downloading)

/-- The chunk of a worker that still reads or counts lacks bytes. -/
theorem Delivered.bounds (delivered : sys.Delivered remote) (generation : sys.Generation)
    (small : sys.shared.engine.fileSize < sizeModulus) {worker : Worker}
    (member : worker ∈ sys.workers) (running : worker.pc ≠ .failSet) {item : WorkItem}
    (held : worker.item = some item)
    : ∃ chunk,
        sys.shared.engine.chunksInfo[item.chunkId]? = some chunk
        ∧ worker.OnCourse remote sys.shared chunk
        ∧ item.rangeEnd = chunk.endRange
        ∧ chunk.getTotalSize = chunk.endRange + 1 - chunk.startRange
        ∧ chunk.endRange < sizeModulus := by
  obtain ⟨chunk, present, ends⟩ := generation.chunk_of_held member held
  have course := delivered.course worker member item chunk held running present
  have inFile := course.proper.inFile
  exact ⟨chunk, present, course, ends, course.proper.getTotalSize_eq small, by omega⟩

/-- The steps of an advancing download keep every chunk until it is finished. -/
theorem Advancing.keepsChunks (advancing : sys.Advancing) (delivered : sys.Delivered remote)
    (generation : sys.Generation) (small : sys.shared.engine.fileSize < sizeModulus)
    {index : Nat} {worker : Worker} {label : WorkerLabel}
    (found : sys.workers[index]? = some worker)
    (attended : worker.Attended remote sys.shared.engine label) {after : Sys}
    : KeepsChunks sys (.worker index label) after := by
  refine ⟨trivial, ?_⟩
  intro other same
  obtain rfl : worker = other := Option.some.inj (found.symm.trans same)
  refine ⟨fun _ positive => absurd positive (Int.not_lt.mpr advancing.budget), ?_, ?_⟩
  · intro _ done
    subst done
    exact Eq.symm attended
  · intro at_pc chunk present
    obtain ⟨item, held, named⟩ := Option.bind_eq_some_iff.mp present
    obtain ⟨known, atKnown, course, _, _, bound⟩ :=
      delivered.bounds generation small (List.mem_of_getElem? found) (by simp [at_pc]) held
    obtain rfl : known = chunk := Option.some.inj (atKnown.symm.trans named)
    have offset := course.offset
    have bounded := course.bounded
    have inFile := course.proper.inFile
    simp only [Worker.uncounted, Worker.unwritten, at_pc, WorkerPc.phase] at offset bounded
    omega

/-- A worker that reads may be sent a byte: its chunk lacks one. -/
theorem Advancing.sends (advancing : sys.Advancing) (delivered : sys.Delivered remote)
    (generation : sys.Generation) (small : sys.shared.engine.fileSize < sizeModulus)
    (ranged : sys.shared.engine.ranged = true) {worker : Worker}
    (member : worker ∈ sys.workers) (at_pc : worker.pc = .read)
    : worker.Served remote sys.shared.engine
        (.read [remote (worker.bodyStart + worker.bodyPosition)] .none) := by
  refine ⟨rfl, ?_⟩
  intro item held
  obtain ⟨chunk, present, course, ends, total, _⟩ :=
    delivered.bounds generation small member (by simp [at_pc]) held
  have lacks : chunk.isFinished = false := by
    have unfinished := (advancing.steady worker member).unfinished (by rw [at_pc]; rfl)
    rw [Option.mem_def] at held
    simpa [Worker.chunkDone, Worker.chunk?, held, present] using unfinished
  have short : chunk.received < chunk.getTotalSize := by
    by_contra enough
    simp [chunk.isFinished_iff.mpr (by omega)] at lacks
  have offset := course.offset
  have body := course.body (by simp [at_pc, WorkerPc.phase])
  simp only [Worker.uncounted, Worker.unwritten, at_pc, WorkerPc.phase] at offset body
  rw [if_pos ranged, List.length_singleton]
  omega

/-- The chunk of a worker is as it was after a step of another one. -/
theorem Generation.chunkDone_other (generation : sys.Generation) {index position : Nat}
    {worker next other : Worker} {label : WorkerLabel} {shared : Shared}
    (found : sys.workers[index]? = some worker)
    (taken : worker.Step sys.shared label shared next) (different : position ≠ index)
    (atOther : sys.workers[position]? = some other)
    : other.chunkDone shared.engine = other.chunkDone sys.shared.engine := by
  simp only [Worker.chunkDone]
  rcases taken.chunksInfo with same | ⟨own, _, _, ownHeld, moved⟩
  · rw [other.chunk?_congr same]
  · cases held : other.item with
    | none => simp [Worker.chunk?, held]
    | some item =>
        have apart := generation.item_ne found ownHeld different atOther held
        simp [Worker.chunk?, held, moved,
          DownloadEngine.updateReceived_getElem?_other _ _ apart.symm]

theorem Advancing.worker_step (advancing : sys.Advancing) (counted : sys.Counted)
    (generation : sys.Generation) (fits : sys.shared.engine.nChunks < sizeModulus) {index : Nat}
    {worker next : Worker} {label : WorkerLabel} {shared : Shared} {after : Sys}
    (found : sys.workers[index]? = some worker) (free : worker.Free sys.shared)
    (taken : worker.Step sys.shared label shared next)
    (attended : worker.Attended remote sys.shared.engine label)
    (track : next.pc.onTrack = true) (keeps : KeepsChunks sys (.worker index label) after)
    : Advancing { sys with shared, workers := sys.workers.set index next } := by
  have member := List.mem_of_getElem? found
  have steady := advancing.steady worker member
  obtain ⟨writer, releaseBudget, undisturbed, nullWriter⟩ := taken.continues steady.onTrack free
  have live : shared.engine.state = .queued ∨ shared.engine.state = .downloading := by
    rcases taken.state with same | ⟨_, _, _, later⟩ | ⟨_, next_pc, _⟩ | ⟨_, next_pc, _⟩
    · simpa only [same] using advancing.live
    · exact Or.inr later
    · simp [next_pc, WorkerPc.onTrack] at track
    · simp [next_pc, WorkerPc.onTrack] at track
  constructor
  case returned => exact advancing.returned
  case running => exact nullWriter.trans advancing.running
  case live => exact live
  case open_ => exact writer.trans advancing.open_
  case budget => exact releaseBudget ▸ advancing.budget
  case undisturbed => exact undisturbed.trans advancing.undisturbed
  case built => exact taken.built.trans advancing.built
  case circulating => exact advancing.circulating.worker_step counted found taken keeps
  case steady =>
    intro other inside
    obtain ⟨position, at_position⟩ := List.mem_iff_getElem?.mp inside
    rcases getElem?_set_cases at_position with ⟨rfl, rfl⟩ | ⟨different, atOther⟩
    · exact taken.steady attended steady free track
    · have before := advancing.steady other (List.mem_of_getElem? atOther)
      have same := generation.chunkDone_other found taken different atOther
      exact { before with unfinished := fun reads => same.trans (before.unfinished reads) }
  case staffed =>
    intro available
    have before : sys.shared.engine.nextItem.isSome = true := by
      simp only [DownloadEngine.nextItem, taken.pendingWork, Option.isSome_iff_ne_none, ne_eq,
        List.getElem?_eq_none_iff, Nat.not_le] at available ⊢
      rcases taken.nextWorkItem with same | ⟨_, advanced⟩ <;> omega
    exact exists_set_of_keeps found (advancing.staffed before)
      (taken.stays steady.onTrack free before)
  case full =>
    intro enough
    simp only [taken.nChunks] at enough
    have stays : (∃ worker ∈ sys.workers, worker.pc = .completeCas) →
        ∃ worker ∈ sys.workers.set index next, worker.pc = .completeCas := by
      refine fun present => exists_set_of_keeps found present fun at_pc => ?_
      rcases taken.completes (by rw [at_pc]; rfl) with completing | completed | ⟨_, other, _⟩
      · cases pc : next.pc <;> simp_all [WorkerPc.completing, WorkerPc.onTrack]
      · simp [completed] at live
      · have downloading := free.downloading
        simp [at_pc, WorkerPc.scheduled, other] at downloading
    rcases taken.nDownloadedChunks with same | ⟨_, bumped, last⟩
    · exact stays (advancing.full (same ▸ enough))
    · by_cases before : sys.shared.engine.nChunks ≤ sys.shared.engine.nDownloadedChunks
      · exact stays (advancing.full before)
      · rw [DownloadEngine.lastChunk_iff (by omega) fits] at last
        exact ⟨next, mem_set_self found, last (by omega)⟩

/-- The bytes that a worker counts are lacking no more. -/
theorem Delivered.workLeft_lt (delivered : sys.Delivered remote) (generation : sys.Generation)
    (small : sys.shared.engine.fileSize < sizeModulus) {worker next : Worker}
    {label : WorkerLabel} {shared : Shared} (member : worker ∈ sys.workers)
    (taken : worker.Step sys.shared label shared next) (at_pc : worker.pc = .notifyUpdate)
    : shared.engine.workLeft < sys.shared.engine.workLeft := by
  obtain ⟨item, held, _, rfl⟩ := taken.counts at_pc
  obtain ⟨chunk, present, course, _, total, _⟩ :=
    delivered.bounds generation small member (by simp [at_pc]) held
  have received := (course.counted at_pc small rfl rfl).1
  have offset := course.offset
  have bounded := course.bounded
  have some_read := course.some_read (Or.inr (by rw [at_pc]; rfl))
  simp only [Worker.uncounted, Worker.unwritten, at_pc, WorkerPc.phase] at offset bounded
  have same : (chunk.updateReceived worker.bytesRead).getTotalSize = chunk.getTotalSize := rfl
  have fewer : (chunk.updateReceived worker.bytesRead).lacking < chunk.lacking := by
    simp only [ChunkInfo.lacking, same, received]
    omega
  have moved := @total_set _ _ _ _ (chunk.updateReceived worker.bytesRead)
    (fun chunk => (ChunkInfo.lacking chunk : Int)) present
  rw [total_natCast, total_natCast] at moved
  simp only [DownloadEngine.workLeft, Shared.onEngine,
    DownloadEngine.updateReceived_chunksInfo present]
  have pending : (sys.shared.engine.updateReceived item.chunkId worker.bytesRead).pendingWork
      = sys.shared.engine.pendingWork := rfl
  have position : (sys.shared.engine.updateReceived item.chunkId worker.bytesRead).nextWorkItem
      = sys.shared.engine.nextWorkItem := rfl
  rw [pending, position]
  omega

/-- Every step of an advancing download brings it closer to its end. -/
theorem Advancing.effort_lt (advancing : sys.Advancing) (delivered : sys.Delivered remote)
    (generation : sys.Generation) (small : sys.shared.engine.fileSize < sizeModulus)
    {index : Nat} {worker next : Worker} {label : WorkerLabel} {shared : Shared}
    (found : sys.workers[index]? = some worker) (free : worker.Free sys.shared)
    (taken : worker.Step sys.shared label shared next)
    (attended : worker.Attended remote sys.shared.engine label)
    (track : next.pc.onTrack = true)
    : effort { sys with shared, workers := sys.workers.set index next } < sys.effort := by
  have member := List.mem_of_getElem? found
  have steady := advancing.steady worker member
  have moved := @total_set _ _ _ _ next
    (fun worker => (worker.effort sys.shared.engine.nChunks : Int)) found
  have nonneg : ∀ worker : Worker, 0 ≤ (worker.effort sys.shared.engine.nChunks : Int) :=
    fun _ => Int.natCast_nonneg _
  have own := share_le_total nonneg member
  have bound := next.effort_lt sys.shared.engine.nChunks
  simp only [effort, taken.nChunks, moved]
  by_cases counts : worker.pc = .notifyUpdate
  · have fewer := delivered.workLeft_lt generation small member taken counts
    have spared := Nat.mul_le_mul_right (Worker.fullEffort sys.shared.engine.nChunks) fewer
    rw [Nat.succ_mul] at spared
    omega
  · obtain ⟨kept, less⟩ := taken.workLeft counts
    have spared := Nat.mul_le_mul_right (Worker.fullEffort sys.shared.engine.nChunks) kept
    rcases taken.effort attended steady free track with lower | counted | ⟨at_pc, available⟩
    · omega
    · exact absurd counted counts
    · have fewer := less at_pc available
      have spared := Nat.mul_le_mul_right (Worker.fullEffort sys.shared.engine.nChunks) fewer
      rw [Nat.succ_mul] at spared
      omega

/-- Not all workers of an advancing download have closed: the counter would be full, and a
worker about to complete the download.
-/
theorem Advancing.exists_open (advancing : sys.Advancing) (counted : sys.Counted)
    (excess : sys.ExcessHolds (0 ≤ ·))
    : ∃ worker ∈ sys.workers, worker.pc ≠ .closed := by
  by_contra closed
  push Not at closed
  have outside : ¬ sys.Building := by
    rintro ⟨call, member, inside⟩
    rcases advancing.returned call member with rfl | rfl <;> cases inside
  have nothing_waits : sys.shared.engine.nextItem = none := by
    by_contra waits
    obtain ⟨worker, member, stays⟩ :=
      advancing.staffed (Option.isSome_iff_ne_none.mpr waits)
    simp [closed worker member, WorkerPc.leaving] at stays
  have all : sys.shared.engine.AllFinished := by
    intro chunk inside
    by_contra unfinished
    obtain ⟨chunkId, found⟩ := List.mem_iff_getElem?.mp inside
    have lacks : sys.shared.engine.chunkFinished chunkId = false := by
      rw [DownloadEngine.chunkFinished_of_found found]
      exact eq_false_of_ne_true unfinished
    rcases (advancing.circulating.covered advancing.undisturbed advancing.live chunkId
        (List.getElem?_eq_some_iff.mp found).1 lacks).cases with
      ⟨position, item, ahead, at_position, _⟩ | ⟨index, worker, atIndex, holds⟩
    · rw [DownloadEngine.nextItem, List.getElem?_eq_none_iff] at nothing_waits
      have inside := (List.getElem?_eq_some_iff.mp at_position).1
      omega
    · have member := List.mem_of_getElem? atIndex
      obtain ⟨item, held, _⟩ := Option.map_eq_some_iff.mp holds
      have placed := counted.placed worker member (by simp [held])
      simp [closed worker member, WorkerPc.mayHold] at placed
  have silent : total (Worker.owed sys.shared.engine) sys.workers = 0 :=
    total_eq_zero fun worker member =>
      Worker.owed_eq_zero (by simp [closed worker member]) (by rw [closed worker member]; rfl)
  have counts := excess advancing.built outside
  rw [DownloadEngine.allFinished_iff] at all
  simp only [Sys.excess, silent] at counts
  obtain ⟨worker, member, at_pc⟩ := advancing.full (by omega)
  simp [closed worker member] at at_pc

/-- Once all calls have returned, some worker waits for nobody, if one is open: only the disk
mutex makes a worker wait, and then its holder does not.
-/
theorem LockHeld.exists_free (lockHeld : sys.LockHeld)
    (returned : ∀ call ∈ sys.calls, call = .returned true ∨ call = .returned false)
    (some_open : ∃ worker ∈ sys.workers, worker.pc ≠ .closed)
    : ∃ worker ∈ sys.workers,
        worker.pc ≠ .closed
        ∧ (sys.shared.engine.diskLocked = false ∨ worker.pc.scanning = true) := by
  cases locked : sys.shared.engine.diskLocked with
  | false =>
      obtain ⟨worker, member, open_⟩ := some_open
      exact ⟨worker, member, open_, Or.inl rfl⟩
  | true =>
      rcases lockHeld locked with ⟨holder, present, scans⟩ | ⟨call, present, scans⟩
      · refine ⟨holder, present, ?_, Or.inr scans⟩
        intro closed
        rw [closed] at scans
        cases scans
      · rcases returned call present with rfl | rfl <;> cases scans

-----------------------------------------------------------------------------------------
-- The workers go on
-----------------------------------------------------------------------------------------

/-- A worker of a download that is not completed takes a step, and the network and the disk
do their work.
-/
def Attends (remote : Nat → Byte) (before : Sys) (action : Action) (_ : Sys) : Prop :=
  before.shared.engine.state ≠ .completed
  ∧ match action with
    | .worker index label =>
        ∀ worker ∈ before.workers[index]?,
          worker.Attended remote before.shared.engine label
    | _ => False

instance (remote : Nat → Byte) (before : Sys) (action : Action) (after : Sys)
    : Decidable (Attends remote before action after) :=
  match action with
  | .worker .. | .call .. | .invoke .. => by unfold Attends; infer_instance

/-- Every step of the workers of an advancing download completes it or brings it closer to
its end.
-/
theorem Advancing.attended (served : ServedRuns remote (RemoteRun remote) start)
    (ranged : start.shared.engine.ranged = true)
    (reached : ReachableWhile (RemoteRun remote) start sys) (advancing : sys.Advancing)
    {action : Action} {after : Sys} (moved : sys.step action = some after)
    (attends : Attends remote sys action after)
    : RemoteRun remote sys action after
      ∧ after.shared.history.cancelAccepted = sys.shared.history.cancelAccepted
      ∧ (after.shared.engine.state = .completed
        ∨ after.Advancing ∧ after.effort < sys.effort) := by
  have counted := reached.counted served.built
  have generation := reached.generation served.built served.alone
  have delivered := served.delivers reached
  have small := (reached.layout served.layout).small
  have stillRanged := reached.sameJob.ranged.trans ranged
  have fits := reached.nChunks_lt served.built
  obtain ⟨_, attends⟩ := attends
  cases action with
  | worker index label =>
      simp only [step, advancing.running, Bool.false_eq_true, if_false] at moved
      split at moved
      · cases moved
      rename_i worker found
      split at moved <;> cases moved
      rename_i shared next moved
      have attended := attends worker found
      have free := advancing.free stillRanged (List.mem_of_getElem? found)
      have steady := advancing.steady worker (List.mem_of_getElem? found)
      have taken := Worker.step_cases moved
      refine ⟨⟨?_, ?_⟩, taken.cancelAccepted, ?_⟩
      · intro other same
        obtain rfl : worker = other := Option.some.inj (found.symm.trans same)
        exact attended.served
      · intro call present building
        rcases advancing.returned call present with rfl | rfl <;> cases building
      · refine (taken.onTrack attended moved steady free).imp_right fun track => ?_
        have keeps := @Advancing.keepsChunks remote _ advancing delivered generation small _ _
          _ found attended { sys with shared, workers := sys.workers.set index next }
        exact ⟨advancing.worker_step counted generation fits found free taken attended track
          keeps, advancing.effort_lt delivered generation small found free taken attended track⟩
  | call => exact attends.elim
  | invoke => exact attends.elim

/-- The workers of an advancing download do not wait for each other. -/
theorem Advancing.goes_on (served : ServedRuns remote (RemoteRun remote) start)
    (ranged : start.shared.engine.ranged = true)
    (reached : ReachableWhile (RemoteRun remote) start sys) (advancing : sys.Advancing)
    : ∃ action after, sys.step action = some after ∧ Attends remote sys action after := by
  have counted := reached.counted served.built
  have generation := reached.generation served.built served.alone
  have delivered := served.delivers reached
  have small := (reached.layout served.layout).small
  have stillRanged := reached.sameJob.ranged.trans ranged
  have inside := reached.itemsInside served.built
  have excess : sys.ExcessHolds (0 ≤ ·) :=
    reached.excessHolds served.built served.alone (Int.le_refl 0)
      (fun _ _ _ _ _ _ _ _ => by omega)
  obtain ⟨worker, member, open_, unlocked⟩ :=
    (reached.lockHeld served.built).exists_free advancing.returned
      (advancing.exists_open counted excess)
  have unlocked : worker.pc.locks = true → sys.shared.engine.diskLocked = false := by
    intro locks
    refine unlocked.resolve_right fun scans => ?_
    cases pc : worker.pc <;> simp [pc, WorkerPc.locks, WorkerPc.scanning] at locks scans
  obtain ⟨index, found⟩ := List.mem_iff_getElem?.mp member
  obtain ⟨label, attended, taken⟩ :=
    (advancing.steady worker member).exists_step (advancing.free stillRanged member)
      (counted.holding worker member) (inside.held worker member) open_ unlocked
      (advancing.sends delivered generation small stillRanged member)
  obtain ⟨⟨shared, next⟩, moved⟩ := Option.isSome_iff_exists.mp taken
  refine ⟨.worker index label, { sys with shared, workers := sys.workers.set index next },
    by simp [step, advancing.running, found, moved], ?_, ?_⟩
  · rcases advancing.live with state | state <;> simp [state]
  · intro other same
    obtain rfl : worker = other := Option.some.inj (found.symm.trans same)
    exact attended

/-- An advancing download can be completed, by induction on what is left of it. -/
theorem Advancing.completes (served : ServedRuns remote (RemoteRun remote) start)
    (ranged : start.shared.engine.ranged = true)
    (reached : ReachableWhile (RemoteRun remote) start sys) (advancing : sys.Advancing)
    : ∃ after,
        ReachableWhile (RemoteRun remote) sys after
        ∧ after.shared.engine.state = .completed
        ∧ after.shared.history.cancelAccepted = sys.shared.history.cancelAccepted := by
  let cancels (after : Sys) : Prop :=
    after.shared.history.cancelAccepted = sys.shared.history.cancelAccepted
  have goes_on : ∀ before,
      ReachableWhile (RemoteRun remote) start before
      → before.Advancing ∧ cancels before
      → ∃ action after,
          before.step action = some after
          ∧ RemoteRun remote before action after
          ∧ ((after.shared.engine.state = .completed ∧ cancels after)
            ∨ (after.Advancing ∧ cancels after) ∧ after.effort < before.effort) := by
    intro before earlier ⟨advancing, same⟩
    obtain ⟨action, after, moved, attends⟩ := Advancing.goes_on served ranged earlier advancing
    obtain ⟨met, kept, ends⟩ := advancing.attended served ranged earlier moved attends
    refine ⟨action, after, moved, met, ?_⟩
    rcases ends with completed | ⟨still, lower⟩
    · exact Or.inl ⟨completed, kept.trans same⟩
    · exact Or.inr ⟨⟨still, kept.trans same⟩, lower⟩
  exact reached.descends effort goes_on ⟨advancing, rfl⟩

/-- Whatever the order in which the workers of an advancing download take their steps, they
complete it after a bounded number of them.
-/
theorem Advancing.attends (served : ServedRuns remote (RemoteRun remote) start)
    (ranged : start.shared.engine.ranged = true)
    (reached : ReachableWhile (RemoteRun remote) start sys) (advancing : sys.Advancing)
    {actions : List Action} {after : Sys}
    (ran : Transition.runWhile step (Attends remote) sys actions = some after)
    : ReachableWhile (RemoteRun remote) start after
      ∧ after.shared.history.cancelAccepted = sys.shared.history.cancelAccepted
      ∧ (after.shared.engine.state = .completed ∨ after.Advancing)
      ∧ actions.length ≤ sys.effort + 1 := by
  let inv (after : Sys) : Prop :=
    ReachableWhile (RemoteRun remote) start after
    ∧ after.shared.history.cancelAccepted = sys.shared.history.cancelAccepted
    ∧ (after.shared.engine.state = .completed ∨ after.Advancing)
  let ahead (after : Sys) : Nat :=
    if after.shared.engine.state = .completed then 0 else after.effort + 1
  have lowers : ∀ before action next,
      inv before
      → before.step action = some next
      → Attends remote before action next
      → inv next ∧ ahead next < ahead before := by
    intro before action next ⟨earlier, same, ends⟩ moved attends
    have advancing := ends.resolve_left attends.1
    obtain ⟨met, kept, ends⟩ := advancing.attended served ranged earlier moved attends
    refine ⟨⟨earlier.next moved met, kept.trans same, ends.imp_right And.left⟩, ?_⟩
    simp only [ahead, if_neg attends.1]
    split
    · exact Nat.succ_pos _
    · rename_i uncompleted
      exact Nat.succ_lt_succ (ends.resolve_left uncompleted).2
  obtain ⟨⟨later, same, ends⟩, short⟩ :=
    Transition.length_le_of_runWhile inv ahead lowers ⟨reached, rfl, Or.inr advancing⟩ ran
  have bound : ahead sys ≤ sys.effort + 1 := by
    simp only [ahead]
    split <;> omega
  exact ⟨later, same, ends, by omega⟩

end Sys

end Muld
