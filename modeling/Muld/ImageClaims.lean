import Muld.DiskEvents
import Muld.Streaming
import Muld.ResumePlan

/-! What the images of a job claim. A worker counts bytes after it has written them and a
rebuild starts behind the counted bytes, so every counter that a store reads counts bytes
that are on disk, however the scan of the store is interleaved with the workers.
-/

namespace Muld

/-- The largest offset of a file; `pwrite` fails behind it. -/
def maxFileOffset : Nat := 2 ^ 63 - 1

/-- The offset was written before the run began or by a write of the log. -/
def CoveredOnDisk (base : Nat → Prop) (log : List DiskEvent) (position : Nat) : Prop :=
  base position
  ∨ ∃ offset count,
      .wrote offset count ∈ log ∧ offset ≤ position ∧ position < offset + count

variable {base : Nat → Prop} {log : List DiskEvent}

/-- What is on disk stays covered. -/
theorem CoveredOnDisk.mono {position : Nat} (covered : CoveredOnDisk base log position)
    (later : List DiskEvent)
    : CoveredOnDisk base (log ++ later) position := by
  rcases covered with before | ⟨offset, count, member, low, high⟩
  · exact Or.inl before
  · exact Or.inr ⟨offset, count, List.mem_append_left _ member, low, high⟩

/-- A successful write covers its range. -/
theorem covered_of_wrote {offset count position : Nat} (low : offset ≤ position)
    (high : position < offset + count)
    : CoveredOnDisk base (log ++ [.wrote offset count]) position :=
  Or.inr ⟨offset, count, by simp, low, high⟩

/-- Everything covered after an event was covered before or lies in the range it wrote. -/
theorem CoveredOnDisk.of_event {event : Option DiskEvent} {position : Nat}
    (covered : CoveredOnDisk base (log ++ event.toList) position)
    : CoveredOnDisk base log position
      ∨ ∃ offset count,
          event = some (.wrote offset count) ∧ offset ≤ position ∧ position < offset + count := by
  rcases covered with before | ⟨offset, count, member, low, high⟩
  · exact Or.inl (Or.inl before)
  · rcases List.mem_append.mp member with old | new
    · exact Or.inl (Or.inr ⟨offset, count, old, low, high⟩)
    · exact Or.inr ⟨offset, count, Option.mem_toList.mp new, low, high⟩

/-- A worker writes at its offset. -/
theorem Worker.diskEvent_wrote {index offset count : Nat} {shared : Shared} {worker : Worker}
    {label : WorkerLabel}
    (event : worker.diskEvent index shared label = some (.wrote offset count))
    : label = .wrote count ∧ offset = worker.currentOffset := by
  cases label <;> simp only [diskEvent] at event
  case wrote =>
    split at event
    · obtain ⟨rfl, rfl⟩ := DiskEvent.wrote.inj (Option.some.inj event)
      exact ⟨rfl, rfl⟩
    · contradiction
  case run => split at event <;> simp at event
  case stored => split at event <;> simp at event
  all_goals contradiction

/-- Calls write no bytes of the download. -/
theorem Call.diskEvent_not_wrote (index offset count : Nat) (shared : Shared) (call : Call)
    (label : CallLabel)
    : call.diskEvent index shared label ≠ some (.wrote offset count) := by
  intro event
  unfold diskEvent at event
  split at event
  case h_3 => split at event <;> simp at event
  all_goals simp at event

-----------------------------------------------------------------------------------------
-- A worker and the bytes behind it
-----------------------------------------------------------------------------------------

namespace Worker

/-- The worker stands behind the counted bytes of its chunk and the bytes it has written
since, and these are covered.
-/
structure Backed (covered : Nat → Prop) (chunk : ChunkInfo) (worker : Worker) : Prop where
  offset
    : worker.currentOffset = chunk.startRange + chunk.received + worker.uncounted
  written
    : ∀ position,
        chunk.startRange + chunk.received ≤ position
        → position < worker.currentOffset
        → covered position
  buffer : worker.pc.phase = .writing → worker.buffer.length ≤ worker.bytesRead

variable {covered later : Nat → Prop} {shared shared' : Shared} {chunk : ChunkInfo}
  {worker next : Worker} {label : WorkerLabel}

theorem Backed.mono (backed : worker.Backed covered chunk)
    (grows : ∀ position, covered position → later position)
    : worker.Backed later chunk where
  offset := backed.offset
  written := fun position low high => grows position (backed.written position low high)
  buffer := backed.buffer

/-- A step that neither writes nor counts leaves the worker where it is. -/
theorem Backed.quiet (backed : worker.Backed covered chunk)
    (currentOffset : next.currentOffset = worker.currentOffset)
    (uncounted : next.uncounted = worker.uncounted) (phase : next.pc.phase ≠ .writing)
    : next.Backed covered chunk where
  offset := by rw [currentOffset, uncounted, backed.offset]
  written := currentOffset ▸ backed.written
  buffer := fun writing => absurd writing phase

/-- A worker with a new item stands behind the counted bytes of the chunk. -/
theorem backed_of_take {item : WorkItem}
    (start : item.rangeStart = chunk.startRange + chunk.received)
    : Backed covered chunk
        { worker with
          pc := .pollInner, item := some item, currentOffset := item.rangeStart } where
  offset := start
  written := by
    intro position low high
    simp only [start] at high
    omega
  buffer := by simp [WorkerPc.phase]

/-- The bytes of a read wait in the buffer. -/
theorem Backed.readBytes (backed : worker.Backed covered chunk) {bytes : List Byte}
    {ending : ReadEnd} (at_pc : worker.pc = .read)
    : Backed covered chunk
        { worker with
          pc := .write
          bodyPosition := worker.bodyPosition + bytes.length
          buffer := bytes
          bytesRead := bytes.length
          readEnd := ending } where
  offset := by
    have offset := backed.offset
    simp only [uncounted, at_pc, WorkerPc.phase] at offset ⊢
    omega
  written := backed.written
  buffer := fun _ => Nat.le_refl _

/-- A write moves the worker by the bytes it covers. -/
theorem Backed.wrote (backed : worker.Backed covered chunk) {count : Nat} {pc : WorkerPc}
    (at_pc : worker.pc = .write) (fits : count ≤ worker.buffer.length)
    (next : pc = .write ∨ (pc = .notifyUpdate ∧ count = worker.buffer.length))
    (grows : ∀ position, covered position → later position)
    (covers
      : ∀ position,
          worker.currentOffset ≤ position
          → position < worker.currentOffset + count
          → later position)
    : Backed later chunk
        { worker with
          pc
          currentOffset := worker.currentOffset + count
          buffer := worker.buffer.drop count } := by
  have read := backed.buffer (by rw [at_pc]; rfl)
  have offset := backed.offset
  simp only [uncounted, at_pc, WorkerPc.phase] at offset
  constructor
  case offset =>
    rcases next with rfl | ⟨rfl, last⟩ <;>
      simp only [uncounted, WorkerPc.phase, List.length_drop] <;> omega
  case written =>
    intro position low high
    by_cases before : position < worker.currentOffset
    · exact grows position (backed.written position low before)
    · exact covers position (Nat.le_of_not_lt before) high
  case buffer =>
    intro _
    simp only [List.length_drop]
    omega

/-- Counting the written bytes brings the chunk up to the worker's offset. -/
theorem Backed.counted (backed : worker.Backed covered chunk)
    (at_pc : worker.pc = .notifyUpdate)
    (fits : chunk.received + worker.bytesRead < sizeModulus)
    : (chunk.updateReceived worker.bytesRead).startRange
          + (chunk.updateReceived worker.bytesRead).received
        = worker.currentOffset
      ∧ (worker.goto .notifyTotal).Backed covered (chunk.updateReceived worker.bytesRead) := by
  have offset := backed.offset
  simp only [uncounted, at_pc, WorkerPc.phase] at offset
  have caught
      : (chunk.updateReceived worker.bytesRead).startRange
            + (chunk.updateReceived worker.bytesRead).received
          = worker.currentOffset := by
    rw [ChunkInfo.updateReceived_startRange, ChunkInfo.updateReceived_received, wrap_of_lt fits]
    omega
  refine ⟨caught, ?_, ?_, by simp [WorkerPc.phase]⟩
  · rw [caught]
    rfl
  · intro position low high
    rw [caught] at low
    exact absurd high (Nat.not_lt.mpr low)

/-- A worker stays backed in every step that keeps its item and counts no bytes. -/
theorem Backed.step (backed : worker.Backed (CoveredOnDisk base log) chunk) {item : WorkItem}
    {index : Nat} (taken : Step shared worker label shared' next) (placed : worker.Placed)
    (held : worker.item = some item) (still : next.item = some item)
    (running : next.pc ≠ .failSet) (uncounted : worker.pc ≠ .notifyUpdate)
    : next.Backed (CoveredOnDisk base (log ++ (worker.diskEvent index shared label).toList))
        chunk := by
  have holds := placed (by simp [held])
  have grows : ∀ position, CoveredOnDisk base log position →
      CoveredOnDisk base (log ++ (worker.diskEvent index shared label).toList) position :=
    fun position covered => covered.mono _
  have later := backed.mono grows
  cases taken
  case writePart count at_pc _ part open_ =>
    have written := backed.wrote at_pc (Nat.le_of_lt part) (Or.inl rfl) grows ?_
    · rwa [← at_pc] at written
    · intro position low high
      rw [diskEvent, if_pos open_]
      exact covered_of_wrote low high
  case writeLast at_pc _ open_ =>
    have written := backed.wrote at_pc (Nat.le_refl _) (Or.inr ⟨rfl, rfl⟩) grows ?_
    · rwa [List.drop_length] at written
    · intro position low high
      rw [diskEvent, if_pos open_]
      exact covered_of_wrote low high
  case readBytes bytes ending at_pc _ _ => exact later.readBytes at_pc
  case nullWriter => exact later
  case throw => exact absurd rfl running
  case update at_pc _ => exact absurd at_pc uncounted
  case store site _ at_pc _ =>
    cases site
    case fail => simp [at_pc, WorkerPc.mayHold, StoreSite.mayHold] at holds
    all_goals
      exact later.quiet rfl (by simp [Worker.uncounted, at_pc, WorkerPc.phase, afterStore])
        (by simp [WorkerPc.phase, afterStore])
  case streamStop at_pc _ =>
    rcases at_pc with at_pc | at_pc <;>
      exact later.quiet rfl (by simp [Worker.uncounted, at_pc, WorkerPc.phase])
        (by simp [WorkerPc.phase])
  case allow at_pc _ _ =>
    rcases at_pc with at_pc | at_pc <;>
      exact later.quiet rfl (by simp [Worker.uncounted, at_pc, WorkerPc.phase])
        (by simp [WorkerPc.phase])
  case scan at_pc _ =>
    exact later.quiet rfl (by simp [Worker.uncounted, at_pc, WorkerPc.phase])
      (by simp [at_pc, WorkerPc.phase])
  all_goals
    first
      | (cases still; done)
      | exact later.quiet rfl (by simp [Worker.uncounted, ‹worker.pc = _›, WorkerPc.phase])
          (by simp [WorkerPc.phase])
      | simp [‹worker.pc = _›, WorkerPc.mayHold] at holds

end Worker

-----------------------------------------------------------------------------------------
-- Counters of a run
-----------------------------------------------------------------------------------------

namespace Sys

/-- A successful write ends inside the largest file. -/
def WritesFit (before : Sys) (action : Action) : Prop :=
  match action with
  | .worker index (.wrote count) =>
      ∀ worker ∈ before.workers[index]?, worker.currentOffset + count ≤ maxFileOffset
  | _ => True

instance (before : Sys) (action : Action) : Decidable (WritesFit before action) := by
  unfold WritesFit
  split <;> infer_instance

/-- Rebuilds run alone and writes end inside the largest file. -/
def StoreRun (before : Sys) (action : Action) (after : Sys) : Prop :=
  after.BuildAlone ∧ WritesFit before action

instance (before : Sys) (action : Action) (after : Sys)
    : Decidable (StoreRun before action after) := by
  unfold StoreRun
  infer_instance

/-- What the counters of the job claim was written before the run. -/
def Claims (base : Nat → Prop) (sys : Sys) : Prop :=
  ∀ chunk ∈ sys.shared.engine.chunksInfo,
    ∀ position,
      chunk.startRange ≤ position
      → position < chunk.startRange + chunk.received
      → base position

variable {start sys : Sys}

theorem ReachableWhile.storeRun_alone (constructed : start.Constructed)
    (reached : ReachableWhile StoreRun start sys)
    : sys.BuildAlone := by
  refine reached.holds_after ?_ fun _ _ _ met => met.1
  simp [BuildAlone, constructed.built.calls]

/-- What the counters and the workers of a job have behind them. -/
structure OnDisk (base : Nat → Prop) (sys : Sys) (log : List DiskEvent) : Prop where
  fits : ∀ position, CoveredOnDisk base log position → position < maxFileOffset
  received
    : ∀ chunk ∈ sys.shared.engine.chunksInfo,
        ∀ position,
          chunk.startRange ≤ position
          → position < chunk.startRange + chunk.received
          → CoveredOnDisk base log position
  course
    : ∀ worker ∈ sys.workers,
        ∀ item chunk,
          worker.item = some item
          → worker.pc ≠ .failSet
          → sys.shared.engine.chunksInfo[item.chunkId]? = some chunk
          → worker.Backed (CoveredOnDisk base log) chunk

/-- A range of covered bytes that is not empty ends inside the largest file. -/
theorem end_le_of_covered {covered : Nat → Prop} {low high : Nat}
    (fits : ∀ position, covered position → position < maxFileOffset) (nonempty : low < high)
    (all : ∀ position, low ≤ position → position < high → covered position)
    : high ≤ maxFileOffset := by
  have last := fits (high - 1) (all _ (by omega) (by omega))
  omega

/-- The first missing byte of a chunk has an offset that does not wrap. -/
theorem OnDisk.start_lt (onDisk : sys.OnDisk base log)
    (representable : sys.shared.engine.Representable) {chunk : ChunkInfo}
    (member : chunk ∈ sys.shared.engine.chunksInfo)
    : chunk.startRange + chunk.received < sizeModulus := by
  obtain ⟨startRange, _, _⟩ := representable.chunks chunk member
  by_cases none_received : chunk.received = 0
  · omega
  · have bounded : chunk.startRange + chunk.received ≤ maxFileOffset :=
      end_le_of_covered onDisk.fits (by omega) (onDisk.received chunk member)
    exact Nat.lt_of_le_of_lt bounded (by decide)

/-- The counter of a chunk does not wrap when a worker counts its bytes. -/
theorem OnDisk.counts_lt (onDisk : sys.OnDisk base log)
    (representable : sys.shared.engine.Representable) {chunk : ChunkInfo}
    (member : chunk ∈ sys.shared.engine.chunksInfo) {worker : Worker}
    (backed : worker.Backed (CoveredOnDisk base log) chunk) (at_pc : worker.pc = .notifyUpdate)
    : chunk.received + worker.bytesRead < sizeModulus := by
  have start := onDisk.start_lt representable member
  have offset := backed.offset
  simp only [Worker.uncounted, at_pc, WorkerPc.phase] at offset
  by_cases none_read : worker.bytesRead = 0
  · omega
  · have bounded : worker.currentOffset ≤ maxFileOffset :=
      end_le_of_covered onDisk.fits (by omega) backed.written
    have small : maxFileOffset < sizeModulus := by decide
    omega

/-- The worker that steps stays backed, or gets a new item and is. -/
theorem OnDisk.course_own (onDisk : sys.OnDisk base log) (counted : sys.Counted)
    (generation : sys.Generation) (representable : sys.shared.engine.Representable)
    {index : Nat} {worker next : Worker} {label : WorkerLabel} {shared : Shared}
    (found : sys.workers[index]? = some worker)
    (taken : worker.Step sys.shared label shared next) {item : WorkItem}
    (held : next.item = some item) (running : next.pc ≠ .failSet) {chunk : ChunkInfo}
    (present : shared.engine.chunksInfo[item.chunkId]? = some chunk)
    : next.Backed
        (CoveredOnDisk base (log ++ (worker.diskEvent index sys.shared label).toList)) chunk := by
  have member := List.mem_of_getElem? found
  rcases taken.item with kept | dropped | ⟨took, _, available, rfl, rfl⟩
  · have heldBefore := kept ▸ held
    have runningBefore := taken.not_failed held
    by_cases at_pc : worker.pc = .notifyUpdate
    · obtain ⟨own, ownHeld, rfl, rfl⟩ := taken.counts at_pc
      obtain rfl : own = item := Option.some.inj (ownHeld.symm.trans heldBefore)
      obtain ⟨before, named, rfl⟩ := Option.map_eq_some_iff.mp
        ((DownloadEngine.updateReceived_getElem?_self ..).symm.trans present)
      have backed := onDisk.course worker member own before heldBefore runningBefore named
      have fits := onDisk.counts_lt representable (List.mem_of_getElem? named) backed at_pc
      exact (backed.counted at_pc fits).2.mono fun position covered => covered.mono _
    · have before : sys.shared.engine.chunksInfo[item.chunkId]? = some chunk :=
        taken.chunksInfo_eq at_pc ▸ present
      have backed := onDisk.course worker member item chunk heldBefore runningBefore before
      exact backed.step taken (counted.placed worker member) heldBefore held running at_pc
  · rw [dropped] at held
    contradiction
  · obtain rfl : took = item := Option.some.inj held
    obtain ⟨fresh, named, _, missing⟩ := generation.fresh _ took (Nat.le_refl _) available
    obtain rfl : fresh = chunk := Option.some.inj (named.symm.trans present)
    have start := onDisk.start_lt representable (List.mem_of_getElem? named)
    refine Worker.backed_of_take ?_
    rw [missing]
    exact wrap_of_lt start

/-- The other workers stay backed: they hold other chunks. -/
theorem OnDisk.course_other (onDisk : sys.OnDisk base log) (generation : sys.Generation)
    {index position : Nat} {worker next other : Worker} {label : WorkerLabel}
    {shared : Shared} (found : sys.workers[index]? = some worker)
    (taken : worker.Step sys.shared label shared next) (different : position ≠ index)
    (atOther : sys.workers[position]? = some other) {item : WorkItem}
    (held : other.item = some item) (running : other.pc ≠ .failSet) {chunk : ChunkInfo}
    (present : shared.engine.chunksInfo[item.chunkId]? = some chunk) (later : List DiskEvent)
    : other.Backed (CoveredOnDisk base (log ++ later)) chunk := by
  have before := generation.chunk_of_other found taken different atOther held present
  have backed :=
    onDisk.course other (List.mem_of_getElem? atOther) item chunk held running before
  exact backed.mono fun position covered => covered.mono later

theorem OnDisk.worker_step (onDisk : sys.OnDisk base log) (counted : sys.Counted)
    (generation : sys.Generation) (representable : sys.shared.engine.Representable)
    {index : Nat} {worker next : Worker} {label : WorkerLabel} {shared : Shared}
    (found : sys.workers[index]? = some worker)
    (taken : worker.Step sys.shared label shared next)
    (writes : WritesFit sys (.worker index label))
    : OnDisk base { sys with shared, workers := sys.workers.set index next }
        (log ++ (worker.diskEvent index sys.shared label).toList) := by
  have member := List.mem_of_getElem? found
  constructor
  case fits =>
    intro position covered
    rcases covered.of_event with before | ⟨offset, count, wrote, _, high⟩
    · exact onDisk.fits position before
    · obtain ⟨rfl, rfl⟩ := Worker.diskEvent_wrote wrote
      have bounded := writes worker found
      have positive : 0 < maxFileOffset := by decide
      omega
  case received =>
    intro chunk inside position low high
    rcases taken.chunksInfo with same | ⟨item, at_pc, rfl, held, moved⟩
    · exact (onDisk.received chunk (same ▸ inside) position low high).mono _
    · rw [moved] at inside
      rcases DownloadEngine.mem_updateReceived inside with old | ⟨before, named, rfl⟩
      · exact (onDisk.received chunk old position low high).mono _
      · have present := List.mem_of_getElem? named
        have backed := onDisk.course worker member item before held (by simp [at_pc]) named
        have fits := onDisk.counts_lt representable present backed at_pc
        have caught := (backed.counted at_pc fits).1
        rw [caught] at high
        by_cases old : position < before.startRange + before.received
        · exact (onDisk.received before present position low old).mono _
        · exact (backed.written position (Nat.le_of_not_lt old) high).mono _
  case course =>
    intro other inside item chunk held running present
    obtain ⟨position, at_position⟩ := List.mem_iff_getElem?.mp inside
    rcases Threads.getElem?_set_cases at_position with ⟨rfl, rfl⟩ | ⟨different, atOther⟩
    · exact onDisk.course_own counted generation representable found taken held running present
    · exact onDisk.course_other generation found taken different atOther held running present _

theorem OnDisk.call_step (onDisk : sys.OnDisk base log) {index : Nat} {call next : Call}
    {label : CallLabel} {shared : Shared} {spawned : List Worker}
    (taken : Call.Step index sys.shared call label shared next spawned)
    : OnDisk base { sys with
        shared
        workers := sys.workers ++ spawned
        calls := sys.calls.set index next }
        (log ++ (call.diskEvent index sys.shared label).toList) := by
  constructor
  case fits =>
    intro position covered
    rcases covered.of_event with before | ⟨offset, count, wrote, _⟩
    · exact onDisk.fits position before
    · exact absurd wrote (Call.diskEvent_not_wrote index offset count sys.shared call label)
  case received =>
    simp only [taken.chunksInfo]
    intro chunk inside position low high
    exact (onDisk.received chunk inside position low high).mono _
  case course =>
    simp only [taken.chunksInfo]
    intro worker member item chunk held running present
    rcases taken.mem_workers member with old | rfl
    · exact (onDisk.course worker old item chunk held running present).mono
        fun position covered => covered.mono _
    · contradiction

/-- In every run, counters count bytes that are on disk. -/
theorem LoggedWhile.onDisk (constructed : start.Constructed)
    (small : ∀ position, base position → position < maxFileOffset) (claims : start.Claims base)
    (logged : LoggedWhile StoreRun start sys log)
    : sys.OnDisk base log := by
  have initial : start.OnDisk base [] := by
    constructor
    case fits =>
      intro position covered
      rcases covered with before | ⟨_, _, member, _⟩
      · exact small position before
      · contradiction
    case received =>
      exact fun chunk member position low high => Or.inl (claims chunk member position low high)
    case course => simp [constructed.built.workers]
  refine logged_invariant logged initial ?_ ?_ ?_
  · intro sys log index worker next label shared earlier onDisk found taken _ met
    have reached := earlier.reachable
    exact onDisk.worker_step (ReachableWhile.counted constructed.built reached)
      (ReachableWhile.generation constructed.built
        (fun _ before => ReachableWhile.storeRun_alone constructed before) reached)
      (ReachableWhile.representable constructed.representable reached) found taken met.2
  · intro sys log index call next label shared spawned _ onDisk _ taken _
    exact onDisk.call_step taken
  · intro sys log api dispatched _ onDisk
    exact ⟨onDisk.fits, onDisk.received, onDisk.course⟩

-----------------------------------------------------------------------------------------
-- What the stores have read
-----------------------------------------------------------------------------------------

/-- Stores read covered counters and write what they have read since they had the mutex. -/
structure Truthful (base : Nat → Prop) (sys : Sys) (log : List DiskEvent) : Prop where
  workers
    : ∀ index worker scan,
        sys.workers[index]? = some worker
        → worker.scan? = some scan
        → scan = scanned (.worker index) log
  calls
    : ∀ index call scan,
        sys.calls[index]? = some call
        → call.scan? = some scan
        → scan = scanned (.call index) log
  reads
    : ∀ front thread entry back,
        log = front ++ .read thread entry :: back
        → ∀ position,
            entry.startRange ≤ position
            → position < entry.startRange + entry.downloaded
            → CoveredOnDisk base front position
  images
    : ∀ front thread image back,
        log = front ++ .stored thread image :: back → image = scanned thread front

/-- The events of a step keep to what the threads have read. -/
theorem Truthful.events (truthful : sys.Truthful base log) (onDisk : sys.OnDisk base log)
    {thread : Thread} {before after : Option (List ChunkState)} {event : Option DiskEvent}
    (logs : Logs thread sys.shared before after event)
    (known : ∀ scan, before = some scan → scan = scanned thread log)
    : (∀ front thread entry back,
        log ++ event.toList = front ++ .read thread entry :: back
        → ∀ position,
            entry.startRange ≤ position
            → position < entry.startRange + entry.downloaded
            → CoveredOnDisk base front position)
      ∧ ∀ front thread image back,
          log ++ event.toList = front ++ .stored thread image :: back
          → image = scanned thread front := by
  constructor
  · intro front reader entry back same
    rcases event_split same with ⟨rfl, new⟩ | ⟨middle, old⟩
    · obtain ⟨chunk, present, rfl⟩ := logs.of_read new
      exact onDisk.received chunk present
    · exact truthful.reads front reader entry middle old
  · intro front writer image back same
    rcases event_split same with ⟨rfl, new⟩ | ⟨middle, old⟩
    · obtain ⟨rfl, scan⟩ := logs.of_stored new
      exact known image scan
    · exact truthful.images front writer image middle old

theorem Truthful.worker_step (truthful : sys.Truthful base log)
    (onDisk : sys.OnDisk base log) {index : Nat} {worker next : Worker} {label : WorkerLabel}
    {shared : Shared} (found : sys.workers[index]? = some worker)
    (logs
      : Logs (.worker index) sys.shared worker.scan? next.scan?
          (worker.diskEvent index sys.shared label))
    : Truthful base { sys with shared, workers := sys.workers.set index next }
        (log ++ (worker.diskEvent index sys.shared label).toList) := by
  have known := fun scan => truthful.workers index worker scan found
  obtain ⟨reads, images⟩ := truthful.events onDisk logs known
  refine { workers := ?_, calls := ?_, reads, images }
  · intro position other scan at_position has
    rcases Threads.getElem?_set_cases at_position with ⟨rfl, rfl⟩ | ⟨different, atOther⟩
    · exact logs.scanned known scan has
    · rw [logs.other (by simpa using Ne.symm different)]
      exact truthful.workers position other scan atOther has
  · intro position call scan atCall has
    rw [logs.other (by simp)]
    exact truthful.calls position call scan atCall has

theorem Truthful.call_step (truthful : sys.Truthful base log) (onDisk : sys.OnDisk base log)
    {index : Nat} {call next : Call} {label : CallLabel} {shared : Shared}
    {spawned : List Worker} (found : sys.calls[index]? = some call)
    (taken : Call.Step index sys.shared call label shared next spawned)
    : Truthful base { sys with
        shared
        workers := sys.workers ++ spawned
        calls := sys.calls.set index next }
        (log ++ (call.diskEvent index sys.shared label).toList) := by
  have logs := taken.logs
  have known := fun scan => truthful.calls index call scan found
  obtain ⟨reads, images⟩ := truthful.events onDisk logs known
  refine { workers := ?_, calls := ?_, reads, images }
  · intro position worker scan at_position has
    rw [logs.other (by simp)]
    rcases taken.spawned_cases with rfl | rfl
    · rw [List.append_nil] at at_position
      exact truthful.workers position worker scan at_position has
    · rcases Threads.getElem?_snoc_cases at_position with old | ⟨_, rfl⟩
      · exact truthful.workers position worker scan old has
      · contradiction
  · intro position other scan at_position has
    rcases Threads.getElem?_set_cases at_position with ⟨rfl, rfl⟩ | ⟨different, atOther⟩
    · exact logs.scanned known scan has
    · rw [logs.other (by simpa using Ne.symm different)]
      exact truthful.calls position other scan atOther has

/-- In every run, stores are truthful. -/
theorem LoggedWhile.truthful (constructed : start.Constructed)
    (small : ∀ position, base position → position < maxFileOffset) (claims : start.Claims base)
    (logged : LoggedWhile StoreRun start sys log)
    : sys.Truthful base log := by
  have initial : start.Truthful base [] := by
    constructor
    · simp [constructed.built.workers]
    · simp [constructed.built.calls]
    · simp
    · simp
  refine logged_invariant logged initial ?_ ?_ ?_
  · intro sys log index worker next label shared earlier truthful found _ logs _
    exact truthful.worker_step (earlier.onDisk constructed small claims) found logs
  · intro sys log index call next label shared spawned earlier truthful found taken _
    exact truthful.call_step (LoggedWhile.onDisk constructed small claims earlier) found taken
  · intro sys log api dispatched _ truthful
    refine { truthful with calls := ?_ }
    intro position call scan at_position has
    rcases Threads.getElem?_snoc_cases at_position with old | ⟨_, rfl⟩
    · exact truthful.calls position call scan old has
    · cases api <;> cases has

/-- Every entry of every image that a store writes was read by that store, at its position
after the store had the mutex, and claims only bytes that were on disk before it was read.
-/
theorem image_claims (constructed : start.Constructed) {base : Nat → Prop}
    (small : ∀ position, base position → position < maxFileOffset) (claims : start.Claims base)
    {sys : Sys} {log front back : List DiskEvent}
    (logged : LoggedWhile StoreRun start sys log) {thread : Thread} {image : List ChunkState}
    (split : log = front ++ .stored thread image :: back) {position : Nat} {entry : ChunkState}
    (found : image[position]? = some entry)
    : ∃ early middle,
        front = early ++ .read thread entry :: middle
        ∧ .locked thread ∉ middle
        ∧ (scanned thread early).length = position
        ∧ ∀ offset,
            entry.startRange ≤ offset
            → offset < entry.startRange + entry.downloaded
            → CoveredOnDisk base early offset := by
  have truthful := LoggedWhile.truthful constructed small claims logged
  have scan := truthful.images front thread image back split
  rw [scan] at found
  obtain ⟨early, middle, rfl, unlocked, length⟩ := exists_read_of_scanned found
  refine ⟨early, middle, rfl, unlocked, length, ?_⟩
  refine truthful.reads early thread entry (middle ++ .stored thread image :: back) ?_
  rw [split]
  simp

/-- The log of a store that reads its first entry between two writes to the first chunk. -/
def interleavedLog : List DiskEvent :=
  [.wrote 0 4, .locked (.call 1),
    .read (.call 1) { startRange := 0, endRange := 9, downloaded := 4 }, .wrote 4 6,
    .read (.call 1) { startRange := 10, endRange := 19, downloaded := 0 }]

open Muld.Action in
/-- The entry of the first chunk claims what was written before it was read. -/
theorem image_claims_interleaved
    : ∃ early middle,
        interleavedLog
          = early
            ++ .read (.call 1) { startRange := 0, endRange := 9, downloaded := 4 } :: middle
        ∧ .locked (.call 1) ∉ middle
        ∧ (scanned (.call 1) early).length = 0
        ∧ ∀ offset, 0 ≤ offset → offset < 0 + 4 → CoveredOnDisk (fun _ => False) early offset := by
  have run
      : (Transition.logWhile step StoreRun diskEvent twoChunks []
            (.invoke .start :: callRuns 0 14 ++ workerRuns 0 6
              ++ .invoke .store :: fetch 0 206 (List.replicate 4 7) ++ callRuns 1 2
              ++ workerRuns 0 1 ++ .worker 0 (.isDone false) :: workerRuns 0 2
              ++ [.worker 0 (.read (List.replicate 6 7) .none), .worker 0 (.wrote 6)]
              ++ callRuns 1 2 ++ [.call 1 (.stored .written)])).map Prod.snd
          = some (interleavedLog
              ++ [.stored (.call 1)
                [{ startRange := 0, endRange := 9, downloaded := 4 },
                  { startRange := 10, endRange := 19, downloaded := 0 }]]) := by
    decide +kernel
  obtain ⟨sys, logged⟩ := Transition.exists_of_logWhile run
  refine image_claims twoChunks_constructed (fun _ before => before.elim) ?_ logged
    rfl rfl
  intro chunk member position low high
  have none_received : chunk.received = 0 := by
    obtain ⟨index, _, rfl⟩ := List.mem_map.mp member
    rfl
  omega

end Sys

end Muld
