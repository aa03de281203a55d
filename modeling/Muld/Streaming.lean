import Muld.Generations

/-! The offsets of a worker while it streams a response body to disk. The worker's offset,
the received counter of its chunk, the position in the body and the file stay in step,
whatever the reads, the short writes, the interruptions and the rebuilds are.
-/

namespace Muld

open Content

/-- What a worker that holds an item is doing. -/
inductive Phase
  /-- Before the response header. -/
  | attempt
  | body
  | writing
  /-- Written and not counted yet. -/
  | counting
deriving DecidableEq, Repr

def WorkerPc.phase : WorkerPc → Phase
  | .pollInner | .checkState | .request => .attempt
  | .write => .writing
  | .notifyUpdate => .counting
  | _ => .body

namespace Worker

/-- The bytes a worker has written and not counted yet. -/
def uncounted (worker : Worker) : Nat :=
  match worker.pc.phase with
  | .writing => worker.bytesRead - worker.buffer.length
  | .counting => worker.bytesRead
  | _ => 0

/-- The bytes a worker has read and not written yet. -/
def unwritten (worker : Worker) : Nat :=
  match worker.pc.phase with
  | .writing => worker.buffer.length
  | _ => 0

/-- A worker with an item of `chunk` streams the content `remote`. -/
structure OnCourse (remote : Nat → Byte) (shared : Shared) (chunk : ChunkInfo)
    (worker : Worker)
    : Prop where
  proper : chunk.Proper shared.engine.fileSize
  offset
    : worker.currentOffset = chunk.startRange + chunk.received + worker.uncounted
  bounded : worker.currentOffset + worker.unwritten ≤ chunk.endRange + 1
  attempt
    : worker.pc.phase = .attempt
      → shared.engine.ranged = false
      → worker.currentOffset = 0
  body
    : worker.pc.phase ≠ .attempt
      → worker.bodyStart + worker.bodyPosition = worker.currentOffset + worker.unwritten
  bodyStart
    : worker.pc.phase ≠ .attempt → shared.engine.ranged = false → worker.bodyStart = 0
  buffer
    : worker.pc.phase = .writing
      → worker.buffer = slice remote worker.currentOffset worker.buffer.length
        ∧ worker.buffer.length ≤ worker.bytesRead
  some_read
    : worker.pc.phase = .writing ∨ worker.pc.phase = .counting → 0 < worker.bytesRead
  disk
    : ∀ file,
        shared.output = some file
        → Agrees file remote (chunk.startRange + chunk.received) worker.currentOffset

/-- The response body a worker reads is the content from the body's first byte on, and
ends with the requested range.
-/
def Served (remote : Nat → Byte) (engine : DownloadEngine) (worker : Worker)
    : WorkerLabel → Prop
  | .read bytes _ =>
      bytes = slice remote (worker.bodyStart + worker.bodyPosition) bytes.length
      ∧ ∀ item ∈ worker.item,
          worker.bodyStart + worker.bodyPosition + bytes.length
            ≤ if engine.ranged then item.rangeEnd + 1 else engine.fileSize
  | _ => True

instance (remote : Nat → Byte) (engine : DownloadEngine) (worker : Worker)
    (label : WorkerLabel)
    : Decidable (worker.Served remote engine label) := by
  unfold Served
  split <;> infer_instance

variable {remote : Nat → Byte} {shared shared' : Shared} {chunk : ChunkInfo}
  {worker next : Worker} {label : WorkerLabel}

/-- What a course says depends on the offsets of the worker and on the disk only. -/
theorem OnCourse.quiet (course : worker.OnCourse remote shared chunk)
    (phase : next.pc.phase = worker.pc.phase)
    (currentOffset : next.currentOffset = worker.currentOffset)
    (bodyStart : next.bodyStart = worker.bodyStart)
    (bodyPosition : next.bodyPosition = worker.bodyPosition)
    (buffer : next.buffer = worker.buffer) (bytesRead : next.bytesRead = worker.bytesRead)
    (fileSize : shared'.engine.fileSize = shared.engine.fileSize)
    (ranged : shared'.engine.ranged = shared.engine.ranged)
    (output : shared'.output = shared.output)
    : next.OnCourse remote shared' chunk := by
  have uncounted : next.uncounted = worker.uncounted := by
    simp [Worker.uncounted, phase, buffer, bytesRead]
  have unwritten : next.unwritten = worker.unwritten := by
    simp [Worker.unwritten, phase, buffer]
  constructor
  all_goals
    simp only [phase, currentOffset, bodyStart, bodyPosition, buffer, bytesRead, fileSize,
      ranged, output, uncounted, unwritten]
  case proper => exact course.proper
  case offset => exact course.offset
  case bounded => exact course.bounded
  case attempt => exact course.attempt
  case body => exact course.body
  case bodyStart => exact course.bodyStart
  case buffer => exact course.buffer
  case some_read => exact course.some_read
  case disk => exact course.disk

/-- A worker stays on course while nothing is written over the content. -/
theorem OnCourse.frame (course : worker.OnCourse remote shared chunk)
    (fileSize : shared'.engine.fileSize = shared.engine.fileSize)
    (ranged : shared'.engine.ranged = shared.engine.ranged)
    (preserves
      : ∀ written,
          shared'.output = some written
          → ∃ file,
              shared.output = some file
              ∧ ∀ low high, Agrees file remote low high → Agrees written remote low high)
    : worker.OnCourse remote shared' chunk where
  proper := fileSize ▸ course.proper
  offset := course.offset
  bounded := course.bounded
  attempt := ranged ▸ course.attempt
  body := course.body
  bodyStart := ranged ▸ course.bodyStart
  buffer := course.buffer
  some_read := course.some_read
  disk := by
    intro written found
    obtain ⟨file, present, keeps⟩ := preserves written found
    exact keeps _ _ (course.disk file present)

/-- A chunk has not received more than its size while its worker is on course. -/
theorem OnCourse.received_le (course : worker.OnCourse remote shared chunk)
    (small : shared.engine.fileSize < sizeModulus)
    : chunk.received ≤ chunk.getTotalSize := by
  have offset := course.offset
  have bounded := course.bounded
  rw [course.proper.getTotalSize_eq small]
  omega

/-- Bytes are counted for a chunk that still misses them. -/
theorem OnCourse.unfinished (course : worker.OnCourse remote shared chunk)
    (at_pc : worker.pc = .notifyUpdate) (small : shared.engine.fileSize < sizeModulus)
    : chunk.isFinished = false := by
  have offset := course.offset
  have bounded := course.bounded
  have some_read := course.some_read (Or.inr (by rw [at_pc]; rfl))
  have total := course.proper.getTotalSize_eq small
  simp only [uncounted, unwritten, at_pc, WorkerPc.phase] at offset bounded
  refine eq_false_of_ne_true fun finished => ?_
  rw [ChunkInfo.isFinished_iff] at finished
  omega

/-- A worker that takes an item starts at the first byte its chunk misses. -/
theorem onCourse_of_take {position chunkId : Nat}
    (proper : chunk.Proper shared.engine.fileSize)
    (small : shared.engine.fileSize < sizeModulus)
    (received : chunk.received ≤ chunk.getTotalSize) (item : WorkItem)
    (fresh : item = chunk.missing position chunkId)
    (origin : shared.engine.ranged = false → item.rangeStart = 0)
    : OnCourse remote shared chunk
        { worker with
          pc := .pollInner, item := some item, currentOffset := item.rangeStart } := by
  have total := proper.getTotalSize_eq small
  have inFile := proper.inFile
  have ordered := proper.ordered
  have rangeStart : item.rangeStart = chunk.startRange + chunk.received := by
    rw [fresh]
    exact wrap_of_lt (by simp only [ChunkInfo.getReceivedSize]; omega)
  constructor <;> try simp only [uncounted, unwritten, WorkerPc.phase]
  case proper => exact proper
  case offset => omega
  case bounded => omega
  case attempt => exact fun _ => origin
  case body => simp
  case bodyStart => simp
  case buffer => simp
  case some_read => simp
  case disk =>
    intro file _
    rw [rangeStart]
    exact Agrees.empty _ _ _

/-- A response header starts a body at the worker's offset. -/
theorem OnCourse.header (course : worker.OnCourse remote shared chunk)
    (at_pc : worker.pc = .request)
    : OnCourse remote shared chunk
        { worker with
          pc := .streamHead
          bodyStart := if shared.engine.ranged then worker.currentOffset else 0
          bodyPosition := 0 } := by
  have offset := course.offset
  have bounded := course.bounded
  have attempt := course.attempt (by rw [at_pc]; rfl)
  simp only [uncounted, unwritten, at_pc, WorkerPc.phase] at offset bounded
  constructor <;> try simp only [uncounted, unwritten, WorkerPc.phase]
  case proper => exact course.proper
  case offset => exact offset
  case bounded => exact bounded
  case attempt => simp
  case body =>
    intro _
    cases ranged : shared.engine.ranged with
    | true => simp
    | false => simp [attempt ranged]
  case bodyStart =>
    intro _ notRanged
    simp [notRanged]
  case buffer => simp
  case some_read => simp
  case disk => exact course.disk

/-- A read without bytes leaves the offsets alone. -/
theorem OnCourse.readNothing (course : worker.OnCourse remote shared chunk)
    {ending : ReadEnd} (at_pc : worker.pc = .read)
    : OnCourse remote shared chunk
        { worker with pc := .readEnd, buffer := [], bytesRead := 0, readEnd := ending } := by
  have offset := course.offset
  have bounded := course.bounded
  have body := course.body (by simp [at_pc, WorkerPc.phase])
  simp only [uncounted, unwritten, at_pc, WorkerPc.phase] at offset bounded body
  constructor <;> try simp only [uncounted, unwritten, WorkerPc.phase]
  case proper => exact course.proper
  case offset => exact offset
  case bounded => exact bounded
  case attempt => simp
  case body => exact fun _ => body
  case bodyStart => exact fun _ => course.bodyStart (by simp [at_pc, WorkerPc.phase])
  case buffer => simp
  case some_read => simp
  case disk => exact course.disk

/-- The bytes of a read are the content at the worker's offset. -/
theorem OnCourse.readBytes (course : worker.OnCourse remote shared chunk) {item : WorkItem}
    {bytes : List Byte} {ending : ReadEnd} (at_pc : worker.pc = .read) (nonempty : bytes ≠ [])
    (held : worker.item = some item) (ends : item.rangeEnd = chunk.endRange)
    (whole : shared.engine.ranged = false → chunk.endRange + 1 = shared.engine.fileSize)
    (served : worker.Served remote shared.engine (.read bytes ending))
    : OnCourse remote shared chunk
        { worker with
          pc := .write
          bodyPosition := worker.bodyPosition + bytes.length
          buffer := bytes
          bytesRead := bytes.length
          readEnd := ending } := by
  have offset := course.offset
  have body := course.body (by simp [at_pc, WorkerPc.phase])
  simp only [uncounted, unwritten, at_pc, WorkerPc.phase, Nat.add_zero] at offset body
  obtain ⟨content, fits⟩ := served
  rw [body] at content fits
  have inside := fits item held
  constructor <;> try simp only [uncounted, unwritten, WorkerPc.phase]
  case proper => exact course.proper
  case offset => omega
  case bounded =>
    cases ranged : shared.engine.ranged with
    | true => simpa [ranged, ends] using inside
    | false => simpa [ranged, whole ranged] using inside
  case attempt => simp
  case body => omega
  case bodyStart => exact fun _ => course.bodyStart (by simp [at_pc, WorkerPc.phase])
  case buffer => exact fun _ => ⟨content, Nat.le_refl _⟩
  case some_read => exact fun _ => List.length_pos_iff.mpr nonempty
  case disk => exact course.disk

/-- A short write moves the offset by the bytes it stores. -/
theorem OnCourse.wrote (course : worker.OnCourse remote shared chunk) {count : Nat}
    {pc : WorkerPc} (at_pc : worker.pc = .write) (fits : count ≤ worker.buffer.length)
    (next : pc = .write ∨ (pc = .notifyUpdate ∧ count = worker.buffer.length))
    : OnCourse remote (shared.writeOutput worker.currentOffset (worker.buffer.take count)) chunk
        { worker with
          pc
          currentOffset := worker.currentOffset + count
          buffer := worker.buffer.drop count } := by
  obtain ⟨content, read⟩ := course.buffer (by rw [at_pc]; rfl)
  have body := course.body (by simp [at_pc, WorkerPc.phase])
  have bounded := course.bounded
  have offset := course.offset
  have stored : worker.buffer.take count = slice remote worker.currentOffset count := by
    rw [content, slice_take, Nat.min_eq_left fits]
  have rest : worker.buffer.drop count
      = slice remote (worker.currentOffset + count) (worker.buffer.length - count) := by
    conv => lhs; rw [content]
    rw [slice_drop]
  simp only [uncounted, unwritten, at_pc, WorkerPc.phase] at offset bounded body
  constructor
  case proper => exact course.proper
  case offset =>
    rcases next with rfl | ⟨rfl, last⟩ <;>
      simp only [uncounted, WorkerPc.phase, List.length_drop] <;> omega
  case bounded =>
    rcases next with rfl | ⟨rfl, last⟩ <;>
      simp only [unwritten, WorkerPc.phase, List.length_drop] <;> omega
  case attempt => rcases next with rfl | ⟨rfl, _⟩ <;> simp [WorkerPc.phase]
  case body =>
    rcases next with rfl | ⟨rfl, last⟩ <;>
      simp only [unwritten, WorkerPc.phase, List.length_drop] <;> omega
  case bodyStart => exact fun _ => course.bodyStart (by simp [at_pc, WorkerPc.phase])
  case buffer =>
    intro _
    simp only [List.length_drop]
    exact ⟨rest, by omega⟩
  case some_read => exact fun _ => course.some_read (Or.inl (by rw [at_pc]; rfl))
  case disk =>
    intro file found
    obtain ⟨old, present, rfl⟩ := Option.map_eq_some_iff.mp found
    rw [stored]
    exact (course.disk old present).extend count

/-- Counting the written bytes brings the chunk up to the worker's offset. -/
theorem OnCourse.counted (course : worker.OnCourse remote shared chunk)
    (at_pc : worker.pc = .notifyUpdate) (small : shared.engine.fileSize < sizeModulus)
    {shared' : Shared} (fileSize : shared'.engine.fileSize = shared.engine.fileSize)
    (ranged : shared'.engine.ranged = shared.engine.ranged)
    : (chunk.updateReceived worker.bytesRead).received = chunk.received + worker.bytesRead
      ∧ (worker.goto .notifyTotal).OnCourse remote shared'
          (chunk.updateReceived worker.bytesRead) := by
  have bounded := course.bounded
  have offset := course.offset
  have inFile := course.proper.inFile
  have body := course.body (by simp [at_pc, WorkerPc.phase])
  simp only [uncounted, unwritten, at_pc, WorkerPc.phase] at offset bounded body
  have received
      : (chunk.updateReceived worker.bytesRead).received = chunk.received + worker.bytesRead := by
    rw [ChunkInfo.updateReceived_received, wrap_of_lt (by omega)]
  refine ⟨received, ?_⟩
  constructor
  all_goals
    try simp only [ChunkInfo.updateReceived_startRange, ChunkInfo.updateReceived_endRange,
      received, uncounted, unwritten, goto, WorkerPc.phase]
  case proper => exact fileSize ▸ ⟨course.proper.ordered, inFile⟩
  case offset => omega
  case bounded => exact bounded
  case attempt => simp
  case body => exact fun _ => body
  case bodyStart =>
    rw [ranged]
    exact fun _ => course.bodyStart (by simp [at_pc, WorkerPc.phase])
  case buffer => simp
  case some_read => simp
  case disk =>
    intro file _
    have start
        : chunk.startRange + (chunk.received + worker.bytesRead) = worker.currentOffset := by
      omega
    rw [start]
    exact Agrees.empty _ _ _

/-- A ranged request goes on at the worker's offset after an interruption. -/
theorem OnCourse.retry (course : worker.OnCourse remote shared chunk)
    (at_pc : worker.pc = .streamed false) (ranged : shared.engine.ranged = true)
    : (worker.goto .pollInner).OnCourse remote shared chunk := by
  have bounded := course.bounded
  have offset := course.offset
  simp only [uncounted, unwritten, at_pc, WorkerPc.phase] at offset bounded
  constructor <;> try simp only [uncounted, unwritten, goto, WorkerPc.phase]
  case proper => exact course.proper
  case offset => exact offset
  case bounded => exact bounded
  case attempt => simp [ranged]
  case body => simp
  case bodyStart => simp
  case buffer => simp
  case some_read => simp
  case disk => exact course.disk

/-- A worker stays on course in every step that keeps its item and counts no bytes. -/
theorem OnCourse.step (course : worker.OnCourse remote shared chunk) {item : WorkItem}
    (taken : Step shared worker label shared' next) (placed : worker.Placed)
    (held : worker.item = some item) (still : next.item = some item)
    (running : next.pc ≠ .failSet) (uncounted : worker.pc ≠ .notifyUpdate)
    (ends : item.rangeEnd = chunk.endRange)
    (whole : shared.engine.ranged = false → chunk.endRange + 1 = shared.engine.fileSize)
    (served : worker.Served remote shared.engine label)
    : next.OnCourse remote shared' chunk := by
  have holds := placed (by simp [held])
  cases taken
  case header at_pc _ => exact course.header at_pc
  case readNothing ending at_pc => exact course.readNothing at_pc
  case readBytes bytes ending at_pc _ nonempty =>
    exact course.readBytes at_pc nonempty held ends whole served
  case writePart count at_pc _ part _ =>
    have written := course.wrote at_pc (Nat.le_of_lt part) (Or.inl rfl)
    rwa [← at_pc] at written
  case writeLast at_pc _ _ =>
    have written := course.wrote at_pc (Nat.le_refl _) (Or.inr ⟨rfl, rfl⟩)
    rwa [List.take_length, List.drop_length] at written
  case retry at_pc ranged => exact course.retry at_pc ranged
  case throw => exact absurd rfl running
  case update at_pc _ => exact absurd at_pc uncounted
  case store site _ at_pc _ =>
    cases site
    case fail => simp [at_pc, WorkerPc.mayHold, StoreSite.mayHold] at holds
    all_goals exact course.quiet (by rw [at_pc]; rfl) rfl rfl rfl rfl rfl rfl rfl rfl
  case streamStop at_pc _ =>
    rcases at_pc with at_pc | at_pc <;>
      exact course.quiet (by rw [at_pc]; rfl) rfl rfl rfl rfl rfl rfl rfl rfl
  case allow at_pc _ _ =>
    rcases at_pc with at_pc | at_pc <;>
      exact course.quiet (by rw [at_pc]; rfl) rfl rfl rfl rfl rfl rfl rfl rfl
  case nullWriter => exact course.quiet rfl rfl rfl rfl rfl rfl rfl rfl rfl
  case scan => exact course.quiet rfl rfl rfl rfl rfl rfl rfl rfl rfl
  case cleanup at_pc _ =>
    exact course.quiet (by rw [at_pc]; rfl) rfl rfl rfl rfl rfl (by simp) (by simp) (by simp)
  all_goals
    first
      | exact course.quiet (by rw [‹worker.pc = _›]; rfl) rfl rfl rfl rfl rfl rfl rfl rfl
      | (cases still; done)
      | simp [‹worker.pc = _›, WorkerPc.mayHold] at holds

end Worker

end Muld
