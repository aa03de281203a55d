import Muld.Streaming

/-! Where one call of `StreamBodyToDisk` writes. The loop is bounded by the response body, so
it stays inside the work item exactly if the body is not longer than the rest of the item.
Other threads may do anything to the shared state between two steps of the call.
-/

namespace Muld

/-- The program points of `StreamBodyToDisk` and of the notifications it makes. -/
def WorkerPc.streaming : WorkerPc → Bool
  | .streamHead | .streamState | .budget | .awaitBudget | .read | .write | .readEnd
  | .notifyUpdate | .notifyTotal | .notifyEvent | .notifyEventReport | .notifyProgress
  | .notifyProgressReport | .notifyCount | .notifyFinished | .notifyBump | .completeCas
  | .completeForce | .completeCleanup | .finishReport => true
  | .storeLock site | .storeScan site | .storeWrite site => site.mayHold
  | _ => false

namespace Worker

/-- A step inside the call, in the state that the other threads have left. -/
def streamStep (worker : Worker) (action : Shared × WorkerLabel) : Option Worker :=
  if worker.pc.streaming then (worker.step action.1 action.2).map Prod.snd else none

/-- No more than the `length` bytes of the body are read. -/
def ReadsBody (length : Nat) (before : Worker) (action : Shared × WorkerLabel) (_ : Worker)
    : Prop :=
  match action.2 with
  | .read bytes _ => before.bodyPosition + bytes.length ≤ length
  | _ => True

/-- The runs of the call over a body of `length` bytes: every split into reads and short
writes, with any interference.
-/
abbrev StreamsTo (length : Nat) (start : Worker) : Worker → Prop :=
  Transition.Reachable streamStep (ReadsBody length) start

/-- The worker enters `StreamBodyToDisk` with its offset inside the item. -/
structure EntersBody (item : WorkItem) (worker : Worker) : Prop where
  at_pc : worker.pc = .streamHead
  held : worker.item = some item
  bodyPosition : worker.bodyPosition = 0
  low : item.rangeStart ≤ worker.currentOffset
  high : worker.currentOffset ≤ item.rangeEnd

/-- Every write of the call lies inside the item. -/
def WritesInside (length : Nat) (item : WorkItem) (worker : Worker) : Prop :=
  ∀ (writing next : Worker) (shared : Shared) (count : Nat),
    worker.StreamsTo length writing
    → shared.engine.writer = true
    → writing.streamStep (shared, .wrote count) = some next
    → ∀ position,
        writing.currentOffset ≤ position
        → position < writing.currentOffset + count
        → item.rangeStart ≤ position ∧ position ≤ item.rangeEnd

variable {length : Nat} {item : WorkItem} {start worker next : Worker}
  {shared shared' : Shared} {label : WorkerLabel}

-----------------------------------------------------------------------------------------
-- A body that is short enough stays inside
-----------------------------------------------------------------------------------------

/-- What has been read of the body is written or waits in the buffer. -/
structure InBody (length : Nat) (worker start : Worker) : Prop where
  offset
    : worker.pc.streaming = true
      → worker.currentOffset + worker.unwritten = start.currentOffset + worker.bodyPosition
  bounded : worker.bodyPosition ≤ length
  low : start.currentOffset ≤ worker.currentOffset

/-- A step that neither reads nor writes keeps the account. -/
theorem InBody.quiet (inside : worker.InBody length start)
    (streams : worker.pc.streaming = true) (unwritten : next.unwritten = worker.unwritten)
    (currentOffset : next.currentOffset = worker.currentOffset)
    (bodyPosition : next.bodyPosition = worker.bodyPosition)
    : next.InBody length start where
  offset := fun _ => by
    rw [unwritten, currentOffset, bodyPosition]
    exact inside.offset streams
  bounded := bodyPosition ▸ inside.bounded
  low := currentOffset ▸ inside.low

theorem InBody.step (inside : worker.InBody length start)
    (streams : worker.pc.streaming = true)
    (taken : worker.Step shared label shared' next)
    (reads : worker.ReadsBody length (shared, label) next)
    : next.InBody length start := by
  have offset := inside.offset streams
  have bounded := inside.bounded
  have low := inside.low
  cases taken
  case take at_pc _ => simp [at_pc, WorkerPc.streaming] at streams
  case header at_pc _ => simp [at_pc, WorkerPc.streaming] at streams
  case readBytes bytes ending at_pc _ _ =>
    simp only [unwritten, at_pc, WorkerPc.phase] at offset
    exact ⟨fun _ => by simp only [unwritten, WorkerPc.phase]; omega, reads, low⟩
  case writePart count at_pc _ part _ =>
    simp only [unwritten, at_pc, WorkerPc.phase] at offset
    refine ⟨fun _ => ?_, bounded, by simp only; omega⟩
    simp only [unwritten, at_pc, WorkerPc.phase, List.length_drop]
    omega
  case writeLast at_pc _ _ =>
    simp only [unwritten, at_pc, WorkerPc.phase] at offset
    exact ⟨fun _ => by simp only [unwritten, WorkerPc.phase]; omega, bounded, by simp only; omega⟩
  case nullWriter => exact inside
  case throw => exact ⟨fun streams => Bool.noConfusion streams, bounded, low⟩
  case release at_pc _ =>
    rcases at_pc with at_pc | at_pc <;> simp [at_pc, WorkerPc.streaming] at streams
  case streamStop at_pc _ =>
    rcases at_pc with at_pc | at_pc <;>
      exact inside.quiet streams (by simp [unwritten, at_pc, WorkerPc.phase]) rfl rfl
  case allow at_pc _ _ =>
    rcases at_pc with at_pc | at_pc <;>
      exact inside.quiet streams (by simp [unwritten, at_pc, WorkerPc.phase]) rfl rfl
  case store site _ at_pc _ =>
    cases site <;>
      exact inside.quiet streams (by simp [unwritten, at_pc, WorkerPc.phase, afterStore]) rfl rfl
  all_goals
    exact inside.quiet streams (by simp [unwritten, ‹worker.pc = _›, WorkerPc.phase]) rfl rfl

theorem streamStep_cases {action : Shared × WorkerLabel}
    (taken : worker.streamStep action = some next)
    : worker.pc.streaming = true
      ∧ ∃ after, worker.Step action.1 action.2 after next := by
  rw [streamStep] at taken
  split at taken
  · obtain ⟨⟨after, reached⟩, moved, rfl⟩ := Option.map_eq_some_iff.mp taken
    exact ⟨‹_›, after, Worker.step_cases moved⟩
  · contradiction

/-- `Write` reports bytes of the buffer. -/
theorem streamStep_wrote {count : Nat}
    (taken : worker.streamStep (shared, .wrote count) = some next)
    : worker.pc = .write ∧ count ≤ worker.buffer.length := by
  rw [streamStep] at taken
  split at taken
  · simp only [step] at taken
    split at taken
    · rename_i writes
      exact ⟨writes.1, writes.2.2⟩
    · contradiction
  · contradiction

/-- By induction on the run of the call. -/
theorem StreamsTo.inBody (enters : start.EntersBody item)
    (reached : start.StreamsTo length worker)
    : worker.InBody length start := by
  induction reached with
  | start =>
      refine ⟨fun _ => ?_, by simp [enters.bodyPosition], Nat.le_refl _⟩
      simp [unwritten, enters.at_pc, WorkerPc.phase, enters.bodyPosition]
  | next earlier taken reads inside =>
      obtain ⟨streams, shared, moved⟩ := streamStep_cases taken
      exact inside.step streams moved reads

theorem writesInside_of_le (enters : start.EntersBody item)
    (fits : start.currentOffset + length ≤ item.rangeEnd + 1)
    : start.WritesInside length item := by
  intro writing next shared count reached _ wrote position above below
  obtain ⟨at_pc, buffered⟩ := streamStep_wrote wrote
  have inside := reached.inBody enters
  have offset := inside.offset (by rw [at_pc]; rfl)
  have bounded := inside.bounded
  have low := inside.low
  have inItem := enters.low
  rw [unwritten, at_pc] at offset
  simp only [WorkerPc.phase] at offset
  omega

-----------------------------------------------------------------------------------------
-- A longer body gets outside
-----------------------------------------------------------------------------------------

theorem StreamsTo.moves (reached : start.StreamsTo length worker) (shared : Shared)
    (label : WorkerLabel) (reads : worker.ReadsBody length (shared, label) next)
    (taken : worker.streamStep (shared, label) = some next)
    : start.StreamsTo length next :=
  reached.next taken reads

/-- A downloading engine with an unfinished chunk for the item. -/
def downloadingItem (item : WorkItem) : Shared :=
  let created := @DownloadEngine.create 1 0 true 1 DownloadEngine.one_chunk
  {
    engine := {
      created with
      state := .downloading
      chunksInfo := List.replicate (item.chunkId + 1)
        { chunkId := item.chunkId, startRange := 0, endRange := 0, received := 0 }
    }
    handler := {}
    output := none
    image := .absent
    maxThreads := 1
    history := {}
    nullWriter := false
  }

/-- A worker with one byte in its buffer and none written. -/
def withByte (worker : Worker) (pc : WorkerPc) (bodyPosition : Nat) : Worker :=
  { worker with
    pc, bodyPosition, allowedBytes := bufferSize, buffer := [0], bytesRead := 1, readEnd := .none }

/-- A worker at the head of the loop reads one more byte of the body. -/
theorem StreamsTo.read (item : WorkItem) (reached : start.StreamsTo length worker)
    (at_pc : worker.pc = .streamHead) (more : worker.bodyPosition < length)
    : start.StreamsTo length (worker.withByte .write (worker.bodyPosition + 1)) := by
  have opened : start.StreamsTo length (worker.goto .streamState) :=
    reached.moves (downloadingItem item) (.isDone false) trivial
      (by simp [streamStep, step, at_pc, WorkerPc.streaming])
  have admitted : start.StreamsTo length (worker.goto .budget) :=
    opened.moves (downloadingItem item) .run trivial
      (by simp [streamStep, step, WorkerPc.streaming, downloadingItem, goto])
  have allowed : start.StreamsTo length
      { worker with pc := .read, allowedBytes := bufferSize } :=
    admitted.moves (downloadingItem item) .run trivial
      (by simp [streamStep, step, WorkerPc.streaming, downloadingItem, goto,
        DownloadEngine.create])
  exact allowed.moves (downloadingItem item) (.read [0] .none) more
    (by simp [streamStep, step, WorkerPc.streaming, withByte, bufferSize])

/-- A worker that has read one byte writes and counts it and comes back to the loop. -/
theorem StreamsTo.count (held : worker.item = some item) {position : Nat}
    (reached : start.StreamsTo length (worker.withByte .write position))
    : ∃ next : Worker,
        start.StreamsTo length next
        ∧ next.pc = .streamHead
        ∧ next.item = some item
        ∧ next.bodyPosition = position
        ∧ next.currentOffset = worker.currentOffset + 1 := by
  let chunk : ChunkInfo :=
    { chunkId := item.chunkId, startRange := 0, endRange := 0, received := 0 }
  let written : Worker :=
    { worker.withByte .notifyUpdate position with
      currentOffset := worker.currentOffset + 1, buffer := [], fireProgress := false }
  have present : (downloadingItem item).engine.chunksInfo[item.chunkId]? = some chunk := by
    simp [downloadingItem, chunk]
  have known : ∀ {reporting : Worker}, reporting.item = some item →
      reporting.chunk? (downloadingItem item).engine = some chunk := by
    intro reporting holds
    simp [chunk?, holds, present]
  have wrote : start.StreamsTo length
      { worker.withByte .notifyUpdate position with
        currentOffset := worker.currentOffset + 1, buffer := [] } :=
    reached.moves (downloadingItem item) (.wrote 1) trivial
      (by simp [streamStep, step, WorkerPc.streaming, withByte, downloadingItem,
        DownloadEngine.create])
  have updated : start.StreamsTo length
      { worker.withByte .notifyTotal position with
        currentOffset := worker.currentOffset + 1, buffer := [] } :=
    wrote.moves (downloadingItem item) .run trivial
      (by simp [streamStep, step, WorkerPc.streaming, withByte, held, goto])
  have totaled : start.StreamsTo length (written.goto .notifyEvent) :=
    updated.moves (downloadingItem item) (.clock false) trivial
      (by simp [streamStep, step, WorkerPc.streaming, withByte, written, goto])
  let reported : Worker :=
    { written with
      event := { downloadedBytes := chunk.getReceivedSize, totalBytes := chunk.getTotalSize } }
  have measured : start.StreamsTo length (reported.goto .notifyEventReport) :=
    totaled.moves (downloadingItem item) .run trivial
      (by simp [streamStep, step, WorkerPc.streaming, known, held, written, reported,
        withByte, goto])
  have counting : start.StreamsTo length (reported.goto .notifyCount) :=
    measured.moves (downloadingItem item) .run trivial
      (by simp [streamStep, step, WorkerPc.streaming, held, written, reported, withByte, goto])
  have counted : start.StreamsTo length (reported.goto .notifyFinished) :=
    counting.moves (downloadingItem item) .run trivial
      (by simp [streamStep, step, WorkerPc.streaming, written, reported, withByte, goto,
        downloadingItem, DownloadEngine.create, DownloadEngine.addFromLastStore,
        DownloadEngine.needsStore, wrap, sizeModulus])
  have unfinished : chunk.isFinished = false := by
    simp [chunk, ChunkInfo.isFinished, ChunkInfo.getTotalSize, ChunkInfo.getReceivedSize,
      wrapSub, wrap, sizeModulus]
  have ended : start.StreamsTo length (reported.goto .readEnd) :=
    counted.moves (downloadingItem item) .run trivial
      (by simp [streamStep, step, WorkerPc.streaming, known, held, unfinished, written,
        reported, withByte, goto])
  have looped : start.StreamsTo length (reported.goto .streamHead) :=
    ended.moves (downloadingItem item) .run trivial
      (by simp [streamStep, step, WorkerPc.streaming, written, reported, withByte, goto])
  exact ⟨_, looped, rfl, held, rfl, rfl⟩

/-- The call can get through any part of the body a byte at a time, by induction on how much.
-/
theorem StreamsTo.bytes (enters : start.EntersBody item) {count : Nat} (short : count ≤ length)
    : ∃ worker : Worker,
        start.StreamsTo length worker
        ∧ worker.pc = .streamHead
        ∧ worker.item = some item
        ∧ worker.bodyPosition = count
        ∧ worker.currentOffset = start.currentOffset + count := by
  induction count with
  | zero => exact ⟨start, .start, enters.at_pc, enters.held, enters.bodyPosition, rfl⟩
  | succ count ih =>
      obtain ⟨worker, reached, at_pc, held, position, offset⟩ := ih (by omega)
      have read := reached.read item at_pc (by omega)
      obtain ⟨next, counted, next_pc, next_held, next_position, next_offset⟩ :=
        StreamsTo.count held read
      exact ⟨next, counted, next_pc, next_held, by omega, by omega⟩

/-- A call whose writes stay inside has a body that is short enough. Witness: the run that
reads a byte at a time and writes one byte behind the item.
-/
theorem le_of_writesInside (enters : start.EntersBody item)
    (inside : start.WritesInside length item)
    : start.currentOffset + length ≤ item.rangeEnd + 1 := by
  by_contra long
  have high := enters.high
  obtain ⟨worker, reached, at_pc, _, position, offset⟩ :=
    @StreamsTo.bytes length item start enters (item.rangeEnd + 1 - start.currentOffset)
      (by omega)
  have writing := reached.read item at_pc (by omega)
  have beyond := inside _ _ (downloadingItem item) 1 writing rfl
    (by simp [streamStep, step, WorkerPc.streaming, withByte, downloadingItem,
      DownloadEngine.create]; rfl)
    (item.rangeEnd + 1)
    (by simp only [withByte]; omega) (by simp only [withByte]; omega)
  omega

/-- A call of `StreamBodyToDisk` writes inside its item exactly if the body is not longer than
the rest of the item.
-/
theorem writesInside_iff (enters : start.EntersBody item)
    : start.WritesInside length item ↔ start.currentOffset + length ≤ item.rangeEnd + 1 :=
  ⟨le_of_writesInside enters, writesInside_of_le enters⟩

/-- The first chunk of two, requested from its first byte on. -/
def firstItem : WorkItem := { workId := 0, chunkId := 0, rangeStart := 0, rangeEnd := 9 }

/-- A body of ten bytes fits into an item of ten bytes. -/
theorem writesInside_ten
    : WritesInside 10 firstItem { pc := .streamHead, item := some firstItem } :=
  (writesInside_iff ⟨rfl, rfl, rfl, by decide, by decide⟩).mpr (by decide)

end Worker

namespace Sys

open Muld.Action in
/-- A body one byte longer than the first chunk is written into the second one. -/
theorem neighbour_overwritten
    : ¬ ∀ (start sys after : Sys) (index count : Nat) (worker : Worker) (item : WorkItem),
        start.Built
        → Reachable start sys
        → sys.workers[index]? = some worker
        → worker.item = some item
        → sys.step (.worker index (.wrote count)) = some after
        → worker.currentOffset + count ≤ item.rangeEnd + 1 := by
  intro bounded
  obtain ⟨sys, reached, holds⟩ :=
    exists_reachable Transition.anyStep twoChunks
      (.invoke .start :: callRuns 0 14 ++ workerRuns 0 8
        ++ [.worker 0 (.header 206 ""), .worker 0 (.isDone false)] ++ workerRuns 0 2
        ++ [.worker 0 (.read (List.replicate 11 0) .none)])
      (fun sys =>
        (sys.workers[0]?).any (fun worker =>
            worker.currentOffset == 0 && worker.item.any (fun item => item.rangeEnd == 9))
          && (sys.step (.worker 0 (.wrote 11))).isSome)
      (by decide +kernel)
  rw [Bool.and_eq_true, Option.any_eq_true] at holds
  obtain ⟨⟨worker, found, item_holds⟩, moves⟩ := holds
  rw [Bool.and_eq_true, Option.any_eq_true] at item_holds
  obtain ⟨offset, item, held, ending⟩ := item_holds
  obtain ⟨after, wrote⟩ := Option.isSome_iff_exists.mp moves
  have inside := bounded _ _ after 0 11 worker item twoChunks_built reached found held wrote
  simp only [beq_iff_eq] at offset ending
  omega

end Sys

end Muld
