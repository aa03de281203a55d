import Muld.Counting
import Mathlib.Logic.Relation

/-! `NotifyChunkReceived` as one sequential call, and what a sequence of such calls counts.
The call is the run of a worker through the program points of its notification when no other
thread steps in between.
-/

namespace Muld

open Threads

/-- The arguments of a `NotifyChunkReceived` and what the clock and the disk decide. -/
structure Notification where
  chunkId : Nat
  bytes : Nat
  elapsed : Bool := false
  stored : StoreOutcome := .written
  completed : StoreOutcome := .written
deriving DecidableEq, Repr

namespace Shared

/-- `Store`, which uses the writer. -/
def store (outcome : StoreOutcome) (shared : Shared) : Option Shared :=
  if shared.engine.writer then
    some (shared.lockDisk.storeImage (shared.engine.chunksInfo.map ChunkInfo.toState) outcome)
  else none

/-- The count of the bytes since the last store, and the store when it is due. -/
def countStored (bytes : Nat) (outcome : StoreOutcome) (shared : Shared) : Option Shared :=
  let counted := shared.onEngine (.addFromLastStore bytes)
  if counted.engine.needsStore then counted.store outcome else some counted

/-- The store, the cleanup and `on_finish` once the state is `Completed`. -/
def finishCompleted (outcome : StoreOutcome) (shared : Shared) : Option Shared :=
  (shared.store outcome).map fun stored => (stored.cleanupArtifacts false).reportFinish

/-- What follows the bump for the last chunk. -/
def complete (outcome : StoreOutcome) (shared : Shared) : Option Shared :=
  match shared.engine.state with
  | .downloading | .paused | .failed =>
      (shared.onEngine fun engine => { engine with state := .completed }).finishCompleted outcome
  | _ => some shared

/-- The test whether the notified chunk is finished, and what follows. -/
def finishChunk (chunkId : Nat) (outcome : StoreOutcome) (shared : Shared) : Option Shared :=
  if shared.engine.chunkFinished chunkId then
    if shared.engine.lastChunk then (shared.onEngine .bumpDownloaded).complete outcome
    else some (shared.onEngine .bumpDownloaded)
  else some shared

/-- The bytes are added and the progress is reported; `chunk` is the notified chunk with the
bytes added.
-/
def receive (call : Notification) (chunk : ChunkInfo) (shared : Shared) : Shared :=
  let received :=
    (shared.onEngine (.updateReceived call.chunkId call.bytes)).onEngine (.addTotal call.bytes)
  let reported := received.reportChunk call.chunkId
    { downloadedBytes := chunk.getReceivedSize, totalBytes := chunk.getTotalSize }
  if call.elapsed then reported.reportProgress received.engine.nTotalReceivedBytes
  else reported

/-- `NotifyChunkReceived`; `chunksInfo_.at` throws for an id out of range and a null writer
is not survived, so the call has no result in these cases.
-/
def notifyChunkReceived (call : Notification) (shared : Shared) : Option Shared :=
  match (shared.engine.updateReceived call.chunkId call.bytes).chunksInfo[call.chunkId]? with
  | none => none
  | some chunk =>
      ((shared.receive call chunk).countStored call.bytes call.stored).bind
        (finishChunk call.chunkId call.completed)

-----------------------------------------------------------------------------------------
-- What one call does
-----------------------------------------------------------------------------------------

variable {shared after : Shared}

/-- Two states that count the same: the fields that decide about completion are equal. -/
structure SameCount (before after : Shared) : Prop where
  chunksInfo : after.engine.chunksInfo = before.engine.chunksInfo
  nDownloadedChunks : after.engine.nDownloadedChunks = before.engine.nDownloadedChunks
  state : after.engine.state = before.engine.state
  writer : after.engine.writer = before.engine.writer

theorem sameCount_of_countStored {bytes : Nat} {outcome : StoreOutcome}
    (taken : shared.countStored bytes outcome = some after)
    : shared.SameCount after := by
  simp only [countStored, store] at taken
  split at taken
  · split at taken <;> cases taken
    exact ⟨rfl, rfl, rfl, rfl⟩
  · cases taken
    exact ⟨rfl, rfl, rfl, rfl⟩

/-- A store ends with the mutex free. -/
theorem store_unlocked {outcome : StoreOutcome} (taken : shared.store outcome = some after)
    : after.engine.diskLocked = false := by
  simp only [store] at taken
  split at taken <;> cases taken
  rfl

theorem countStored_unlocked {bytes : Nat} {outcome : StoreOutcome}
    (unlocked : shared.engine.diskLocked = false)
    (taken : shared.countStored bytes outcome = some after)
    : after.engine.diskLocked = false := by
  simp only [countStored] at taken
  split at taken
  · exact store_unlocked taken
  · cases taken
    exact unlocked

theorem store_isSome {outcome : StoreOutcome} (writer : shared.engine.writer = true)
    : (shared.store outcome).isSome := by
  rw [store, if_pos writer]
  rfl

theorem countStored_isSome {bytes : Nat} {outcome : StoreOutcome}
    (writer : shared.engine.writer = true)
    : (shared.countStored bytes outcome).isSome := by
  simp only [countStored]
  split
  · exact store_isSome writer
  · rfl

/-- The end of a completed download leaves the chunks and their counter alone. -/
theorem finishCompleted_counts {outcome : StoreOutcome}
    (taken : shared.finishCompleted outcome = some after)
    : after.engine.chunksInfo = shared.engine.chunksInfo
      ∧ after.engine.nDownloadedChunks = shared.engine.nDownloadedChunks := by
  obtain ⟨stored, kept, rfl⟩ := Option.map_eq_some_iff.mp taken
  simp only [store] at kept
  split at kept <;> cases kept
  simp [reportFinish, callback, onHistory, storeImage, lockDisk, onEngine]

theorem complete_counts {outcome : StoreOutcome}
    (taken : shared.complete outcome = some after)
    : after.engine.chunksInfo = shared.engine.chunksInfo
      ∧ after.engine.nDownloadedChunks = shared.engine.nDownloadedChunks := by
  simp only [complete] at taken
  split at taken
  case h_4 =>
    cases taken
    exact ⟨rfl, rfl⟩
  all_goals simpa [onEngine] using finishCompleted_counts taken

theorem finishCompleted_isSome {outcome : StoreOutcome}
    (writer : shared.engine.writer = true)
    : (shared.finishCompleted outcome).isSome := by
  rw [finishCompleted, Option.isSome_map]
  exact store_isSome writer

theorem complete_isSome {outcome : StoreOutcome} (writer : shared.engine.writer = true)
    : (shared.complete outcome).isSome := by
  simp only [complete]
  split
  case h_4 => rfl
  all_goals exact finishCompleted_isSome writer

/-- The chunk is counted if it is finished; only the count of the last one goes on. -/
theorem finishChunk_spec {chunkId : Nat} {outcome : StoreOutcome}
    (taken : shared.finishChunk chunkId outcome = some after)
    : after.engine.chunksInfo = shared.engine.chunksInfo
      ∧ after.engine.nDownloadedChunks
        = shared.engine.nDownloadedChunks
          + (if shared.engine.chunkFinished chunkId then 1 else 0)
      ∧ ((after.engine.state = shared.engine.state
          ∧ after.engine.writer = shared.engine.writer)
        ∨ (shared.engine.chunkFinished chunkId = true ∧ shared.engine.lastChunk = true)) := by
  simp only [finishChunk] at taken
  split at taken
  · rename_i finished
    split at taken
    · rename_i last
      obtain ⟨chunksInfo, counter⟩ := complete_counts taken
      rw [chunksInfo, counter, if_pos finished]
      exact ⟨rfl, rfl, Or.inr ⟨finished, last⟩⟩
    · cases taken
      exact ⟨rfl, by simp [finished, onEngine, DownloadEngine.bumpDownloaded], Or.inl ⟨rfl, rfl⟩⟩
  · rename_i unfinished
    cases taken
    exact ⟨rfl, by simp [unfinished], Or.inl ⟨rfl, rfl⟩⟩

theorem receive_engine (call : Notification) (chunk : ChunkInfo) (shared : Shared)
    : (shared.receive call chunk).engine
        = (shared.engine.updateReceived call.chunkId call.bytes).addTotal call.bytes := by
  simp only [receive]
  split <;> rfl

theorem updateReceived_getElem?_found {engine : DownloadEngine} {chunkId : Nat}
    {chunk : ChunkInfo} (found : engine.chunksInfo[chunkId]? = some chunk) (bytes : Nat)
    : (engine.updateReceived chunkId bytes).chunksInfo[chunkId]?
        = some (chunk.updateReceived bytes) := by
  rw [DownloadEngine.updateReceived_getElem?_self, found, Option.map_some]

/-- A notification adds its bytes, and counts the chunk if it is finished with them. -/
theorem notifyChunkReceived_spec {call : Notification} {chunk : ChunkInfo}
    (found : shared.engine.chunksInfo[call.chunkId]? = some chunk)
    (taken : shared.notifyChunkReceived call = some after)
    : after.engine.chunksInfo
        = (shared.engine.updateReceived call.chunkId call.bytes).chunksInfo
      ∧ after.engine.nDownloadedChunks
        = shared.engine.nDownloadedChunks
          + (if (chunk.updateReceived call.bytes).isFinished then 1 else 0)
      ∧ ((after.engine.state = shared.engine.state
          ∧ after.engine.writer = shared.engine.writer)
        ∨ ((chunk.updateReceived call.bytes).isFinished = true
          ∧ shared.engine.lastChunk = true)) := by
  have updated := updateReceived_getElem?_found found call.bytes
  simp only [notifyChunkReceived, updated] at taken
  obtain ⟨counted, stored, finished⟩ := Option.bind_eq_some_iff.mp taken
  have same := sameCount_of_countStored stored
  have engine := receive_engine call (chunk.updateReceived call.bytes) shared
  have chunks : counted.engine.chunksInfo
      = (shared.engine.updateReceived call.chunkId call.bytes).chunksInfo := by
    rw [same.chunksInfo, engine]
    rfl
  have counter : counted.engine.nDownloadedChunks = shared.engine.nDownloadedChunks := by
    rw [same.nDownloadedChunks, engine]
    rfl
  have last : counted.engine.lastChunk = shared.engine.lastChunk := by
    simp [DownloadEngine.lastChunk, DownloadEngine.nChunks, chunks, counter,
      DownloadEngine.updateReceived]
  have done : counted.engine.chunkFinished call.chunkId
      = (chunk.updateReceived call.bytes).isFinished := by
    rw [DownloadEngine.chunkFinished, chunks, updated, Option.any_some]
  have after_spec := finishChunk_spec finished
  rw [chunks, counter, last, done, same.state, same.writer, engine] at after_spec
  exact after_spec

/-- With a writer and a valid id the call returns. -/
theorem notifyChunkReceived_isSome {call : Notification} {chunk : ChunkInfo}
    (found : shared.engine.chunksInfo[call.chunkId]? = some chunk)
    (writer : shared.engine.writer = true)
    : (shared.notifyChunkReceived call).isSome := by
  have updated := updateReceived_getElem?_found found call.bytes
  have received
      : (shared.receive call (chunk.updateReceived call.bytes)).engine.writer = true := by
    rw [receive_engine]
    exact writer
  obtain ⟨counted, stored⟩ := Option.isSome_iff_exists.mp
    (@countStored_isSome _ call.bytes call.stored received)
  simp only [notifyChunkReceived, updated, stored, Option.bind_some]
  have open_ : counted.engine.writer = true := by
    rw [(sameCount_of_countStored stored).writer, received]
  simp only [finishChunk]
  split
  · split
    · exact complete_isSome open_
    · rfl
  · rfl

end Shared

-----------------------------------------------------------------------------------------
-- The call as a run of a worker
-----------------------------------------------------------------------------------------

namespace Worker

variable {shared after : Shared} {worker : Worker} {start : Shared × Worker}

/-- The runs of a worker that no other thread interrupts. -/
abbrev RunsTo (start : Shared × Worker) : Shared × Worker → Prop :=
  Transition.Reachable (fun pair label => pair.2.step pair.1 label) Transition.anyStep start

theorem RunsTo.moves (reached : RunsTo start (shared, worker)) (label : WorkerLabel)
    {next : Worker} (taken : worker.step shared label = some (after, next))
    : RunsTo start (after, next) :=
  reached.next taken trivial

/-- The scan of a store reads the chunks in order, by induction on those it has left. -/
theorem RunsTo.scan {site : StoreSite} (front rest : List ChunkInfo)
    (chunks : shared.engine.chunksInfo = front ++ rest)
    (reached
      : RunsTo start
          (shared,
            { worker with pc := .storeScan site, scan := front.map ChunkInfo.toState }))
    : RunsTo start
        (shared,
          { worker with
            pc := .storeScan site, scan := shared.engine.chunksInfo.map ChunkInfo.toState }) := by
  induction rest generalizing front with
  | nil =>
      rw [List.append_nil] at chunks
      rwa [chunks]
  | cons head rest ih =>
      have next : shared.engine.chunksInfo[front.length]? = some head := by
        simp [chunks]
      exact ih (front ++ [head]) (by simp [chunks])
        (reached.moves .run (by simp [step, next]))

/-- A worker that stores without interruption does what `Store` does, and has the scan. -/
theorem RunsTo.stores {site : StoreSite} {outcome : StoreOutcome}
    (reached : RunsTo start (shared, worker)) (at_pc : worker.pc = .storeLock site)
    (unlocked : shared.engine.diskLocked = false) (taken : shared.store outcome = some after)
    : RunsTo start
        (after,
          { worker with
            pc := afterStore site, scan := shared.engine.chunksInfo.map ChunkInfo.toState }) := by
  rw [Shared.store] at taken
  split at taken <;> cases taken
  rename_i open_
  have locked : RunsTo start
      (shared.lockDisk, { worker with pc := .storeScan site, scan := [] }) :=
    reached.moves .run (by simp [step, at_pc, unlocked])
  have scanned := locked.scan [] _ rfl
  have ended : RunsTo start
      (shared.lockDisk,
        { worker with
          pc := .storeWrite site, scan := shared.engine.chunksInfo.map ChunkInfo.toState }) :=
    scanned.moves .run (by simp [step, Shared.lockDisk, Shared.onEngine, goto])
  have open_locked : shared.lockDisk.engine.writer = true := open_
  exact ended.moves (.stored outcome) (by simp only [step, open_locked, if_true]; rfl)

theorem RunsTo.store {site : StoreSite} {outcome : StoreOutcome}
    (reached : RunsTo start (shared, worker)) (at_pc : worker.pc = .storeLock site)
    (unlocked : shared.engine.diskLocked = false) (taken : shared.store outcome = some after)
    : ∃ next : Worker,
        RunsTo start (after, next)
          ∧ next.pc = afterStore site
          ∧ next.item = worker.item :=
  ⟨_, reached.stores at_pc unlocked taken, rfl, rfl⟩

/-- The byte counter and the store that may follow it. -/
theorem RunsTo.countStored {outcome : StoreOutcome}
    (reached : RunsTo start (shared, worker)) (at_pc : worker.pc = .notifyCount)
    (unlocked : shared.engine.diskLocked = false)
    (taken : shared.countStored worker.bytesRead outcome = some after)
    : ∃ next : Worker,
        RunsTo start (after, next)
          ∧ next.pc = .notifyFinished
          ∧ next.item = worker.item := by
  simp only [Shared.countStored] at taken
  split at taken
  · rename_i due
    have counted : RunsTo start
        (shared.onEngine (.addFromLastStore worker.bytesRead),
          worker.goto (.storeLock .notify)) :=
      reached.moves .run (by
        have due : (shared.engine.addFromLastStore worker.bytesRead).needsStore = true := due
        simp [step, at_pc, unlocked, due, Shared.onEngine])
    exact counted.store rfl unlocked taken
  · rename_i early
    cases taken
    refine ⟨worker.goto .notifyFinished, reached.moves .run ?_, rfl, rfl⟩
    have early : ¬ (shared.engine.addFromLastStore worker.bytesRead).needsStore = true := early
    simp [step, at_pc, unlocked, early, Shared.onEngine]

/-- The end of a completed download, up to `on_finish`. -/
theorem RunsTo.finishCompleted {outcome : StoreOutcome}
    (reached : RunsTo start (shared, worker)) (at_pc : worker.pc = .storeLock .complete)
    (unlocked : shared.engine.diskLocked = false)
    (taken : shared.finishCompleted outcome = some after)
    : ∃ next : Worker,
        RunsTo start (after, next) ∧ next.pc = .readEnd ∧ next.item = worker.item := by
  obtain ⟨stored, kept, rfl⟩ := Option.map_eq_some_iff.mp taken
  obtain ⟨next, ran, next_pc, item⟩ := reached.store at_pc unlocked kept
  have released := Shared.store_unlocked kept
  have cleaned : RunsTo start (stored.cleanupArtifacts false, next.goto .finishReport) :=
    ran.moves .run (by simp [step, next_pc, afterStore, released])
  exact ⟨next.goto .readEnd, cleaned.moves .run (by simp [step, goto]), rfl, item⟩

/-- The compare-and-swap of a worker that has counted the last chunk, and what follows. -/
theorem RunsTo.complete {outcome : StoreOutcome}
    (reached : RunsTo start (shared, worker)) (at_pc : worker.pc = .completeCas)
    (unlocked : shared.engine.diskLocked = false)
    (taken : shared.complete outcome = some after)
    : ∃ next : Worker,
        RunsTo start (after, next) ∧ next.pc = .readEnd ∧ next.item = worker.item := by
  have forced
      : shared.engine.state = .paused ∨ shared.engine.state = .failed →
        RunsTo start
          (shared.onEngine fun engine => { engine with state := .completed },
            worker.goto (.storeLock .complete)) := by
    intro found
    have at_force : RunsTo start (shared, worker.goto .completeForce) :=
      reached.moves .run (by rcases found with found | found <;> simp [step, at_pc, found])
    exact at_force.moves .run (by simp [step]; rfl)
  simp only [Shared.complete] at taken
  split at taken
  case h_1 found =>
    have won : RunsTo start
        (shared.onEngine fun engine => { engine with state := .completed },
          worker.goto (.storeLock .complete)) :=
      reached.moves .run (by simp [step, at_pc, found])
    exact won.finishCompleted rfl unlocked taken
  case h_2 found => exact (forced (.inl found)).finishCompleted rfl unlocked taken
  case h_3 found => exact (forced (.inr found)).finishCompleted rfl unlocked taken
  case h_4 =>
    cases taken
    refine ⟨worker.goto .readEnd, reached.moves .run ?_, rfl, rfl⟩
    simp only [step, at_pc]

/-- The test of the notified chunk and what follows. -/
theorem RunsTo.finishChunk {item : WorkItem} {chunk : ChunkInfo} {outcome : StoreOutcome}
    (reached : RunsTo start (shared, worker)) (at_pc : worker.pc = .notifyFinished)
    (held : worker.item = some item)
    (found : shared.engine.chunksInfo[item.chunkId]? = some chunk)
    (unlocked : shared.engine.diskLocked = false)
    (taken : shared.finishChunk item.chunkId outcome = some after)
    : ∃ next : Worker,
        RunsTo start (after, next) ∧ next.pc = .readEnd ∧ next.item = worker.item := by
  have known : worker.chunk? shared.engine = some chunk := by
    simp [chunk?, held, found]
  simp only [Shared.finishChunk, DownloadEngine.chunkFinished_of_found found] at taken
  split at taken
  · rename_i finished
    have at_bump : RunsTo start (shared, worker.goto .notifyBump) :=
      reached.moves .run (by simp [step, at_pc, known, finished])
    split at taken
    · rename_i last
      have bumped : RunsTo start
          (shared.onEngine .bumpDownloaded, worker.goto .completeCas) :=
        at_bump.moves .run (by simp [step, last, goto])
      exact bumped.complete rfl unlocked taken
    · rename_i more
      cases taken
      exact ⟨worker.goto .readEnd, at_bump.moves .run (by simp [step, more, goto]), rfl, rfl⟩
  · rename_i unfinished
    cases taken
    exact ⟨worker.goto .readEnd, reached.moves .run (by simp [step, at_pc, known, unfinished]),
      rfl, rfl⟩

/-- The update of the chunk and the reports, up to the byte counter. -/
theorem runsTo_receive {call : Notification} {item : WorkItem} {chunk : ChunkInfo}
    (at_pc : worker.pc = .notifyUpdate) (held : worker.item = some item)
    (names : call.chunkId = item.chunkId) (counts : call.bytes = worker.bytesRead)
    (found
      : (shared.engine.updateReceived call.chunkId call.bytes).chunksInfo[call.chunkId]?
        = some chunk)
    : ∃ next : Worker,
        RunsTo (shared, worker) (shared.receive call chunk, next)
          ∧ next.pc = .notifyCount
          ∧ next.item = worker.item
          ∧ next.bytesRead = worker.bytesRead := by
  let counted : Shared :=
    (shared.onEngine (.updateReceived call.chunkId call.bytes)).onEngine (.addTotal call.bytes)
  let event : ChunkProgress :=
    { downloadedBytes := chunk.getReceivedSize, totalBytes := chunk.getTotalSize }
  have updated : RunsTo (shared, worker)
      (shared.onEngine (.updateReceived call.chunkId call.bytes), worker.goto .notifyTotal) :=
    RunsTo.moves .start .run (by simp [step, at_pc, held, names, counts])
  have totaled : RunsTo (shared, worker)
      (counted, { worker with pc := .notifyEvent, fireProgress := call.elapsed }) :=
    updated.moves (.clock call.elapsed) (by simp [step, counted, counts, goto])
  have known : Worker.chunk? counted.engine
      { worker with pc := .notifyEvent, fireProgress := call.elapsed } = some chunk := by
    simp only [chunk?, held, Option.bind_some, ← names]
    exact found
  have prepared : RunsTo (shared, worker)
      (counted,
        { worker with pc := .notifyEventReport, fireProgress := call.elapsed, event }) :=
    totaled.moves .run (by simp [step, known, event])
  cases elapsed : call.elapsed with
  | false =>
      refine ⟨{ worker with pc := .notifyCount, fireProgress := false, event },
        prepared.moves .run ?_, rfl, rfl, rfl⟩
      simp [step, held, goto, Shared.receive, elapsed, counted, event, names]
  | true =>
      have reported : RunsTo (shared, worker)
          (counted.reportChunk call.chunkId event,
            { worker with pc := .notifyProgress, fireProgress := true, event }) :=
        prepared.moves .run (by simp [step, held, goto, elapsed, names])
      have measured : RunsTo (shared, worker)
          (counted.reportChunk call.chunkId event,
            { worker with
              pc := .notifyProgressReport
              fireProgress := true
              event
              progress := counted.engine.nTotalReceivedBytes }) :=
        reported.moves .run (by simp [step]; rfl)
      refine ⟨{ worker with
          pc := .notifyCount
          fireProgress := true
          event
          progress := counted.engine.nTotalReceivedBytes },
        measured.moves .run ?_, rfl, rfl, rfl⟩
      simp [step, goto, Shared.receive, elapsed, counted, event]

/-- A worker that notifies without interruption does what `NotifyChunkReceived` does. -/
theorem runsTo_notifyChunkReceived {call : Notification} {item : WorkItem}
    (at_pc : worker.pc = .notifyUpdate) (held : worker.item = some item)
    (names : call.chunkId = item.chunkId) (counts : call.bytes = worker.bytesRead)
    (unlocked : shared.engine.diskLocked = false)
    (taken : shared.notifyChunkReceived call = some after)
    : ∃ next : Worker,
        RunsTo (shared, worker) (after, next) ∧ next.pc = .readEnd ∧ next.item = worker.item := by
  simp only [Shared.notifyChunkReceived] at taken
  split at taken
  · contradiction
  rename_i chunk found
  obtain ⟨counted, stored, finished⟩ := Option.bind_eq_some_iff.mp taken
  obtain ⟨reported, ran, reported_pc, reported_item, reported_bytes⟩ :=
    runsTo_receive at_pc held names counts found
  have engine := Shared.receive_engine call chunk shared
  rw [counts, ← reported_bytes] at stored
  obtain ⟨next, ran, next_pc, next_item⟩ :=
    ran.countStored reported_pc (by rw [engine]; exact unlocked) stored
  have held_next : next.item = some item := by rw [next_item, reported_item, held]
  have present : counted.engine.chunksInfo[item.chunkId]? = some chunk := by
    rw [(Shared.sameCount_of_countStored stored).chunksInfo, engine, ← names]
    exact found
  rw [names] at finished
  obtain ⟨last, ran, last_pc, last_item⟩ :=
    ran.finishChunk next_pc held_next present
      (Shared.countStored_unlocked (by rw [engine]; exact unlocked) stored) finished
  exact ⟨last, ran, last_pc, by rw [last_item, held_next, held]⟩

end Worker

namespace Shared

variable {shared after : Shared}

-----------------------------------------------------------------------------------------
-- What a sequence of calls counts
-----------------------------------------------------------------------------------------

/-- Each call returns with the counter at the number of finished chunks, and completes the
download only if every chunk is finished.
-/
def CountsExactly : List Notification → Shared → Prop
  | [], _ => True
  | call :: rest, shared =>
      ∃ after,
        shared.notifyChunkReceived call = some after
        ∧ after.engine.nDownloadedChunks = finishedCount after.engine.chunksInfo
        ∧ (after.engine.state = .completed
          → shared.engine.state = .completed ∨ after.engine.AllFinished)
        ∧ CountsExactly rest after

/-- Each call names a chunk that has bytes missing at that time. -/
def NamesUnfinished : List Notification → DownloadEngine → Prop
  | [], _ => True
  | call :: rest, engine =>
      (∃ chunk, engine.chunksInfo[call.chunkId]? = some chunk ∧ chunk.isFinished = false)
        ∧ NamesUnfinished rest (engine.updateReceived call.chunkId call.bytes)

/-- Only the chunks decide which calls name unfinished ones, by induction on the calls. -/
theorem namesUnfinished_congr {calls : List Notification} {engine other : DownloadEngine}
    (same : other.chunksInfo = engine.chunksInfo)
    : NamesUnfinished calls other ↔ NamesUnfinished calls engine := by
  induction calls generalizing engine other with
  | nil => rfl
  | cons call rest ih =>
      have moved : (other.updateReceived call.chunkId call.bytes).chunksInfo
          = (engine.updateReceived call.chunkId call.bytes).chunksInfo := by
        simp only [DownloadEngine.updateReceived, same]
      rw [NamesUnfinished, NamesUnfinished, same, ih moved]

/-- A call that returns names a chunk. -/
theorem found_of_notifyChunkReceived {call : Notification}
    (taken : shared.notifyChunkReceived call = some after)
    : ∃ chunk, shared.engine.chunksInfo[call.chunkId]? = some chunk := by
  cases found : shared.engine.chunksInfo[call.chunkId]? with
  | some chunk => exact ⟨chunk, rfl⟩
  | none =>
      simp [notifyChunkReceived, DownloadEngine.updateReceived_getElem?_self, found] at taken

/-- An exact counter stays exact if the notified chunk was unfinished, and otherwise does
not: the test after the update cannot tell a chunk that has just been finished.
-/
theorem counts_iff {call : Notification} {chunk : ChunkInfo}
    (counted : shared.engine.nDownloadedChunks = finishedCount shared.engine.chunksInfo)
    (found : shared.engine.chunksInfo[call.chunkId]? = some chunk)
    (taken : shared.notifyChunkReceived call = some after)
    : after.engine.nDownloadedChunks = finishedCount after.engine.chunksInfo
      ↔ chunk.isFinished = false := by
  obtain ⟨chunks, counter, _⟩ := notifyChunkReceived_spec found taken
  have moved := finishedCount_updateReceived found call.bytes
  rw [← chunks] at moved
  simp only [ChunkInfo.finishedShare] at moved
  cases finished : chunk.isFinished <;>
    cases done : (chunk.updateReceived call.bytes).isFinished <;>
    simp only [finished, done] at counter moved <;>
    simp at counter moved ⊢ <;>
    omega

/-- The download is completed by the notification that finishes the last chunk. -/
theorem allFinished_of_last {call : Notification}
    (fits : shared.engine.nChunks < sizeModulus)
    (taken : shared.notifyChunkReceived call = some after)
    (exact_after : after.engine.nDownloadedChunks = finishedCount after.engine.chunksInfo)
    : (after.engine.state = shared.engine.state ∧ after.engine.writer = shared.engine.writer)
      ∨ after.engine.AllFinished := by
  obtain ⟨chunk, found⟩ := found_of_notifyChunkReceived taken
  obtain ⟨chunks, counter, same | ⟨done, last⟩⟩ := notifyChunkReceived_spec found taken
  · exact Or.inl same
  · right
    have nChunks : after.engine.nChunks = shared.engine.nChunks := by
      simp [DownloadEngine.nChunks, chunks, DownloadEngine.updateReceived]
    have some_chunk : 0 < shared.engine.nChunks :=
      List.length_pos_of_mem (List.mem_of_getElem? found)
    have reached := (DownloadEngine.lastChunk_iff some_chunk fits).mp last
    rw [done, if_pos rfl] at counter
    rw [DownloadEngine.allFinished_iff, nChunks, ← exact_after, counter, reached]

/-- By induction on the calls: while the counter is exact the writer is there or every chunk
is finished, and then no call can name an unfinished one.
-/
theorem countsExactly_iff {calls : List Notification}
    (counted : shared.engine.nDownloadedChunks = finishedCount shared.engine.chunksInfo)
    (fits : shared.engine.nChunks < sizeModulus)
    (usable : shared.engine.writer = true ∨ shared.engine.AllFinished)
    : CountsExactly calls shared ↔ NamesUnfinished calls shared.engine := by
  induction calls generalizing shared with
  | nil => exact Iff.rfl
  | cons call rest ih =>
      have next : ∀ {after : Shared} {chunk : ChunkInfo},
          shared.engine.chunksInfo[call.chunkId]? = some chunk → chunk.isFinished = false →
          shared.notifyChunkReceived call = some after →
          (CountsExactly rest after
            ↔ NamesUnfinished rest (shared.engine.updateReceived call.chunkId call.bytes)) := by
        intro after chunk found unfinished taken
        obtain ⟨chunks, _, _⟩ := notifyChunkReceived_spec found taken
        have exact_after := (counts_iff counted found taken).mpr unfinished
        have nChunks : after.engine.nChunks = shared.engine.nChunks := by
          simp [DownloadEngine.nChunks, chunks, DownloadEngine.updateReceived]
        have open_ : shared.engine.writer = true :=
          usable.resolve_right fun all => by
            simp [all chunk (List.mem_of_getElem? found)] at unfinished
        rw [ih exact_after (nChunks ▸ fits), namesUnfinished_congr chunks]
        exact (allFinished_of_last fits taken exact_after).imp
          (fun same => same.2.trans open_) id
      constructor
      · rintro ⟨after, taken, exact_after, _, counts⟩
        obtain ⟨chunk, found⟩ := found_of_notifyChunkReceived taken
        have unfinished := (counts_iff counted found taken).mp exact_after
        exact ⟨⟨chunk, found, unfinished⟩, (next found unfinished taken).mp counts⟩
      · rintro ⟨⟨chunk, found, unfinished⟩, names⟩
        have open_ : shared.engine.writer = true :=
          usable.resolve_right fun all => by
            simp [all chunk (List.mem_of_getElem? found)] at unfinished
        obtain ⟨after, taken⟩ :=
          Option.isSome_iff_exists.mp (notifyChunkReceived_isSome found open_)
        have exact_after := (counts_iff counted found taken).mpr unfinished
        refine ⟨after, taken, exact_after, ?_, (next found unfinished taken).mpr names⟩
        intro completed
        exact (allFinished_of_last fits taken exact_after).imp
          (fun same => same.1.symm.trans completed) id

/-- After a `BuildPendingWork` the counter is exact over a sequence of calls exactly if every
call names a chunk that has bytes missing at that time.
-/
theorem notifications_counted (calls : List Notification) (shared : Shared)
    (writer : shared.engine.writer = true) (fits : shared.engine.nChunks < sizeModulus)
    : CountsExactly calls (shared.onEngine .buildPendingWork)
      ↔ NamesUnfinished calls (shared.onEngine .buildPendingWork).engine :=
  countsExactly_iff rfl fits (Or.inl writer)

/-- Two chunks of ten bytes while they are downloaded. -/
def twoDownloading : Shared :=
  Sys.twoChunks.shared.onEngine fun engine => { engine with state := .downloading }

/-- Both chunks arrive in one piece each. -/
theorem notifications_counted_two_chunks
    : CountsExactly [{ chunkId := 0, bytes := 10 }, { chunkId := 1, bytes := 10 }]
        (twoDownloading.onEngine .buildPendingWork) :=
  (notifications_counted _ twoDownloading rfl (by decide)).mpr
    ⟨⟨_, rfl, by decide⟩, ⟨_, rfl, by decide⟩, trivial⟩

/-- One byte beyond the end of the first chunk counts the chunk again and completes the
download without the second one.
-/
theorem chunk_counted_twice
    : ¬ CountsExactly [{ chunkId := 0, bytes := 10 }, { chunkId := 0, bytes := 1 }]
          (twoDownloading.onEngine .buildPendingWork)
      ∧ (((twoDownloading.onEngine .buildPendingWork).notifyChunkReceived
            { chunkId := 0, bytes := 10 }).bind
          (notifyChunkReceived { chunkId := 0, bytes := 1 })).any (fun after =>
            after.engine.state == .completed && !decide after.engine.AllFinished) = true := by
  refine ⟨?_, by decide +kernel⟩
  have wrong
      : (((twoDownloading.onEngine .buildPendingWork).notifyChunkReceived
            { chunkId := 0, bytes := 10 }).bind
          (notifyChunkReceived { chunkId := 0, bytes := 1 })).all (fun after =>
            after.engine.nDownloadedChunks != finishedCount after.engine.chunksInfo)
        = true := by
    decide +kernel
  rintro ⟨first, taken, _, _, second, again, exact_after, _⟩
  simp [taken, again, exact_after] at wrong

end Shared

end Muld
