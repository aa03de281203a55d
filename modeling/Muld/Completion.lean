import Muld.Delivery
import Muld.Counting

/-! A served download that is completed holds the served content. The counter of finished
chunks is exact there, so the last bump happens when every chunk is finished.
-/

namespace Muld

open Content Threads

namespace Sys

variable {meets : Sys → Action → Sys → Prop} {start sys : Sys} {remote : Nat → Byte}

theorem ReachableWhile.nChunks_lt (built : start.Built)
    (reached : ReachableWhile meets start sys)
    : sys.shared.engine.nChunks < sizeModulus := by
  have same := congrArg List.length reached.sameJob.ranges
  have fits := built.nChunks
  simp only [DownloadEngine.ranges, List.length_map] at same
  simp only [DownloadEngine.nChunks] at fits ⊢
  omega

/-- A bump that takes its chunk for the last one, with an exact counter, finds every chunk
finished. Witness: the bumping worker itself owes the counter one.
-/
theorem allFinished_of_lastChunk (exact : sys.excess = 0)
    (fits : sys.shared.engine.nChunks < sizeModulus)
    (some_chunk : 0 < sys.shared.engine.nChunks) {worker : Worker}
    (member : worker ∈ sys.workers) (at_pc : worker.pc = .notifyBump)
    (last : sys.shared.engine.lastChunk = true)
    : sys.shared.engine.AllFinished := by
  rw [DownloadEngine.lastChunk_iff some_chunk fits] at last
  have own := share_le_total (Worker.owed_nonneg sys.shared.engine) member
  have one : worker.owed sys.shared.engine = 1 := by simp [Worker.owed, at_pc]
  rw [one] at own
  rw [DownloadEngine.allFinished_iff]
  rw [excess] at exact
  omega

/-- The download completes only with every chunk finished. -/
structure CompletesFinished (sys : Sys) : Prop where
  state : sys.shared.engine.state = .completed → sys.shared.engine.AllFinished
  workers
    : ∀ worker ∈ sys.workers,
        worker.pc.completing = true → sys.shared.engine.AllFinished

/-- Bytes are counted for a chunk that is not finished. -/
theorem ServedRuns.unfinished (served : ServedRuns remote meets start)
    (reached : ReachableWhile meets start sys) {worker : Worker}
    (member : worker ∈ sys.workers) (at_pc : worker.pc = .notifyUpdate)
    : ∃ item chunk,
        worker.item = some item
        ∧ sys.shared.engine.chunksInfo[item.chunkId]? = some chunk
        ∧ chunk.isFinished = false := by
  have holds := (reached.counted served.built).holding worker member (by rw [at_pc]; rfl)
    (by simp [at_pc])
  obtain ⟨item, held⟩ := Option.isSome_iff_exists.mp holds
  obtain ⟨chunk, present, _⟩ :=
    (reached.generation served.built served.alone).chunk_of_held member held
  have course := (served.delivers reached).course worker member item chunk held
    (by simp [at_pc]) present
  exact ⟨item, chunk, held, present,
    course.unfinished at_pc (reached.layout served.layout).small⟩

/-- The counter and what is owed to it are exactly the finished chunks. -/
theorem ServedRuns.exact (served : ServedRuns remote meets start)
    (reached : ReachableWhile meets start sys)
    : sys.ExcessHolds (· = 0) := by
  refine reached.excessHolds served.built served.alone rfl ?_
  intro sys earlier worker member at_pc done excess _
  obtain ⟨item, chunk, held, present, unfinished⟩ := served.unfinished earlier member at_pc
  simp [Worker.chunkDone, Worker.chunk?, held, present, unfinished] at done

/-- Once every chunk is finished, no worker counts another byte. -/
theorem ServedRuns.allFinished_worker_step (served : ServedRuns remote meets start)
    (reached : ReachableWhile meets start sys) {index : Nat} {worker next : Worker}
    {label : WorkerLabel} {shared : Shared} (found : sys.workers[index]? = some worker)
    (taken : worker.Step sys.shared label shared next)
    (all : sys.shared.engine.AllFinished)
    : shared.engine.AllFinished := by
  rcases taken.chunksInfo with same | ⟨item, at_pc, _, held, _⟩
  · intro chunk member
    exact all chunk (same ▸ member)
  · obtain ⟨own, chunk, _, present, unfinished⟩ :=
      served.unfinished reached (List.mem_of_getElem? found) at_pc
    simp [all chunk (List.mem_of_getElem? present)] at unfinished

theorem ServedRuns.completesFinished (served : ServedRuns remote meets start)
    (reached : ReachableWhile meets start sys)
    : sys.CompletesFinished := by
  refine invariant reached ?_ ?_ ?_ ?_
  · exact ⟨by simp [served.built.state], by simp [served.built.workers]⟩
  · intro sys index worker next label shared earlier _ sound found taken _
    have member := List.mem_of_getElem? found
    have keeps := served.allFinished_worker_step earlier found taken
    constructor
    case state =>
      intro completed
      rcases taken.state with same | ⟨_, _, _, other⟩ | ⟨fromPc, _, _⟩ | ⟨_, _, _, other⟩
      · exact keeps (sound.state (same ▸ completed))
      · simp [other] at completed
      · refine keeps (sound.workers worker member ?_)
        rcases fromPc with ⟨at_pc, _⟩ | at_pc <;> rw [at_pc] <;> rfl
      · simp [other] at completed
    case workers =>
      intro other inside at_pc
      rcases List.mem_or_eq_of_mem_set inside with old | rfl
      · exact keeps (sound.workers other old at_pc)
      · rcases taken.completing at_pc with ⟨bumps, kept, last, _⟩ | ⟨before, _⟩
        · have holds := (earlier.counted served.built).holding worker member
            (by rw [bumps]; rfl) (by simp [bumps])
          obtain ⟨item, held⟩ := Option.isSome_iff_exists.mp holds
          have generation := earlier.generation served.built served.alone
          obtain ⟨chunk, present, _⟩ := generation.chunk_of_held member held
          have some_chunk : 0 < sys.shared.engine.nChunks :=
            List.length_pos_of_mem (List.mem_of_getElem? present)
          obtain ⟨done, outside⟩ := (earlier.prepared served.built).of_held
            (earlier.counted served.built) generation (served.alone sys earlier) member held
          exact keeps (allFinished_of_lastChunk (served.exact earlier done outside)
            (earlier.nChunks_lt served.built) some_chunk member bumps last)
        · exact keeps (sound.workers worker member (by rw [before]; rfl))
  · intro sys index call next label shared spawned _ _ sound found taken _
    have same : shared.engine.AllFinished ↔ sys.shared.engine.AllFinished := by
      rw [DownloadEngine.AllFinished, taken.chunksInfo, DownloadEngine.AllFinished]
    constructor
    case state =>
      intro completed
      rcases taken.accepts with ⟨state, _⟩ | ⟨_, _, _, rfl⟩ | ⟨_, _, _, rfl⟩ | ⟨_, _, _, rfl⟩
      · exact same.mpr (sound.state (state ▸ completed))
      all_goals cases completed
    case workers =>
      intro worker member at_pc
      rcases taken.mem_workers member with old | rfl
      · exact same.mpr (sound.workers worker old at_pc)
      · cases at_pc
  · intro sys api dispatched _ sound
    exact ⟨sound.state, sound.workers⟩

-----------------------------------------------------------------------------------------
-- Without a Cancel the output file stays
-----------------------------------------------------------------------------------------

/-- Without an accepted `Cancel`, nothing is about to remove the output file. -/
structure OutputKept (sys : Sys) : Prop where
  output : sys.shared.output.isSome
  state : sys.shared.engine.state ≠ .canceled
  workers : ∀ worker ∈ sys.workers, worker.pc ≠ .closeCleanup
  calls : ∀ call ∈ sys.calls, call.canceling = false

/-- The output file is kept while no `Cancel` is accepted. -/
def KeepsOutput (sys : Sys) : Prop :=
  sys.shared.history.cancelAccepted = false → sys.OutputKept

theorem OutputKept.worker_step (kept : sys.OutputKept) {index : Nat} {worker next : Worker}
    {label : WorkerLabel} {shared : Shared} (found : sys.workers[index]? = some worker)
    (taken : worker.Step sys.shared label shared next)
    : OutputKept { sys with shared, workers := sys.workers.set index next } := by
  have member := List.mem_of_getElem? found
  constructor
  case output =>
    rcases taken.output with same | ⟨_, _, rfl⟩ | ⟨at_pc, _⟩
    · simpa [same] using kept.output
    · simpa [Shared.writeOutput] using kept.output
    · exact absurd at_pc (kept.workers worker member)
  case state =>
    rcases taken.state with same | ⟨_, _, _, other⟩ | ⟨_, _, other⟩ | ⟨_, _, _, other⟩
    · simpa [same] using kept.state
    all_goals simp [other]
  case workers =>
    refine forall_set kept.workers ?_
    intro at_pc
    exact kept.state (taken.cleans at_pc).2.1
  case calls => exact kept.calls

theorem OutputKept.call_step (kept : sys.OutputKept) {index : Nat} {call next : Call}
    {label : CallLabel} {shared : Shared} {spawned : List Worker}
    (found : sys.calls[index]? = some call)
    (taken : Call.Step index sys.shared call label shared next spawned)
    (uncanceled : shared.history.cancelAccepted = false)
    : OutputKept { sys with
        shared
        workers := sys.workers ++ spawned
        calls := sys.calls.set index next } := by
  have member := List.mem_of_getElem? found
  obtain ⟨_, moved, stays⟩ := taken.accepts_uncanceled uncanceled
  constructor
  case output =>
    rcases taken.output with same | ⟨rfl, _⟩
    · simpa [same] using kept.output
    · have outside := kept.calls _ member
      contradiction
  case state =>
    rcases moved with same | queued | paused
    · simpa [same] using kept.state
    · simp [queued]
    · simp [paused]
  case workers =>
    intro worker present
    rcases taken.mem_workers present with old | rfl
    · exact kept.workers worker old
    · simp
  case calls =>
    refine forall_set kept.calls (eq_false_of_ne_true ?_)
    intro canceling
    have before := stays canceling
    rw [kept.calls call member] at before
    contradiction

theorem ReachableWhile.keepsOutput (built : start.Built) (output : start.shared.output.isSome)
    (reached : ReachableWhile meets start sys)
    : sys.KeepsOutput := by
  refine invariant reached ?_ ?_ ?_ ?_
  · intro _
    exact ⟨output, by simp [built.state], by simp [built.workers], by simp [built.calls]⟩
  · intro sys index worker next label shared _ _ keeps found taken _ uncanceled
    exact (keeps (taken.cancelAccepted ▸ uncanceled)).worker_step found taken
  · intro sys index call next label shared spawned _ _ keeps found taken _ uncanceled
    have kept := keeps (taken.accepts_uncanceled uncanceled).1
    exact kept.call_step found taken uncanceled
  · intro sys api dispatched _ keeps uncanceled
    have kept := keeps uncanceled
    refine { kept with calls := ?_ }
    intro call member
    rcases mem_snoc_cases member with old | rfl
    · exact kept.calls call old
    · cases api <;> rfl

-----------------------------------------------------------------------------------------
-- A completed download is the served content
-----------------------------------------------------------------------------------------

/-- Every byte of the file lies in the range of a chunk inside the file. -/
def CoversFile (sys : Sys) : Prop :=
  ∀ position < sys.shared.engine.fileSize,
    ∃ range ∈ sys.shared.engine.ranges,
      range.1 ≤ position ∧ position ≤ range.2 ∧ range.2 < sys.shared.engine.fileSize

/-- The output file holds the received bytes of every chunk. -/
structure Resumable (remote : Nat → Byte) (sys : Sys) : Prop where
  received
    : ∀ chunk ∈ sys.shared.engine.chunksInfo, chunk.received ≤ chunk.getTotalSize
  output : sys.shared.output.isSome
  disk
    : ∀ file,
        sys.shared.output = some file
        → ∀ chunk ∈ sys.shared.engine.chunksInfo,
            Agrees file remote chunk.startRange (chunk.startRange + chunk.received)

/-- A fresh job has received nothing. -/
theorem fresh_resumable (remote : Nat → Byte) (maxConnections : Int) (fileSize : Nat)
    (ranged : Bool) (nChunks : Nat) [NeZero nChunks] (file : Nat → Byte) (maxThreads : Int)
    : (fresh maxConnections fileSize ranged nChunks file maxThreads).Resumable remote := by
  have untouched
      : ∀ chunk ∈ (DownloadEngine.create maxConnections fileSize ranged nChunks).chunksInfo,
          chunk.received = 0 := by
    intro chunk member
    obtain ⟨index, _, rfl⟩ := List.mem_map.mp member
    rfl
  constructor
  case received =>
    intro chunk member
    rw [untouched chunk member]
    exact Nat.zero_le _
  case output => rfl
  case disk =>
    intro written _ chunk member
    rw [untouched chunk member]
    exact Agrees.empty _ _ _

theorem Built.delivered (built : start.Built) (resumable : start.Resumable remote)
    : start.Delivered remote where
  received := resumable.received
  disk := resumable.disk
  origin := by simp [built.pendingWork]
  course := by simp [built.workers]

/-- In a served run, a download whose chunks are all finished holds the served content.
Witness: the received bytes of the chunks cover the file.
-/
theorem ServedRuns.finished (served : ServedRuns remote meets start)
    (covers : start.CoversFile) (output : start.shared.output.isSome)
    (reached : ReachableWhile meets start sys)
    (uncanceled : sys.shared.history.cancelAccepted = false)
    (all : sys.shared.engine.AllFinished)
    : ∃ file,
        sys.shared.output = some file
        ∧ ∀ position < sys.shared.engine.fileSize, file position = remote position := by
  have kept := reached.keepsOutput served.built output uncanceled
  obtain ⟨file, present⟩ := Option.isSome_iff_exists.mp kept.output
  refine ⟨file, present, ?_⟩
  intro position inFile
  have same := reached.sameJob
  obtain ⟨range, inRanges, low, high, bounded⟩ := covers position (same.fileSize ▸ inFile)
  rw [← same.ranges] at inRanges
  obtain ⟨chunk, member, rfl⟩ := List.mem_map.mp inRanges
  have proper : chunk.Proper sys.shared.engine.fileSize :=
    ⟨Nat.le_trans low high, same.fileSize ▸ bounded⟩
  have total := proper.getTotalSize_eq (reached.layout served.layout).small
  have finished := all chunk member
  rw [ChunkInfo.isFinished_iff, total] at finished
  simp only at low high
  exact (served.delivers reached).disk file present chunk member position low (by omega)

/-- In a served run, a completed download holds the served content: every chunk is finished.
-/
theorem ServedRuns.completed (served : ServedRuns remote meets start)
    (covers : start.CoversFile) (output : start.shared.output.isSome)
    (reached : ReachableWhile meets start sys)
    (uncanceled : sys.shared.history.cancelAccepted = false)
    (completed : sys.shared.engine.state = .completed)
    : ∃ file,
        sys.shared.output = some file
        ∧ ∀ position < sys.shared.engine.fileSize, file position = remote position :=
  served.finished covers output reached uncanceled
    ((served.completesFinished reached).state completed)

/-- A run against the server of `remote` whose rebuilds run alone. -/
def RemoteRun (remote : Nat → Byte) (before : Sys) (action : Action) (after : Sys) : Prop :=
  Serves remote before action after ∧ after.BuildAlone

instance (remote : Nat → Byte) (before : Sys) (action : Action) (after : Sys)
    : Decidable (RemoteRun remote before action after) := by
  unfold RemoteRun
  infer_instance

/-- A completed ranged download is the remote file. -/
theorem ranged_completed (built : start.Built) (ranged : start.shared.engine.ranged = true)
    (layout : start.shared.engine.Layout) (covers : start.CoversFile)
    (resumable : start.Resumable remote)
    (reached : ReachableWhile (RemoteRun remote) start sys)
    (uncanceled : sys.shared.history.cancelAccepted = false)
    (completed : sys.shared.engine.state = .completed)
    : ∃ file,
        sys.shared.output = some file
        ∧ ∀ position < sys.shared.engine.fileSize, file position = remote position := by
  have served : ServedRuns remote (RemoteRun remote) start := {
    built
    layout
    delivered := built.delivered resumable
    alone := fun _ earlier =>
      earlier.holds_after (by simp [BuildAlone, built.calls]) (fun _ _ _ met => met.2)
    serves := fun _ _ _ met => met.1
    rebuilds := by
      intro before action after earlier _
      have stillRanged := earlier.sameJob.ranged.trans ranged
      unfold RebuildsFromOrigin
      split
      · intro _ notRanged
        simp [stillRanged] at notRanged
      · trivial
  }
  exact served.completed covers resumable.output reached uncanceled completed

/-- The job of two chunks is laid out over its file. -/
theorem twoChunks_layout : twoChunks.shared.engine.Layout where
  small := by decide
  proper := by
    have chunks : ∀ chunk ∈ twoChunks.shared.engine.chunksInfo,
        chunk.startRange ≤ chunk.endRange
          ∧ chunk.endRange < twoChunks.shared.engine.fileSize := by
      decide
    exact fun chunk member _ => ⟨(chunks chunk member).1, (chunks chunk member).2⟩
  whole := fun notRanged => nomatch notRanged

open Muld.Action in
/-- One worker downloads both chunks and completes the download. -/
theorem ranged_completed_two_chunks
    : ∃ sys : Sys,
        sys.shared.engine.state = .completed
        ∧ ∃ file,
            sys.shared.output = some file
            ∧ ∀ position < sys.shared.engine.fileSize, file position = UInt8.ofNat position := by
  obtain ⟨sys, reached, holds⟩ :=
    exists_reachable (RemoteRun UInt8.ofNat) twoChunks
      (.invoke .start :: callRuns 0 14 ++ workerRuns 0 6
        ++ fetch 0 206 (slice UInt8.ofNat 0 10)
        ++ workerRuns 0 2 ++ [.worker 0 (.isDone true)] ++ workerRuns 0 3
        ++ fetch 0 206 (slice UInt8.ofNat 10 10) ++ workerRuns 0 2)
      (fun sys =>
        sys.shared.engine.state == .completed && !sys.shared.history.cancelAccepted)
      (by decide +kernel)
  simp only [Bool.and_eq_true, Bool.not_eq_true', beq_iff_eq] at holds
  exact ⟨sys, holds.1,
    ranged_completed twoChunks_built rfl twoChunks_layout (by unfold CoversFile; decide)
      (fresh_resumable ..) reached holds.2 holds.1⟩

-----------------------------------------------------------------------------------------
-- Downloads without range support
-----------------------------------------------------------------------------------------

/-- The bytes of a download without range support land where they belong: the next byte
that a worker writes goes to its own position in the body, no more bytes are received than
the file has, and a completed download is the served content.
-/
structure BodyInPlace (remote : Nat → Byte) (sys : Sys) : Prop where
  writes
    : ∀ worker ∈ sys.workers,
        worker.pc = .write
        → worker.currentOffset + worker.buffer.length = worker.bodyPosition
  received
    : (sys.shared.engine.chunksInfo.map ChunkInfo.received).sum ≤ sys.shared.engine.fileSize
  completed
    : sys.shared.history.cancelAccepted = false
      → sys.shared.engine.state = .completed
      → ∃ file,
          sys.shared.output = some file
          ∧ ∀ position < sys.shared.engine.fileSize, file position = remote position

/-- A run against the server of `remote` in which planners keep clear of rebuilds and, for
a server without range support, rebuilds find unfinished chunks untouched.
-/
def OriginRun (remote : Nat → Byte) (before : Sys) (action : Action) (after : Sys) : Prop :=
  Serves remote before action after
  ∧ RebuildsFromOrigin before action after
  ∧ PlanAvoidsRebuild before action after

instance (remote : Nat → Byte) (before : Sys) (action : Action) (after : Sys)
    : Decidable (OriginRun remote before action after) := by
  unfold OriginRun
  infer_instance

/-- The layout of a file in one chunk. -/
def OneChunk (sys : Sys) : Prop :=
  sys.shared.engine.ranges = [(0, wrapSub sys.shared.engine.fileSize 1)]

theorem OneChunk.layout (oneChunk : start.OneChunk)
    (small : start.shared.engine.fileSize < sizeModulus)
    : start.shared.engine.Layout := by
  have range : ∀ chunk ∈ start.shared.engine.chunksInfo, chunk.getTotalSize ≠ 0 →
      0 < start.shared.engine.fileSize
        ∧ chunk.startRange = 0
        ∧ chunk.endRange = start.shared.engine.fileSize - 1 := by
    intro chunk member nonempty
    have inRanges : (chunk.startRange, chunk.endRange) ∈ start.shared.engine.ranges :=
      List.mem_map.mpr ⟨chunk, member, rfl⟩
    rw [oneChunk, List.mem_singleton, Prod.mk.injEq] at inRanges
    obtain ⟨starts, ends⟩ := inRanges
    by_cases empty : start.shared.engine.fileSize = 0
    · refine absurd ?_ nonempty
      rw [ChunkInfo.getTotalSize, starts, ends, empty]
      decide
    · rw [wrapSub_of_le (by omega) small] at ends
      exact ⟨by omega, starts, ends⟩
  constructor
  case small => exact small
  case proper =>
    intro chunk member nonempty
    obtain ⟨positive, starts, ends⟩ := range chunk member nonempty
    exact ⟨by omega, by omega⟩
  case whole =>
    intro _ chunk member nonempty
    obtain ⟨positive, _, ends⟩ := range chunk member nonempty
    omega

theorem OneChunk.covers (oneChunk : start.OneChunk)
    (small : start.shared.engine.fileSize < sizeModulus)
    : start.CoversFile := by
  intro position inFile
  rw [oneChunk]
  refine ⟨_, List.mem_singleton_self _, Nat.zero_le _, ?_⟩
  simp only [wrapSub_of_le (by omega : 1 ≤ start.shared.engine.fileSize) small]
  omega

/-- Where a download without range support has one chunk and rebuilds only untouched work,
its bytes land where they belong.
-/
theorem body_in_place (built : start.Built) (notRanged : start.shared.engine.ranged = false)
    (small : start.shared.engine.fileSize < sizeModulus) (oneChunk : start.OneChunk)
    (resumable : start.Resumable remote)
    (reached : ReachableWhile (OriginRun remote) start sys)
    : sys.BodyInPlace remote := by
  have layout := oneChunk.layout small
  have served : ServedRuns remote (OriginRun remote) start := {
    built
    layout
    delivered := built.delivered resumable
    alone := fun _ earlier => earlier.buildAlone built (fun _ _ _ met => met.2.2)
    serves := fun _ _ _ met => met.1
    rebuilds := fun _ _ _ _ met => met.2.1
  }
  have delivered := served.delivers reached
  have still := reached.sameJob.ranged.trans notRanged
  constructor
  case writes =>
    intro worker member at_pc
    have holds := (reached.counted built).holding worker member (by rw [at_pc]; rfl)
      (by simp [at_pc])
    obtain ⟨item, held⟩ := Option.isSome_iff_exists.mp holds
    obtain ⟨chunk, present, _⟩ :=
      (reached.generation built served.alone).chunk_of_held member held
    have course := delivered.course worker member item chunk held (by simp [at_pc]) present
    have body := course.body (by simp [at_pc, WorkerPc.phase])
    have bodyStart := course.bodyStart (by simp [at_pc, WorkerPc.phase]) still
    simp only [Worker.unwritten, at_pc, WorkerPc.phase] at body
    omega
  case received =>
    have ranges := reached.sameJob.ranges.trans oneChunk
    obtain ⟨chunk, only, _⟩ := List.map_eq_singleton_iff.mp ranges
    have member : chunk ∈ sys.shared.engine.chunksInfo := by simp [only]
    have most := delivered.received chunk member
    have fits : chunk.getTotalSize ≤ sys.shared.engine.fileSize := by
      by_cases empty : chunk.getTotalSize = 0
      · omega
      · have proper := (reached.layout layout).proper chunk member empty
        have inFile := proper.inFile
        rw [proper.getTotalSize_eq (reached.layout layout).small]
        omega
    rw [only, List.map_singleton, List.sum_singleton]
    omega
  case completed =>
    intro uncanceled completed
    exact served.completed (oneChunk.covers small) resumable.output reached uncanceled completed

open Muld.Action in
/-- A worker writes the first bytes of the only body. -/
theorem body_in_place_first_attempt
    : ∃ sys : Sys,
        sys.BodyInPlace UInt8.ofNat ∧ sys.workers.map Worker.pc = [.write] := by
  obtain ⟨sys, reached, holds⟩ :=
    exists_reachable (OriginRun UInt8.ofNat) oneChunk
      (.invoke .start :: callRuns 0 13 ++ workerRuns 0 8
        ++ [.worker 0 (.header 200 ""), .worker 0 (.isDone false)] ++ workerRuns 0 2
        ++ [.worker 0 (.read (slice UInt8.ofNat 0 5) .none)])
      (fun sys => sys.workers.map Worker.pc == [.write])
      (by decide +kernel)
  exact ⟨sys, body_in_place oneChunk_built rfl (by decide) (by unfold OneChunk; decide)
    (fresh_resumable ..) reached, eq_of_beq holds⟩

open Muld.Action in
/-- A paused download without range support resumes behind the bytes it has, while the
server sends the file from its start: the first byte of the body goes to offset five.
-/
theorem body_misplaced
    : ¬ ∀ (remote : Nat → Byte) (start sys : Sys),
        start.Built
        → start.shared.engine.ranged = false
        → start.shared.engine.fileSize < sizeModulus
        → start.CoversFile
        → start.Resumable remote
        → ReachableWhile (Serves remote) start sys
        → sys.BodyInPlace remote := by
  intro inPlace
  obtain ⟨sys, reached, holds⟩ :=
    exists_reachable (Serves UInt8.ofNat) oneChunk
      (.invoke .start :: callRuns 0 13 ++ workerRuns 0 6
        ++ fetch 0 200 (slice UInt8.ofNat 0 5)
        ++ .invoke .pause :: callRuns 1 2
        ++ workerRuns 0 1 ++ [.worker 0 (.isDone false)] ++ workerRuns 0 6
        ++ .invoke .resume :: callRuns 2 13 ++ workerRuns 1 8
        ++ [.worker 1 (.header 200 ""), .worker 1 (.isDone false)] ++ workerRuns 1 2
        ++ [.worker 1 (.read (slice UInt8.ofNat 0 5) .none)])
      (fun sys =>
        sys.workers.any fun worker =>
          worker.pc == .write
            && worker.currentOffset + worker.buffer.length != worker.bodyPosition)
      (by decide +kernel)
  have sound := inPlace _ _ sys oneChunk_built rfl (by decide) (by unfold CoversFile; decide)
    (fresh_resumable ..) reached
  obtain ⟨worker, member, displaced⟩ := List.any_eq_true.mp holds
  simp only [Bool.and_eq_true, beq_iff_eq, bne_iff_ne] at displaced
  exact displaced.2 (sound.writes worker member displaced.1)

end Sys

end Muld
