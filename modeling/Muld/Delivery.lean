import Muld.Streaming

/-! Every byte that a served download has received is on disk where it belongs. -/

namespace Muld

open Content

/-- The ranges of the chunks lie in the file; without range support the one chunk that is
not empty ends with the file.
-/
structure DownloadEngine.Layout (engine : DownloadEngine) : Prop where
  small : engine.fileSize < sizeModulus
  proper
    : ∀ chunk ∈ engine.chunksInfo,
        chunk.getTotalSize ≠ 0 → chunk.Proper engine.fileSize
  whole
    : engine.ranged = false
      → ∀ chunk ∈ engine.chunksInfo,
          chunk.getTotalSize ≠ 0 → chunk.endRange + 1 = engine.fileSize

/-- A layout depends on what no step changes. -/
theorem DownloadEngine.Layout.congr {engine other : DownloadEngine} (layout : engine.Layout)
    (fileSize : other.fileSize = engine.fileSize) (ranged : other.ranged = engine.ranged)
    (ranges : other.ranges = engine.ranges)
    : other.Layout := by
  have old : ∀ chunk ∈ other.chunksInfo, ∃ before ∈ engine.chunksInfo,
      before.startRange = chunk.startRange ∧ before.endRange = chunk.endRange := by
    intro chunk member
    have inRanges : (chunk.startRange, chunk.endRange) ∈ other.ranges :=
      List.mem_map.mpr ⟨chunk, member, rfl⟩
    rw [ranges] at inRanges
    obtain ⟨before, present, same⟩ := List.mem_map.mp inRanges
    exact ⟨before, present, (Prod.mk.inj same).1, (Prod.mk.inj same).2⟩
  constructor
  case small => exact fileSize ▸ layout.small
  case proper =>
    intro chunk member nonempty
    obtain ⟨before, present, starts, ends⟩ := old chunk member
    have proper := layout.proper before present
      (by simpa [ChunkInfo.getTotalSize, starts, ends] using nonempty)
    exact ⟨by rw [← starts, ← ends]; exact proper.ordered,
      by rw [← ends, fileSize]; exact proper.inFile⟩
  case whole =>
    intro notRanged chunk member nonempty
    obtain ⟨before, present, starts, ends⟩ := old chunk member
    rw [← ends, fileSize]
    exact layout.whole (ranged ▸ notRanged) before present
      (by simpa [ChunkInfo.getTotalSize, starts, ends] using nonempty)

namespace Sys

variable {meets : Sys → Action → Sys → Prop} {start sys : Sys}

/-- The job is the one the run started with. -/
structure SameJob (start sys : Sys) : Prop where
  fileSize : sys.shared.engine.fileSize = start.shared.engine.fileSize
  ranged : sys.shared.engine.ranged = start.shared.engine.ranged
  ranges : sys.shared.engine.ranges = start.shared.engine.ranges

/-- No step changes the size of the file, the mode or the ranges of the chunks. -/
theorem ReachableWhile.sameJob (reached : ReachableWhile meets start sys)
    : start.SameJob sys := by
  refine invariant reached ⟨rfl, rfl, rfl⟩ ?_ ?_ ?_
  · intro sys index worker next label shared _ _ same _ taken _
    exact ⟨taken.fileSize.trans same.fileSize, taken.ranged.trans same.ranged,
      taken.ranges.trans same.ranges⟩
  · intro sys index call next label shared spawned _ _ same _ taken _
    refine ⟨taken.fileSize.trans same.fileSize, taken.ranged.trans same.ranged,
      Eq.trans ?_ same.ranges⟩
    rw [DownloadEngine.ranges, taken.chunksInfo, DownloadEngine.ranges]
  · intro sys api dispatched _ same
    exact ⟨same.fileSize, same.ranged, same.ranges⟩

theorem ReachableWhile.layout (reached : ReachableWhile meets start sys)
    (layout : start.shared.engine.Layout)
    : sys.shared.engine.Layout :=
  layout.congr reached.sameJob.fileSize reached.sameJob.ranged reached.sameJob.ranges

/-- Every worker that reads is served the content from the first byte of its body on. -/
def Serves (remote : Nat → Byte) (before : Sys) (action : Action) (_ : Sys) : Prop :=
  match action with
  | .worker index label =>
      ∀ worker ∈ before.workers[index]?, worker.Served remote before.shared.engine label
  | _ => True

instance (remote : Nat → Byte) (before : Sys) (action : Action) (after : Sys)
    : Decidable (Serves remote before action after) :=
  match action with
  | .worker .. | .call .. | .invoke .. => by unfold Serves; infer_instance

/-- A rebuild for a server without range support finds every unfinished chunk untouched
and at the start of the file.
-/
def RebuildsFromOrigin (before : Sys) (action : Action) (_ : Sys) : Prop :=
  match action with
  | .call index _ =>
      before.calls[index]? = some .rebuild
      → before.shared.engine.ranged = false
      → ∀ item ∈ pendingItems 0 0 before.shared.engine.chunksInfo, item.rangeStart = 0
  | _ => True

instance (before : Sys) (action : Action) (after : Sys)
    : Decidable (RebuildsFromOrigin before action after) :=
  match action with
  | .worker .. | .call .. | .invoke .. => by unfold RebuildsFromOrigin; infer_instance

/-- The received bytes of every chunk are on disk and every worker is on course. -/
structure Delivered (remote : Nat → Byte) (sys : Sys) : Prop where
  received
    : ∀ chunk ∈ sys.shared.engine.chunksInfo, chunk.received ≤ chunk.getTotalSize
  disk
    : ∀ file,
        sys.shared.output = some file
        → ∀ chunk ∈ sys.shared.engine.chunksInfo,
            Agrees file remote chunk.startRange (chunk.startRange + chunk.received)
  origin
    : sys.shared.engine.ranged = false
      → ∀ item ∈ sys.shared.engine.pendingWork, item.rangeStart = 0
  course
    : ∀ worker ∈ sys.workers,
        ∀ item chunk,
          worker.item = some item
          → worker.pc ≠ .failSet
          → sys.shared.engine.chunksInfo[item.chunkId]? = some chunk
          → worker.OnCourse remote sys.shared chunk

/-- Nothing is written over the content: a file after the step agrees with it wherever the
file before did.
-/
def Preserves (remote : Nat → Byte) (before after : Option (Nat → Byte)) : Prop :=
  ∀ written,
    after = some written
    → ∃ file,
        before = some file
        ∧ ∀ low high, Agrees file remote low high → Agrees written remote low high

theorem preserves_refl (remote : Nat → Byte) (output : Option (Nat → Byte))
    : Preserves remote output output :=
  fun written found => ⟨written, found, fun _ _ agrees => agrees⟩

theorem preserves_cleanup (remote : Nat → Byte) (removeOutputFile : Bool) (shared : Shared)
    : Preserves remote shared.output (shared.cleanupArtifacts removeOutputFile).output := by
  rcases shared.cleanupArtifacts_output removeOutputFile with same | removed
  · rw [same]
    exact preserves_refl remote _
  · intro written found
    rw [removed] at found
    contradiction

variable {remote : Nat → Byte}

/-- Served workers write the content over itself. -/
theorem Delivered.preserves (delivered : sys.Delivered remote) (counted : sys.Counted)
    (generation : sys.Generation) {index : Nat} {worker next : Worker} {label : WorkerLabel}
    {shared : Shared} (found : sys.workers[index]? = some worker)
    (taken : worker.Step sys.shared label shared next)
    : Preserves remote sys.shared.output shared.output := by
  have member := List.mem_of_getElem? found
  rcases taken.output with same | ⟨count, at_pc, rfl⟩ | ⟨_, rfl⟩
  · rw [same]
    exact preserves_refl remote _
  · have holds := counted.holding worker member (by rw [at_pc]; rfl) (by simp [at_pc])
    obtain ⟨item, held⟩ := Option.isSome_iff_exists.mp holds
    obtain ⟨chunk, present, _⟩ := generation.chunk_of_held member held
    have course := delivered.course worker member item chunk held (by simp [at_pc]) present
    obtain ⟨content, _⟩ := course.buffer (by rw [at_pc]; rfl)
    intro written stored
    obtain ⟨file, before, rfl⟩ := Option.map_eq_some_iff.mp stored
    refine ⟨file, before, ?_⟩
    intro low high agrees
    rw [content, slice_take]
    exact agrees.write_slice _ _
  · exact preserves_cleanup remote true sys.shared

/-- A worker that counts its bytes is on course for the chunk before the count. -/
theorem Delivered.counting (delivered : sys.Delivered remote) {worker : Worker}
    (member : worker ∈ sys.workers) (at_pc : worker.pc = .notifyUpdate) {item : WorkItem}
    (held : worker.item = some item) {chunk : ChunkInfo}
    (present : sys.shared.engine.chunksInfo[item.chunkId]? = some chunk)
    : worker.OnCourse remote sys.shared chunk :=
  delivered.course worker member item chunk held (by simp [at_pc]) present

/-- A worker that got an item starts at the first byte its chunk still misses. -/
theorem Delivered.course_taken (delivered : sys.Delivered remote)
    (generation : sys.Generation) (layout : sys.shared.engine.Layout) (worker : Worker)
    {item : WorkItem} (available : sys.shared.engine.nextItem = some item) {chunk : ChunkInfo}
    (present : sys.shared.engine.chunksInfo[item.chunkId]? = some chunk)
    : Worker.OnCourse remote sys.shared chunk
        { worker with
          pc := .pollInner, item := some item, currentOffset := item.rangeStart } := by
  obtain ⟨fresh, named, unfinished, missing⟩ :=
    generation.fresh _ item (Nat.le_refl _) available
  obtain rfl : fresh = chunk := Option.some.inj (named.symm.trans present)
  have inChunks := List.mem_of_getElem? named
  have received := delivered.received fresh inChunks
  have nonempty : fresh.getTotalSize ≠ 0 := by
    intro empty
    have finished := fresh.isFinished_iff.mpr (by omega)
    simp [finished] at unfinished
  exact Worker.onCourse_of_take (layout.proper fresh inChunks nonempty) layout.small received
    item missing (fun notRanged => delivered.origin notRanged item (List.mem_of_getElem? available))

/-- The worker that steps stays on course, or gets on one with a new item. -/
theorem Delivered.course_own (delivered : sys.Delivered remote) (counted : sys.Counted)
    (generation : sys.Generation) (layout : sys.shared.engine.Layout) {index : Nat}
    {worker next : Worker} {label : WorkerLabel} {shared : Shared} {after : Sys}
    (found : sys.workers[index]? = some worker)
    (taken : worker.Step sys.shared label shared next)
    (serves : Serves remote sys (.worker index label) after) {item : WorkItem}
    (held : next.item = some item) (running : next.pc ≠ .failSet) {chunk : ChunkInfo}
    (present : shared.engine.chunksInfo[item.chunkId]? = some chunk)
    : next.OnCourse remote shared chunk := by
  have member := List.mem_of_getElem? found
  rcases taken.item with kept | dropped | ⟨took, _, available, rfl, rfl⟩
  · have heldBefore := kept ▸ held
    have runningBefore := taken.not_failed held
    by_cases at_pc : worker.pc = .notifyUpdate
    · obtain ⟨own, ownHeld, rfl, rfl⟩ := taken.counts at_pc
      obtain rfl : own = item := Option.some.inj (ownHeld.symm.trans heldBefore)
      obtain ⟨before, named, rfl⟩ := Option.map_eq_some_iff.mp
        ((DownloadEngine.updateReceived_getElem?_self ..).symm.trans present)
      have course := delivered.counting member at_pc heldBefore named
      exact (course.counted at_pc layout.small taken.fileSize taken.ranged).2
    · have before : sys.shared.engine.chunksInfo[item.chunkId]? = some chunk :=
        taken.chunksInfo_eq at_pc ▸ present
      have course :=
        delivered.course worker member item chunk heldBefore runningBefore before
      obtain ⟨known, atKnown, ends⟩ := generation.chunk_of_held member heldBefore
      obtain rfl : known = chunk := Option.some.inj (atKnown.symm.trans before)
      refine course.step taken (counted.placed worker member) heldBefore held running at_pc
        ends ?_ (serves worker found)
      intro notRanged
      have proper := course.proper
      refine layout.whole notRanged known (List.mem_of_getElem? before) ?_
      rw [proper.getTotalSize_eq layout.small]
      have ordered := proper.ordered
      omega
  · rw [dropped] at held
    contradiction
  · obtain rfl : took = item := Option.some.inj held
    have course := delivered.course_taken generation layout worker available present
    exact course.frame taken.fileSize taken.ranged
      (delivered.preserves counted generation found taken)

/-- The other workers stay on course: they hold other chunks. -/
theorem Delivered.course_other (delivered : sys.Delivered remote) (counted : sys.Counted)
    (generation : sys.Generation) {index position : Nat} {worker next other : Worker}
    {label : WorkerLabel} {shared : Shared} (found : sys.workers[index]? = some worker)
    (taken : worker.Step sys.shared label shared next) (different : position ≠ index)
    (atOther : sys.workers[position]? = some other) {item : WorkItem}
    (held : other.item = some item) (running : other.pc ≠ .failSet) {chunk : ChunkInfo}
    (present : shared.engine.chunksInfo[item.chunkId]? = some chunk)
    : other.OnCourse remote shared chunk := by
  have before := generation.chunk_of_other found taken different atOther held present
  have course :=
    delivered.course other (List.mem_of_getElem? atOther) item chunk held running before
  exact course.frame taken.fileSize taken.ranged
    (delivered.preserves counted generation found taken)

theorem Delivered.worker_step (delivered : sys.Delivered remote) (counted : sys.Counted)
    (generation : sys.Generation) (layout : sys.shared.engine.Layout) {index : Nat}
    {worker next : Worker} {label : WorkerLabel} {shared : Shared} {after : Sys}
    (found : sys.workers[index]? = some worker)
    (taken : worker.Step sys.shared label shared next)
    (serves : Serves remote sys (.worker index label) after)
    : Delivered remote { sys with shared, workers := sys.workers.set index next } := by
  have member := List.mem_of_getElem? found
  constructor
  case received =>
    intro chunk inside
    rcases taken.chunksInfo with same | ⟨item, at_pc, rfl, held, moved⟩
    · exact delivered.received chunk (same ▸ inside)
    · rw [moved] at inside
      rcases DownloadEngine.mem_updateReceived inside with old | ⟨before, present, rfl⟩
      · exact delivered.received chunk old
      · have course := delivered.counting member at_pc held present
        have later := (course.counted at_pc layout.small taken.fileSize taken.ranged).2
        exact later.received_le (taken.fileSize ▸ layout.small)
  case disk =>
    intro written stored chunk inside
    obtain ⟨file, present, keeps⟩ :=
      delivered.preserves counted generation found taken written stored
    rcases taken.chunksInfo with same | ⟨item, at_pc, rfl, held, moved⟩
    · exact keeps _ _ (delivered.disk file present chunk (same ▸ inside))
    · rw [moved] at inside
      rcases DownloadEngine.mem_updateReceived inside with old | ⟨before, named, rfl⟩
      · exact keeps _ _ (delivered.disk file present chunk old)
      · have course := delivered.counting member at_pc held named
        have received := (course.counted at_pc layout.small taken.fileSize taken.ranged).1
        have offset := course.offset
        have start := delivered.disk file present before (List.mem_of_getElem? named)
        have rest := course.disk file present
        simp only [Worker.uncounted, at_pc, WorkerPc.phase] at offset
        simp only [ChunkInfo.updateReceived_startRange, received]
        rw [← Nat.add_assoc, ← offset]
        exact keeps _ _ (start.append rest)
  case origin =>
    intro notRanged
    rw [taken.pendingWork]
    exact delivered.origin (taken.ranged ▸ notRanged)
  case course =>
    intro other inside item chunk held running present
    obtain ⟨position, at_position⟩ := List.mem_iff_getElem?.mp inside
    rcases Threads.getElem?_set_cases at_position with ⟨rfl, rfl⟩ | ⟨different, atOther⟩
    · exact delivered.course_own counted generation layout found taken serves held running present
    · exact delivered.course_other counted generation found taken different atOther held running
        present

theorem Delivered.call_step (delivered : sys.Delivered remote) {index : Nat}
    {call next : Call} {label : CallLabel} {shared : Shared} {spawned : List Worker}
    {after : Sys} (found : sys.calls[index]? = some call)
    (taken : Call.Step index sys.shared call label shared next spawned)
    (rebuilds : RebuildsFromOrigin sys (.call index label) after)
    : Delivered remote { sys with
        shared
        workers := sys.workers ++ spawned
        calls := sys.calls.set index next } := by
  have preserves : Preserves remote sys.shared.output shared.output := by
    rcases taken.output with same | ⟨_, rfl⟩
    · rw [same]
      exact preserves_refl remote _
    · exact preserves_cleanup remote true sys.shared
  constructor <;> simp only [taken.chunksInfo]
  case received => exact delivered.received
  case disk =>
    intro written stored chunk inside
    obtain ⟨file, present, keeps⟩ := preserves written stored
    exact keeps _ _ (delivered.disk file present chunk inside)
  case origin =>
    rw [taken.ranged]
    intro notRanged
    rcases taken.pendingWork with same | ⟨rfl, rebuilt⟩
    · rw [same]
      exact delivered.origin notRanged
    · rw [rebuilt]
      exact rebuilds found notRanged
  case course =>
    intro worker member item chunk held running present
    rcases taken.mem_workers member with old | rfl
    · exact (delivered.course worker old item chunk held running present).frame taken.fileSize
        taken.ranged preserves
    · contradiction

/-- Runs of a job that is served the content, whose rebuilds run alone and, without range
support, start at the origin.
-/
structure ServedRuns (remote : Nat → Byte) (meets : Sys → Action → Sys → Prop) (start : Sys)
    : Prop where
  built : start.Built
  layout : start.shared.engine.Layout
  delivered : start.Delivered remote
  alone : ∀ sys, ReachableWhile meets start sys → sys.BuildAlone
  serves : ∀ before action after, meets before action after → Serves remote before action after
  rebuilds
    : ∀ before action after,
        ReachableWhile meets start before
        → meets before action after
        → RebuildsFromOrigin before action after

/-- In every served run, what was received is on disk. -/
theorem ServedRuns.delivers (served : ServedRuns remote meets start)
    (reached : ReachableWhile meets start sys)
    : sys.Delivered remote := by
  refine invariant reached served.delivered ?_ ?_ ?_
  · intro sys index worker next label shared earlier _ delivered found taken met
    exact delivered.worker_step (earlier.counted served.built)
      (earlier.generation served.built served.alone) (earlier.layout served.layout) found taken
      (served.serves _ _ _ met)
  · intro sys index call next label shared spawned earlier _ delivered found taken met
    exact delivered.call_step found taken (served.rebuilds _ _ _ earlier met)
  · intro sys api dispatched _ delivered
    exact ⟨delivered.received, delivered.disk, delivered.origin, delivered.course⟩

end Sys

end Muld
