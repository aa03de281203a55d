import Muld.Advancing
import Muld.ChunkStability
import Muld.Mirroring
import Muld.Recovery

/-! What a handler shows of the chunks while workers download them. A worker counts bytes of
its chunk, reads the chunk some steps later and reports it some steps after that, while other
workers do the same; no other worker holds its chunk meanwhile.
-/

namespace Muld

open Threads Content

/-- A worker here has counted bytes of its chunk and not reported them. -/
def WorkerPc.owesChunk : WorkerPc → Bool
  | .notifyTotal | .notifyEvent | .notifyEventReport => true
  | _ => false

namespace Worker

variable {shared shared' : Shared} {worker next : Worker} {label : WorkerLabel}

/-- A worker changes the chunks of the handler where it reports its chunk. -/
theorem Step.handlerChunks (taken : Step shared worker label shared' next)
    : (shared'.handler.chunks = shared.handler.chunks ∧ worker.pc ≠ .notifyEventReport)
      ∨ ∃ item,
          worker.pc = .notifyEventReport
          ∧ worker.item = some item
          ∧ next.item = worker.item
          ∧ shared' = shared.reportChunk item.chunkId worker.event := by
  by_cases at_pc : worker.pc = .notifyEventReport
  · right
    cases taken
    case eventReport item _ held _ => exact ⟨item, at_pc, held, rfl, rfl⟩
    case eventReportOnly item _ held _ => exact ⟨item, at_pc, held, rfl, rfl⟩
    all_goals simp_all [WorkerPc.throws]
  · refine Or.inl ⟨?_, at_pc⟩
    cases taken
    case eventReport item reports _ _ => exact absurd reports at_pc
    case eventReportOnly item reports _ _ => exact absurd reports at_pc
    case openReport => exact Shared.callback_keeps SharedState.chunks fun _ => rfl
    case progressReport => exact Shared.callback_keeps SharedState.chunks fun _ => rfl
    case finishReport =>
      simp only [Shared.reportFinish, Shared.onHistory]
      exact Shared.callback_keeps SharedState.chunks fun _ => rfl
    case failReport => exact Shared.callback_keeps SharedState.chunks fun _ => rfl
    case failErrorReport => exact Shared.callback_keeps SharedState.chunks fun _ => rfl
    all_goals first | rfl | simp

/-- A worker owes its report until it has made it. -/
theorem Step.owesChunk (taken : Step shared worker label shared' next)
    (owes : worker.pc.owesChunk = true) (elsewhere : worker.pc ≠ .notifyEventReport)
    : next.pc.owesChunk = true ∧ next.item = worker.item := by
  cases pc : worker.pc <;> simp only [pc, WorkerPc.owesChunk] at owes <;> try contradiction
  all_goals
    cases taken
    all_goals first | exact ⟨rfl, rfl⟩ | simp_all [WorkerPc.throws]

/-- A worker reports its chunk as it has read it. -/
theorem Step.readsChunk (taken : Step shared worker label shared' next)
    (next_pc : next.pc = .notifyEventReport)
    : worker.pc = .notifyEvent
      ∧ shared' = shared
      ∧ next.item = worker.item
      ∧ ∃ chunk, worker.chunk? shared.engine = some chunk ∧ next.event = chunk.progress := by
  cases taken
  case event chunk at_pc found => exact ⟨at_pc, rfl, rfl, chunk, found, rfl⟩
  case store site _ _ _ => cases site <;> cases next_pc
  case nullWriter at_pc _ =>
    rcases at_pc with at_pc | ⟨_, at_pc⟩ <;> simp [at_pc] at next_pc
  all_goals simp_all

end Worker

/-- A call changes the chunks of the handler where `AttachEngine` fills them. -/
theorem Call.Step.handlerChunks {index : Nat} {shared shared' : Shared} {call next : Call}
    {label : CallLabel} {spawned : List Worker}
    (taken : Call.Step index shared call label shared' next spawned)
    : (shared'.handler.chunks = shared.handler.chunks
        ∧ shared'.handler.engine = shared.handler.engine)
      ∨ ∃ bps, shared' = publish shared bps := by
  have keeps : shared'.handler.chunks = shared.handler.chunks ∨ ∃ bps, shared' = publish shared bps
      := by
    cases taken
    case attachPublish bps => exact Or.inr ⟨bps, rfl⟩
    case startReport => exact Or.inl (Shared.callback_keeps SharedState.chunks fun _ => rfl)
    case pauseReport => exact Or.inl (Shared.callback_keeps SharedState.chunks fun _ => rfl)
    case cancelReport => exact Or.inl (Shared.callback_keeps SharedState.chunks fun _ => rfl)
    all_goals exact Or.inl (by first | rfl | simp)
  rcases taken.dispatches with ⟨_, same⟩ | ⟨_, bps, _, _, published⟩
  · exact keeps.imp_left (⟨·, same⟩)
  · exact Or.inr ⟨bps, published⟩

namespace Sys

variable {meets : Sys → Action → Sys → Prop} {remote : Nat → Byte} {start sys : Sys}

/-- What the handler shows of a chunk: its size, and what it has received, or less while a
worker owes a report about it.
-/
def ShowsChunk (sys : Sys) (chunkId : Nat) (chunk : ChunkInfo) : Prop :=
  ∃ shown,
    sys.shared.handler.chunks[chunkId]? = some shown
    ∧ shown.totalBytes = chunk.getTotalSize
    ∧ shown.downloadedBytes ≤ chunk.received
    ∧ (shown.downloadedBytes = chunk.received
      ∨ ∃ worker ∈ sys.workers,
          worker.pc.owesChunk = true ∧ worker.chunkId = some chunkId)

/-- What a handler with an engine shows of the chunks, and what workers are to report. -/
structure ShowsChunks (sys : Sys) : Prop where
  length
    : sys.shared.handler.engine = true
      → sys.shared.handler.chunks.length = sys.shared.engine.nChunks
  shows
    : sys.shared.handler.engine = true
      → ∀ chunkId chunk,
          sys.shared.engine.chunksInfo[chunkId]? = some chunk → sys.ShowsChunk chunkId chunk
  event
    : ∀ worker ∈ sys.workers,
        worker.pc = .notifyEventReport
        → ∀ chunk ∈ worker.chunk? sys.shared.engine, worker.event = chunk.progress

/-- A worker that is to report its chunk has read it as it is: nobody else has touched it. -/
theorem ShowsChunks.event_eq (shows : sys.ShowsChunks) {worker : Worker} {item : WorkItem}
    (member : worker ∈ sys.workers) (at_pc : worker.pc = .notifyEventReport)
    (held : worker.item = some item) {chunk : ChunkInfo}
    (present : sys.shared.engine.chunksInfo[item.chunkId]? = some chunk)
    : worker.event = chunk.progress :=
  shows.event worker member at_pc chunk (by simpa [Worker.chunk?, held] using present)

/-- The handler has a place for the chunk of a report. -/
theorem ShowsChunks.report_chunks (shows : sys.ShowsChunks) (attaching : sys.Attaching)
    (generation : sys.Generation) (attached : sys.shared.handler.engine = true)
    {worker : Worker} {item : WorkItem} (member : worker ∈ sys.workers)
    (held : worker.item = some item) (event : ChunkProgress)
    : item.chunkId < sys.shared.handler.chunks.length
      ∧ (sys.shared.reportChunk item.chunkId event).handler.chunks
        = sys.shared.handler.chunks.set item.chunkId event := by
  obtain ⟨chunk, present, _⟩ := generation.chunk_of_held member held
  have inside : item.chunkId < sys.shared.handler.chunks.length := by
    rw [shows.length attached]
    exact (List.getElem?_eq_some_iff.mp present).1
  refine ⟨inside, ?_⟩
  simp [Shared.reportChunk, Shared.callback, attaching.attached attached,
    Shared.resizeChunks_of_lt inside]

/-- After a report its chunk is shown as it is, and the other chunks as before. -/
theorem ShowsChunks.report (shows : sys.ShowsChunks) (attaching : sys.Attaching)
    (generation : sys.Generation) (attached : sys.shared.handler.engine = true) {index : Nat}
    {worker next : Worker} {item : WorkItem} (found : sys.workers[index]? = some worker)
    (at_pc : worker.pc = .notifyEventReport) (held : worker.item = some item) {chunkId : Nat}
    {chunk : ChunkInfo} (present : sys.shared.engine.chunksInfo[chunkId]? = some chunk)
    : ShowsChunk
        { sys with
          shared := sys.shared.reportChunk item.chunkId worker.event
          workers := sys.workers.set index next }
        chunkId chunk := by
  have member := List.mem_of_getElem? found
  obtain ⟨inside, chunks⟩ :=
    shows.report_chunks attaching generation attached member held worker.event
  rw [ShowsChunk, chunks]
  by_cases same : item.chunkId = chunkId
  · subst same
    have event := shows.event_eq member at_pc held present
    exact ⟨worker.event, by simp [inside], by rw [event]; rfl, by rw [event]; exact Nat.le_refl _,
      Or.inl (by rw [event]; rfl)⟩
  · obtain ⟨shown, atShown, total, behind, exact_⟩ := shows.shows attached chunkId chunk present
    refine ⟨shown, by simp [same, atShown], total, behind, exact_.imp_right fun owed => ?_⟩
    refine exists_set_of_keeps found owed ?_
    rintro ⟨_, names⟩
    simp [Worker.chunkId, held, same] at names

theorem ShowsChunks.worker_step (shows : sys.ShowsChunks) (attaching : sys.Attaching)
    (generation : sys.Generation) {index : Nat} {worker next : Worker} {label : WorkerLabel}
    {shared : Shared} (found : sys.workers[index]? = some worker)
    (taken : worker.Step sys.shared label shared next)
    (grows
      : ∀ chunk ∈ worker.chunk? sys.shared.engine,
          worker.pc = .notifyUpdate
          → chunk.received ≤ (chunk.updateReceived worker.bytesRead).received)
    : ShowsChunks { sys with shared, workers := sys.workers.set index next } where
  length := by
    intro attached
    have before : sys.shared.handler.engine = true := taken.attached.1 ▸ attached
    have length := shows.length before
    simp only [taken.nChunks]
    rcases taken.handlerChunks with ⟨same, _⟩ | ⟨item, _, held, _, rfl⟩
    · rw [same, length]
    · rw [(shows.report_chunks attaching generation before (List.mem_of_getElem? found) held
        worker.event).2, List.length_set, length]
  shows := by
    intro attached chunkId chunk present
    have before : sys.shared.handler.engine = true := taken.attached.1 ▸ attached
    rcases taken.handlerChunks with ⟨same, elsewhere⟩ | ⟨item, at_pc, held, _, rfl⟩
    · -- The worker that owed a report still does.
      have owed : ∀ chunkId,
          (∃ worker ∈ sys.workers,
            worker.pc.owesChunk = true ∧ worker.chunkId = some chunkId)
          → ∃ worker ∈ sys.workers.set index next,
              worker.pc.owesChunk = true ∧ worker.chunkId = some chunkId := by
        intro chunkId present
        refine exists_set_of_keeps found present ?_
        rintro ⟨owes, names⟩
        obtain ⟨still, item⟩ := taken.owesChunk owes elsewhere
        exact ⟨still, by rw [Worker.chunkId, item]; exact names⟩
      rcases taken.chunksInfo with unchanged | ⟨item, at_pc, rfl, held, moved⟩
      · obtain ⟨shown, atShown, total, behind, exact_⟩ :=
          shows.shows before chunkId chunk (unchanged ▸ present)
        exact ⟨shown, same ▸ atShown, total, behind, exact_.imp_right (owed chunkId)⟩
      · rw [moved] at present
        by_cases own : item.chunkId = chunkId
        · subst own
          rw [DownloadEngine.updateReceived_getElem?_self, Option.map_eq_some_iff] at present
          obtain ⟨old, oldPresent, rfl⟩ := present
          obtain ⟨shown, atShown, total, behind, _⟩ :=
            shows.shows before item.chunkId old oldPresent
          have more := grows old (by simpa [Worker.chunk?, held] using oldPresent) at_pc
          exact ⟨shown, same ▸ atShown, total, Nat.le_trans behind more,
            Or.inr ⟨_, mem_set_self found, rfl, by simp [Worker.chunkId, held]⟩⟩
        · rw [DownloadEngine.updateReceived_getElem?_other _ _ own] at present
          obtain ⟨shown, atShown, total, behind, exact_⟩ :=
            shows.shows before chunkId chunk present
          exact ⟨shown, same ▸ atShown, total, behind, exact_.imp_right (owed chunkId)⟩
    · exact shows.report attaching generation before found at_pc held present
  event := by
    intro other inside at_pc chunk present
    obtain ⟨position, at_position⟩ := List.mem_iff_getElem?.mp inside
    rcases getElem?_set_cases at_position with ⟨rfl, rfl⟩ | ⟨different, atOther⟩
    · obtain ⟨_, rfl, item, read, found, event⟩ := taken.readsChunk at_pc
      rw [Option.mem_def, Worker.chunk?, item, ← Worker.chunk?, found] at present
      exact event.trans (congrArg _ (Option.some.inj present))
    · refine shows.event other (List.mem_of_getElem? atOther) at_pc chunk ?_
      obtain ⟨item, held, named⟩ := Option.bind_eq_some_iff.mp present
      rcases taken.chunksInfo with unchanged | ⟨ownItem, _, _, ownHeld, moved⟩
      · rw [Option.mem_def, ← other.chunk?_congr unchanged]
        exact present
      · -- The counted bytes are those of another chunk.
        have apart := generation.item_ne found ownHeld different atOther held
        rw [moved, DownloadEngine.updateReceived_getElem?_other _ _ apart.symm] at named
        simp [Worker.chunk?, held, named]

theorem ShowsChunks.call_step (shows : sys.ShowsChunks) {index : Nat} {call next : Call}
    {label : CallLabel} {shared : Shared} {spawned : List Worker}
    (taken : Call.Step index sys.shared call label shared next spawned)
    : ShowsChunks { sys with
        shared
        workers := sys.workers ++ spawned
        calls := sys.calls.set index next } where
  length := by
    intro attached
    simp only [DownloadEngine.nChunks, taken.chunksInfo]
    rcases taken.handlerChunks with ⟨same, engine⟩ | ⟨bps, rfl⟩
    · rw [same]
      exact shows.length (engine ▸ attached)
    · simp [Call.publish]
  shows := by
    intro attached chunkId chunk present
    rw [taken.chunksInfo] at present
    rcases taken.handlerChunks with ⟨same, engine⟩ | ⟨bps, rfl⟩
    · obtain ⟨shown, atShown, total, behind, exact_⟩ :=
        shows.shows (engine ▸ attached) chunkId chunk present
      refine ⟨shown, same ▸ atShown, total, behind, exact_.imp_right ?_⟩
      rintro ⟨worker, member, owes⟩
      exact ⟨worker, List.mem_append_left _ member, owes⟩
    · exact ⟨chunk.progress, by simp [Call.publish, present, ChunkInfo.progress], rfl,
        Nat.le_refl _, Or.inl rfl⟩
  event := by
    intro worker inside at_pc chunk present
    rcases taken.mem_workers inside with old | rfl
    · refine shows.event worker old at_pc chunk ?_
      rw [Option.mem_def, ← worker.chunk?_congr taken.chunksInfo]
      exact present
    · cases at_pc

/-- The bytes that a worker counts make its chunk larger. -/
theorem Delivered.grows (delivered : sys.Delivered remote) (generation : sys.Generation)
    (small : sys.shared.engine.fileSize < sizeModulus) {worker : Worker}
    (member : worker ∈ sys.workers)
    : ∀ chunk ∈ worker.chunk? sys.shared.engine,
        worker.pc = .notifyUpdate
        → chunk.received ≤ (chunk.updateReceived worker.bytesRead).received := by
  intro chunk found at_pc
  obtain ⟨item, held, named⟩ := Option.bind_eq_some_iff.mp found
  obtain ⟨known, present, course, _⟩ :=
    delivered.bounds generation small member (by simp [at_pc]) held
  obtain rfl : known = chunk := Option.some.inj (present.symm.trans named)
  rw [(course.counted at_pc small rfl rfl).1]
  exact Nat.le_add_right _ _

/-- The handler has an engine and shows at least as much of each chunk as `earlier`. -/
structure ShowsMore (earlier : List ChunkProgress) (sys : Sys) : Prop where
  attached : sys.shared.handler.engine = true
  more
    : ∀ (chunkId : Nat) (old : ChunkProgress),
        earlier[chunkId]? = some old
        → ∃ shown : ChunkProgress,
            sys.shared.handler.chunks[chunkId]? = some shown
            ∧ old.downloadedBytes ≤ shown.downloadedBytes

/-- A report never shows less than the one before. -/
theorem ShowsMore.worker_step {earlier : List ChunkProgress}
    (shows : sys.ShowsMore earlier) (truly : sys.ShowsChunks) (attaching : sys.Attaching)
    (generation : sys.Generation) {index : Nat} {worker next : Worker} {label : WorkerLabel}
    {shared : Shared} (found : sys.workers[index]? = some worker)
    (taken : worker.Step sys.shared label shared next)
    : ShowsMore earlier { sys with shared, workers := sys.workers.set index next } := by
  refine ⟨taken.attached.1.trans shows.attached, ?_⟩
  intro chunkId old atOld
  obtain ⟨shown, atShown, more⟩ := shows.more chunkId old atOld
  rcases taken.handlerChunks with ⟨same, _⟩ | ⟨item, at_pc, held, _, rfl⟩
  · exact ⟨shown, same ▸ atShown, more⟩
  · have member := List.mem_of_getElem? found
    obtain ⟨inside, chunks⟩ :=
      truly.report_chunks attaching generation shows.attached member held worker.event
    simp only [chunks]
    by_cases own : item.chunkId = chunkId
    · subst own
      obtain ⟨chunk, present, _⟩ := generation.chunk_of_held member held
      obtain ⟨before, atBefore, _, behind, _⟩ :=
        truly.shows shows.attached item.chunkId chunk present
      obtain rfl : shown = before := Option.some.inj (atShown.symm.trans atBefore)
      refine ⟨worker.event, by simp [inside], Nat.le_trans more ?_⟩
      rw [truly.event_eq member at_pc held present]
      exact behind
    · exact ⟨shown, by simp [own, atShown], more⟩

theorem ShowsMore.call_step {earlier : List ChunkProgress} (shows : sys.ShowsMore earlier)
    (truly : sys.ShowsChunks) {index : Nat} {call next : Call} {label : CallLabel}
    {shared : Shared} {spawned : List Worker}
    (taken : Call.Step index sys.shared call label shared next spawned)
    : ShowsMore earlier { sys with
        shared
        workers := sys.workers ++ spawned
        calls := sys.calls.set index next } := by
  rcases taken.handlerChunks with ⟨same, engine⟩ | ⟨bps, rfl⟩
  · exact ⟨engine.trans shows.attached, by simpa only [same] using shows.more⟩
  · refine ⟨rfl, ?_⟩
    intro chunkId old atOld
    obtain ⟨shown, atShown, more⟩ := shows.more chunkId old atOld
    have inside := (List.getElem?_eq_some_iff.mp atShown).1
    rw [truly.length shows.attached] at inside
    obtain ⟨chunk, present⟩ : ∃ chunk, sys.shared.engine.chunksInfo[chunkId]? = some chunk :=
      ⟨_, List.getElem?_eq_getElem inside⟩
    obtain ⟨before, atBefore, _, behind, _⟩ := truly.shows shows.attached chunkId chunk present
    obtain rfl : shown = before := Option.some.inj (atShown.symm.trans atBefore)
    exact ⟨chunk.progress, by simp [Call.publish, present, ChunkInfo.progress],
      Nat.le_trans more behind⟩

end Sys

end Muld
