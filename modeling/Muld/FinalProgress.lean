import Muld.Completion
import Muld.ResumePlan
import Muld.OutputErasure

/-! The progress that a handler shows when the download is completed. A handler learns the
total from `on_progress`, which a notification fires when half a second has passed. The last
bytes reach it if their notification fires, or one that has not read the total yet.
-/

namespace Muld

open Threads

-----------------------------------------------------------------------------------------
-- Progress reports on their way
-----------------------------------------------------------------------------------------

/-- The handler shows the progress of the whole file. -/
def Shared.ReportedWhole (shared : Shared) : Prop :=
  shared.handler.progress
    = { totalBytes := shared.engine.fileSize, downloadedBytes := shared.engine.fileSize }

/-- The program points of `NotifyChunkReceived` from the addition to the total to the last
bump.
-/
def WorkerPc.announced : WorkerPc → Bool
  | .notifyEvent | .notifyEventReport | .notifyProgress | .notifyProgressReport
  | .notifyCount | .storeLock .notify | .storeScan .notify | .storeWrite .notify
  | .notifyFinished | .notifyBump | .completeCas => true
  | _ => false

/-- The worker fires `on_progress` and has not read the total for it. -/
def Worker.readsTotal (worker : Worker) : Bool :=
  match worker.pc with
  | .notifyEvent | .notifyEventReport => worker.fireProgress
  | .notifyProgress => true
  | _ => false

/-- The worker is going to report `whole` if the total stays there. -/
def Worker.Announces (whole : Nat) (worker : Worker) : Prop :=
  worker.readsTotal = true ∨ (worker.pc = .notifyProgressReport ∧ worker.progress = whole)

/-- The program points at which a worker announces a total. -/
theorem Worker.Announces.at_pc {worker : Worker} {whole : Nat}
    (announces : worker.Announces whole)
    : worker.pc = .notifyEvent ∨ worker.pc = .notifyEventReport ∨ worker.pc = .notifyProgress
      ∨ worker.pc = .notifyProgressReport := by
  rcases announces with reads | ⟨at_pc, _⟩
  · rw [Worker.readsTotal] at reads
    split at reads
    · exact Or.inl ‹_›
    · exact Or.inr (Or.inl ‹_›)
    · exact Or.inr (Or.inr (Or.inl ‹_›))
    · contradiction
  · exact Or.inr (Or.inr (Or.inr at_pc))

/-- A worker that announces a total is in a notification. -/
theorem Worker.Announces.notifying {worker : Worker} {whole : Nat}
    (announces : worker.Announces whole)
    : worker.pc.notifying = true := by
  rcases announces.at_pc with at_pc | at_pc | at_pc | at_pc <;> rw [at_pc] <;> rfl

/-- A worker in a notification holds its item. -/
theorem WorkerPc.mayHold_of_notifying {pc : WorkerPc} (notifying : pc.notifying = true)
    : pc.mayHold = true ∧ pc ≠ .failSet := by
  unfold WorkerPc.notifying at notifying
  split at notifying
  case h_11 => contradiction
  all_goals exact ⟨rfl, by simp⟩

/-- A callback that reports another state than `Completed`. -/
theorem Shared.callback_completed {shared : Shared} {run : SharedState → SharedState}
    (keeps
      : ∀ handler, (run handler).state = .completed → handler.state = .completed)
    (after : (shared.callback run).handler.state = .completed)
    : shared.handler.state = .completed := by
  simp only [callback] at after
  split at after
  · exact keeps _ after
  · exact after

namespace Worker

variable {shared shared' : Shared} {worker next : Worker} {label : WorkerLabel}

/-- The total moves where a worker adds its bytes, and a worker announces nothing before. -/
theorem Step.addsTotal (taken : Step shared worker label shared' next)
    : (∃ elapsed,
          worker.pc = .notifyTotal
          ∧ label = .clock elapsed
          ∧ shared' = shared.onEngine (.addTotal worker.bytesRead)
          ∧ next = { worker with pc := .notifyEvent, fireProgress := elapsed })
      ∨ (shared'.engine.nTotalReceivedBytes = shared.engine.nTotalReceivedBytes
        ∧ (next.pc.announced = true → worker.pc.announced = true)) := by
  cases taken
  case total elapsed at_pc => exact Or.inl ⟨elapsed, at_pc, rfl, rfl, rfl⟩
  all_goals
    refine Or.inr ⟨by first | rfl | simp, ?_⟩
    intro after
  case lock site at_pc _ => cases site <;> simp_all [WorkerPc.announced]
  case scanned site at_pc _ => cases site <;> simp_all [WorkerPc.announced]
  case store site _ at_pc _ => cases site <;> simp_all [WorkerPc.announced, afterStore]
  all_goals first | exact after | simp_all [WorkerPc.announced]

/-- A worker moves the progress of the handler where it reports. -/
theorem Step.handlerProgress (taken : Step shared worker label shared' next)
    : shared'.handler.progress = shared.handler.progress
      ∨ (worker.pc = .notifyProgressReport
        ∧ label = .run
        ∧ shared' = shared.reportProgress worker.progress) := by
  cases taken
  case progressReport at_pc => exact Or.inr ⟨at_pc, rfl, rfl⟩
  case openReport => exact Or.inl (Shared.callback_keeps SharedState.progress fun _ => rfl)
  case eventReport => exact Or.inl (Shared.callback_keeps SharedState.progress fun _ => rfl)
  case eventReportOnly => exact Or.inl (Shared.callback_keeps SharedState.progress fun _ => rfl)
  case finishReport =>
    simp only [Shared.reportFinish, Shared.onHistory]
    exact Or.inl (Shared.callback_keeps SharedState.progress fun _ => rfl)
  case failReport => exact Or.inl (Shared.callback_keeps SharedState.progress fun _ => rfl)
  case failErrorReport => exact Or.inl (Shared.callback_keeps SharedState.progress fun _ => rfl)
  all_goals exact Or.inl (by first | rfl | simp)

/-- What is announced stays announced until it is reported. -/
theorem Step.announces (taken : Step shared worker label shared' next)
    (announces : worker.Announces shared.engine.nTotalReceivedBytes)
    : next.Announces shared.engine.nTotalReceivedBytes
      ∨ (worker.pc = .notifyProgressReport
        ∧ label = .run
        ∧ worker.progress = shared.engine.nTotalReceivedBytes
        ∧ shared' = shared.reportProgress worker.progress) := by
  have spots := announces.at_pc
  cases taken
  case event at_pc _ =>
    have fires : worker.fireProgress = true := by
      simpa [Announces, readsTotal, at_pc] using announces
    exact Or.inl (Or.inl fires)
  case eventReport => exact Or.inl (Or.inl rfl)
  case eventReportOnly at_pc _ quiet => simp [Announces, readsTotal, at_pc, quiet] at announces
  case progress => exact Or.inl (Or.inr ⟨rfl, rfl⟩)
  case progressReport at_pc =>
    exact Or.inr ⟨at_pc, rfl, by simpa [Announces, readsTotal, at_pc] using announces, rfl⟩
  case throw at_pc _ _ =>
    rcases spots with spot | spot | spot | spot <;> simp [spot, WorkerPc.throws] at at_pc
  case release at_pc _ => rcases at_pc with at_pc | at_pc <;> simp [at_pc] at spots
  case streamStop at_pc _ => rcases at_pc with at_pc | at_pc <;> simp [at_pc] at spots
  case allow at_pc _ _ => rcases at_pc with at_pc | at_pc <;> simp [at_pc] at spots
  case nullWriter => exact Or.inl announces
  all_goals simp_all only [reduceCtorEq, or_self]

/-- A worker shows `Completed` to the handler where it reports the finish. -/
theorem Step.handlerCompleted (taken : Step shared worker label shared' next)
    (after : shared'.handler.state = .completed)
    : shared.handler.state = .completed ∨ worker.pc = .finishReport := by
  cases taken
  case finishReport at_pc => exact Or.inr at_pc
  all_goals left
  case openReport => exact Shared.callback_completed (fun _ => by simp) after
  case eventReport => exact Shared.callback_completed (fun _ same => by exact same) after
  case eventReportOnly => exact Shared.callback_completed (fun _ same => by exact same) after
  case progressReport => exact Shared.callback_completed (fun _ same => by exact same) after
  case failReport => exact Shared.callback_completed (fun _ => by simp) after
  case failErrorReport => exact Shared.callback_completed (fun _ => by simp) after
  all_goals first | exact after | simpa using after

/-- A worker that bumps the counter of finished chunks moves it by one. -/
theorem Step.bumps (taken : Step shared worker label shared' next)
    (at_pc : worker.pc = .notifyBump)
    : shared'.engine.nDownloadedChunks = shared.engine.nDownloadedChunks + 1 := by
  cases taken
  case bump => rfl
  case bumpLast => rfl
  all_goals simp_all [WorkerPc.throws]

end Worker

namespace Call

variable {index : Nat} {shared shared' : Shared} {call next : Call} {label : CallLabel}
  {spawned : List Worker}

/-- A call moves the progress of the handler where `AttachEngine` sets its total. -/
theorem Step.handlerProgress (taken : Step index shared call label shared' next spawned)
    : shared'.handler.progress = shared.handler.progress
      ∨ ∃ bps, shared' = publish shared bps := by
  cases taken
  case attachPublish bps => exact Or.inr ⟨bps, rfl⟩
  case startReport => exact Or.inl (Shared.callback_keeps SharedState.progress fun _ => rfl)
  case pauseReport => exact Or.inl (Shared.callback_keeps SharedState.progress fun _ => rfl)
  case cancelReport => exact Or.inl (Shared.callback_keeps SharedState.progress fun _ => rfl)
  all_goals exact Or.inl (by first | rfl | simp)

/-- No call shows `Completed` to the handler. -/
theorem Step.handlerCompleted (taken : Step index shared call label shared' next spawned)
    (after : shared'.handler.state = .completed)
    : shared.handler.state = .completed := by
  cases taken
  case startReport => exact Shared.callback_completed (fun _ => by simp) after
  case pauseReport => exact Shared.callback_completed (fun _ => by simp) after
  case cancelReport => exact Shared.callback_completed (fun _ => by simp) after
  case wish wanted detached at_pc =>
    rcases at_pc with ⟨_, rfl⟩ | ⟨_, rfl⟩ | ⟨_, rfl⟩ <;> simp [Call.wish, detached] at after
  case failBeforeEngineStart => cases after
  all_goals first | exact after | simpa using after

end Call

namespace Sys

variable {meets : Sys → Action → Sys → Prop} {start sys : Sys} {remote : Nat → Byte}

-----------------------------------------------------------------------------------------
-- The last bytes are announced
-----------------------------------------------------------------------------------------

/-- The notification that brings the total to the size of the file fires, or another one has
not read the total yet; a report of the whole file finds the callbacks installed, and no
older report follows it.
-/
def TimelyProgress (before : Sys) (action : Action) : Prop :=
  match action with
  | .worker index (.clock elapsed) =>
      ∀ worker ∈ before.workers[index]?,
        (before.shared.engine.addTotal worker.bytesRead).nTotalReceivedBytes
          = before.shared.engine.fileSize
        → elapsed = true ∨ ∃ other ∈ before.workers, other.readsTotal = true
  | .worker index .run =>
      ∀ worker ∈ before.workers[index]?,
        worker.pc = .notifyProgressReport
        → if worker.progress = before.shared.engine.fileSize then
            before.shared.engine.callbacksAttached = true
          else
            before.shared.handler.progress.downloadedBytes ≠ before.shared.engine.fileSize
  | _ => True

instance (before : Sys) (action : Action) : Decidable (TimelyProgress before action) := by
  unfold TimelyProgress
  split <;> infer_instance

/-- Past the addition of the last bytes, the whole file is reported or will be. -/
def Announced (sys : Sys) : Prop :=
  ∀ worker ∈ sys.workers,
    worker.pc.announced = true
    → sys.shared.engine.nTotalReceivedBytes = sys.shared.engine.fileSize
    → sys.shared.ReportedWhole
      ∨ ∃ other ∈ sys.workers, other.Announces sys.shared.engine.fileSize

/-- A report of the whole file stays the last one. -/
theorem reportedWhole_worker_step {index : Nat} {worker next : Worker} {label : WorkerLabel}
    {shared : Shared} (found : sys.workers[index]? = some worker)
    (taken : worker.Step sys.shared label shared next)
    (timely : TimelyProgress sys (.worker index label))
    (reported : sys.shared.ReportedWhole)
    : shared.ReportedWhole := by
  rw [Shared.ReportedWhole, taken.fileSize]
  rcases taken.handlerProgress with same | ⟨at_pc, rfl, rfl⟩
  · rw [same]
    exact reported
  · have in_order := timely worker found at_pc
    rw [reported] at in_order
    simp only [ne_eq, not_true_eq_false] at in_order
    split at in_order
    · rename_i whole
      simp only [Shared.reportProgress, Shared.callback, in_order, if_true, whole]
    · contradiction

theorem Announced.worker_step (announced : sys.Announced) {index : Nat}
    {worker next : Worker} {label : WorkerLabel} {shared : Shared}
    (found : sys.workers[index]? = some worker)
    (taken : worker.Step sys.shared label shared next)
    (timely : TimelyProgress sys (.worker index label))
    : Announced { sys with shared, workers := sys.workers.set index next } := by
  intro other inside past whole
  have member := List.mem_of_getElem? found
  simp only [taken.fileSize] at whole ⊢
  rcases taken.addsTotal with ⟨elapsed, at_pc, rfl, rfl, rfl⟩ | ⟨same, stays⟩
  · refine Or.inr ?_
    rcases timely worker found whole with rfl | reading
    · exact ⟨_, mem_set_self found, Or.inl rfl⟩
    · refine exists_set_of_keeps found (reading.imp fun _ reads => ⟨reads.1, Or.inl reads.2⟩) ?_
      intro announces
      simp [at_pc, Worker.Announces, Worker.readsTotal] at announces
  · rw [same] at whole
    have before : sys.shared.ReportedWhole
        ∨ ∃ carrier ∈ sys.workers, carrier.Announces sys.shared.engine.fileSize := by
      rcases List.mem_or_eq_of_mem_set inside with old | rfl
      · exact announced other old past whole
      · exact announced worker member (stays past) whole
    rcases before with reported | carried
    · exact Or.inl (reportedWhole_worker_step found taken timely reported)
    · refine (exists_set found carried fun announces => ?_).symm
      rw [← whole] at announces ⊢
      rcases taken.announces announces with still | ⟨at_pc, rfl, progress, rfl⟩
      · exact Or.inl still
      · have attached := timely worker found at_pc
        rw [if_pos (progress.trans whole)] at attached
        refine Or.inr ?_
        simp only [Shared.ReportedWhole, Shared.reportProgress, Shared.callback, attached,
          if_true, progress, whole]

/-- Publishing the engine keeps a report of the whole file. -/
theorem reportedWhole_call_step {index : Nat} {call next : Call} {label : CallLabel}
    {shared : Shared} {spawned : List Worker}
    (taken : Call.Step index sys.shared call label shared next spawned)
    (reported : sys.shared.ReportedWhole)
    : shared.ReportedWhole := by
  rw [Shared.ReportedWhole, taken.fileSize]
  rcases taken.handlerProgress with same | ⟨bps, rfl⟩
  · rw [same]
    exact reported
  · rw [Shared.ReportedWhole] at reported
    simp [Call.publish, reported]

theorem Announced.call_step (announced : sys.Announced) {index : Nat} {call next : Call}
    {label : CallLabel} {shared : Shared} {spawned : List Worker}
    (taken : Call.Step index sys.shared call label shared next spawned)
    : Announced { sys with
        shared
        workers := sys.workers ++ spawned
        calls := sys.calls.set index next } := by
  intro other inside past whole
  simp only [taken.fileSize, taken.nTotalReceivedBytes] at whole ⊢
  rcases taken.mem_workers inside with old | rfl
  · rcases announced other old past whole with reported | ⟨carrier, member, announces⟩
    · exact Or.inl (reportedWhole_call_step taken reported)
    · exact Or.inr ⟨carrier, List.mem_append_left _ member, announces⟩
  · cases past

theorem ReachableWhile.announced (built : start.Built)
    (timely : ∀ before action after, meets before action after → TimelyProgress before action)
    (reached : ReachableWhile meets start sys)
    : sys.Announced := by
  refine invariant reached ?_ ?_ ?_ ?_
  · simp [Announced, built.workers]
  · intro sys index worker next label shared _ _ announced found taken met
    exact announced.worker_step found taken (timely _ _ _ met)
  · intro sys index call next label shared spawned _ _ announced _ taken _
    exact announced.call_step taken
  · intro sys api dispatched _ announced
    exact announced

-----------------------------------------------------------------------------------------
-- The last bump comes after the last report
-----------------------------------------------------------------------------------------

/-- The chunks tile the file in every state of a served run. -/
theorem ServedRuns.partitioned (served : ServedRuns remote meets start)
    (partitioned : start.shared.engine.Partitioned)
    (reached : ReachableWhile meets start sys)
    : sys.shared.engine.Partitioned where
  tiles := by
    have spans : ∀ engine : DownloadEngine,
        engine.chunksInfo.map ChunkInfo.span
          = engine.ranges.map fun range =>
              ⟨range.1, wrap (wrapSub range.2 range.1 + 1)⟩ := by
      intro engine
      simp [DownloadEngine.ranges, ChunkInfo.span, ChunkInfo.getTotalSize]
    have same := reached.sameJob
    rw [spans, same.ranges, same.fileSize, ← spans]
    exact partitioned.tiles
  received := (served.delivers reached).received

/-- Finished chunks that tile the file have received all of it. -/
theorem received_eq_fileSize {engine : DownloadEngine} (partitioned : engine.Partitioned)
    (all : engine.AllFinished)
    : (engine.chunksInfo.map ChunkInfo.received).sum = engine.fileSize := by
  have whole := partitioned.tiles.sum_size
  rw [List.map_map] at whole
  rw [← whole]
  congr 1
  apply List.map_congr_left
  intro chunk member
  have most := partitioned.received chunk member
  have least := (chunk.isFinished_iff).mp (all chunk member)
  exact Nat.le_antisymm most least

/-- Once the counter of finished chunks is full, no worker is in a notification. Witness: a
worker that is owes the counter one.
-/
theorem ServedRuns.none_notifying (served : ServedRuns remote meets start)
    (reached : ReachableWhile meets start sys) {worker : Worker}
    (member : worker ∈ sys.workers) {item : WorkItem} (held : worker.item = some item)
    (full : sys.shared.engine.nChunks ≤ sys.shared.engine.nDownloadedChunks)
    (all : sys.shared.engine.AllFinished)
    : ∀ other ∈ sys.workers, other.pc.notifying = false := by
  have counted := reached.counted served.built
  have generation := reached.generation served.built served.alone
  have most : finishedCount sys.shared.engine.chunksInfo ≤ sys.shared.engine.nChunks :=
    List.countP_le_length
  obtain ⟨done, outside⟩ := (reached.prepared served.built).of_held counted generation
    (served.alone sys reached) member held
  have exact_ := served.exact reached done outside
  rw [excess] at exact_
  intro other inside
  refine eq_false_of_ne_true fun notifying => ?_
  have own := share_le_total (Worker.owed_nonneg sys.shared.engine) inside
  obtain ⟨mayHold, running⟩ := WorkerPc.mayHold_of_notifying notifying
  obtain ⟨own_item, holds⟩ :=
    Option.isSome_iff_exists.mp (counted.holding other inside mayHold running)
  obtain ⟨chunk, present, _⟩ := generation.chunk_of_held inside holds
  have one : other.owed sys.shared.engine = 1 := by
    simp [Worker.owed, notifying, Worker.chunkDone, Worker.chunk?, holds, present,
      all chunk (List.mem_of_getElem? present)]
  omega

/-- The total is the file size when every chunk is finished and no worker is in a
notification.
-/
theorem ServedRuns.total_whole (served : ServedRuns remote meets start)
    (partitioned : start.shared.engine.Partitioned) (accounted : start.Accounted)
    (reached : ReachableWhile meets start sys) (all : sys.shared.engine.AllFinished)
    (settled : ∀ worker ∈ sys.workers, worker.pc.notifying = false)
    : sys.shared.engine.nTotalReceivedBytes = sys.shared.engine.fileSize := by
  have received := received_eq_fileSize (served.partitioned partitioned reached) all
  rw [← received]
  refine (reached.accounted served.built accounted).nTotalReceivedBytes ?_ ?_
  · intro worker member at_pc
    have outside := settled worker member
    rw [at_pc] at outside
    contradiction
  · rw [received]
    exact (reached.layout served.layout).small

/-- A completed download has reported the whole file. -/
structure CompletesReported (sys : Sys) : Prop where
  completing
    : ∀ worker ∈ sys.workers, worker.pc.completing = true → sys.shared.ReportedWhole
  completed : sys.shared.engine.state = .completed → sys.shared.ReportedWhole
  finishing
    : ∀ worker ∈ sys.workers,
        worker.pc.finishing = true → sys.shared.engine.state = .completed
  handler : sys.shared.handler.state = .completed → sys.shared.engine.state = .completed

/-- The bump that fills the counter finds the whole file reported. -/
theorem ServedRuns.reported_of_lastBump (served : ServedRuns remote meets start)
    (timely : ∀ before action after, meets before action after → TimelyProgress before action)
    (partitioned : start.shared.engine.Partitioned) (accounted : start.Accounted)
    {index : Nat} {worker next : Worker} {label : WorkerLabel} {shared : Shared}
    (reached : ReachableWhile meets start sys)
    (later
      : ReachableWhile meets start
          { sys with shared, workers := sys.workers.set index next })
    (found : sys.workers[index]? = some worker)
    (taken : worker.Step sys.shared label shared next) (bumps : worker.pc = .notifyBump)
    (kept : next.item = worker.item) (last : sys.shared.engine.lastChunk = true)
    (next_pc : next.pc = .completeCas)
    : shared.ReportedWhole := by
  have inside : next ∈ sys.workers.set index next := mem_set_self found
  have holds := (reached.counted served.built).holding worker (List.mem_of_getElem? found)
    (by rw [bumps]; rfl) (by simp [bumps])
  obtain ⟨item, held⟩ := Option.isSome_iff_exists.mp holds
  obtain ⟨chunk, present, _⟩ :=
    (reached.generation served.built served.alone).chunk_of_held (List.mem_of_getElem? found) held
  have some_chunk : 0 < sys.shared.engine.nChunks :=
    List.length_pos_of_mem (List.mem_of_getElem? present)
  have full : shared.engine.nChunks ≤ shared.engine.nDownloadedChunks := by
    rw [DownloadEngine.lastChunk_iff some_chunk (reached.nChunks_lt served.built)] at last
    rw [taken.nChunks, taken.bumps bumps]
    omega
  have all : shared.engine.AllFinished :=
    (served.completesFinished later).workers next inside (by rw [next_pc]; rfl)
  have settled := served.none_notifying later inside (kept.trans held) full all
  have whole := served.total_whole partitioned accounted later all settled
  have announced := ReachableWhile.announced served.built timely later
  rcases announced next inside (by rw [next_pc]; rfl) whole with reported | carried
  · exact reported
  · obtain ⟨carrier, member, announces⟩ := carried
    have notifying := announces.notifying
    rw [settled carrier member] at notifying
    contradiction

/-- In a served run with timely progress, a completed download has reported the whole file.
-/
theorem ServedRuns.completesReported (served : ServedRuns remote meets start)
    (timely : ∀ before action after, meets before action after → TimelyProgress before action)
    (partitioned : start.shared.engine.Partitioned) (accounted : start.Accounted)
    (reached : ReachableWhile meets start sys)
    : sys.CompletesReported := by
  refine invariant reached ?_ ?_ ?_ ?_
  · constructor
    · simp [served.built.workers]
    · simp [served.built.state]
    · simp [served.built.workers]
    · simp [served.built.handler]
  · intro sys index worker next label shared earlier later sound found taken met
    have member := List.mem_of_getElem? found
    have stays : sys.shared.ReportedWhole → shared.ReportedWhole :=
      reportedWhole_worker_step found taken (timely _ _ _ met)
    constructor
    case completing =>
      intro other inside at_pc
      rcases List.mem_or_eq_of_mem_set inside with old | rfl
      · exact stays (sound.completing other old at_pc)
      · rcases taken.completing at_pc with ⟨bumps, kept, last, next_pc⟩ | ⟨before, _⟩
        · exact served.reported_of_lastBump timely partitioned accounted earlier later found
            taken bumps kept last next_pc
        · exact stays (sound.completing worker member (by rw [before]; rfl))
    case completed =>
      intro completed
      rcases taken.state with same | ⟨_, _, _, other⟩ | ⟨fromPc, _, _⟩ | ⟨_, _, _, other⟩
      · exact stays (sound.completed (same ▸ completed))
      · simp [other] at completed
      · refine stays (sound.completing worker member ?_)
        rcases fromPc with ⟨at_pc, _⟩ | at_pc <;> rw [at_pc] <;> rfl
      · simp [other] at completed
    case finishing =>
      intro other inside at_pc
      rcases List.mem_or_eq_of_mem_set inside with old | rfl
      · exact taken.stays_completed (sound.finishing other old at_pc)
      · rcases taken.entersFinishing at_pc with before | completed
        · exact taken.stays_completed (sound.finishing worker member before)
        · exact completed
    case handler =>
      intro shown
      apply taken.stays_completed
      rcases taken.handlerCompleted shown with before | at_pc
      · exact sound.handler before
      · exact sound.finishing worker member (by rw [at_pc]; rfl)
  · intro sys index call next label shared spawned _ _ sound found taken _
    have stays : sys.shared.ReportedWhole → shared.ReportedWhole :=
      reportedWhole_call_step taken
    have before : shared.engine.state = .completed → sys.shared.engine.state = .completed := by
      intro completed
      rcases taken.accepts with ⟨state, _⟩ | ⟨_, _, _, rfl⟩ | ⟨_, _, _, rfl⟩ | ⟨_, _, _, rfl⟩
      · exact state ▸ completed
      all_goals cases completed
    constructor
    case completing =>
      intro worker member at_pc
      rcases taken.mem_workers member with old | rfl
      · exact stays (sound.completing worker old at_pc)
      · cases at_pc
    case completed => exact fun completed => stays (sound.completed (before completed))
    case finishing =>
      intro worker member at_pc
      rcases taken.mem_workers member with old | rfl
      · exact taken.stays_completed (sound.finishing worker old at_pc)
      · cases at_pc
    case handler =>
      exact fun shown => taken.stays_completed (sound.handler (taken.handlerCompleted shown))
  · intro sys api dispatched _ sound
    exact ⟨sound.completing, sound.completed, sound.finishing, sound.handler⟩

-----------------------------------------------------------------------------------------
-- The final progress is the whole file
-----------------------------------------------------------------------------------------

/-- A handler that shows `Completed` shows the whole file as downloaded, and the engine has
received it.
-/
def FinalProgress (sys : Sys) : Prop :=
  sys.shared.handler.state = .completed
  → sys.shared.handler.progress.downloadedBytes = sys.shared.handler.progress.totalBytes
    ∧ sys.shared.handler.progress.totalBytes
      = (sys.shared.engine.chunksInfo.map ChunkInfo.received).sum

instance (sys : Sys) : Decidable sys.FinalProgress := by
  unfold FinalProgress
  infer_instance

/-- A run against the server of `remote` with timely progress. -/
def ProgressRun (remote : Nat → Byte) (before : Sys) (action : Action) (after : Sys) : Prop :=
  OriginRun remote before action after ∧ TimelyProgress before action

instance (remote : Nat → Byte) (before : Sys) (action : Action) (after : Sys)
    : Decidable (ProgressRun remote before action after) := by
  unfold ProgressRun
  infer_instance

/-- The conditions of a run do not read the output file. -/
theorem progressRun_withoutOutput {before after : Sys} {action : Action}
    (met : ProgressRun remote before action after)
    : ProgressRun remote before.withoutOutput action after.withoutOutput := by
  obtain ⟨⟨serves, rebuilds, avoids⟩, timely⟩ := met
  cases action with
  | worker index label =>
      refine ⟨⟨serves, trivial, trivial⟩, ?_⟩
      cases label <;> exact timely
  | call index label => exact ⟨⟨trivial, rebuilds, avoids⟩, trivial⟩
  | invoke api => exact ⟨⟨trivial, trivial, trivial⟩, trivial⟩

/-- Chunks that tile the file lie in it. -/
theorem layout_of_partitioned {engine : DownloadEngine} (partitioned : engine.Partitioned)
    (representable : engine.Representable)
    (whole
      : engine.ranged = false
        → ∀ chunk ∈ engine.chunksInfo,
            chunk.getTotalSize ≠ 0 → chunk.endRange + 1 = engine.fileSize)
    : engine.Layout where
  small := representable.fileSize
  proper := by
    intro chunk member nonempty
    have positive : 0 < chunk.span.size := Nat.pos_of_ne_zero nonempty
    have inFile := partitioned.tiles.end_le (List.mem_map_of_mem member) positive
    have small := representable.fileSize
    obtain ⟨startRange, endRange, _⟩ := representable.chunks chunk member
    simp only [ChunkInfo.span] at inFile positive
    have ends := ChunkInfo.endRange_succ startRange endRange positive
      (Nat.lt_of_le_of_lt inFile small)
    exact ⟨by omega, by omega⟩
  whole := whole

/-- Where the last progress is timely, a completed download shows the whole file. -/
theorem final_progress (constructed : start.Constructed)
    (partitioned : start.shared.engine.Partitioned)
    (whole
      : start.shared.engine.ranged = false
        → ∀ chunk ∈ start.shared.engine.chunksInfo,
            chunk.getTotalSize ≠ 0 → chunk.endRange + 1 = start.shared.engine.fileSize)
    (reached : ReachableWhile (ProgressRun remote) start sys)
    : sys.FinalProgress := by
  have built := constructed.built
  have blind := ReachableWhile.withoutOutput
    (fun _ _ _ met => progressRun_withoutOutput met) reached
  have served : ServedRuns remote (ProgressRun remote) start.withoutOutput := {
    built := built.withoutOutput
    layout := layout_of_partitioned partitioned constructed.representable whole
    delivered := built.delivered_withoutOutput remote partitioned.received
    alone := fun _ earlier => earlier.buildAlone built.withoutOutput (fun _ _ _ met => met.1.2.2)
    serves := fun _ _ _ met => met.1.1
    rebuilds := fun _ _ _ _ met => met.1.2.1
  }
  intro shown
  have reported := served.completesReported (fun _ _ _ met => met.2) partitioned
    ⟨constructed.accounted.fits, constructed.accounted.balance⟩ blind
  have completed := reported.handler shown
  have progress : sys.shared.handler.progress
      = {
        totalBytes := sys.shared.engine.fileSize
        downloadedBytes := sys.shared.engine.fileSize
      } := reported.completed completed
  have received := received_eq_fileSize (served.partitioned partitioned blind)
    ((served.completesFinished blind).state completed)
  rw [progress]
  exact ⟨rfl, received.symm⟩

open Muld.Action in
/-- One worker downloads both chunks; the clock decides what its last notification finds. -/
def downloadBoth (elapsed : Bool) : List Action :=
  [.invoke .handlerResume] ++ callRuns 0 1 ++ [.invoke .attachEngine] ++ callRuns 1 19
    ++ workerRuns 0 6 ++ fetch 0 206 (List.replicate 10 0)
    ++ workerRuns 0 2 ++ [.worker 0 (.isDone true)] ++ workerRuns 0 5
    ++ [.worker 0 (.header 206 ""), .worker 0 (.isDone false)] ++ workerRuns 0 2
    ++ [.worker 0 (.read (List.replicate 10 0) .none), .worker 0 (.wrote 10)]
    ++ workerRuns 0 1 ++ [.worker 0 (.clock elapsed)]
    ++ workerRuns 0 (if elapsed then 12 else 10) ++ [.worker 0 (.stored .written)]
    ++ workerRuns 0 2

/-- The last notification comes half a second after the one before it. -/
theorem final_progress_two_chunks
    : ∃ sys : Sys,
        sys.shared.handler.state = .completed
        ∧ sys.shared.handler.progress.downloadedBytes
          = sys.shared.handler.progress.totalBytes
        ∧ sys.shared.handler.progress.totalBytes
          = (sys.shared.engine.chunksInfo.map ChunkInfo.received).sum := by
  obtain ⟨sys, reached, holds⟩ :=
    exists_reachable (ProgressRun fun _ => 0) twoChunks (downloadBoth true)
      (fun sys => sys.shared.handler.state == .completed)
      (by decide +kernel)
  have shown := eq_of_beq holds
  exact ⟨sys, shown,
    final_progress twoChunks_constructed twoChunks_partitioned
      (fun notRanged => nomatch notRanged) reached shown⟩

/-- A download that is completed within half a second shows that nothing was downloaded. -/
theorem final_progress_missed
    : ¬ ∀ (remote : Nat → Byte) (start sys : Sys),
        start.Constructed
        → start.shared.engine.Partitioned
        → (start.shared.engine.ranged = false
          → ∀ chunk ∈ start.shared.engine.chunksInfo,
              chunk.getTotalSize ≠ 0 → chunk.endRange + 1 = start.shared.engine.fileSize)
        → ReachableWhile (OriginRun remote) start sys
        → sys.FinalProgress := by
  intro final
  obtain ⟨sys, reached, holds⟩ :=
    exists_reachable (OriginRun fun _ => 0) twoChunks (downloadBoth false)
      (fun sys => !decide sys.FinalProgress)
      (by decide +kernel)
  have missed : ¬ sys.FinalProgress := by simpa using holds
  exact missed (final _ _ _ twoChunks_constructed twoChunks_partitioned
    (fun notRanged => nomatch notRanged) reached)

end Sys

end Muld
