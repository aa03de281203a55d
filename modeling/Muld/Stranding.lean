import Muld.Finishing

/-! The completion of a download hangs on a worker that finishes a chunk. Once every chunk is
finished and no worker holds an item, no step completes the download any more.
-/

namespace Muld

open Threads

/-- Finished chunks leave no work. -/
theorem pendingItems_of_finished {chunks : List ChunkInfo} {chunkId workId : Nat}
    (finished : ∀ chunk ∈ chunks, chunk.isFinished = true)
    : pendingItems chunkId workId chunks = [] := by
  rw [List.eq_nil_iff_forall_not_mem]
  intro item member
  obtain ⟨position, found⟩ := List.mem_iff_getElem?.mp member
  obtain ⟨index, chunk, inside, unfinished, _⟩ := pendingItems_getElem? found
  simp [finished chunk (List.mem_of_getElem? inside)] at unfinished

namespace Sys

variable {meets : Sys → Action → Sys → Prop} {start sys : Sys}

/-- Every chunk is finished, no worker holds an item and none waits, and the download is not
completed.
-/
structure Stranded (sys : Sys) : Prop where
  uncompleted : sys.shared.engine.state ≠ .completed
  finished : sys.shared.engine.AllFinished
  unheld : ∀ worker ∈ sys.workers, worker.item = none
  nothing : sys.shared.engine.nextItem = none
  building : sys.Building → sys.shared.engine.pendingWork = []

theorem Stranded.worker_step (stranded : sys.Stranded) (counted : sys.Counted) {index : Nat}
    {worker next : Worker} {label : WorkerLabel} {shared : Shared}
    (found : sys.workers[index]? = some worker)
    (taken : worker.Step sys.shared label shared next)
    : Stranded { sys with shared, workers := sys.workers.set index next } := by
  have member := List.mem_of_getElem? found
  have unheld := stranded.unheld worker member
  -- Where bytes are counted and downloads completed, the worker would hold an item.
  have elsewhere : worker.pc.mayHold = true → worker.pc = .failSet := by
    intro holds
    by_contra other
    simpa [unheld] using counted.holding worker member holds other
  constructor
  case uncompleted =>
    rcases taken.state with same | ⟨_, _, _, opened⟩ | ⟨at_pc, _, _⟩ | ⟨_, _, _, failed⟩
    · exact same ▸ stranded.uncompleted
    · simp [opened]
    · rcases at_pc with ⟨at_pc, _⟩ | at_pc <;> simp [at_pc, WorkerPc.mayHold] at elsewhere
    · simp [failed]
  case finished =>
    have at_count : worker.pc ≠ .notifyUpdate := by
      intro at_pc
      simp [at_pc, WorkerPc.mayHold] at elsewhere
    simpa [DownloadEngine.AllFinished, taken.chunksInfo_eq at_count] using stranded.finished
  case unheld =>
    refine forall_set stranded.unheld ?_
    rcases taken.item with same | dropped | ⟨item, _, available, _⟩
    · exact same.trans unheld
    · exact dropped
    · simp [stranded.nothing] at available
  case nothing =>
    have nothing := stranded.nothing
    simp only [DownloadEngine.nextItem, taken.pendingWork, List.getElem?_eq_none_iff]
      at nothing ⊢
    rcases taken.nextWorkItem with same | ⟨_, advanced⟩ <;> omega
  case building =>
    intro building
    rw [taken.pendingWork]
    exact stranded.building building

theorem Stranded.call_step (stranded : sys.Stranded) {index : Nat} {call next : Call}
    {label : CallLabel} {shared : Shared} {spawned : List Worker}
    (found : sys.calls[index]? = some call)
    (taken : Call.Step index sys.shared call label shared next spawned)
    : Stranded { sys with
        shared
        workers := sys.workers ++ spawned
        calls := sys.calls.set index next } := by
  have member := List.mem_of_getElem? found
  have empty : pendingItems 0 0 sys.shared.engine.chunksInfo = [] :=
    pendingItems_of_finished stranded.finished
  constructor
  case uncompleted =>
    rcases taken.accepts with ⟨same, _⟩ | ⟨_, _, _, rfl⟩ | ⟨_, _, _, rfl⟩ | ⟨_, _, _, rfl⟩
    · exact same ▸ stranded.uncompleted
    all_goals nofun
  case finished =>
    simpa [DownloadEngine.AllFinished, taken.chunksInfo] using stranded.finished
  case unheld =>
    intro worker inside
    rcases taken.mem_workers inside with old | rfl
    · exact stranded.unheld worker old
    · rfl
  case nothing =>
    rcases taken.work with ⟨same, position, _⟩ | ⟨_, _, rebuilt⟩ | ⟨_, rfl, _, reset⟩
    · simpa [DownloadEngine.nextItem, same, position] using stranded.nothing
    · simp [DownloadEngine.nextItem, rebuilt, DownloadEngine.rebuildPending, empty]
    · have emptied := stranded.building ⟨_, member, rfl⟩
      simp [DownloadEngine.nextItem, reset, DownloadEngine.resetNext, emptied]
  case building =>
    rintro ⟨other, inside, builds⟩
    rcases taken.pendingWork with same | ⟨_, rebuilt⟩
    · rw [same]
      rcases List.mem_or_eq_of_mem_set inside with old | rfl
      · exact stranded.building ⟨other, old, builds⟩
      · rcases taken.work with ⟨_, _, outside⟩ | ⟨_, _, rebuilt⟩ | ⟨_, rfl, _, _⟩
        · simp [outside] at builds
        · rw [← same, rebuilt]
          exact empty
        · exact stranded.building ⟨_, member, rfl⟩
    · exact rebuilt.trans empty

/-- Whatever is done with it, a stranded download stays stranded. -/
theorem Stranded.forever (stranded : sys.Stranded) (built : start.Built)
    (reached : ReachableWhile meets start sys) {after : Sys} (later : Reachable sys after)
    : after.Stranded := by
  refine invariant later stranded ?_ ?_ ?_
  · intro before index worker next label shared earlier _ still found taken _
    exact still.worker_step (ReachableWhile.counted built (reached.any.trans earlier)) found
      taken
  · intro before index call next label shared spawned _ _ still found taken _
    exact still.call_step found taken
  · intro before api dispatched _ still
    refine { still with building := ?_ }
    rintro ⟨call, member, builds⟩
    rcases mem_snoc_cases member with old | rfl
    · exact still.building ⟨call, old, builds⟩
    · cases api <;> cases builds

/-- A download at rest with all chunks finished that is not completed is stranded: what is
not handed out is unfinished, and at rest no worker holds an item.
-/
theorem Quiescent.stranded (quiescent : sys.Quiescent) (counted : sys.Counted)
    (generation : sys.Generation) (uncompleted : sys.shared.engine.state ≠ .completed)
    (finished : sys.shared.engine.AllFinished)
    : sys.Stranded where
  uncompleted := uncompleted
  finished := finished
  unheld := by
    intro worker member
    by_contra held
    have placed := counted.placed worker member (Option.isSome_iff_ne_none.mpr held)
    simp [quiescent.1 worker member, WorkerPc.mayHold] at placed
  nothing := by
    by_contra waits
    obtain ⟨item, found⟩ := Option.ne_none_iff_exists'.mp waits
    obtain ⟨chunk, present, unfinished, _⟩ := generation.fresh _ item (Nat.le_refl _) found
    simp [finished chunk (List.mem_of_getElem? present)] at unfinished
  building := by
    rintro ⟨call, member, builds⟩
    rcases quiescent.2 call member with rfl | rfl <;> cases builds

end Sys

end Muld
