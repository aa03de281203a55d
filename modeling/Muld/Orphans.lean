import Muld.Generations

/-! Which chunks stay in circulation. An unfinished chunk is in circulation while its item
waits in the undispensed part of the work list or a worker holds it.
-/

namespace Muld

open Threads

/-- The worker gives its chunk up only when it is finished: it is not released between
two attempts at the chunk, a response body that ends is the one that finishes the chunk,
and the received counter of the chunk does not wrap.
-/
def Worker.KeepsChunk (engine : DownloadEngine) (worker : Worker) (label : WorkerLabel)
    : Prop :=
  (worker.pc = .pollInner → 0 < engine.releaseBudget → worker.chunkDone engine = true)
  ∧ (worker.pc = .streamHead → label = .isDone true → worker.chunkDone engine = true)
  ∧ (worker.pc = .notifyUpdate
    → ∀ chunk ∈ worker.chunk? engine, chunk.received + worker.bytesRead < sizeModulus)

instance (engine : DownloadEngine) (worker : Worker) (label : WorkerLabel)
    : Decidable (worker.KeepsChunk engine label) := by
  unfold Worker.KeepsChunk
  infer_instance

namespace Sys

variable {meets : Sys → Action → Sys → Prop} {start sys : Sys}

/-- The chunk waits in the undispensed part of the work list or a worker holds it. -/
def Covered (sys : Sys) (chunkId : Nat) : Prop :=
  chunkId
      ∈ (sys.shared.engine.pendingWork.drop sys.shared.engine.nextWorkItem).map WorkItem.chunkId
    ∨ some chunkId ∈ sys.workers.map Worker.chunkId

/-- Every unfinished chunk is covered. -/
def AllCovered (sys : Sys) : Prop :=
  ∀ chunkId < sys.shared.engine.nChunks,
    sys.shared.engine.chunkFinished chunkId = false → sys.Covered chunkId

/-- No chunk is orphaned: in a download that nothing disturbed since the last rebuild,
every unfinished chunk is covered.
-/
def NothingOrphaned (sys : Sys) : Prop :=
  sys.shared.engine.state = .downloading
  → sys.shared.history.undisturbed = true
  → sys.AllCovered

instance (sys : Sys) : Decidable sys.NothingOrphaned := by
  unfold NothingOrphaned AllCovered Covered
  infer_instance

/-- Workers keep their chunks until they are finished, and no planner cuts into a rebuild.
-/
def KeepsChunks (before : Sys) (action : Action) (after : Sys) : Prop :=
  PlanAvoidsRebuild before action after
  ∧ match action with
    | .worker index label =>
        ∀ worker ∈ before.workers[index]?, worker.KeepsChunk before.shared.engine label
    | _ => True

instance (before : Sys) (action : Action) (after : Sys)
    : Decidable (KeepsChunks before action after) :=
  match action with
  | .worker .. | .call .. | .invoke .. => by unfold KeepsChunks; infer_instance

-----------------------------------------------------------------------------------------
-- Coverage, step by step
-----------------------------------------------------------------------------------------

/-- What keeps every unfinished chunk covered. -/
structure Circulating (sys : Sys) : Prop where
  covered
    : sys.shared.history.undisturbed = true
      → sys.shared.engine.state = .queued ∨ sys.shared.engine.state = .downloading
      → sys.AllCovered
  /-- Before the first worker of a generation opens, no worker has got further. -/
  opening
    : sys.shared.history.undisturbed = true
      → sys.shared.engine.state = .queued
      → ∀ worker ∈ sys.workers,
          worker.pc.scheduled = true → worker.pc = .queued ∨ worker.pc = .openCas
  ended
    : ∀ worker ∈ sys.workers,
        worker.pc = .streamed true
        → ∀ chunkId,
            worker.chunkId = some chunkId → sys.shared.engine.chunkFinished chunkId = true

theorem Built.circulating (built : start.Built) : start.Circulating where
  covered := by simp [built.history]
  opening := by simp [built.history]
  ended := by simp [built.workers]

theorem covered_of_tail {position : Nat} {item : WorkItem}
    (ahead : sys.shared.engine.nextWorkItem ≤ position)
    (found : sys.shared.engine.pendingWork[position]? = some item)
    : sys.Covered item.chunkId := by
  refine Or.inl (List.mem_map_of_mem ?_)
  refine List.mem_iff_getElem?.mpr ⟨position - sys.shared.engine.nextWorkItem, ?_⟩
  rw [List.getElem?_drop, Nat.add_sub_cancel' ahead, found]

theorem Covered.cases {chunkId : Nat} (covered : sys.Covered chunkId)
    : (∃ (position : Nat) (item : WorkItem),
        sys.shared.engine.nextWorkItem ≤ position
        ∧ sys.shared.engine.pendingWork[position]? = some item
        ∧ item.chunkId = chunkId)
      ∨ ∃ (index : Nat) (worker : Worker),
          sys.workers[index]? = some worker ∧ worker.chunkId = some chunkId := by
  rcases covered with inTail | isHeld
  · obtain ⟨item, member, same⟩ := List.mem_map.mp inTail
    obtain ⟨offset, found⟩ := List.mem_iff_getElem?.mp member
    rw [List.getElem?_drop] at found
    exact Or.inl ⟨_, item, Nat.le_add_right _ offset, found, same⟩
  · obtain ⟨worker, member, same⟩ := List.mem_map.mp isHeld
    obtain ⟨index, found⟩ := List.mem_iff_getElem?.mp member
    exact Or.inr ⟨index, worker, found, same⟩

theorem covered_of_holder {index chunkId : Nat} {worker : Worker}
    (found : sys.workers[index]? = some worker) (holds : worker.chunkId = some chunkId)
    : sys.Covered chunkId :=
  Or.inr (List.mem_map.mpr ⟨worker, List.mem_of_getElem? found, holds⟩)

/-- A whole rebuilt list covers every unfinished chunk. -/
theorem allCovered_of_rebuilt
    (rebuilt
      : sys.shared.engine.pendingWork = pendingItems 0 0 sys.shared.engine.chunksInfo)
    (whole : sys.shared.engine.nextWorkItem = 0)
    : sys.AllCovered := by
  intro chunkId inside unfinished
  obtain ⟨chunk, found⟩ : ∃ chunk, sys.shared.engine.chunksInfo[chunkId]? = some chunk :=
    ⟨_, List.getElem?_eq_getElem inside⟩
  rw [DownloadEngine.chunkFinished_of_found found] at unfinished
  obtain ⟨position, item, at_position, same⟩ :=
    @exists_pendingItem _ 0 0 chunkId chunk found unfinished
  rw [Nat.zero_add] at same
  rw [← rebuilt] at at_position
  exact same ▸ covered_of_tail (by omega) at_position

/-- Finished chunks stay finished across a worker step that wraps no counter. -/
theorem chunkFinished_worker_step {index : Nat} {worker next : Worker} {label : WorkerLabel}
    {shared : Shared} {after : Sys} (found : sys.workers[index]? = some worker)
    (taken : worker.Step sys.shared label shared next)
    (keeps : KeepsChunks sys (.worker index label) after) {chunkId : Nat}
    (finished : sys.shared.engine.chunkFinished chunkId = true)
    : shared.engine.chunkFinished chunkId = true := by
  rcases taken.chunksInfo with same | ⟨item, at_pc, _, held, moved⟩
  · rwa [DownloadEngine.chunkFinished, same]
  · rw [moved]
    refine DownloadEngine.chunkFinished_updateReceived ?_ finished
    intro chunk present
    exact (keeps.2 worker found).2.2 at_pc chunk (by simp [Worker.chunk?, held, present])

/-- A worker that gives up a held item while nothing disturbs the download has finished
its chunk.
-/
theorem Circulating.dropped (circulating : sys.Circulating) (counted : sys.Counted)
    {index : Nat} {worker next : Worker} {label : WorkerLabel} {shared : Shared} {after : Sys}
    (found : sys.workers[index]? = some worker)
    (taken : worker.Step sys.shared label shared next)
    (keeps : KeepsChunks sys (.worker index label) after)
    (undisturbed : shared.history.undisturbed = true)
    (live : sys.shared.engine.state = .queued ∨ sys.shared.engine.state = .downloading)
    {chunkId : Nat} (holds : worker.chunkId = some chunkId) (dropped : next.item = none)
    : sys.shared.engine.chunkFinished chunkId = true := by
  have member := List.mem_of_getElem? found
  have before := (taken.undisturbed undisturbed).1
  obtain ⟨item, held, rfl⟩ := Option.map_eq_some_iff.mp holds
  rcases taken.drop (counted.placed worker member) (by simp [held]) dropped with
    ⟨at_pc, budget⟩ | ⟨at_pc, stopped, _⟩ | at_pc | ⟨at_pc, disturbed | ⟨refused, _⟩⟩
  · have done := (keeps.2 worker found).1 at_pc budget
    simpa [Worker.chunkDone, Worker.chunk?, held, DownloadEngine.chunkFinished] using done
  · have queued := live.resolve_right stopped
    rcases circulating.opening before queued worker member (by rw [at_pc]; rfl) with
      other | other <;>
      simp [at_pc] at other
  · exact circulating.ended worker member at_pc _ holds
  · simp [disturbed] at undisturbed
  · rcases live with state | state <;> simp [DownloadEngine.admits, state] at refused

/-- An unfinished chunk stays covered: its item waits on, is taken, or is held on. -/
theorem Circulating.covered_worker_step (circulating : sys.Circulating) (counted : sys.Counted)
    {index : Nat} {worker next : Worker} {label : WorkerLabel} {shared : Shared} {after : Sys}
    (found : sys.workers[index]? = some worker)
    (taken : worker.Step sys.shared label shared next)
    (keeps : KeepsChunks sys (.worker index label) after)
    (undisturbed : shared.history.undisturbed = true)
    (live : sys.shared.engine.state = .queued ∨ sys.shared.engine.state = .downloading)
    {chunkId : Nat} (unfinished : sys.shared.engine.chunkFinished chunkId = false)
    (covered : sys.Covered chunkId)
    : Covered { sys with shared, workers := sys.workers.set index next } chunkId := by
  have bound := (List.getElem?_eq_some_iff.mp found).1
  have stepped : (sys.workers.set index next)[index]? = some next := by simp [bound]
  rcases covered.cases with ⟨position, item, ahead, at_position, rfl⟩
      | ⟨other, holder, atOther, holds⟩
  · by_cases beyond : shared.engine.nextWorkItem ≤ position
    · refine covered_of_tail beyond ?_
      simpa only [taken.pendingWork] using at_position
    · rcases taken.nextWorkItem with same | ⟨at_pc, advanced⟩
      · omega
      · obtain rfl : position = sys.shared.engine.nextWorkItem := by omega
        exact covered_of_holder stepped (by simp [Worker.chunkId, taken.takes at_pc at_position])
  · by_cases same : other = index
    · subst same
      obtain rfl : holder = worker := Option.some.inj (atOther.symm.trans found)
      rcases taken.item with kept | dropped | ⟨_, at_pc, _⟩
      · exact covered_of_holder stepped (by rwa [Worker.chunkId, kept])
      · have finished :=
          circulating.dropped counted found taken keeps undisturbed live holds dropped
        simp [finished] at unfinished
      · obtain ⟨item, held, _⟩ := Option.map_eq_some_iff.mp holds
        have placed := counted.placed holder (List.mem_of_getElem? found) (by simp [held])
        rw [at_pc] at placed
        contradiction
    · have kept : (sys.workers.set index next)[other]? = some holder := by
        simpa [Ne.symm same] using atOther
      exact covered_of_holder kept holds

theorem Circulating.worker_step (circulating : sys.Circulating) (counted : sys.Counted)
    {index : Nat} {worker next : Worker} {label : WorkerLabel} {shared : Shared} {after : Sys}
    (found : sys.workers[index]? = some worker)
    (taken : worker.Step sys.shared label shared next)
    (keeps : KeepsChunks sys (.worker index label) after)
    : Circulating { sys with shared, workers := sys.workers.set index next } where
  covered := by
    intro undisturbed live chunkId inside unfinished
    obtain ⟨before, moves⟩ := taken.undisturbed undisturbed
    have liveBefore
        : sys.shared.engine.state = .queued ∨ sys.shared.engine.state = .downloading := by
      rcases moves with same | ⟨_, queued, _⟩ | completed
      · rwa [← same]
      · exact Or.inl queued
      · simp [completed] at live
    have unfinishedBefore : sys.shared.engine.chunkFinished chunkId = false := by
      by_contra finished
      have still := chunkFinished_worker_step found taken keeps (by simpa using finished)
      simp [still] at unfinished
    have insideBefore : chunkId < sys.shared.engine.nChunks := taken.nChunks ▸ inside
    exact circulating.covered_worker_step counted found taken keeps undisturbed liveBefore
      unfinishedBefore (circulating.covered before liveBefore chunkId insideBefore unfinishedBefore)
  opening := by
    intro undisturbed queued other member scheduled
    obtain ⟨before, moves⟩ := taken.undisturbed undisturbed
    have queuedBefore : sys.shared.engine.state = .queued := by
      rcases moves with same | ⟨_, _, downloading⟩ | completed
      · rwa [← same]
      · simp [downloading] at queued
      · simp [completed] at queued
    rcases List.mem_or_eq_of_mem_set member with old | rfl
    · exact circulating.opening before queuedBefore other old scheduled
    · have present := List.mem_of_getElem? found
      have scheduledBefore : worker.pc.scheduled = true := by
        rcases taken.scheduledConnections with ⟨_, region⟩ | ⟨_, at_pc, _⟩
        · rwa [← region]
        · simp [at_pc, WorkerPc.scheduled] at scheduled
      have at_pc := circulating.opening before queuedBefore worker present scheduledBefore
      rcases taken.opening at_pc queuedBefore with opened | downloading
      · exact Or.inr opened
      · simp [downloading] at queued
  ended := by
    intro other member at_pc chunkId holds
    rcases List.mem_or_eq_of_mem_set member with old | rfl
    · exact chunkFinished_worker_step found taken keeps
        (circulating.ended other old at_pc chunkId holds)
    · obtain ⟨atHead, done, rfl, sameItem⟩ := taken.ended at_pc
      have finished := (keeps.2 worker found).2.1 atHead done
      rw [Worker.chunkId, sameItem] at holds
      obtain ⟨item, held, rfl⟩ := Option.map_eq_some_iff.mp holds
      simpa [Worker.chunkDone, Worker.chunk?, held, DownloadEngine.chunkFinished] using finished

theorem Circulating.call_step (circulating : sys.Circulating) (counted : sys.Counted)
    (generation : sys.Generation) (alone : sys.BuildAlone) {index : Nat} {call next : Call}
    {label : CallLabel} {shared : Shared} {spawned : List Worker}
    (found : sys.calls[index]? = some call)
    (taken : Call.Step index sys.shared call label shared next spawned)
    : Circulating { sys with
        shared
        workers := sys.workers ++ spawned
        calls := sys.calls.set index next } where
  covered := by
    intro undisturbed live
    have member := List.mem_of_getElem? found
    obtain ⟨same, notRebuild, before | ⟨finished, rfl, rfl, reset⟩⟩ :=
      taken.undisturbed undisturbed
    · rcases taken.work with
        ⟨pending, position, _⟩ | ⟨_, rebuild, _⟩ | ⟨finished, rfl, _, reset⟩
      · intro chunkId inside unfinished
        have covered := circulating.covered before (same ▸ live) chunkId
          (by simpa [DownloadEngine.nChunks, taken.chunksInfo] using inside)
          (by simpa [DownloadEngine.chunkFinished, taken.chunksInfo] using unfinished)
        simp only [Covered, pending, position, List.map_append, List.mem_append]
        exact covered.imp_right Or.inl
      · exact absurd rebuild notRebuild
      · refine allCovered_of_rebuilt ?_ ?_ <;> simp only [reset, DownloadEngine.resetNext]
        exact generation.rebuilt ⟨_, member, rfl⟩
    · refine allCovered_of_rebuilt ?_ ?_ <;> simp only [reset, DownloadEngine.resetCount]
      · exact generation.rebuilt ⟨_, member, rfl⟩
      · exact generation.restarted finished member
  opening := by
    intro undisturbed queued worker member scheduled
    obtain ⟨same, _, before | ⟨finished, rfl, rfl, reset⟩⟩ := taken.undisturbed undisturbed
    · rcases taken.mem_workers member with old | rfl
      · exact circulating.opening before (same ▸ queued) worker old scheduled
      · exact Or.inl rfl
    · rw [List.append_nil] at member
      have idle := alone _ (List.mem_of_getElem? found) rfl
      have positive := counted.scheduled_pos member scheduled
      omega
  ended := by
    intro worker member at_pc chunkId holds
    simp only [DownloadEngine.chunkFinished, taken.chunksInfo]
    rcases taken.mem_workers member with old | rfl
    · exact circulating.ended worker old at_pc chunkId holds
    · cases at_pc

-----------------------------------------------------------------------------------------
-- No chunk is orphaned while workers keep their chunks
-----------------------------------------------------------------------------------------

theorem ReachableWhile.circulating (built : start.Built)
    (reached : ReachableWhile KeepsChunks start sys)
    : sys.Circulating := by
  have alone : ∀ sys, ReachableWhile KeepsChunks start sys → sys.BuildAlone :=
    fun _ earlier => earlier.buildAlone built (fun _ _ _ keeps => keeps.1)
  refine invariant reached built.circulating ?_ ?_ ?_
  · intro sys index worker next label shared earlier _ circulating found taken keeps
    exact circulating.worker_step (earlier.counted built) found taken keeps
  · intro sys index call next label shared spawned earlier _ circulating found taken _
    exact circulating.call_step (earlier.counted built) (earlier.generation built alone)
      (alone sys earlier) found taken
  · intro sys api dispatched _ circulating
    exact { circulating with }

/-- No chunk is orphaned in a run whose workers give up finished chunks only. -/
theorem nothing_orphaned (built : start.Built)
    (reached : ReachableWhile KeepsChunks start sys)
    : sys.NothingOrphaned :=
  fun downloading undisturbed =>
    (reached.circulating built).covered undisturbed (Or.inr downloading)

open Muld.Action in
/-- A worker holds the first of two unfinished chunks of an undisturbed download. -/
theorem nothing_orphaned_two_chunks
    : ∃ sys : Sys,
        sys.NothingOrphaned
        ∧ sys.shared.engine.state = .downloading
        ∧ sys.shared.history.undisturbed = true
        ∧ sys.shared.engine.chunkFinished 0 = false := by
  obtain ⟨sys, reached, holds⟩ :=
    exists_reachable KeepsChunks twoChunks
      (.invoke .start :: callRuns 0 14 ++ workerRuns 0 7)
      (fun sys =>
        sys.shared.engine.state == .downloading
          && sys.shared.history.undisturbed
          && !sys.shared.engine.chunkFinished 0)
      (by decide +kernel)
  simp only [Bool.and_eq_true, Bool.not_eq_true', beq_iff_eq] at holds
  exact ⟨sys, nothing_orphaned twoChunks_built reached, holds.1.1, holds.1.2, holds.2⟩

open Muld.Action in
/-- A worker has taken the first chunk when the controller lowers the target, and polls
the release budget before its request: it leaves with the chunk in hand.
-/
theorem chunk_orphaned
    : ¬ ∀ start sys : Sys, start.Built → Reachable start sys → sys.NothingOrphaned := by
  intro kept
  obtain ⟨sys, reached, holds⟩ :=
    exists_reachable Transition.anyStep twoChunks
      (.invoke .start :: callRuns 0 14 ++ workerRuns 0 6
        ++ .invoke (.setDesiredConnections 1) :: callRuns 1 2
        ++ workerRuns 0 1)
      (fun sys => !decide sys.NothingOrphaned)
      (by decide +kernel)
  have orphaned : ¬ sys.NothingOrphaned := by simpa using holds
  exact orphaned (kept _ _ twoChunks_built reached)

end Sys

end Muld
