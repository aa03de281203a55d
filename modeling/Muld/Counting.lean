import Muld.Generations

/-! `nDownloadedChunks_` against the chunks that are finished. A worker that has counted the
bytes which finish its chunk owes the counter one until it bumps it. The counter together
with what is owed moves away from the number of finished chunks in one case only: when bytes
arrive for a chunk that is already finished.
-/

namespace Muld

open Threads

/-- The program points of `NotifyChunkReceived` between the update of the chunk and the
test whether it is finished.
-/
def WorkerPc.notifying : WorkerPc → Bool
  | .notifyTotal | .notifyEvent | .notifyEventReport | .notifyProgress
  | .notifyProgressReport | .notifyCount | .storeLock .notify | .storeScan .notify
  | .storeWrite .notify | .notifyFinished => true
  | _ => false

/-- What a worker is about to add to the counter. -/
def Worker.owed (engine : DownloadEngine) (worker : Worker) : Int :=
  if worker.pc == .notifyBump || (worker.pc.notifying && worker.chunkDone engine) then 1
  else 0

theorem Worker.owed_nonneg (engine : DownloadEngine) (worker : Worker)
    : 0 ≤ worker.owed engine := by
  unfold owed
  split <;> decide

/-- A worker that owes nothing stands outside the notification. -/
theorem Worker.owed_eq_zero {engine : DownloadEngine} {worker : Worker}
    (bumps : worker.pc ≠ .notifyBump) (outside : worker.pc.notifying = false)
    : worker.owed engine = 0 := by
  simp [owed, bumps, outside]

/-- What is owed depends on the chunk of the worker only. -/
theorem Worker.owed_congr {engine other : DownloadEngine} {worker : Worker}
    (same : worker.chunk? other = worker.chunk? engine)
    : worker.owed other = worker.owed engine := by
  simp [owed, chunkDone, same]

theorem Worker.chunk?_congr {engine other : DownloadEngine} (worker : Worker)
    (same : other.chunksInfo = engine.chunksInfo)
    : worker.chunk? other = worker.chunk? engine := by
  simp [chunk?, same]

/-- One if the chunk is finished. -/
def ChunkInfo.finishedShare (chunk : ChunkInfo) : Int := if chunk.isFinished then 1 else 0

theorem finishedCount_eq_total (chunks : List ChunkInfo)
    : (finishedCount chunks : Int) = total ChunkInfo.finishedShare chunks := by
  induction chunks with
  | nil => rfl
  | cons head rest ih =>
      rw [finishedCount, List.countP_cons] at *
      simp only [total, List.map_cons, List.sum_cons, ChunkInfo.finishedShare] at ih ⊢
      split <;> push_cast <;> omega

/-- Bytes for one chunk move the number of finished chunks by the change of that chunk. -/
theorem finishedCount_updateReceived {engine : DownloadEngine} {chunkId : Nat}
    {chunk : ChunkInfo} (found : engine.chunksInfo[chunkId]? = some chunk) (bytes : Nat)
    : (finishedCount (engine.updateReceived chunkId bytes).chunksInfo : Int)
        = finishedCount engine.chunksInfo - chunk.finishedShare
          + (chunk.updateReceived bytes).finishedShare := by
  rw [finishedCount_eq_total, finishedCount_eq_total,
    DownloadEngine.updateReceived_chunksInfo found, total_set _ found]

namespace Worker

variable {shared shared' : Shared} {worker next : Worker} {label : WorkerLabel}

/-- A step that counts no bytes moves what is owed into the counter. -/
theorem Step.owed (taken : Step shared worker label shared' next)
    (uncounted : worker.pc ≠ .notifyUpdate)
    : (shared'.engine.nDownloadedChunks : Int) + next.owed shared'.engine
        = shared.engine.nDownloadedChunks + worker.owed shared.engine := by
  cases taken
  case update at_pc _ => exact absurd at_pc uncounted
  case throw at_pc _ _ =>
    have before : worker.owed shared.engine = 0 := by
      apply owed_eq_zero <;> cases pc : worker.pc <;>
        simp_all [WorkerPc.throws, WorkerPc.notifying]
    rw [before]
    rfl
  case unfinished chunk at_pc found unfinished =>
    simp [Worker.owed, at_pc, WorkerPc.notifying, chunkDone, found, unfinished]
  case finished chunk at_pc found finished =>
    simp [Worker.owed, at_pc, WorkerPc.notifying, chunkDone, found, finished]
  case bump at_pc _ =>
    simp [Worker.owed, at_pc, WorkerPc.notifying, Shared.onEngine, DownloadEngine.bumpDownloaded]
  case bumpLast at_pc _ =>
    simp [Worker.owed, at_pc, WorkerPc.notifying, Shared.onEngine, DownloadEngine.bumpDownloaded]
  case release at_pc _ =>
    rcases at_pc with at_pc | at_pc <;>
      simp [Worker.owed, at_pc, WorkerPc.notifying, Shared.onEngine]
  case streamStop at_pc _ =>
    rcases at_pc with at_pc | at_pc <;> simp [Worker.owed, at_pc, WorkerPc.notifying]
  case allow at_pc _ _ =>
    rcases at_pc with at_pc | at_pc <;> simp [Worker.owed, at_pc, WorkerPc.notifying]
  case nullWriter => rfl
  case lock site at_pc _ =>
    cases site <;>
      simp [Worker.owed, at_pc, WorkerPc.notifying, Shared.lockDisk, Shared.onEngine, chunkDone,
        chunk?]
  case scan site chunk at_pc _ =>
    cases site <;> simp [Worker.owed, at_pc, WorkerPc.notifying, chunkDone, chunk?]
  case scanned site at_pc _ =>
    cases site <;> simp [Worker.owed, at_pc, WorkerPc.notifying, chunkDone, chunk?]
  case store site _ at_pc _ =>
    cases site <;>
      simp [Worker.owed, at_pc, WorkerPc.notifying, Shared.storeImage, chunkDone, chunk?,
        afterStore]
  all_goals
    simp [Worker.owed, ‹worker.pc = _›, WorkerPc.notifying, Shared.onEngine, chunkDone, chunk?]
  all_goals rfl

end Worker

namespace Sys

variable {meets : Sys → Action → Sys → Prop} {start sys : Sys}

/-- How far the counter and what is owed to it are above the number of finished chunks. -/
def excess (sys : Sys) : Int :=
  sys.shared.engine.nDownloadedChunks
    + total (Worker.owed sys.shared.engine) sys.workers
    - finishedCount sys.shared.engine.chunksInfo

/-- The excess grows by one when bytes arrive for a finished chunk and stays otherwise. -/
theorem excess_worker_step (generation : sys.Generation) {index : Nat}
    {worker next : Worker} {label : WorkerLabel} {shared : Shared}
    (found : sys.workers[index]? = some worker)
    (taken : worker.Step sys.shared label shared next)
    : excess { sys with shared, workers := sys.workers.set index next }
        = sys.excess
          + if worker.pc = .notifyUpdate ∧ worker.chunkDone sys.shared.engine = true then 1
            else 0 := by
  by_cases counts : worker.pc = .notifyUpdate
  · obtain ⟨item, held, rfl, rfl⟩ := taken.counts counts
    obtain ⟨chunk, present, _⟩ := generation.chunk_of_held (List.mem_of_getElem? found) held
    have others : ∀ other thread, other ≠ index → sys.workers[other]? = some thread →
        thread.owed (sys.shared.engine.updateReceived item.chunkId worker.bytesRead)
          = thread.owed sys.shared.engine := by
      intro other thread different atOther
      apply Worker.owed_congr
      cases holds : thread.item with
      | none => simp [Worker.chunk?, holds]
      | some otherItem =>
          have apart := generation.item_ne found held different atOther holds
          simp [Worker.chunk?, holds,
            DownloadEngine.updateReceived_getElem?_other _ _ apart.symm]
    have before : worker.owed sys.shared.engine = 0 :=
      Worker.owed_eq_zero (by simp [counts]) (by rw [counts]; rfl)
    have after
        : (worker.goto .notifyTotal).owed
            (sys.shared.engine.updateReceived item.chunkId worker.bytesRead)
          = (chunk.updateReceived worker.bytesRead).finishedShare := by
      simp [Worker.owed, WorkerPc.notifying, Worker.chunkDone, Worker.chunk?, held,
        DownloadEngine.updateReceived_getElem?_self, present, ChunkInfo.finishedShare]
    have owes := @total_set_of_agree Worker sys.workers index worker
      (worker.goto .notifyTotal) _ _ found others
    have finished := finishedCount_updateReceived present worker.bytesRead
    have done : worker.chunkDone sys.shared.engine = chunk.isFinished := by
      simp [Worker.chunkDone, Worker.chunk?, held, present]
    simp only [excess, Shared.onEngine, owes, finished, before, after, done, counts, true_and]
    simp only [DownloadEngine.updateReceived, ChunkInfo.finishedShare]
    ring
  · have same := taken.chunksInfo_eq counts
    have others : ∀ other thread, other ≠ index → sys.workers[other]? = some thread →
        thread.owed shared.engine = thread.owed sys.shared.engine :=
      fun _ thread _ _ => Worker.owed_congr (thread.chunk?_congr same)
    have owes := @total_set_of_agree Worker sys.workers index worker next _ _ found others
    have moved := taken.owed counts
    simp only [excess, owes, same, counts, false_and, if_false]
    omega

/-- A call step keeps a rebuild of another call going, and its own unless it ends it. -/
theorem Building.call_step (building : sys.Building) {index : Nat} {call next : Call}
    {shared : Shared} {workers : List Worker} (found : sys.calls[index]? = some call)
    (stays : call.building = true → next.building = true)
    : Building { sys with shared, workers, calls := sys.calls.set index next } := by
  exact exists_set_of_keeps found building stays

/-- A new call keeps the rebuild of another call going. -/
theorem Building.snoc (building : sys.Building) {entry : Call} {dispatched : Bool}
    : Building { sys with calls := sys.calls ++ [entry], dispatched } := by
  obtain ⟨call, member, inside⟩ := building
  exact ⟨call, List.mem_append_left _ member, inside⟩

/-- A call keeps the excess, or ends a rebuild and leaves none. -/
theorem excess_call_step (counted : sys.Counted) (generation : sys.Generation)
    (alone : sys.BuildAlone) {index : Nat} {call next : Call} {label : CallLabel}
    {shared : Shared} {spawned : List Worker} (found : sys.calls[index]? = some call)
    (taken : Call.Step index sys.shared call label shared next spawned)
    : (excess { sys with
          shared
          workers := sys.workers ++ spawned
          calls := sys.calls.set index next } = sys.excess
        ∧ shared.history.built = sys.shared.history.built
        ∧ (sys.Building
          → Building { sys with
              shared
              workers := sys.workers ++ spawned
              calls := sys.calls.set index next }))
      ∨ excess { sys with
          shared
          workers := sys.workers ++ spawned
          calls := sys.calls.set index next } = 0 := by
  have member := List.mem_of_getElem? found
  rcases taken.nDownloadedChunks with
    ⟨same, built, stays⟩ | ⟨finished, rfl, rfl, rfl, reset, _⟩
  · refine Or.inl ⟨?_, built, ?_⟩
    · have owes : Worker.owed shared.engine = Worker.owed sys.shared.engine :=
        funext fun worker => Worker.owed_congr (worker.chunk?_congr taken.chunksInfo)
      have fresh : total (Worker.owed sys.shared.engine) spawned = 0 := by
        rcases taken.spawned_cases with rfl | rfl <;> rfl
      simp only [excess, same, taken.chunksInfo, owes, total_append, fresh, add_zero]
    · exact fun building => building.call_step found stays
  · refine Or.inr ?_
    have idle := alone _ member rfl
    have silent
        : total (Worker.owed (sys.shared.engine.resetCount finished)) sys.workers = 0 := by
      apply total_eq_zero
      intro worker present
      have unscheduled : worker.pc.scheduled = false := by
        by_contra scheduled
        have positive := counted.scheduled_pos present (by simpa using scheduled)
        omega
      apply Worker.owed_eq_zero <;> cases pc : worker.pc <;>
        simp_all [WorkerPc.scheduled, WorkerPc.notifying]
    have count := generation.finished finished (Or.inr member)
    simp only [excess, reset, List.append_nil, silent]
    simp [DownloadEngine.resetCount, count]

-----------------------------------------------------------------------------------------
-- The excess over whole runs
-----------------------------------------------------------------------------------------

/-- Before the first rebuild there is no work. -/
def Prepared (sys : Sys) : Prop :=
  sys.shared.history.built = false → ¬ sys.Building → sys.shared.engine.pendingWork = []

theorem ReachableWhile.prepared (built : start.Built)
    (reached : ReachableWhile meets start sys)
    : sys.Prepared := by
  refine invariant reached (fun _ _ => built.pendingWork) ?_ ?_ ?_
  · intro sys index worker next label shared _ _ prepared _ taken _ unbuilt outside
    rw [taken.pendingWork]
    exact prepared (taken.built ▸ unbuilt) outside
  · intro sys index call next label shared spawned _ _ prepared found taken _ unbuilt outside
    rcases taken.nDownloadedChunks with ⟨_, same, stays⟩ | ⟨_, _, _, _, _, done⟩
    · have before : ¬ sys.Building := fun building => outside (building.call_step found stays)
      rcases taken.work with ⟨pending, _, _⟩ | ⟨_, rfl, _⟩ | ⟨finished, _, rfl, _⟩
      · simp only [pending]
        exact prepared (same ▸ unbuilt) before
      · exact absurd ⟨_, mem_set_self found, rfl⟩ outside
      · exact absurd ⟨_, mem_set_self found, rfl⟩ outside
    · simp [done] at unbuilt
  · intro sys api dispatched _ prepared unbuilt outside
    exact prepared unbuilt fun building => outside building.snoc

/-- A worker that holds an item belongs to a generation that was rebuilt to the end. -/
theorem Prepared.of_held (prepared : sys.Prepared) (counted : sys.Counted)
    (generation : sys.Generation) (alone : sys.BuildAlone) {worker : Worker}
    (member : worker ∈ sys.workers) {item : WorkItem} (held : worker.item = some item)
    : sys.shared.history.built = true ∧ ¬ sys.Building := by
  have outside : ¬ sys.Building := by
    rintro ⟨call, present, building⟩
    rw [counted.item_none (alone call present building) member] at held
    contradiction
  refine ⟨?_, outside⟩
  by_contra unbuilt
  obtain ⟨position, _, at_position⟩ := generation.held worker member item held
  rw [prepared (by simpa using unbuilt) outside] at at_position
  simp at at_position

/-- Once a rebuild has ended and while none is going on, the excess has a property. -/
def ExcessHolds (holds : Int → Prop) (sys : Sys) : Prop :=
  sys.shared.history.built = true → ¬ sys.Building → holds sys.excess

/-- A property of the excess that holds of zero holds after every rebuild, if the arrival
of bytes for a chunk keeps it.
-/
theorem ReachableWhile.excessHolds {holds : Int → Prop} (built : start.Built)
    (alone : ∀ sys, ReachableWhile meets start sys → sys.BuildAlone) (zero : holds 0)
    (grows
      : ∀ sys : Sys,
          ReachableWhile meets start sys
          → ∀ worker ∈ sys.workers,
              worker.pc = .notifyUpdate
              → worker.chunkDone sys.shared.engine = true
              → ∀ excess, holds excess → holds (excess + 1))
    (reached : ReachableWhile meets start sys)
    : sys.ExcessHolds holds := by
  refine invariant reached ?_ ?_ ?_ ?_
  · simp [ExcessHolds, built.history]
  · intro sys index worker next label shared earlier _ holds found taken _ done outside
    rw [excess_worker_step (earlier.generation built alone) found taken]
    have before := holds (taken.built ▸ done) outside
    split
    · rename_i grown
      exact grows sys earlier worker (List.mem_of_getElem? found) grown.1 grown.2 _ before
    · simpa using before
  · intro sys index call next label shared spawned earlier _ holds found taken _ done outside
    rcases excess_call_step (earlier.counted built) (earlier.generation built alone)
      (alone sys earlier) found taken with ⟨same, sameBuilt, stays⟩ | none
    · rw [same]
      exact holds (sameBuilt ▸ done) (fun building => outside (stays building))
    · rw [none]
      exact zero
  · intro sys api dispatched _ holds done outside
    exact holds done fun building => outside building.snoc

end Sys

end Muld
