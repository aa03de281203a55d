import Muld.Scheduling

/-! A generation of work is the list that one `BuildPendingWork` leaves behind and the items
handed out from it. While rebuilds run alone, the undispensed part of the list describes
unfinished chunks exactly and every handed out item belongs to one worker.
-/

namespace Muld

open Threads

namespace Sys

variable {meets : Sys → Action → Sys → Prop} {start sys : Sys}

/-- `BuildPendingWork` runs only while no worker is scheduled. -/
def BuildAlone (sys : Sys) : Prop :=
  ∀ call ∈ sys.calls,
    call.building = true → sys.shared.engine.scheduledConnections = 0

instance (sys : Sys) : Decidable sys.BuildAlone := by
  unfold BuildAlone
  infer_instance

/-- A call is inside `BuildPendingWork`. -/
def Building (sys : Sys) : Prop := ∃ call ∈ sys.calls, call.building = true

/-- What holds of the work list and of the items taken from it. -/
structure Generation (sys : Sys) : Prop where
  chunkIds : (sys.shared.engine.pendingWork.map WorkItem.chunkId).Nodup
  inside
    : ∀ item ∈ sys.shared.engine.pendingWork,
        ∃ chunk,
          sys.shared.engine.chunksInfo[item.chunkId]? = some chunk
          ∧ item.rangeEnd = chunk.endRange
  held
    : ∀ worker ∈ sys.workers,
        ∀ item,
          worker.item = some item
          → ∃ position,
              position < sys.shared.engine.nextWorkItem
              ∧ sys.shared.engine.pendingWork[position]? = some item
  exclusive : Exclusive Worker.chunkId sys.workers
  /-- What is not handed out yet is exactly what its chunk misses. -/
  fresh
    : ∀ (position : Nat) (item : WorkItem),
        sys.shared.engine.nextWorkItem ≤ position
        → sys.shared.engine.pendingWork[position]? = some item
        → ∃ chunk,
            sys.shared.engine.chunksInfo[item.chunkId]? = some chunk
            ∧ chunk.isFinished = false
            ∧ item = chunk.missing position item.chunkId
  rebuilt
    : sys.Building
      → sys.shared.engine.pendingWork = pendingItems 0 0 sys.shared.engine.chunksInfo
  finished
    : ∀ (count : Nat),
        Call.resetNext count ∈ sys.calls ∨ Call.resetCount count ∈ sys.calls
        → count = finishedCount sys.shared.engine.chunksInfo
  restarted
    : ∀ (count : Nat),
        Call.resetCount count ∈ sys.calls → sys.shared.engine.nextWorkItem = 0

theorem Built.generation (built : start.Built) : start.Generation where
  chunkIds := by simp [built.pendingWork]
  inside := by simp [built.pendingWork]
  held := by simp [built.workers]
  exclusive := by simp [built.workers, Exclusive]
  fresh := by simp [built.pendingWork]
  rebuilt := by simp [Building, built.calls]
  finished := by simp [built.calls]
  restarted := by simp [built.calls]

/-- Two items of the list with the same chunk stand at the same position. -/
theorem Generation.position_eq (generation : sys.Generation) {left right : Nat}
    {leftItem rightItem : WorkItem}
    (atLeft : sys.shared.engine.pendingWork[left]? = some leftItem)
    (atRight : sys.shared.engine.pendingWork[right]? = some rightItem)
    (same : leftItem.chunkId = rightItem.chunkId)
    : left = right := by
  have bound := (List.getElem?_eq_some_iff.mp atLeft).1
  refine (List.getElem?_inj (by simpa using bound) generation.chunkIds).mp ?_
  rw [List.getElem?_map, List.getElem?_map, atLeft, atRight, Option.map_some, Option.map_some,
    same]

/-- A held item names a chunk and ends where the chunk ends. -/
theorem Generation.chunk_of_held (generation : sys.Generation) {worker : Worker}
    (member : worker ∈ sys.workers) {item : WorkItem} (held : worker.item = some item)
    : ∃ chunk,
        sys.shared.engine.chunksInfo[item.chunkId]? = some chunk
        ∧ item.rangeEnd = chunk.endRange := by
  obtain ⟨_, _, at_position⟩ := generation.held worker member item held
  exact generation.inside item (List.mem_of_getElem? at_position)

/-- Two workers that hold the same position of the list are the same worker. -/
theorem Generation.item_ne (generation : sys.Generation) {index other : Nat}
    {worker holder : Worker} {item held : WorkItem}
    (found : sys.workers[index]? = some worker) (holds : worker.item = some item)
    (different : other ≠ index) (atOther : sys.workers[other]? = some holder)
    (alsoHolds : holder.item = some held)
    : held.chunkId ≠ item.chunkId := by
  intro same
  refine different
    (generation.exclusive other index holder worker item.chunkId atOther found ?_ ?_)
  · simp [Worker.chunkId, alsoHolds, same]
  · simp [Worker.chunkId, holds]

/-- A step of one worker leaves the chunks of the others alone. -/
theorem Generation.chunk_of_other (generation : sys.Generation) {index position : Nat}
    {worker next other : Worker} {label : WorkerLabel} {shared : Shared}
    (found : sys.workers[index]? = some worker)
    (taken : worker.Step sys.shared label shared next) (different : position ≠ index)
    (atOther : sys.workers[position]? = some other) {item : WorkItem}
    (held : other.item = some item) {chunk : ChunkInfo}
    (present : shared.engine.chunksInfo[item.chunkId]? = some chunk)
    : sys.shared.engine.chunksInfo[item.chunkId]? = some chunk := by
  rcases taken.chunksInfo with same | ⟨own, _, _, ownHeld, moved⟩
  · exact same ▸ present
  · have apart := generation.item_ne found ownHeld different atOther held
    rw [moved, DownloadEngine.updateReceived_getElem?_other _ _ apart.symm] at present
    exact present

/-- While a call rebuilds the work list, no worker moves the list or the chunks. -/
theorem Building.worker_step (building : sys.Building) (counted : sys.Counted)
    (alone : sys.BuildAlone) {index : Nat} {worker next : Worker} {label : WorkerLabel}
    {shared : Shared} (found : sys.workers[index]? = some worker)
    (taken : worker.Step sys.shared label shared next)
    : shared.engine.chunksInfo = sys.shared.engine.chunksInfo
      ∧ shared.engine.nextWorkItem = sys.shared.engine.nextWorkItem := by
  obtain ⟨call, member, inside⟩ := building
  have idle := alone call member inside
  have present := List.mem_of_getElem? found
  constructor
  · rcases taken.chunksInfo with same | ⟨item, _, _, held, _⟩
    · exact same
    · rw [counted.item_none idle present] at held
      contradiction
  · rcases taken.nextWorkItem with same | ⟨at_pc, _⟩
    · exact same
    · have positive := counted.scheduled_pos present (by rw [at_pc]; rfl)
      omega

theorem Generation.worker_step (generation : sys.Generation) (counted : sys.Counted)
    (alone : sys.BuildAlone) {index : Nat} {worker next : Worker} {label : WorkerLabel}
    {shared : Shared} (found : sys.workers[index]? = some worker)
    (taken : worker.Step sys.shared label shared next)
    : Generation { sys with shared, workers := sys.workers.set index next } := by
  have advance : sys.shared.engine.nextWorkItem ≤ shared.engine.nextWorkItem := by
    rcases taken.nextWorkItem with same | ⟨_, next⟩ <;> omega
  have owned : ∀ item, next.item = some item →
      ∃ position, position < shared.engine.nextWorkItem
        ∧ sys.shared.engine.pendingWork[position]? = some item := by
    intro item holds
    rcases taken.item with same | dropped | ⟨took, _, available, rfl, rfl⟩
    · obtain ⟨position, before, at_position⟩ :=
        generation.held worker (List.mem_of_getElem? found) item (same ▸ holds)
      exact ⟨position, by omega, at_position⟩
    · simp [dropped] at holds
    · obtain rfl : took = item := Option.some.inj holds
      exact ⟨_, Nat.lt_succ_self _, available⟩
  constructor
  case chunkIds => simpa only [taken.pendingWork] using generation.chunkIds
  case inside =>
    intro item member
    rw [taken.pendingWork] at member
    obtain ⟨chunk, present, ends⟩ := generation.inside item member
    rcases taken.chunksInfo with same | ⟨own, _, _, _, moved⟩
    · exact ⟨chunk, by rw [same]; exact present, ends⟩
    · obtain ⟨updated, found, _, sameEnd⟩ :=
        @DownloadEngine.updateReceived_getElem?_range own.chunkId worker.bytesRead _ _ _ present
      exact ⟨updated, by rw [moved]; exact found, by rw [sameEnd, ends]⟩
  case held =>
    simp only [taken.pendingWork]
    refine forall_set ?_ owned
    intro other member item holds
    obtain ⟨position, before, at_position⟩ := generation.held other member item holds
    exact ⟨position, by omega, at_position⟩
  case exclusive =>
    refine generation.exclusive.set ?_
    intro chunkId other holder keeps different atOther alsoKeeps
    obtain ⟨item, holds, rfl⟩ := Option.map_eq_some_iff.mp keeps
    obtain ⟨held, alsoHolds, same⟩ := Option.map_eq_some_iff.mp alsoKeeps
    rcases taken.item with kept | dropped | ⟨took, _, available, _, rfl⟩
    · exact generation.item_ne found (kept ▸ holds) different atOther alsoHolds same
    · simp [dropped] at holds
    · obtain rfl : took = item := Option.some.inj holds
      obtain ⟨position, before, at_position⟩ :=
        generation.held holder (List.mem_of_getElem? atOther) held alsoHolds
      have positions := generation.position_eq at_position available same
      omega
  case fresh =>
    intro position item ahead at_position
    rw [taken.pendingWork] at at_position
    have before : sys.shared.engine.nextWorkItem ≤ position := Nat.le_trans advance ahead
    obtain ⟨chunk, present, unfinished, missing⟩ :=
      generation.fresh position item before at_position
    refine ⟨chunk, ?_, unfinished, missing⟩
    rcases taken.chunksInfo with same | ⟨own, _, _, holds, moved⟩
    · rw [same]
      exact present
    · obtain ⟨held, earlier, at_held⟩ :=
        generation.held worker (List.mem_of_getElem? found) own holds
      have different : own.chunkId ≠ item.chunkId := by
        intro same
        have positions := generation.position_eq at_held at_position same
        omega
      rw [moved, DownloadEngine.updateReceived_getElem?_other _ _ different]
      exact present
  case rebuilt =>
    intro building
    have before : sys.Building := building
    rw [taken.pendingWork, (before.worker_step counted alone found taken).1]
    exact generation.rebuilt before
  case finished =>
    intro count at_call
    have building : sys.Building := by
      rcases at_call with member | member <;> exact ⟨_, member, rfl⟩
    rw [(building.worker_step counted alone found taken).1]
    exact generation.finished count at_call
  case restarted =>
    intro count at_call
    have building : sys.Building := ⟨_, at_call, rfl⟩
    rw [(building.worker_step counted alone found taken).2]
    exact generation.restarted count at_call

/-- A list that was just rebuilt, with no item handed out, is a generation. -/
theorem Generation.of_rebuilt
    (rebuilt
      : sys.shared.engine.pendingWork = pendingItems 0 0 sys.shared.engine.chunksInfo)
    (idle : ∀ worker ∈ sys.workers, worker.item = none)
    (finished
      : ∀ (count : Nat),
          Call.resetNext count ∈ sys.calls ∨ Call.resetCount count ∈ sys.calls
          → count = finishedCount sys.shared.engine.chunksInfo)
    (restarted
      : ∀ (count : Nat),
          Call.resetCount count ∈ sys.calls → sys.shared.engine.nextWorkItem = 0)
    : sys.Generation where
  chunkIds := by
    rw [rebuilt]
    exact pendingItems_chunkId_nodup _ 0 0
  inside := by
    intro item member
    rw [rebuilt] at member
    obtain ⟨position, found⟩ := List.mem_iff_getElem?.mp member
    obtain ⟨index, chunk, present, _, rfl⟩ := pendingItems_getElem? found
    exact ⟨chunk, by simpa [ChunkInfo.missing] using present, rfl⟩
  held := by
    intro worker member item holds
    simp [idle worker member] at holds
  exclusive := by
    intro first second left right chunkId atFirst _ holds _
    simp [Worker.chunkId, idle left (List.mem_of_getElem? atFirst)] at holds
  fresh := by
    intro position item _ found
    rw [rebuilt] at found
    obtain ⟨index, chunk, present, unfinished, rfl⟩ := pendingItems_getElem? found
    refine ⟨chunk, by simpa [ChunkInfo.missing] using present, unfinished, ?_⟩
    simp [ChunkInfo.missing]
  rebuilt := fun _ => rebuilt
  finished := finished
  restarted := restarted

/-- A call outside its rebuild leaves the generation alone. -/
theorem Generation.call_step_outside (generation : sys.Generation) {index : Nat}
    {call next : Call} {label : CallLabel} {shared : Shared} {spawned : List Worker}
    (taken : Call.Step index sys.shared call label shared next spawned)
    (pending : shared.engine.pendingWork = sys.shared.engine.pendingWork)
    (position : shared.engine.nextWorkItem = sys.shared.engine.nextWorkItem)
    (outside : next.building = false)
    : Generation { sys with
        shared
        workers := sys.workers ++ spawned
        calls := sys.calls.set index next } := by
  have old : ∀ {other : Call}, other ∈ sys.calls.set index next → other.building = true →
      other ∈ sys.calls := by
    intro other member building
    rcases List.mem_or_eq_of_mem_set member with before | rfl
    · exact before
    · simp [outside] at building
  constructor <;> simp only [pending, position, taken.chunksInfo]
  case chunkIds => exact generation.chunkIds
  case inside => exact generation.inside
  case held =>
    intro worker member item holds
    rcases taken.mem_workers member with before | rfl
    · exact generation.held worker before item holds
    · cases holds
  case exclusive =>
    rcases taken.spawned_cases with rfl | rfl
    · simpa using generation.exclusive
    · exact generation.exclusive.snoc rfl
  case fresh => exact generation.fresh
  case rebuilt =>
    rintro ⟨other, member, building⟩
    exact generation.rebuilt ⟨other, old member building, building⟩
  case finished =>
    intro count at_call
    exact generation.finished count (at_call.imp (old · rfl) (old · rfl))
  case restarted =>
    intro count at_call
    exact generation.restarted count (old at_call rfl)

theorem Generation.call_step (generation : sys.Generation) (counted : sys.Counted)
    {index : Nat} {call next : Call} {label : CallLabel} {shared : Shared}
    {spawned : List Worker} (found : sys.calls[index]? = some call)
    (taken : Call.Step index sys.shared call label shared next spawned)
    (alone
      : BuildAlone { sys with
          shared
          workers := sys.workers ++ spawned
          calls := sys.calls.set index next })
    : Generation { sys with
        shared
        workers := sys.workers ++ spawned
        calls := sys.calls.set index next } := by
  have inside : ∀ {other}, other ∈ sys.calls.set index next →
      other = next ∨ other ∈ sys.calls :=
    fun member => (List.mem_or_eq_of_mem_set member).symm
  have entered : next ∈ sys.calls.set index next := mem_set_self found
  have idle : sys.shared.engine.scheduledConnections = 0 →
      ∀ worker ∈ sys.workers ++ spawned, worker.item = none := by
    intro none_scheduled worker member
    rcases taken.mem_workers member with old | rfl
    · exact counted.item_none none_scheduled old
    · rfl
  rcases taken.work with
    ⟨pending, position, outside⟩ | ⟨_, rfl, rebuilt⟩ | ⟨count, rfl, rfl, reset⟩
  · exact generation.call_step_outside taken pending position outside
  · have none_scheduled : sys.shared.engine.scheduledConnections = 0 := by
      have after := alone _ entered rfl
      simpa [rebuilt, DownloadEngine.rebuildPending] using after
    refine Generation.of_rebuilt ?_ (idle none_scheduled) ?_ ?_ <;>
      simp only [rebuilt, DownloadEngine.rebuildPending]
    · intro count at_call
      rcases at_call with member | member <;> rcases inside member with same | old
      · exact Call.resetNext.inj same
      · exact generation.finished count (Or.inl old)
      · cases same
      · exact generation.finished count (Or.inr old)
    · intro count at_call
      rcases inside at_call with same | old
      · cases same
      · exact generation.restarted count old
  · have at_call := List.mem_of_getElem? found
    have none_scheduled : sys.shared.engine.scheduledConnections = 0 := by
      have after := alone _ entered rfl
      simpa [reset, DownloadEngine.resetNext] using after
    refine Generation.of_rebuilt ?_ (idle none_scheduled) ?_ ?_ <;>
      simp only [reset, DownloadEngine.resetNext]
    · exact generation.rebuilt ⟨_, at_call, rfl⟩
    · intro other at_other
      rcases at_other with member | member <;> rcases inside member with same | old
      · cases same
      · exact generation.finished other (Or.inl old)
      · obtain rfl := Call.resetCount.inj same
        exact generation.finished other (Or.inl at_call)
      · exact generation.finished other (Or.inr old)
    · exact fun _ _ => trivial

/-- While every rebuild runs alone, the work list is a generation in every reachable state.
-/
theorem ReachableWhile.generation (built : start.Built)
    (alone : ∀ sys, ReachableWhile meets start sys → sys.BuildAlone)
    (reached : ReachableWhile meets start sys)
    : sys.Generation := by
  refine invariant reached built.generation ?_ ?_ ?_
  · intro sys index worker next label shared earlier _ generation found taken _
    exact generation.worker_step (earlier.counted built) (alone sys earlier) found taken
  · intro sys index call next label shared spawned earlier later generation found taken _
    exact generation.call_step (earlier.counted built) found taken (alone _ later)
  · intro sys api dispatched _ generation
    have entry : api.entry.building = false := by cases api <;> rfl
    have old : ∀ {call : Call}, call ∈ sys.calls ++ [api.entry] → call.building = true →
        call ∈ sys.calls := by
      intro call member building
      rcases mem_snoc_cases member with before | rfl
      · exact before
      · simp [entry] at building
    refine { generation with rebuilt := ?_, finished := ?_, restarted := ?_ }
    · rintro ⟨call, member, building⟩
      exact generation.rebuilt ⟨call, old member building, building⟩
    · intro count at_call
      exact generation.finished count (at_call.imp (old · rfl) (old · rfl))
    · intro count at_call
      exact generation.restarted count (old at_call rfl)

-----------------------------------------------------------------------------------------
-- Rebuilds run alone when no planner cuts into them
-----------------------------------------------------------------------------------------

/-- No planner's compare-and-swap succeeds while another call is between its drain check
and the end of its rebuild.
-/
def PlanAvoidsRebuild (before : Sys) (action : Action) (_ : Sys) : Prop :=
  match action with
  | .call index _ =>
      ∀ call ∈ before.calls[index]?,
        call.expects = some before.shared.engine.scheduledConnections
        → ∀ other ∈ before.calls, other.rebuilding = false
  | _ => True

instance (before : Sys) (action : Action) (after : Sys)
    : Decidable (PlanAvoidsRebuild before action after) :=
  match action with
  | .worker .. | .call .. | .invoke .. => by unfold PlanAvoidsRebuild; infer_instance

/-- From its drain check on, a rebuild sees no scheduled worker. -/
def RebuildIdle (sys : Sys) : Prop :=
  ∀ call ∈ sys.calls,
    call.rebuilding = true → sys.shared.engine.scheduledConnections = 0

theorem RebuildIdle.worker_step (idle : sys.RebuildIdle) {index : Nat} {worker next : Worker}
    {label : WorkerLabel} {shared : Shared} (taken : worker.Step sys.shared label shared next)
    : RebuildIdle { sys with shared, workers := sys.workers.set index next } := by
  intro call member rebuilding
  have before := idle call member rebuilding
  rcases taken.scheduledConnections with ⟨same, _⟩ | ⟨_, _, lowered⟩
  · exact same.trans before
  · simp only [lowered, before]
    decide

theorem RebuildIdle.call_step (idle : sys.RebuildIdle) {index : Nat} {call next : Call}
    {label : CallLabel} {shared : Shared} {spawned : List Worker} {after : Sys}
    (found : sys.calls[index]? = some call)
    (taken : Call.Step index sys.shared call label shared next spawned)
    (avoids : PlanAvoidsRebuild sys (.call index label) after)
    : RebuildIdle { sys with
        shared
        workers := sys.workers ++ spawned
        calls := sys.calls.set index next } := by
  intro other member rebuilding
  have present := List.mem_of_getElem? found
  rcases taken.scheduledConnections with ⟨same, _⟩ | ⟨scheduled, toAdd, rfl, rfl, _, read, _⟩
  · refine same.trans ?_
    rcases List.mem_or_eq_of_mem_set member with old | rfl
    · exact idle other old rebuilding
    · rcases taken.rebuilding rebuilding with before | drained
      · exact idle call present before
      · exact drained
  · rcases List.mem_or_eq_of_mem_set member with old | rfl
    · simp [avoids _ found (congrArg some read.symm) other old] at rebuilding
    · cases rebuilding

/-- Where planners keep clear of rebuilds, every rebuild runs alone. Witness: the drain
check before it, after which nothing is scheduled.
-/
theorem ReachableWhile.buildAlone (built : start.Built)
    (avoids
      : ∀ before action after, meets before action after → PlanAvoidsRebuild before action after)
    (reached : ReachableWhile meets start sys)
    : sys.BuildAlone := by
  have idle : sys.RebuildIdle := by
    refine invariant reached ?_ ?_ ?_ ?_
    · simp [RebuildIdle, built.calls]
    · intro sys index worker next label shared _ _ idle _ taken _
      exact idle.worker_step taken
    · intro sys index call next label shared spawned _ _ idle found taken met
      exact idle.call_step found taken (avoids _ _ _ met)
    · intro sys api dispatched _ idle call member rebuilding
      rcases mem_snoc_cases member with old | rfl
      · exact idle call old rebuilding
      · cases api <;> cases rebuilding
  intro call member building
  exact idle call member (Call.rebuilding_of_building building)

-----------------------------------------------------------------------------------------
-- Generations of work do not overlap
-----------------------------------------------------------------------------------------

/-- Rebuilds run alone and no two workers hold items of the same chunk. -/
def GenerationsApart (sys : Sys) : Prop :=
  sys.BuildAlone ∧ Exclusive Worker.chunkId sys.workers

/-- Where planners keep clear of rebuilds, generations do not overlap. -/
theorem generations_apart (built : start.Built)
    (reached : ReachableWhile PlanAvoidsRebuild start sys)
    : sys.GenerationsApart := by
  have alone : ∀ sys, ReachableWhile PlanAvoidsRebuild start sys → sys.BuildAlone :=
    fun _ earlier => earlier.buildAlone built (fun _ _ _ avoids => avoids)
  exact ⟨alone sys reached, (reached.generation built alone).exclusive⟩

open Muld.Action in
/-- Two workers of one generation hold the two chunks. -/
theorem generations_apart_two_workers
    : ∃ sys : Sys,
        sys.GenerationsApart ∧ sys.workers.map Worker.chunkId = [some 0, some 1] := by
  obtain ⟨sys, reached, holds⟩ :=
    exists_reachable PlanAvoidsRebuild twoChunks
      (.invoke .start :: callRuns 0 14 ++ workerRuns 0 6 ++ workerRuns 1 5)
      (fun sys => sys.workers.map Worker.chunkId == [some 0, some 1])
      (by decide +kernel)
  exact ⟨sys, generations_apart twoChunks_built reached, eq_of_beq holds⟩

open Muld.Action in
/-- A second `Resume` passes its drain check while the first `Start` has not planned yet.
The workers of that plan meet the rebuild, and two of them take the first chunk.
-/
theorem generations_overlap
    : ¬ ∀ start sys : Sys, start.Built → Reachable start sys → sys.GenerationsApart := by
  intro apart
  obtain ⟨sys, reached, holds⟩ :=
    exists_reachable Transition.anyStep twoChunks
      (.invoke .start :: callRuns 0 7
        ++ .invoke .pause :: callRuns 1 2
        ++ .invoke .resume :: callRuns 2 3
        ++ callRuns 0 7 ++ workerRuns 0 6 ++ callRuns 2 4 ++ workerRuns 1 5)
      (fun sys => sys.workers.map Worker.chunkId == [some 0, some 0])
      (by decide +kernel)
  have both : sys.workers.map Worker.chunkId = [some 0, some 0] := eq_of_beq holds
  have exclusive := (apart _ _ twoChunks_built reached).2
  have same : 0 = 1 :=
    @Exclusive.index_eq _ _ _ Worker.chunkId exclusive 0 1 0 (by rw [both]; rfl)
      (by rw [both]; rfl)
  contradiction

end Sys

end Muld
