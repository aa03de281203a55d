import Muld.Library.Scans
import Muld.StoreCounter

/-! What would be lost if the process ended now. The bytes that the last image does not
claim are in the counter that triggers the next store, or belong to notifications that have
not counted them there yet; the scan of a store misses no others, since the counter is
locked while it goes on.
-/

namespace Muld

open Threads Scans

-----------------------------------------------------------------------------------------
-- Scans
-----------------------------------------------------------------------------------------

namespace Sys

/-- A store that writes its image has read all chunks. -/
structure Complete (sys : Sys) : Prop where
  workers
    : ∀ worker ∈ sys.workers,
        ∀ site, worker.pc = .storeWrite site → sys.shared.engine.nChunks ≤ worker.scan.length
  calls
    : ∀ call ∈ sys.calls,
        ∀ terminate scan,
          call = .storeWrite terminate scan → sys.shared.engine.nChunks ≤ scan.length

end Sys

/-- A worker comes to the end of its store from the end of its scan. -/
theorem Worker.Step.storeWrite {shared shared' : Shared} {worker next : Worker}
    {label : WorkerLabel} (taken : Worker.Step shared worker label shared' next)
    {site : StoreSite} (at_write : next.pc = .storeWrite site)
    : next.scan = worker.scan
      ∧ (worker.pc = .storeWrite site ∨ shared.engine.nChunks ≤ worker.scan.length) := by
  cases taken
  case scanned found => exact ⟨rfl, Or.inr (List.getElem?_eq_none_iff.mp found)⟩
  case nullWriter => exact ⟨rfl, Or.inl at_write⟩
  case store other _ _ _ => cases other <;> cases at_write
  case scan at_pc _ =>
    rw [show worker.pc = .storeWrite site from at_write] at at_pc
    contradiction
  case writePart at_pc _ _ _ =>
    rw [show worker.pc = .storeWrite site from at_write] at at_pc
    contradiction
  all_goals cases at_write

theorem Call.Step.storeWrite {index : Nat} {shared shared' : Shared} {call next : Call}
    {label : CallLabel} {spawned : List Worker}
    (taken : Call.Step index shared call label shared' next spawned) {terminate : Bool}
    {scan : List ChunkState} (at_write : next = .storeWrite terminate scan)
    : call = next ∨ shared.engine.nChunks ≤ scan.length := by
  cases taken
  case scanned found =>
    obtain ⟨rfl, rfl⟩ := Call.storeWrite.inj at_write
    exact Or.inr (List.getElem?_eq_none_iff.mp found)
  case nullWriter => exact Or.inl rfl
  case forward at_pc =>
    rcases at_pc with ⟨_, _, rfl⟩ | ⟨_, _, rfl⟩ | ⟨_, _, rfl⟩ <;> cases at_write
  case handlerSpeedLimit entered => rcases entered with rfl | rfl <;> cases at_write
  case attachDispatch entered =>
    rcases entered with ⟨_, rfl⟩ | ⟨_, rfl⟩ | ⟨_, rfl⟩ | ⟨_, rfl⟩ <;> cases at_write
  all_goals cases at_write

namespace Sys

variable {meets : Sys → Action → Sys → Prop} {start sys : Sys}

theorem ReachableWhile.complete (built : start.Built)
    (reached : ReachableWhile meets start sys)
    : sys.Complete := by
  refine invariant reached ?_ ?_ ?_ ?_
  · exact ⟨by simp [built.workers], by simp [built.calls]⟩
  · intro sys index worker next label shared _ _ complete found taken _
    have same := taken.nChunks
    constructor
    case workers =>
      simp only [same]
      refine forall_set complete.workers ?_
      intro site at_write
      obtain ⟨kept, before | done⟩ := taken.storeWrite at_write
      · rw [kept]
        exact complete.workers worker (List.mem_of_getElem? found) site before
      · rwa [kept]
    case calls =>
      simp only [same]
      exact complete.calls
  · intro sys index call next label shared spawned _ _ complete found taken _
    have same : shared.engine.nChunks = sys.shared.engine.nChunks := by
      simp only [DownloadEngine.nChunks, taken.chunksInfo]
    constructor
    case workers =>
      simp only [same]
      intro worker member site at_write
      rcases taken.mem_workers member with old | rfl
      · exact complete.workers worker old site at_write
      · contradiction
    case calls =>
      simp only [same]
      refine forall_set complete.calls ?_
      intro terminate scan at_write
      rcases taken.storeWrite at_write with rfl | done
      · exact complete.calls _ (List.mem_of_getElem? found) terminate scan at_write
      · exact done
  · intro sys api dispatched _ complete
    refine ⟨complete.workers, ?_⟩
    intro call member terminate scan at_write
    rcases mem_snoc_cases member with old | rfl
    · exact complete.calls call old terminate scan at_write
    · cases api <;> cases at_write

/-- A store in progress has missed no more than is in flight. -/
def Behind (chunks : List ChunkInfo) (flight : Int) (scan : Option (List ChunkState)) : Prop :=
  ∀ entries,
    scan = some entries
    → missed ChunkInfo.receivedShare ChunkState.downloadedShare chunks entries ≤ flight

/-- Reading on misses nothing. -/
theorem Behind.logs {thread : Thread} {shared : Shared}
    {before after : Option (List ChunkState)} {event : Option DiskEvent} {flight : Int}
    (behind : Behind shared.engine.chunksInfo flight before) (nonneg : 0 ≤ flight)
    (logs : Logs thread shared before after event)
    : Behind shared.engine.chunksInfo flight after := by
  cases logs with
  | silent => exact behind
  | outside => simp [Behind]
  | wrote => simp [Behind]
  | locked =>
      intro entries same
      rw [← Option.some.inj same, missed_nil]
      exact nonneg
  | read scan chunk found =>
      intro entries same
      rw [← Option.some.inj same, missed_read found rfl]
      exact behind scan rfl
  | stored => simp [Behind]

/-- A chunk gets no more than the bytes of its notification, less where its counter wraps.
-/
theorem receivedShare_updateReceived_le (chunk : ChunkInfo) (bytes : Nat)
    : (chunk.updateReceived bytes).receivedShare ≤ chunk.receivedShare + bytes := by
  have wrapped : wrap (chunk.received + bytes) ≤ chunk.received + bytes := Nat.mod_le _ _
  simp only [ChunkInfo.receivedShare, ChunkInfo.updateReceived_received]
  omega

theorem total_updateReceived_le {engine : DownloadEngine} {chunkId : Nat} {chunk : ChunkInfo}
    (present : engine.chunksInfo[chunkId]? = some chunk) (bytes : Nat)
    : total ChunkInfo.receivedShare (engine.updateReceived chunkId bytes).chunksInfo
        ≤ total ChunkInfo.receivedShare engine.chunksInfo + bytes := by
  have raised := receivedShare_updateReceived_le chunk bytes
  rw [DownloadEngine.updateReceived_chunksInfo present, total_set _ present]
  omega

/-- A notification puts in flight what a scan may miss of its chunk. -/
theorem Behind.update {engine : DownloadEngine} {flight : Int}
    {scan : Option (List ChunkState)} (behind : Behind engine.chunksInfo flight scan)
    {chunkId : Nat} {chunk : ChunkInfo} (present : engine.chunksInfo[chunkId]? = some chunk)
    (bytes : Nat)
    : Behind (engine.updateReceived chunkId bytes).chunksInfo (flight + bytes) scan := by
  intro entries same
  have before := behind entries same
  have raised := receivedShare_updateReceived_le chunk bytes
  have after := @missed_set_le _ _ ChunkInfo.receivedShare ChunkState.downloadedShare _ entries
    _ _ _ _ present (Int.natCast_nonneg bytes) raised
  rw [DownloadEngine.updateReceived_chunksInfo present]
  omega

/-- What the last image lacks is in the counter or in flight, and the stores in progress
have missed no more than is in flight.
-/
structure AtRisk (image : List ChunkState) (sys : Sys) (log : List DiskEvent) : Prop where
  balance
    : total ChunkInfo.receivedShare sys.shared.engine.chunksInfo
        - total ChunkState.downloadedShare (lastImage image log)
      ≤ sys.shared.engine.nReceivedBytesFromLastStore + total Worker.inFlight sys.workers
  workers
    : ∀ worker ∈ sys.workers,
        Behind sys.shared.engine.chunksInfo (total Worker.inFlight sys.workers) worker.scan?
  calls
    : ∀ call ∈ sys.calls,
        Behind sys.shared.engine.chunksInfo (total Worker.inFlight sys.workers) call.scan?

variable {image : List ChunkState} {log : List DiskEvent}

/-- While the mutex is free, no store is in progress. -/
theorem OneStore.idle (one : sys.OneStore) (unlocked : sys.shared.engine.diskLocked = false)
    (chunks : List ChunkInfo) (flight : Int)
    : (∀ worker ∈ sys.workers, Behind chunks flight worker.scan?)
      ∧ ∀ call ∈ sys.calls, Behind chunks flight call.scan? := by
  constructor
  · intro worker member entries scans
    have scanning : worker.pc.scanning = true := by
      by_contra elsewhere
      rw [Worker.scan?_of_not_scanning (eq_false_of_ne_true elsewhere)] at scans
      contradiction
    rw [one.worker_locked member scanning] at unlocked
    contradiction
  · intro call member entries scans
    rw [one.call_locked member (by rw [scans]; rfl)] at unlocked
    contradiction

/-- An image that is written lacks what its scan has missed. -/
theorem Behind.total_le {chunks : List ChunkInfo} {flight : Int} {scan : List ChunkState}
    (behind : Behind chunks flight (some scan)) (done : chunks.length ≤ scan.length)
    : total ChunkInfo.receivedShare chunks - total ChunkState.downloadedShare scan
      ≤ flight := by
  rw [total_sub_eq_missed done]
  exact behind scan rfl

section

variable {index : Nat} {worker next : Worker} {label : WorkerLabel} {shared : Shared}
  {later : List DiskEvent}

/-- A chunk is updated: what it gets is in flight. -/
theorem AtRisk.update (atRisk : sys.AtRisk image log) (named : sys.Named)
    (found : sys.workers[index]? = some worker)
    (taken : worker.Step sys.shared label shared next) (at_pc : worker.pc = .notifyUpdate)
    (kept : lastImage image later = lastImage image log)
    : AtRisk image { sys with shared, workers := sys.workers.set index next } later := by
  obtain ⟨item, held, rfl, rfl⟩ := taken.counts at_pc
  have inside := named.held worker (List.mem_of_getElem? found) item held
  have present := List.getElem?_eq_getElem inside
  have outside : worker.inFlight = 0 := by simp [Worker.inFlight, at_pc, WorkerPc.inFlight]
  have after : (worker.goto .notifyTotal).inFlight = worker.bytesRead := rfl
  have flight : total Worker.inFlight (sys.workers.set index (worker.goto .notifyTotal))
      = total Worker.inFlight sys.workers + worker.bytesRead := by
    rw [total_set _ found, outside, after, sub_zero]
  constructor
  case balance =>
    have balance := atRisk.balance
    have raised := total_updateReceived_le present worker.bytesRead
    rw [kept, flight]
    simp only [Shared.onEngine, DownloadEngine.updateReceived] at raised ⊢
    omega
  case workers =>
    simp only [flight]
    refine forall_set (fun other member => ?_) ?_
    · exact (atRisk.workers other member).update present worker.bytesRead
    · intro entries scans
      contradiction
  case calls =>
    simp only [flight]
    intro call member
    exact (atRisk.calls call member).update present worker.bytesRead

/-- The counter gets what was in flight. -/
theorem AtRisk.count (atRisk : sys.AtRisk image log) (one : sys.OneStore)
    (found : sys.workers[index]? = some worker)
    (taken : worker.Step sys.shared label shared next) (at_pc : worker.pc = .notifyCount)
    (unlocked : sys.shared.engine.diskLocked = false)
    (counted : shared.engine = sys.shared.engine.addFromLastStore worker.bytesRead)
    (moved : next.inFlight = 0)
    (fits
      : sys.shared.engine.nReceivedBytesFromLastStore + worker.bytesRead < sizeModulus)
    (kept : lastImage image later = lastImage image log)
    : AtRisk image { sys with shared, workers := sys.workers.set index next } later := by
  have before : worker.inFlight = worker.bytesRead := by
    simp [Worker.inFlight, at_pc, WorkerPc.inFlight]
  have free : shared.engine.diskLocked = false := by rw [counted]; exact unlocked
  obtain ⟨workers, calls⟩ := (one.worker_step found taken).idle free
    shared.engine.chunksInfo (total Worker.inFlight (sys.workers.set index next))
  refine ⟨?_, workers, calls⟩
  have balance := atRisk.balance
  simp only [kept, total_set _ found, before, moved, counted, DownloadEngine.addFromLastStore,
    wrap_of_lt fits]
  omega

/-- An image is written and the counter starts again. -/
theorem AtRisk.store (atRisk : sys.AtRisk image log) (one : sys.OneStore)
    (complete : sys.Complete) {site : StoreSite} {outcome : StoreOutcome}
    (found : sys.workers[index]? = some worker)
    (taken : worker.Step sys.shared (.stored outcome) shared next)
    (at_pc : worker.pc = .storeWrite site) (open_ : sys.shared.engine.writer = true)
    (stores : shared = sys.shared.storeImage worker.scan outcome)
    (moved : next = worker.goto (Worker.afterStore site))
    : AtRisk image { sys with shared, workers := sys.workers.set index next }
        (log ++ (worker.diskEvent index sys.shared (.stored outcome)).toList) := by
  have member := List.mem_of_getElem? found
  have before : worker.inFlight = 0 := by simp [Worker.inFlight, at_pc, WorkerPc.inFlight]
  have after : next.inFlight = 0 := by
    rw [moved]
    cases site <;> rfl
  have free : shared.engine.diskLocked = false := by rw [stores]; rfl
  obtain ⟨workers, calls⟩ := (one.worker_step found taken).idle free
    shared.engine.chunksInfo (total Worker.inFlight (sys.workers.set index next))
  refine ⟨?_, workers, calls⟩
  have scan : worker.scan? = some worker.scan :=
    Worker.scan?_of_scanning (by rw [at_pc]; rfl)
  have behind := (scan ▸ atRisk.workers worker member).total_le
    (complete.workers worker member site at_pc)
  have logged : worker.diskEvent index sys.shared (.stored outcome)
      = some (.stored (.worker index) worker.scan) := if_pos open_
  simp only [logged, Option.toList_some, lastImage_snoc_stored, total_set _ found, before, after,
    stores, Shared.storeImage]
  omega

/-- Nothing is counted and nothing written. -/
theorem AtRisk.quiet (atRisk : sys.AtRisk image log)
    (found : sys.workers[index]? = some worker)
    (quiet : Worker.Quiet sys.shared shared worker next label)
    {event : Option DiskEvent}
    (logs : Logs (.worker index) sys.shared worker.scan? next.scan? event)
    (kept : lastImage image later = lastImage image log)
    : AtRisk image { sys with shared, workers := sys.workers.set index next } later := by
  have flight : total Worker.inFlight (sys.workers.set index next)
      = total Worker.inFlight sys.workers := by
    rw [total_set _ found, quiet.inFlight, sub_add_cancel]
  constructor
  case balance =>
    rw [kept, flight, quiet.chunksInfo, quiet.counter]
    exact atRisk.balance
  case workers =>
    simp only [quiet.chunksInfo, flight]
    refine forall_set atRisk.workers ?_
    exact (atRisk.workers worker (List.mem_of_getElem? found)).logs
      (total_nonneg Worker.inFlight_nonneg) logs
  case calls =>
    simp only [quiet.chunksInfo, flight]
    exact atRisk.calls

theorem AtRisk.worker_step (atRisk : sys.AtRisk image log) (named : sys.Named)
    (one : sys.OneStore) (complete : sys.Complete)
    (found : sys.workers[index]? = some worker)
    (taken : worker.Step sys.shared label shared next)
    (fits
      : worker.pc = .notifyCount
        → sys.shared.engine.nReceivedBytesFromLastStore + worker.bytesRead < sizeModulus)
    (logs
      : Logs (.worker index) sys.shared worker.scan? next.scan?
          (worker.diskEvent index sys.shared label))
    : AtRisk image { sys with shared, workers := sys.workers.set index next }
        (log ++ (worker.diskEvent index sys.shared label).toList) := by
  rcases taken.unsaved with
    at_pc | ⟨at_pc, unlocked, counted, moved⟩ | ⟨site, outcome, at_pc, rfl, open_, stores, moved⟩
      | quiet
  · exact atRisk.update named found taken at_pc
      (Worker.lastImage_of_unstored logs (by simp [at_pc, WorkerPc.scanning]))
  · have landed : next.inFlight = 0 := by
      rw [moved]
      cases shared.engine.needsStore <;> rfl
    exact atRisk.count one found taken at_pc unlocked counted landed (fits at_pc)
      (Worker.lastImage_of_unstored logs (by simp [at_pc, WorkerPc.scanning]))
  · exact atRisk.store one complete found taken at_pc open_ stores moved
  · exact atRisk.quiet found quiet logs (Worker.lastImage_of_unstored logs quiet.unstored)

end

theorem AtRisk.call_step (atRisk : sys.AtRisk image log) (one : sys.OneStore)
    (complete : sys.Complete) {index : Nat} {call next : Call} {label : CallLabel}
    {shared : Shared} {spawned : List Worker} (found : sys.calls[index]? = some call)
    (taken : Call.Step index sys.shared call label shared next spawned)
    : AtRisk image { sys with
        shared
        workers := sys.workers ++ spawned
        calls := sys.calls.set index next }
        (log ++ (call.diskEvent index sys.shared label).toList) := by
  have member := List.mem_of_getElem? found
  have fresh : total Worker.inFlight spawned = 0 := by
    rcases taken.spawned_cases with rfl | rfl <;> rfl
  have flight : total Worker.inFlight (sys.workers ++ spawned)
      = total Worker.inFlight sys.workers := by
    rw [total_append, fresh, add_zero]
  have balance := atRisk.balance
  rcases taken.unsaved with ⟨terminate, scan, outcome, rfl, rfl, open_, stores⟩ | ⟨same, unstored⟩
  · have free : shared.engine.diskLocked = false := by rw [stores]; rfl
    obtain ⟨workers, calls⟩ := (one.call_step found taken).idle free
      shared.engine.chunksInfo (total Worker.inFlight (sys.workers ++ spawned))
    refine ⟨?_, workers, calls⟩
    have behind := Behind.total_le (atRisk.calls _ member)
      (complete.calls _ member terminate scan rfl)
    have logged
        : (Call.storeWrite terminate scan).diskEvent index sys.shared (.stored outcome)
          = some (.stored (.call index) scan) :=
      if_pos open_
    simp only [logged, Option.toList_some, lastImage_snoc_stored, flight, stores,
      Shared.storeImage]
    omega
  · have kept
        : lastImage image (log ++ (call.diskEvent index sys.shared label).toList)
          = lastImage image log :=
      Call.lastImage_of_unstored taken.logs unstored
    constructor
    case balance =>
      rw [kept, flight, taken.chunksInfo, same]
      exact balance
    case workers =>
      simp only [taken.chunksInfo, flight]
      intro worker present
      rcases taken.mem_workers present with old | rfl
      · exact atRisk.workers worker old
      · intro entries scans
        contradiction
    case calls =>
      simp only [taken.chunksInfo, flight]
      refine forall_set atRisk.calls ?_
      exact (atRisk.calls call member).logs (total_nonneg Worker.inFlight_nonneg) taken.logs

/-- A fresh job has received nothing. -/
theorem fresh_received (maxConnections : Int) (fileSize : Nat) (ranged : Bool) (nChunks : Nat)
    [NeZero nChunks] (file : Nat → Byte) (maxThreads : Int)
    : ∀ chunk ∈ (fresh maxConnections fileSize ranged nChunks file
        maxThreads).shared.engine.chunksInfo, chunk.received = 0 := by
  intro chunk member
  obtain ⟨index, _, rfl⟩ := List.mem_map.mp member
  rfl

/-- The image that a job was built from claims what its chunks have received. -/
theorem Constructed.entries (constructed : start.Constructed)
    : total ChunkInfo.receivedShare start.shared.engine.chunksInfo
        = total ChunkState.downloadedShare start.shared.image.entries := by
  cases constructed with
  | fresh maxConnections fileSize ranged nChunks file maxThreads =>
      refine total_eq_zero fun chunk member => ?_
      rw [ChunkInfo.receivedShare, fresh_received _ _ _ _ _ _ chunk member]
      rfl
  | loaded image file maxThreads =>
      have claimed : total ChunkState.downloadedShare (JobImage.ofDisk image).chunks
          = (((JobImage.ofDisk image).chunks.map ChunkState.downloaded).sum : Nat) :=
        total_natCast ChunkState.downloaded
      rw [total_receivedShare,
        loaded_received file maxThreads.toInt (downloaded_ofDisk_lt image), ← claimed]
      rfl

/-- A job without received bytes has counted none. -/
theorem Constructed.counter_zero (constructed : start.Constructed)
    (zero : ∀ chunk ∈ start.shared.engine.chunksInfo, chunk.received = 0)
    : start.shared.engine.nReceivedBytesFromLastStore = 0 := by
  have none_received : (start.shared.engine.chunksInfo.map ChunkInfo.received).sum = 0 := by
    refine List.sum_eq_zero fun received member => ?_
    obtain ⟨chunk, among, rfl⟩ := List.mem_map.mp member
    exact zero chunk among
  cases constructed with
  | fresh => rfl
  | loaded image file maxThreads =>
      rw [loaded_received file maxThreads.toInt (downloaded_ofDisk_lt image)] at none_received
      exact congrArg wrap none_received

/-- A job that was just built has nothing that its image lacks. -/
theorem Constructed.atRisk (constructed : start.Constructed)
    : start.AtRisk start.shared.image.entries [] := by
  have built := constructed.built
  refine ⟨?_, by simp [built.workers], by simp [built.calls]⟩
  have counter : 0 ≤ (start.shared.engine.nReceivedBytesFromLastStore : Int) :=
    Int.natCast_nonneg _
  have last : lastImage start.shared.image.entries [] = start.shared.image.entries := rfl
  rw [last, constructed.entries, built.workers, total_nil]
  omega

theorem LoggedWhile.atRisk (constructed : start.Constructed)
    (room
      : start.shared.engine.nReceivedBytesFromLastStore + intMax * bufferSize < sizeModulus)
    (logged : LoggedWhile SafeStores start sys log)
    : sys.AtRisk start.shared.image.entries log := by
  have built := constructed.built
  let most := max start.shared.engine.nReceivedBytesFromLastStore (10 * 1024 * 1024)
  have enough : 10 * 1024 * 1024 ≤ most + 1 := (le_max_right _ _).trans (Nat.le_succ most)
  have roomy : most + intMax * bufferSize < sizeModulus := by
    have limit : 10 * 1024 * 1024 + intMax * bufferSize < sizeModulus := by decide
    omega
  refine logged_invariant logged constructed.atRisk ?_ ?_ ?_
  · intro sys log index worker next label shared earlier atRisk found taken logs _
    have reached := earlier.reachable
    have member := List.mem_of_getElem? found
    have capped := ReachableWhile.capped built enough (le_max_left _ _) reached
    refine atRisk.worker_step (ReachableWhile.named built reached)
      (ReachableWhile.oneStore built reached) (ReachableWhile.complete built reached) found taken
      ?_ logs
    exact capped.fits (ReachableWhile.counted built reached)
      (ReachableWhile.ints constructed reached) roomy member
  · intro sys log index call next label shared spawned earlier atRisk found taken _
    have reached := earlier.reachable
    exact atRisk.call_step (ReachableWhile.oneStore built reached)
      (ReachableWhile.complete built reached) found taken
  · intro sys log api dispatched _ atRisk
    refine ⟨atRisk.balance, atRisk.workers, ?_⟩
    intro call member
    rcases mem_snoc_cases member with old | rfl
    · exact atRisk.calls call old
    · intro entries scans
      cases api <;> cases scans

/-- The received bytes that the last image does not claim are counted or in flight. -/
def UnsavedCounted (image : List ChunkState) (sys : Sys) (log : List DiskEvent) : Prop :=
  total ChunkInfo.receivedShare sys.shared.engine.chunksInfo
      - total ChunkState.downloadedShare (lastImage image log)
    ≤ sys.shared.engine.nReceivedBytesFromLastStore + total Worker.inFlight sys.workers

instance (image : List ChunkState) (sys : Sys) (log : List DiskEvent)
    : Decidable (UnsavedCounted image sys log) := by
  unfold UnsavedCounted
  infer_instance

/-- In every run whose image writes succeed, of a job whose counter starts with room for a
buffer of each connection, the bytes that would be lost are counted or in flight; and the
counter of a job that started without received bytes is below the limit whenever no
notification is in progress.
-/
theorem little_at_risk (constructed : start.Constructed)
    (room
      : start.shared.engine.nReceivedBytesFromLastStore + intMax * bufferSize < sizeModulus)
    (logged : LoggedWhile SafeStores start sys log)
    : UnsavedCounted start.shared.image.entries sys log
      ∧ ((∀ chunk ∈ start.shared.engine.chunksInfo, chunk.received = 0)
        → (∀ worker ∈ sys.workers, worker.pc.notifying = false)
        → sys.shared.engine.nReceivedBytesFromLastStore < 10 * 1024 * 1024) := by
  refine ⟨(LoggedWhile.atRisk constructed room logged).balance, ?_⟩
  intro zero settled
  by_contra reached
  obtain ⟨worker, member, due⟩ :=
    ReachableWhile.storesDue (constructed.counter_zero zero) logged.reachable
      (Nat.not_lt.mp reached)
  have notifying := WorkerPc.notifying_of_storeDue due
  rw [settled worker member] at notifying
  contradiction

open Muld.Action in
/-- A store that reads the first chunk between two notifications saves the first one; the
second stays in the counter.
-/
theorem little_at_risk_interleaved
    : ∃ sys log,
        total ChunkState.downloadedShare (lastImage [] log) = 4
        ∧ total ChunkInfo.receivedShare sys.shared.engine.chunksInfo = 10
        ∧ UnsavedCounted [] sys log
        ∧ sys.shared.engine.nReceivedBytesFromLastStore < 10 * 1024 * 1024 := by
  obtain ⟨sys, log, logged, ends⟩ := @Transition.exists_logged Sys Action step SafeStores
    twoChunks DiskEvent diskEvent _
    (.invoke .start :: callRuns 0 14 ++ workerRuns 0 6
      ++ .invoke .store :: fetch 0 206 (List.replicate 4 7) ++ callRuns 1 2
      ++ workerRuns 0 1 ++ .worker 0 (.isDone false) :: workerRuns 0 2
      ++ [.worker 0 (.read (List.replicate 6 7) .none), .worker 0 (.wrote 6)]
      ++ workerRuns 0 1 ++ callRuns 1 2 ++ [.call 1 (.stored .written), .worker 0 (.clock false)]
      ++ workerRuns 0 4)
    (fun sys log =>
      decide (total ChunkState.downloadedShare (lastImage [] log) = 4
        ∧ total ChunkInfo.receivedShare sys.shared.engine.chunksInfo = 10
        ∧ ∀ worker ∈ sys.workers, worker.pc.notifying = false))
    (by decide +kernel)
  obtain ⟨saved, received, settled⟩ := of_decide_eq_true ends
  have risk := little_at_risk twoChunks_constructed (by decide) logged
  exact ⟨sys, log, saved, received, risk.1, risk.2 (fresh_received _ _ _ _ _ _) settled⟩

/-- An image whose first entry claims all that a `size_t` can count. -/
def boastfulImage : Disk.JobImage where
  filePath := .empty
  fileSize := 20
  maxConnections := 8
  ranged := true
  url := .empty
  etag := .empty
  lastModified := .empty
  chunks := ⟨[⟨0, 9, 18446744073709551615⟩, ⟨10, 19, 0⟩], by decide⟩

open Muld.Action in
/-- The counter of a job that was loaded from such an image wraps at the first notification.
-/
theorem boastful_counter_wraps
    : ¬ ∀ (start sys : Sys) (log : List DiskEvent),
        start.Constructed
        → LoggedWhile SafeStores start sys log
        → UnsavedCounted start.shared.image.entries sys log := by
  intro counted
  obtain ⟨sys, log, logged, ends⟩ := @Transition.exists_logged Sys Action step SafeStores
    (loaded (.ofDisk boastfulImage) (fun _ => 0) (8 : Int32).toInt) DiskEvent diskEvent _
    (.invoke .start :: callRuns 0 14 ++ workerRuns 0 6 ++ fetch 0 206 (List.replicate 5 7))
    (fun sys log =>
      decide (¬ UnsavedCounted (JobImage.ofDisk boastfulImage).chunks sys log))
    (by decide +kernel)
  have uncounted : ¬ UnsavedCounted (JobImage.ofDisk boastfulImage).chunks sys log :=
    of_decide_eq_true ends
  have constructed
      : (loaded (.ofDisk boastfulImage) (fun _ => 0) (8 : Int32).toInt).Constructed :=
    .loaded boastfulImage (fun _ => 0) 8
  have loses_none := counted _ sys log constructed logged
  exact uncounted loses_none

end Sys

end Muld
