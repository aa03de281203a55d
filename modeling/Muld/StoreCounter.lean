import Mathlib.Algebra.BigOperators.Ring.List
import Muld.ChunkLayout
import Muld.DiskMutex

/-! `nReceivedBytesFromLastStore_` over every run: what each step does to it and to the last
image, and why it neither wraps nor stays at the limit.
-/

namespace Muld

open Threads

-----------------------------------------------------------------------------------------
-- The last image
-----------------------------------------------------------------------------------------

/-- The bytes that an entry of an image claims. -/
def ChunkState.downloadedShare (entry : ChunkState) : Int := entry.downloaded

/-- The entries of an image file. -/
def ImageFile.entries : ImageFile → List ChunkState
  | .stored chunks => chunks
  | _ => []

def imageStep (image : List ChunkState) : DiskEvent → List ChunkState
  | .stored _ written => written
  | _ => image

/-- The image that was written last, `image` if the log has none. -/
def lastImage (image : List ChunkState) (log : List DiskEvent) : List ChunkState :=
  log.foldl imageStep image

variable {image : List ChunkState} {log : List DiskEvent}

theorem lastImage_snoc_stored (thread : Thread) (written : List ChunkState)
    : lastImage image (log ++ [.stored thread written]) = written := by
  simp [lastImage, imageStep]

theorem lastImage_of_not_stored {event : Option DiskEvent}
    (other : ∀ thread written, event ≠ some (.stored thread written))
    : lastImage image (log ++ event.toList) = lastImage image log := by
  cases event with
  | none => simp
  | some event =>
      cases event with
      | stored thread written => exact absurd rfl (other thread written)
      | _ => simp [lastImage, imageStep]

-----------------------------------------------------------------------------------------
-- Workers
-----------------------------------------------------------------------------------------

/-- The program points of `NotifyChunkReceived` between the update of the chunk and that of
`nReceivedBytesFromLastStore_`.
-/
def WorkerPc.inFlight : WorkerPc → Bool
  | .notifyTotal | .notifyEvent | .notifyEventReport | .notifyProgress
  | .notifyProgressReport | .notifyCount => true
  | _ => false

/-- A notification that has found enough bytes for a store and has not stored. -/
def WorkerPc.storeDue : WorkerPc → Bool
  | .storeLock .notify | .storeScan .notify | .storeWrite .notify => true
  | _ => false

theorem WorkerPc.notifying_of_storeDue {pc : WorkerPc} (due : pc.storeDue = true)
    : pc.notifying = true := by
  unfold storeDue at due
  split at due <;> first | rfl | contradiction

namespace Worker

/-- The bytes that the chunk of the worker has and the counter has not. -/
def inFlight (worker : Worker) : Int := if worker.pc.inFlight then worker.bytesRead else 0

/-- The bytes that the counter has got since it asked for a store. -/
def dueShare (worker : Worker) : Int := if worker.pc.storeDue then worker.bytesRead else 0

/-- No more is read than the buffer holds. -/
structure Buffered (worker : Worker) : Prop where
  allowed : worker.allowedBytes ≤ bufferSize
  read : worker.bytesRead ≤ bufferSize

variable {shared shared' : Shared} {worker next : Worker} {label : WorkerLabel}

theorem Step.buffered (taken : Step shared worker label shared' next)
    (buffered : worker.Buffered)
    : next.Buffered := by
  have read := buffered.read
  have allowed := buffered.allowed
  cases taken
  case allow fits => exact ⟨fits, read⟩
  case readNothing => exact ⟨allowed, Nat.zero_le _⟩
  case readBytes fits _ => exact ⟨allowed, fits.trans allowed⟩
  all_goals exact ⟨allowed, read⟩

/-- A step that touches neither the counter nor the chunks and writes no image. -/
structure Quiet (shared shared' : Shared) (worker next : Worker) (label : WorkerLabel)
    : Prop where
  chunksInfo : shared'.engine.chunksInfo = shared.engine.chunksInfo
  counter
    : shared'.engine.nReceivedBytesFromLastStore = shared.engine.nReceivedBytesFromLastStore
  inFlight : next.inFlight = worker.inFlight
  storeDue : next.pc.storeDue = worker.pc.storeDue
  dueShare : next.dueShare = worker.dueShare
  unstored
    : ∀ outcome,
        label = .stored outcome → worker.pc.scanning = true → shared.engine.writer = false

/-- A step updates a chunk, counts its bytes for the next store, writes an image, or does
none of this.
-/
theorem Step.unsaved (taken : Step shared worker label shared' next)
    : worker.pc = .notifyUpdate
      ∨ (worker.pc = .notifyCount
        ∧ shared.engine.diskLocked = false
        ∧ shared'.engine = shared.engine.addFromLastStore worker.bytesRead
        ∧ next = worker.goto
            (if shared'.engine.needsStore then .storeLock .notify else .notifyFinished))
      ∨ (∃ site outcome,
          worker.pc = .storeWrite site
          ∧ label = .stored outcome
          ∧ shared.engine.writer = true
          ∧ shared' = shared.storeImage worker.scan outcome
          ∧ next = worker.goto (afterStore site))
      ∨ Quiet shared shared' worker next label := by
  have quiet (chunksInfo : shared'.engine.chunksInfo = shared.engine.chunksInfo)
      (counter
        : shared'.engine.nReceivedBytesFromLastStore
          = shared.engine.nReceivedBytesFromLastStore)
      (bytes : next.bytesRead = worker.bytesRead)
      (inFlight : next.pc.inFlight = worker.pc.inFlight)
      (due : next.pc.storeDue = worker.pc.storeDue)
      (unstored
        : ∀ outcome,
            label = .stored outcome → worker.pc.scanning = true → shared.engine.writer = false)
      : Quiet shared shared' worker next label := by
    refine { chunksInfo, counter, inFlight := ?_, storeDue := due, dueShare := ?_, unstored }
    · rw [Worker.inFlight, inFlight, bytes, Worker.inFlight]
    · rw [Worker.dueShare, due, bytes, Worker.dueShare]
  cases taken
  case update at_pc _ => exact Or.inl at_pc
  case count at_pc unlocked few =>
    refine Or.inr (Or.inl ⟨at_pc, unlocked, rfl, ?_⟩)
    rw [if_neg (by simpa [Shared.onEngine] using few)]
  case countStore at_pc unlocked many =>
    refine Or.inr (Or.inl ⟨at_pc, unlocked, rfl, ?_⟩)
    rw [if_pos (by simpa [Shared.onEngine] using many)]
  case store site outcome at_pc open_ =>
    exact Or.inr (Or.inr (Or.inl ⟨site, outcome, at_pc, rfl, open_, rfl, rfl⟩))
  all_goals refine Or.inr (Or.inr (Or.inr ?_))
  case nullWriter closed => exact quiet rfl rfl rfl rfl rfl fun _ _ _ => closed
  case writePart => exact quiet rfl rfl rfl rfl rfl (by simp)
  case scan => exact quiet rfl rfl rfl rfl rfl (by simp)
  case lock site at_pc _ =>
    exact quiet rfl rfl rfl (by rw [at_pc]; rfl) (by rw [at_pc]; cases site <;> rfl) (by simp)
  case scanned site at_pc _ =>
    exact quiet rfl rfl rfl (by rw [at_pc]; rfl) (by rw [at_pc]; cases site <;> rfl) (by simp)
  case throw error at_pc _ _ =>
    have outside
        : worker.pc.inFlight = false
          ∧ worker.pc.storeDue = false
          ∧ worker.pc.scanning = false := by
      cases pc : worker.pc <;>
        simp_all [WorkerPc.throws, WorkerPc.inFlight, WorkerPc.storeDue, WorkerPc.scanning]
    exact quiet rfl rfl rfl outside.1.symm outside.2.1.symm (by simp [outside.2.2])
  case release at_pc _ =>
    rcases at_pc with at_pc | at_pc <;>
      exact quiet rfl rfl rfl (by rw [at_pc]; rfl) (by rw [at_pc]; rfl) (by simp)
  case streamStop at_pc _ =>
    rcases at_pc with at_pc | at_pc <;>
      exact quiet rfl rfl rfl (by rw [at_pc]; rfl) (by rw [at_pc]; rfl)
        (by simp [at_pc, WorkerPc.scanning])
  case allow at_pc _ _ =>
    rcases at_pc with at_pc | at_pc <;>
      exact quiet rfl rfl rfl (by rw [at_pc]; rfl) (by rw [at_pc]; rfl)
        (by simp [at_pc, WorkerPc.scanning])
  case readNothing at_pc =>
    constructor <;> simp [inFlight, dueShare, at_pc, WorkerPc.inFlight, WorkerPc.storeDue]
  case readBytes at_pc _ _ =>
    constructor <;> simp [inFlight, dueShare, at_pc, WorkerPc.inFlight, WorkerPc.storeDue]
  all_goals
    exact quiet (by first | rfl | simp) (by first | rfl | simp) rfl
      (by rw [‹worker.pc = _›]; rfl) (by rw [‹worker.pc = _›]; rfl) (by simp)

/-- A step that writes no image leaves the last one in place. -/
theorem lastImage_of_unstored {index : Nat} {after : Option (List ChunkState)}
    (logs
      : Logs (.worker index) shared worker.scan? after (worker.diskEvent index shared label))
    (unstored
      : ∀ outcome,
          label = .stored outcome → worker.pc.scanning = true → shared.engine.writer = false)
    : lastImage image (log ++ (worker.diskEvent index shared label).toList)
        = lastImage image log := by
  refine lastImage_of_not_stored fun thread written event => ?_
  have scan := (logs.of_stored event).2
  have scans : worker.pc.scanning = true := by
    by_contra elsewhere
    rw [scan?_of_not_scanning (eq_false_of_ne_true elsewhere)] at scan
    contradiction
  cases label <;> simp only [diskEvent] at event
  case stored outcome => simp [unstored outcome rfl scans] at event
  case run => split at event <;> simp at event
  case wrote => split at event <;> simp at event
  all_goals contradiction

end Worker

-----------------------------------------------------------------------------------------
-- Calls
-----------------------------------------------------------------------------------------

namespace Call

variable {index : Nat} {shared shared' : Shared} {call next : Call} {label : CallLabel}
  {spawned : List Worker}

/-- A call writes an image or leaves the counter alone. -/
theorem Step.unsaved (taken : Step index shared call label shared' next spawned)
    : (∃ terminate scan outcome,
          call = .storeWrite terminate scan
          ∧ label = .stored outcome
          ∧ shared.engine.writer = true
          ∧ shared' = shared.storeImage scan outcome)
      ∨ (shared'.engine.nReceivedBytesFromLastStore
          = shared.engine.nReceivedBytesFromLastStore
        ∧ ∀ outcome,
            label = .stored outcome
            → call.scan?.isSome = true
            → shared.engine.writer = false) := by
  cases taken
  case store scan outcome open_ => exact Or.inl ⟨false, scan, outcome, rfl, rfl, open_, rfl⟩
  case storeTerminate scan outcome open_ =>
    exact Or.inl ⟨true, scan, outcome, rfl, rfl, open_, rfl⟩
  case nullWriter closed => exact Or.inr ⟨rfl, fun _ _ _ => closed⟩
  all_goals exact Or.inr ⟨by first | rfl | simp, by simp⟩

/-- A step that writes no image leaves the last one in place. -/
theorem lastImage_of_unstored {after : Option (List ChunkState)}
    (logs : Logs (.call index) shared call.scan? after (call.diskEvent index shared label))
    (unstored
      : ∀ outcome,
          label = .stored outcome
          → call.scan?.isSome = true
          → shared.engine.writer = false)
    : lastImage image (log ++ (call.diskEvent index shared label).toList)
        = lastImage image log := by
  refine lastImage_of_not_stored fun thread written event => ?_
  have scan := (logs.of_stored event).2
  unfold diskEvent at event
  split at event
  case h_3 outcome =>
    have closed := unstored outcome rfl (by rw [scan]; rfl)
    simp [closed] at event
  all_goals simp at event

end Call

-----------------------------------------------------------------------------------------
-- Connections
-----------------------------------------------------------------------------------------

/-- The bounds, the target and the number of scheduled connections are `int`s. -/
structure DownloadEngine.Ints (engine : DownloadEngine) : Prop where
  minConnections : engine.minConnections ≤ intMax
  maxConnections : engine.maxConnections ≤ intMax
  desiredConnections : engine.desiredConnections ≤ intMax
  scheduledConnections : engine.scheduledConnections ≤ intMax

/-- The numbers of connections that a call is about to store are `int`s. -/
def Call.Ints : Call → Prop
  | .bounds minConnections maxConnections =>
      minConnections ≤ intMax ∧ maxConnections ≤ intMax
  | .planCas scheduled toAdd => scheduled + toAdd ≤ intMax
  | _ => True

/-- The arguments of a call are of their types. -/
def Api.Ints : Api → Prop
  | .setConnectionBounds minConnections maxConnections =>
      minConnections ≤ intMax ∧ maxConnections ≤ intMax
  | _ => True

instance (api : Api) : Decidable api.Ints := by
  unfold Api.Ints
  split <;> infer_instance

theorem Api.Ints.entry {api : Api} (ints : api.Ints) : api.entry.Ints := by
  cases api
  case setConnectionBounds => exact ints
  all_goals trivial

theorem Worker.Step.ints {shared shared' : Shared} {worker next : Worker}
    {label : WorkerLabel} (taken : Worker.Step shared worker label shared' next)
    (ints : shared.engine.Ints)
    : shared'.engine.Ints := by
  have targets
      : shared'.engine.minConnections = shared.engine.minConnections
        ∧ shared'.engine.maxConnections = shared.engine.maxConnections
        ∧ shared'.engine.desiredConnections = shared.engine.desiredConnections := by
    cases taken <;> first | exact ⟨rfl, rfl, rfl⟩ | simp
  obtain ⟨lower, upper, desired⟩ := targets
  have scheduled : shared'.engine.scheduledConnections ≤ intMax := by
    have before := ints.scheduledConnections
    rcases taken.scheduledConnections with ⟨same, _⟩ | ⟨_, _, lowered⟩
    · rwa [same]
    · rw [lowered]
      omega
  exact ⟨lower ▸ ints.minConnections, upper ▸ ints.maxConnections,
    desired ▸ ints.desiredConnections, scheduled⟩

/-- Bounds that are `int`s give a target that is one. -/
theorem DownloadEngine.Ints.exchangeDesired {engine : DownloadEngine} (ints : engine.Ints)
    (desired : Int)
    : (engine.exchangeDesired desired).2.Ints where
  minConnections := ints.minConnections
  maxConnections := ints.maxConnections
  desiredConnections :=
    max_le ints.minConnections ((min_le_right _ _).trans ints.maxConnections)
  scheduledConnections := ints.scheduledConnections

theorem DownloadEngine.Ints.setBounds {engine : DownloadEngine} (ints : engine.Ints)
    {minConnections maxConnections : Int} (lower : minConnections ≤ intMax)
    (upper : maxConnections ≤ intMax)
    : (engine.setBounds minConnections maxConnections).Ints := by
  have one : (1 : Int) ≤ intMax := by decide
  have least : max 1 (if engine.ranged then minConnections else 1) ≤ (intMax : Int) := by
    refine max_le one ?_
    split <;> assumption
  have most
      : max (max 1 (if engine.ranged then minConnections else 1))
          (if engine.ranged then maxConnections else 1) ≤ (intMax : Int) := by
    refine max_le least ?_
    split <;> assumption
  exact ⟨least, most, ints.desiredConnections, ints.scheduledConnections⟩

theorem Call.Step.ints {index : Nat} {shared shared' : Shared} {call next : Call}
    {label : CallLabel} {spawned : List Worker}
    (taken : Call.Step index shared call label shared' next spawned)
    (ints : shared.engine.Ints) (own : call.Ints)
    : shared'.engine.Ints ∧ next.Ints := by
  cases taken
  case planDesired below => exact ⟨ints, below.trans ints.desiredConnections⟩
  case plan =>
    exact ⟨⟨ints.minConnections, ints.maxConnections, ints.desiredConnections, own⟩, trivial⟩
  case bounds => exact ⟨ints.setBounds own.1 own.2, trivial⟩
  case desireDown desired _ => exact ⟨ints.exchangeDesired desired, trivial⟩
  case desireUp desired _ => exact ⟨ints.exchangeDesired desired, trivial⟩
  case cancelCleanup =>
    refine ⟨?_, trivial⟩
    rw [Shared.cleanupArtifacts_engine]
    exact ⟨ints.minConnections, ints.maxConnections, ints.desiredConnections,
      ints.scheduledConnections⟩
  case forward at_pc =>
    rcases at_pc with ⟨_, _, rfl⟩ | ⟨_, _, rfl⟩ | ⟨_, _, rfl⟩ <;> exact ⟨ints, trivial⟩
  case handlerSpeedLimit entered => rcases entered with rfl | rfl <;> exact ⟨ints, trivial⟩
  case attachDispatch entered =>
    rcases entered with ⟨_, rfl⟩ | ⟨_, rfl⟩ | ⟨_, rfl⟩ | ⟨_, rfl⟩ <;> exact ⟨ints, trivial⟩
  all_goals
    exact ⟨⟨ints.minConnections, ints.maxConnections, ints.desiredConnections,
      ints.scheduledConnections⟩, trivial⟩

-----------------------------------------------------------------------------------------
-- The counter
-----------------------------------------------------------------------------------------

namespace Worker

theorem inFlight_nonneg (worker : Worker) : 0 ≤ worker.inFlight := by
  unfold inFlight
  split <;> omega

theorem dueShare_nonneg (worker : Worker) : 0 ≤ worker.dueShare := by
  unfold dueShare
  split <;> omega

/-- A worker has no more due than its buffer, and only while it is scheduled. -/
theorem Buffered.dueShare_le {worker : Worker} (buffered : worker.Buffered)
    : worker.dueShare ≤ bufferSize * worker.scheduledShare := by
  have read := buffered.read
  unfold dueShare
  split
  · rename_i due
    have scheduled : worker.scheduledShare = 1 := by
      cases pc : worker.pc <;> simp_all [WorkerPc.storeDue, scheduledShare, WorkerPc.scheduled]
    rw [scheduled]
    omega
  · have scheduled := worker.scheduledShare_nonneg
    positivity

end Worker

namespace Sys

/-- Stores write their images, and the arguments of calls are of their types. -/
def SafeStores (_ : Sys) (action : Action) (_ : Sys) : Prop :=
  match action with
  | .worker _ (.stored outcome) => outcome = .written
  | .call _ (.stored outcome) => outcome = .written
  | .invoke api => api.Ints
  | _ => True

instance (before : Sys) (action : Action) (after : Sys)
    : Decidable (SafeStores before action after) := by
  unfold SafeStores
  split <;> infer_instance

variable {meets : Sys → Action → Sys → Prop} {start sys : Sys}

/-- The numbers of connections are `int`s. -/
structure Ints (sys : Sys) : Prop where
  engine : sys.shared.engine.Ints
  calls : ∀ call ∈ sys.calls, call.Ints

theorem Constructed.ints (constructed : start.Constructed) : start.Ints := by
  have one : (1 : Int) ≤ intMax := by decide
  have upper (maxConnections : Int32) (ranged : Bool)
      : (if ranged then max 1 maxConnections.toInt else 1) ≤ (intMax : Int) := by
    have largest := maxConnections.toInt_lt
    split
    · exact max_le one (Int.le_sub_one_of_lt largest)
    · exact one
  refine ⟨?_, by simp [constructed.built.calls]⟩
  cases constructed with
  | fresh maxConnections fileSize ranged nChunks file maxThreads =>
      have most := upper maxConnections ranged
      exact ⟨one, most, (min_le_right _ _).trans most, Int.natCast_nonneg _⟩
  | loaded image file maxThreads =>
      have most := upper image.maxConnections image.ranged
      exact ⟨one, most, (min_le_right _ _).trans most, Int.natCast_nonneg _⟩

theorem ReachableWhile.ints (constructed : start.Constructed)
    (reached : ReachableWhile SafeStores start sys)
    : sys.Ints := by
  refine invariant_of_steps reached constructed.ints ?_ ?_ ?_
  · intro sys index worker next label shared _ _ ints _ taken _
    exact ⟨taken.ints ints.engine, ints.calls⟩
  · intro sys index call next label shared spawned _ _ ints found taken _
    have both := taken.ints ints.engine (ints.calls call (List.mem_of_getElem? found))
    exact ⟨both.1, forall_set ints.calls both.2⟩
  · intro sys api _ ints _ met
    refine ⟨ints.engine, ?_⟩
    intro call member
    rcases mem_snoc_cases member with old | rfl
    · exact ints.calls call old
    · exact Api.Ints.entry met

/-- The counter is above `most` only by what the notifications with a store ahead have added.
-/
structure Capped (most : Nat) (sys : Sys) : Prop where
  buffered : ∀ worker ∈ sys.workers, worker.Buffered
  counter
    : (sys.shared.engine.nReceivedBytesFromLastStore : Int)
      ≤ most + total Worker.dueShare sys.workers

variable {most : Nat}

theorem Capped.worker_step (capped : sys.Capped most) (enough : 10 * 1024 * 1024 ≤ most + 1)
    {index : Nat} {worker next : Worker} {label : WorkerLabel} {shared : Shared}
    (found : sys.workers[index]? = some worker)
    (taken : worker.Step sys.shared label shared next)
    : Capped most { sys with shared, workers := sys.workers.set index next } := by
  have own := taken.buffered (capped.buffered worker (List.mem_of_getElem? found))
  refine ⟨forall_set capped.buffered own, ?_⟩
  have before := capped.counter
  have others := @total_nonneg _ (sys.workers.set index next) _ Worker.dueShare_nonneg
  simp only
  rcases taken.unsaved with at_pc | ⟨at_pc, _, counted, moved⟩ | ⟨_, _, _, _, _, rfl, _⟩ | quiet
  · obtain ⟨item, _, rfl, rfl⟩ := taken.counts at_pc
    have outside : worker.dueShare = 0 := by simp [Worker.dueShare, at_pc, WorkerPc.storeDue]
    have after : (worker.goto .notifyTotal).dueShare = 0 := rfl
    rw [total_set _ found, outside, after, sub_zero, add_zero]
    exact before
  · have outside : worker.dueShare = 0 := by simp [Worker.dueShare, at_pc, WorkerPc.storeDue]
    have less : shared.engine.nReceivedBytesFromLastStore
        ≤ sys.shared.engine.nReceivedBytesFromLastStore + worker.bytesRead := by
      rw [counted]
      exact Nat.mod_le _ _
    cases needs : shared.engine.needsStore
    · have few : shared.engine.nReceivedBytesFromLastStore < 10 * 1024 * 1024 := by
        simpa [DownloadEngine.needsStore] using needs
      omega
    · have after : next.dueShare = worker.bytesRead := by
        rw [moved, needs]
        rfl
      rw [total_set _ found, outside, after]
      omega
  · simp only [Shared.storeImage]
    omega
  · rw [total_set _ found, quiet.counter, quiet.dueShare]
    omega

theorem Capped.call_step (capped : sys.Capped most) {index : Nat} {call next : Call}
    {label : CallLabel} {shared : Shared} {spawned : List Worker}
    (taken : Call.Step index sys.shared call label shared next spawned)
    : Capped most { sys with
        shared
        workers := sys.workers ++ spawned
        calls := sys.calls.set index next } := by
  have fresh : total Worker.dueShare spawned = 0 := by
    rcases taken.spawned_cases with rfl | rfl <;> rfl
  constructor
  case buffered =>
    intro worker member
    rcases taken.mem_workers member with old | rfl
    · exact capped.buffered worker old
    · exact ⟨Nat.zero_le _, Nat.zero_le _⟩
  case counter =>
    rw [total_append, fresh, add_zero]
    rcases taken.unsaved with ⟨_, _, _, _, _, _, rfl⟩ | ⟨same, _⟩
    · have others := @total_nonneg _ sys.workers _ Worker.dueShare_nonneg
      simp only [Shared.storeImage]
      omega
    · simp only [same]
      exact capped.counter

theorem ReachableWhile.capped (built : start.Built) (enough : 10 * 1024 * 1024 ≤ most + 1)
    (below : start.shared.engine.nReceivedBytesFromLastStore ≤ most)
    (reached : ReachableWhile meets start sys)
    : sys.Capped most := by
  refine invariant reached ?_ ?_ ?_ ?_
  · refine ⟨by simp [built.workers], ?_⟩
    rw [built.workers, total_nil]
    omega
  · intro sys index worker next label shared _ _ capped found taken _
    exact capped.worker_step enough found taken
  · intro sys index call next label shared spawned _ _ capped _ taken _
    exact capped.call_step taken
  · intro sys api dispatched _ capped
    exact ⟨capped.buffered, capped.counter⟩

/-- The counter has room for the bytes of a notification that comes to it: each connection
has at most one buffer in it since the last store was asked for.
-/
theorem Capped.fits (capped : sys.Capped most) (counted : sys.Counted) (ints : sys.Ints)
    (room : most + intMax * bufferSize < sizeModulus) {worker : Worker}
    (member : worker ∈ sys.workers) (at_pc : worker.pc = .notifyCount)
    : sys.shared.engine.nReceivedBytesFromLastStore + worker.bytesRead < sizeModulus := by
  have read := (capped.buffered worker member).read
  have outside : worker.dueShare = 0 := by simp [Worker.dueShare, at_pc, WorkerPc.storeDue]
  have scheduled : worker.scheduledShare = 1 := by
    simp [Worker.scheduledShare, at_pc, WorkerPc.scheduled]
  have planned := @total_nonneg _ sys.calls _ Call.planned_nonneg
  have few := ints.engine.scheduledConnections
  have all := counted.scheduled
  have dues := total_add_le_total
    (fun other inside => (capped.buffered other inside).dueShare_le) member
  have factored : total (fun other => bufferSize * other.scheduledShare) sys.workers
      = bufferSize * total Worker.scheduledShare sys.workers := List.sum_map_mul_left ..
  have counter := capped.counter
  have buffers : (bufferSize : Int) * total Worker.scheduledShare sys.workers
      ≤ bufferSize * intMax := by
    apply mul_le_mul_of_nonneg_left <;> omega
  rw [outside, scheduled, factored] at dues
  have room : (most : Int) + intMax * bufferSize < sizeModulus := by exact_mod_cast room
  have small : (sys.shared.engine.nReceivedBytesFromLastStore : Int) + worker.bytesRead
      < sizeModulus := by
    linarith
  exact_mod_cast small

/-- Where the counter has reached the limit, some notification has its store ahead. -/
def StoresDue (sys : Sys) : Prop :=
  10 * 1024 * 1024 ≤ sys.shared.engine.nReceivedBytesFromLastStore
  → ∃ worker ∈ sys.workers, worker.pc.storeDue = true

theorem StoresDue.worker_step (due : sys.StoresDue) {index : Nat} {worker next : Worker}
    {label : WorkerLabel} {shared : Shared} (found : sys.workers[index]? = some worker)
    (taken : worker.Step sys.shared label shared next)
    : StoresDue { sys with shared, workers := sys.workers.set index next } := by
  intro reached
  rcases taken.unsaved with at_pc | ⟨_, _, _, moved⟩ | ⟨_, _, _, _, _, rfl, _⟩ | quiet
  · obtain ⟨item, _, rfl, rfl⟩ := taken.counts at_pc
    refine exists_set_of_keeps found (due reached) fun holds => ?_
    rw [at_pc] at holds
    contradiction
  · refine ⟨next, mem_set_self found, ?_⟩
    rw [moved, if_pos (by simpa [DownloadEngine.needsStore] using reached)]
    rfl
  · simp [Shared.storeImage] at reached
  · refine exists_set_of_keeps found (due (quiet.counter ▸ reached)) fun holds => ?_
    rwa [quiet.storeDue]

theorem ReachableWhile.storesDue
    (zero : start.shared.engine.nReceivedBytesFromLastStore = 0)
    (reached : ReachableWhile meets start sys)
    : sys.StoresDue := by
  refine invariant reached ?_ ?_ ?_ ?_
  · simp [StoresDue, zero]
  · intro sys index worker next label shared _ _ due found taken _
    exact due.worker_step found taken
  · intro sys index call next label shared spawned _ _ due _ taken _ reached
    rcases taken.unsaved with ⟨_, _, _, _, _, _, rfl⟩ | ⟨same, _⟩
    · simp [Shared.storeImage] at reached
    · obtain ⟨worker, member, holds⟩ := due (same ▸ reached)
      exact ⟨worker, List.mem_append_left _ member, holds⟩
  · intro sys api dispatched _ due
    exact due

end Sys

end Muld
