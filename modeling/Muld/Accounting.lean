import Muld.Counting
import Mathlib.Data.Int.ModEq

/-! `nTotalReceivedBytes_` against the received counters of the chunks. A worker that has
updated its chunk owes the total its bytes until it adds them; together they agree up to
the wrapping of the counters, over every run.
-/

namespace Muld

open Threads

/-- The bytes that are in the counter of the chunk and not yet in the total. -/
def Worker.pendingBytes (worker : Worker) : Int :=
  if worker.pc == .notifyTotal then worker.bytesRead else 0

theorem Worker.pendingBytes_eq_zero {worker : Worker} (elsewhere : worker.pc ≠ .notifyTotal)
    : worker.pendingBytes = 0 := by
  simp [pendingBytes, elsewhere]

/-- The bytes received for a chunk. -/
def ChunkInfo.receivedShare (chunk : ChunkInfo) : Int := chunk.received

theorem wrap_modEq (value : Nat) : (wrap value : Int) ≡ value [ZMOD sizeModulus] := by
  rw [wrap, Int.natCast_mod]
  exact Int.mod_modEq _ _

/-- Two counters that are equal up to wrapping are equal if neither has wrapped. -/
theorem eq_of_modEq {left right : Nat} (same : (left : Int) ≡ right [ZMOD sizeModulus])
    (leftFits : left < sizeModulus) (rightFits : right < sizeModulus)
    : left = right := by
  have natural : left ≡ right [MOD sizeModulus] := Int.natCast_modEq_iff.mp same
  exact Nat.ModEq.eq_of_lt_of_lt natural leftFits rightFits

/-- Bytes for one chunk move the sum of the counters by as many, up to wrapping. -/
theorem total_updateReceived {engine : DownloadEngine} {chunkId : Nat} {chunk : ChunkInfo}
    (found : engine.chunksInfo[chunkId]? = some chunk) (bytes : Nat)
    : total ChunkInfo.receivedShare (engine.updateReceived chunkId bytes).chunksInfo
        ≡ total ChunkInfo.receivedShare engine.chunksInfo + bytes [ZMOD sizeModulus] := by
  have counted
      : (chunk.updateReceived bytes).receivedShare ≡ chunk.receivedShare + bytes
          [ZMOD sizeModulus] := by
    simpa [ChunkInfo.receivedShare] using wrap_modEq (chunk.received + bytes)
  rw [DownloadEngine.updateReceived_chunksInfo found, total_set _ found]
  calc total ChunkInfo.receivedShare engine.chunksInfo - chunk.receivedShare
          + (chunk.updateReceived bytes).receivedShare
      ≡ total ChunkInfo.receivedShare engine.chunksInfo - chunk.receivedShare
          + (chunk.receivedShare + bytes) [ZMOD sizeModulus] := counted.add_left _
    _ = total ChunkInfo.receivedShare engine.chunksInfo + bytes := by ring

namespace Worker

variable {shared shared' : Shared} {worker next : Worker} {label : WorkerLabel}

/-- A step that counts no bytes for a chunk moves what is pending into the total. -/
theorem Step.pendingBytes (taken : Step shared worker label shared' next)
    (uncounted : worker.pc ≠ .notifyUpdate)
    : (shared'.engine.nTotalReceivedBytes : Int) + next.pendingBytes
        ≡ shared.engine.nTotalReceivedBytes + worker.pendingBytes [ZMOD sizeModulus] := by
  cases taken
  case update at_pc _ => exact absurd at_pc uncounted
  case total elapsed at_pc =>
    simpa [Worker.pendingBytes, at_pc, Shared.onEngine, DownloadEngine.addTotal]
      using wrap_modEq (shared.engine.nTotalReceivedBytes + worker.bytesRead)
  case throw at_pc _ _ =>
    have before : worker.pendingBytes = 0 := by
      apply pendingBytes_eq_zero
      intro same
      simp [same, WorkerPc.throws] at at_pc
    rw [before]
    rfl
  case release at_pc _ =>
    rcases at_pc with at_pc | at_pc <;>
      simp [Worker.pendingBytes, at_pc, Shared.onEngine, Int.ModEq.refl]
  case streamStop at_pc _ =>
    rcases at_pc with at_pc | at_pc <;> simp [Worker.pendingBytes, at_pc, Int.ModEq.refl]
  case allow at_pc _ _ =>
    rcases at_pc with at_pc | at_pc <;> simp [Worker.pendingBytes, at_pc, Int.ModEq.refl]
  case nullWriter => rfl
  case store site _ at_pc _ =>
    cases site <;>
      simp [Worker.pendingBytes, at_pc, Shared.storeImage, afterStore, Int.ModEq.refl]
  all_goals
    simp [Worker.pendingBytes, ‹worker.pc = _›, Shared.onEngine, Int.ModEq.refl]
  all_goals rfl

/-- The total is a `size_t`. -/
theorem Step.nTotalReceivedBytes_lt (taken : Step shared worker label shared' next)
    (fits : shared.engine.nTotalReceivedBytes < sizeModulus)
    : shared'.engine.nTotalReceivedBytes < sizeModulus := by
  cases taken
  case total => exact Nat.mod_lt _ (by decide)
  all_goals first | exact fits | simpa using fits

end Worker

theorem Call.Step.nTotalReceivedBytes {index : Nat} {shared shared' : Shared}
    {call next : Call} {label : CallLabel} {spawned : List Worker}
    (taken : Call.Step index shared call label shared' next spawned)
    : shared'.engine.nTotalReceivedBytes = shared.engine.nTotalReceivedBytes := by
  cases taken <;> first | rfl | simp

/-- Every item of a rebuild names a chunk, by induction on the scan. -/
theorem chunkId_lt_of_mem_pendingItems {chunks : List ChunkInfo} {item : WorkItem}
    (member : item ∈ pendingItems 0 0 chunks)
    : item.chunkId < chunks.length := by
  obtain ⟨position, found⟩ := List.mem_iff_getElem?.mp member
  obtain ⟨index, chunk, present, _, rfl⟩ := pendingItems_getElem? found
  simpa [ChunkInfo.missing] using (List.getElem?_eq_some_iff.mp present).1

namespace Sys

variable {meets : Sys → Action → Sys → Prop} {start sys : Sys}

/-- Every item in circulation names a chunk. -/
structure Named (sys : Sys) : Prop where
  pending
    : ∀ item ∈ sys.shared.engine.pendingWork, item.chunkId < sys.shared.engine.nChunks
  held
    : ∀ worker ∈ sys.workers,
        ∀ item, worker.item = some item → item.chunkId < sys.shared.engine.nChunks

theorem Named.worker_step (named : sys.Named) {index : Nat} {worker next : Worker}
    {label : WorkerLabel} {shared : Shared} (found : sys.workers[index]? = some worker)
    (taken : worker.Step sys.shared label shared next)
    : Named { sys with shared, workers := sys.workers.set index next } := by
  constructor
  case pending =>
    simp only [taken.pendingWork, taken.nChunks]
    exact named.pending
  case held =>
    simp only [taken.nChunks]
    refine forall_set named.held ?_
    intro item holds
    rcases taken.item with same | dropped | ⟨took, _, available, _, rfl⟩
    · exact named.held worker (List.mem_of_getElem? found) item (same ▸ holds)
    · simp [dropped] at holds
    · obtain rfl : took = item := Option.some.inj holds
      exact named.pending took (List.mem_of_getElem? available)

theorem Named.call_step (named : sys.Named) {index : Nat} {call next : Call}
    {label : CallLabel} {shared : Shared} {spawned : List Worker}
    (taken : Call.Step index sys.shared call label shared next spawned)
    : Named { sys with
        shared
        workers := sys.workers ++ spawned
        calls := sys.calls.set index next } := by
  have nChunks : shared.engine.nChunks = sys.shared.engine.nChunks := by
    simp [DownloadEngine.nChunks, taken.chunksInfo]
  constructor
  case pending =>
    simp only [nChunks]
    intro item member
    rcases taken.pendingWork with same | ⟨_, rebuilt⟩
    · exact named.pending item (same ▸ member)
    · rw [rebuilt] at member
      exact chunkId_lt_of_mem_pendingItems member
  case held =>
    simp only [nChunks]
    intro worker member item holds
    rcases taken.mem_workers member with before | rfl
    · exact named.held worker before item holds
    · cases holds

theorem ReachableWhile.named (built : start.Built)
    (reached : ReachableWhile meets start sys)
    : sys.Named := by
  refine invariant reached ?_ ?_ ?_ ?_
  · constructor
    · simp [built.pendingWork]
    · simp [built.workers]
  · intro sys index worker next label shared _ _ named found taken _
    exact named.worker_step found taken
  · intro sys index call next label shared spawned _ _ named _ taken _
    exact named.call_step taken
  · intro sys api dispatched _ named
    exact ⟨named.pending, named.held⟩

/-- The total and what is still to be added to it are the received bytes of the chunks, up
to the wrapping of the counters.
-/
structure Accounted (sys : Sys) : Prop where
  fits : sys.shared.engine.nTotalReceivedBytes < sizeModulus
  balance
    : (sys.shared.engine.nTotalReceivedBytes : Int) + total Worker.pendingBytes sys.workers
        ≡ total ChunkInfo.receivedShare sys.shared.engine.chunksInfo [ZMOD sizeModulus]

theorem Accounted.worker_step (accounted : sys.Accounted) (named : sys.Named) {index : Nat}
    {worker next : Worker} {label : WorkerLabel} {shared : Shared}
    (found : sys.workers[index]? = some worker)
    (taken : worker.Step sys.shared label shared next)
    : Accounted { sys with shared, workers := sys.workers.set index next } := by
  refine ⟨taken.nTotalReceivedBytes_lt accounted.fits, ?_⟩
  have balance := accounted.balance
  simp only [total_set Worker.pendingBytes found]
  by_cases counts : worker.pc = .notifyUpdate
  · obtain ⟨item, held, rfl, rfl⟩ := taken.counts counts
    have inside := named.held worker (List.mem_of_getElem? found) item held
    have present := List.getElem?_eq_getElem inside
    have before : worker.pendingBytes = 0 :=
      Worker.pendingBytes_eq_zero (by simp [counts])
    have after : (worker.goto .notifyTotal).pendingBytes = worker.bytesRead := by
      rfl
    rw [before, after]
    calc (sys.shared.engine.nTotalReceivedBytes : Int)
            + (total Worker.pendingBytes sys.workers - 0 + worker.bytesRead)
        = (sys.shared.engine.nTotalReceivedBytes + total Worker.pendingBytes sys.workers)
            + worker.bytesRead := by ring
      _ ≡ total ChunkInfo.receivedShare sys.shared.engine.chunksInfo + worker.bytesRead
            [ZMOD sizeModulus] := balance.add_right _
      _ ≡ _ [ZMOD sizeModulus] := (total_updateReceived present worker.bytesRead).symm
  · rw [taken.chunksInfo_eq counts]
    calc (shared.engine.nTotalReceivedBytes : Int)
            + (total Worker.pendingBytes sys.workers - worker.pendingBytes + next.pendingBytes)
        = total Worker.pendingBytes sys.workers - worker.pendingBytes
            + (shared.engine.nTotalReceivedBytes + next.pendingBytes) := by ring
      _ ≡ total Worker.pendingBytes sys.workers - worker.pendingBytes
            + (sys.shared.engine.nTotalReceivedBytes + worker.pendingBytes)
            [ZMOD sizeModulus] := (taken.pendingBytes counts).add_left _
      _ = sys.shared.engine.nTotalReceivedBytes + total Worker.pendingBytes sys.workers := by
          ring
      _ ≡ _ [ZMOD sizeModulus] := balance

theorem Accounted.call_step (accounted : sys.Accounted) {index : Nat} {call next : Call}
    {label : CallLabel} {shared : Shared} {spawned : List Worker}
    (taken : Call.Step index sys.shared call label shared next spawned)
    : Accounted { sys with
        shared
        workers := sys.workers ++ spawned
        calls := sys.calls.set index next } := by
  have fresh : total Worker.pendingBytes spawned = 0 := by
    rcases taken.spawned_cases with rfl | rfl <;> rfl
  refine ⟨by simpa only [taken.nTotalReceivedBytes] using accounted.fits, ?_⟩
  simp only [taken.nTotalReceivedBytes, taken.chunksInfo, total_append, fresh, add_zero]
  exact accounted.balance

/-- Over every run of a job whose total is right at the start. -/
theorem ReachableWhile.accounted (built : start.Built) (right : start.Accounted)
    (reached : ReachableWhile meets start sys)
    : sys.Accounted := by
  refine invariant reached right ?_ ?_ ?_
  · intro sys index worker next label shared earlier _ accounted found taken _
    exact accounted.worker_step (earlier.named built) found taken
  · intro sys index call next label shared spawned _ _ accounted _ taken _
    exact accounted.call_step taken
  · intro sys api dispatched _ accounted
    exact ⟨accounted.fits, accounted.balance⟩

theorem total_receivedShare (chunks : List ChunkInfo)
    : total ChunkInfo.receivedShare chunks = ((chunks.map ChunkInfo.received).sum : Nat) :=
  total_natCast ChunkInfo.received

/-- A fresh job has received nothing. -/
theorem fresh_accounted (maxConnections : Int) (fileSize : Nat) (ranged : Bool)
    (nChunks : Nat) [NeZero nChunks] (file : Nat → Byte) (maxThreads : Int)
    : (fresh maxConnections fileSize ranged nChunks file maxThreads).Accounted where
  fits := by
    simp only [fresh, DownloadEngine.create]
    decide
  balance := by
    have none : ∀ chunk ∈ (fresh maxConnections fileSize ranged nChunks file
        maxThreads).shared.engine.chunksInfo, chunk.receivedShare = 0 := by
      intro chunk member
      obtain ⟨index, _, rfl⟩ := List.mem_map.mp member
      rfl
    rw [total_eq_zero none]
    rfl

/-- The chunks of a loaded engine have received what its image claims, as a `size_t`. -/
theorem ofImage_received (image : JobImage)
    : (DownloadEngine.ofImage image).chunksInfo.map ChunkInfo.received
        = (image.chunks.map ChunkState.downloaded).map wrap := by
  apply List.ext_getElem
  · simp [DownloadEngine.ofImage]
  · intro index _ _
    simp [DownloadEngine.ofImage, DownloadEngine.imageChunk]

/-- And just what it claims where that is one. -/
theorem loaded_received {image : JobImage} (file : Nat → Byte) (maxThreads : Int)
    (fits : ∀ entry ∈ image.chunks, entry.downloaded < sizeModulus)
    : (loaded image file maxThreads).shared.engine.chunksInfo.map ChunkInfo.received
        = image.chunks.map ChunkState.downloaded := by
  have claimed : (loaded image file maxThreads).shared.engine = .ofImage image := rfl
  rw [claimed, ofImage_received, List.map_map]
  exact List.map_congr_left fun entry member => wrap_of_lt (fits entry member)

/-- A loaded job counts what its image claims. -/
theorem loaded_accounted {image : JobImage} (file : Nat → Byte) (maxThreads : Int)
    (fits : ∀ entry ∈ image.chunks, entry.downloaded < sizeModulus)
    : (loaded image file maxThreads).Accounted where
  fits := Nat.mod_lt _ (by decide)
  balance := by
    rw [total_receivedShare, loaded_received file maxThreads fits]
    simp only [loaded, DownloadEngine.ofImage, total_nil, add_zero]
    exact wrap_modEq _

/-- A total that nothing is pending for is the sum of the received bytes, if that sum is
a `size_t`.
-/
theorem Accounted.nTotalReceivedBytes (accounted : sys.Accounted)
    (settled : ∀ worker ∈ sys.workers, worker.pc ≠ .notifyTotal)
    (small : (sys.shared.engine.chunksInfo.map ChunkInfo.received).sum < sizeModulus)
    : sys.shared.engine.nTotalReceivedBytes
        = (sys.shared.engine.chunksInfo.map ChunkInfo.received).sum := by
  have balance := accounted.balance
  rw [total_eq_zero fun worker member => Worker.pendingBytes_eq_zero (settled worker member),
    add_zero, total_receivedShare] at balance
  exact eq_of_modEq balance accounted.fits small

end Sys

end Muld
