import Muld.Accounting
import Muld.StoreHistory
import Muld.Library.Tilings

/-! What `BuildPendingWork` hands out when the chunks tile the file: the bytes that are
missing, each of them once.
-/

namespace Muld

open Threads Tilings

-----------------------------------------------------------------------------------------
-- The bytes of a chunk
-----------------------------------------------------------------------------------------

namespace ChunkInfo

/-- The bytes that belong to a chunk. -/
def span (chunk : ChunkInfo) : Span := ⟨chunk.startRange, chunk.getTotalSize⟩

/-- The bytes of the chunk that count as received. -/
def receivedSpan (chunk : ChunkInfo) : Span := ⟨chunk.startRange, chunk.received⟩

/-- The other bytes of the chunk. -/
def missingSpan (chunk : ChunkInfo) : Span :=
  ⟨chunk.startRange + chunk.received, chunk.getTotalSize - chunk.received⟩

/-- An inclusive range that is not empty ends one byte before its start plus its size. -/
theorem endRange_succ {chunk : ChunkInfo} (startRange : chunk.startRange < sizeModulus)
    (endRange : chunk.endRange < sizeModulus) (nonempty : 0 < chunk.getTotalSize)
    (fits : chunk.startRange + chunk.getTotalSize < sizeModulus)
    : chunk.endRange + 1 = chunk.startRange + chunk.getTotalSize := by
  simp only [getTotalSize, wrapSub, wrap, sizeModulus] at *
  omega

theorem splits_received {chunk : ChunkInfo} (received : chunk.received ≤ chunk.getTotalSize)
    : chunk.span.Splits chunk.receivedSpan chunk.missingSpan :=
  chunk.span.splits_at received

end ChunkInfo

/-- The bytes a work item asks for. -/
def WorkItem.span (item : WorkItem) : Span :=
  ⟨item.rangeStart, item.rangeEnd + 1 - item.rangeStart⟩

/-- The unfinished chunks in order, each with the range from its first missing byte on. -/
def missingItems (chunks : List ChunkInfo) : List WorkItem :=
  ((chunks.zipIdx.filter fun entry => !entry.1.isFinished).zipIdx).map fun entry =>
    {
      workId := entry.2
      chunkId := entry.1.2
      rangeStart := entry.1.1.startRange + entry.1.1.received
      rangeEnd := entry.1.1.endRange
    }

/-- Without wrapping, the scan makes the items of the unfinished chunks, by induction on the
chunks.
-/
theorem pendingItems_eq {chunks : List ChunkInfo} (chunkId workId : Nat)
    (fits
      : ∀ chunk ∈ chunks,
          chunk.isFinished = false → chunk.startRange + chunk.received < sizeModulus)
    : pendingItems chunkId workId chunks
        = (((chunks.zipIdx chunkId).filter fun entry => !entry.1.isFinished).zipIdx workId).map
            fun entry =>
              {
                workId := entry.2
                chunkId := entry.1.2
                rangeStart := entry.1.1.startRange + entry.1.1.received
                rangeEnd := entry.1.1.endRange
              } := by
  induction chunks generalizing chunkId workId with
  | nil => rfl
  | cons chunk rest ih =>
      have fits_rest := fun other member => fits other (List.mem_cons_of_mem _ member)
      cases finished : chunk.isFinished with
      | true =>
          rw [pendingItems, if_pos finished, ih _ _ fits_rest, List.zipIdx_cons,
            List.filter_cons_of_neg (by simp [finished])]
      | false =>
          have start : (chunk.missing workId chunkId).rangeStart
              = chunk.startRange + chunk.received :=
            wrap_of_lt (fits chunk (List.mem_cons_self ..) finished)
          rw [pendingItems, if_neg (by simp [finished]), ih _ _ fits_rest, List.zipIdx_cons,
            List.filter_cons_of_pos (by simp [finished]), List.zipIdx_cons, List.map_cons,
            ← start]
          rfl

/-- The scan asks for the missing bytes of the unfinished chunks, by induction on the chunks.
-/
theorem pendingItems_spans {chunks : List ChunkInfo} (chunkId workId : Nat)
    (missing
      : ∀ chunk ∈ chunks,
          chunk.isFinished = false
          → ∀ workId chunkId, (chunk.missing workId chunkId).span = chunk.missingSpan)
    : (pendingItems chunkId workId chunks).map WorkItem.span
        = (chunks.filter fun chunk => !chunk.isFinished).map ChunkInfo.missingSpan := by
  induction chunks generalizing chunkId workId with
  | nil => rfl
  | cons chunk rest ih =>
      have missing_rest := fun other member => missing other (List.mem_cons_of_mem _ member)
      cases finished : chunk.isFinished with
      | true =>
          rw [pendingItems, if_pos finished, ih _ _ missing_rest,
            List.filter_cons_of_neg (by simp [finished])]
      | false =>
          rw [pendingItems, if_neg (by simp [finished]), List.map_cons, ih _ _ missing_rest,
            missing chunk (List.mem_cons_self ..) finished,
            List.filter_cons_of_pos (by simp [finished]), List.map_cons]

-----------------------------------------------------------------------------------------
-- Chunks that tile the file
-----------------------------------------------------------------------------------------

namespace DownloadEngine

/-- The chunks tile the file, and none has received more than its size. -/
structure Partitioned (engine : DownloadEngine) : Prop where
  tiles : Tiles (engine.chunksInfo.map ChunkInfo.span) engine.fileSize
  received : ∀ chunk ∈ engine.chunksInfo, chunk.received ≤ chunk.getTotalSize

variable {engine : DownloadEngine}

/-- An unfinished chunk lies in the file and misses bytes. -/
theorem Partitioned.unfinished (partitioned : engine.Partitioned)
    (representable : engine.Representable) {chunk : ChunkInfo}
    (member : chunk ∈ engine.chunksInfo) (unfinished : chunk.isFinished = false)
    : chunk.received < chunk.getTotalSize
      ∧ chunk.startRange + chunk.getTotalSize < sizeModulus
      ∧ chunk.endRange + 1 = chunk.startRange + chunk.getTotalSize := by
  have missing : chunk.received < chunk.getTotalSize := by
    by_contra done
    rw [(ChunkInfo.isFinished_iff chunk).mpr (by omega)] at unfinished
    contradiction
  have inFile := partitioned.tiles.end_le (List.mem_map_of_mem member)
    (show 0 < chunk.span.size from Nat.zero_lt_of_lt missing)
  have small := representable.fileSize
  have fits : chunk.startRange + chunk.getTotalSize < sizeModulus :=
    Nat.lt_of_le_of_lt inFile small
  obtain ⟨startRange, endRange, _⟩ := representable.chunks chunk member
  exact ⟨missing, fits,
    ChunkInfo.endRange_succ startRange endRange (Nat.zero_lt_of_lt missing) fits⟩

/-- The item of an unfinished chunk asks for the bytes it misses. -/
theorem Partitioned.missing_span (partitioned : engine.Partitioned)
    (representable : engine.Representable) {chunk : ChunkInfo}
    (member : chunk ∈ engine.chunksInfo) (unfinished : chunk.isFinished = false)
    (workId chunkId : Nat)
    : (chunk.missing workId chunkId).span = chunk.missingSpan := by
  obtain ⟨missing, fits, ends⟩ := partitioned.unfinished representable member unfinished
  have start : wrap (chunk.startRange + chunk.received) = chunk.startRange + chunk.received :=
    wrap_of_lt (by omega)
  simp only [WorkItem.span, ChunkInfo.missing, ChunkInfo.missingSpan,
    ChunkInfo.getReceivedSize, start, Span.mk.injEq, true_and]
  omega

/-- All the bytes received are no more than the file. -/
theorem Partitioned.received_le (partitioned : engine.Partitioned)
    : (engine.chunksInfo.map ChunkInfo.received).sum ≤ engine.fileSize := by
  have whole := partitioned.tiles.sum_size
  rw [List.map_map] at whole
  calc (engine.chunksInfo.map ChunkInfo.received).sum
      ≤ (engine.chunksInfo.map ChunkInfo.getTotalSize).sum :=
        List.sum_le_sum partitioned.received
    _ = engine.fileSize := whole

/-- The plan that `BuildPendingWork` makes is exactly the missing bytes. -/
structure ResumesMissing (engine : DownloadEngine) : Prop where
  items : engine.buildPendingWork.pendingWork = missingItems engine.chunksInfo
  nonempty
    : ∀ item ∈ engine.buildPendingWork.pendingWork, item.rangeStart ≤ item.rangeEnd
  /-- The received bytes and the work items cover the file, and nothing twice. -/
  tiles
    : Tiles
        (engine.chunksInfo.map ChunkInfo.receivedSpan
          ++ engine.buildPendingWork.pendingWork.map WorkItem.span)
        engine.fileSize
  nDownloadedChunks
    : engine.buildPendingWork.nDownloadedChunks
        = (engine.chunksInfo.filter ChunkInfo.isFinished).length
  nTotalReceivedBytes
    : engine.buildPendingWork.nTotalReceivedBytes
        = (engine.chunksInfo.map ChunkInfo.received).sum

theorem Partitioned.resumesMissing (partitioned : engine.Partitioned)
    (representable : engine.Representable)
    (counted
      : engine.nTotalReceivedBytes = (engine.chunksInfo.map ChunkInfo.received).sum)
    : engine.ResumesMissing := by
  have pending
      : engine.buildPendingWork.pendingWork = pendingItems 0 0 engine.chunksInfo := rfl
  have spans := pendingItems_spans 0 0 fun chunk member unfinished =>
    partitioned.missing_span representable member unfinished
  constructor
  case items =>
    refine pendingItems_eq 0 0 fun chunk member unfinished => ?_
    obtain ⟨missing, fits, _⟩ := partitioned.unfinished representable member unfinished
    omega
  case nonempty =>
    intro item member
    rw [pending] at member
    obtain ⟨position, found⟩ := List.mem_iff_getElem?.mp member
    obtain ⟨index, chunk, present, unfinished, rfl⟩ := pendingItems_getElem? found
    have inside := List.mem_of_getElem? present
    obtain ⟨missing, fits, ends⟩ := partitioned.unfinished representable inside unfinished
    simp only [ChunkInfo.missing, ChunkInfo.getReceivedSize]
    rw [wrap_of_lt (by omega)]
    omega
  case tiles =>
    rw [pending, spans]
    refine partitioned.tiles.split
      (fun chunk member => ChunkInfo.splits_received (partitioned.received chunk member)) _ ?_
    intro chunk member finished
    apply Span.not_covers_of_empty
    have done := (ChunkInfo.isFinished_iff chunk).mp (by simpa using finished)
    simp only [ChunkInfo.missingSpan]
    omega
  case nDownloadedChunks => exact List.countP_eq_length_filter ..
  case nTotalReceivedBytes => exact counted

end DownloadEngine

-----------------------------------------------------------------------------------------
-- Engines of runs
-----------------------------------------------------------------------------------------

namespace Sys

variable {meets : Sys → Action → Sys → Prop} {start sys : Sys}

/-- A job as one of the constructors of the engine makes it, of arguments of their types. -/
inductive Constructed : Sys → Prop
  | fresh (maxConnections : Int32) (fileSize : UInt64) (ranged : Bool)
      (nChunks : Fin (Disk.maxObjectSize / Disk.chunkStateSize + 1)) [NeZero nChunks.val]
      (file : Nat → Byte) (maxThreads : Int32)
    : Constructed
        (fresh maxConnections.toInt fileSize.toNat ranged nChunks.val file maxThreads.toInt)
  | loaded (image : Disk.JobImage) (file : Nat → Byte) (maxThreads : Int32)
    : Constructed (loaded (.ofDisk image) file maxThreads.toInt)

theorem twoChunks_constructed : twoChunks.Constructed :=
  @Constructed.fresh 8 20 true 2 ⟨by decide⟩ (fun _ => 0) 8

theorem Constructed.built (constructed : start.Constructed) : start.Built := by
  cases constructed with
  | fresh maxConnections fileSize ranged nChunks file maxThreads =>
      have few := nChunks.isLt
      exact fresh_built _ _ _ _ _ (Nat.lt_of_lt_of_le few (by decide))
  | loaded image file maxThreads =>
      have few := image.chunks.size_le
      refine loaded_built _ _ ?_
      rw [JobImage.ofDisk, List.length_map]
      exact Nat.lt_of_le_of_lt few (by decide)

/-- The counts in an image are of their type. -/
theorem downloaded_ofDisk_lt (image : Disk.JobImage)
    : ∀ entry ∈ (JobImage.ofDisk image).chunks, entry.downloaded < sizeModulus := by
  intro entry member
  obtain ⟨stored, _, rfl⟩ := List.mem_map.mp member
  exact stored.downloaded.toNat_lt

theorem Constructed.accounted (constructed : start.Constructed) : start.Accounted := by
  cases constructed with
  | fresh => exact fresh_accounted ..
  | loaded image file maxThreads =>
      exact loaded_accounted file maxThreads.toInt (downloaded_ofDisk_lt image)

theorem Constructed.representable (constructed : start.Constructed)
    : start.shared.engine.Representable := by
  cases constructed with
  | fresh maxConnections fileSize ranged nChunks file maxThreads =>
      exact DownloadEngine.create_representable maxConnections.toInt fileSize ranged nChunks
  | loaded image file maxThreads => exact DownloadEngine.ofImage_representable image

/-- No step leaves the types of the source. -/
theorem ReachableWhile.representable (representable : start.shared.engine.Representable)
    (reached : ReachableWhile meets start sys)
    : sys.shared.engine.Representable := by
  let inv : Sys → Prop := fun sys => sys.shared.engine.Representable
  have base : inv start := representable
  refine invariant reached base ?_ ?_ ?_
  · intro sys index worker next label shared _ _ before _ taken _
    constructor
    case fileSize => exact taken.fileSize ▸ before.fileSize
    case nChunks => exact taken.nChunks ▸ before.nChunks
    case chunks =>
      intro chunk member
      rcases taken.chunksInfo with same | ⟨item, _, _, _, moved⟩
      · exact before.chunks chunk (same ▸ member)
      · simp only [moved] at member
        obtain old | ⟨chunk, found, rfl⟩ := DownloadEngine.mem_updateReceived member
        · exact before.chunks chunk old
        · obtain ⟨start, end_, _⟩ := before.chunks chunk (List.mem_of_getElem? found)
          exact ⟨start, end_, Nat.mod_lt _ (by decide)⟩
  · intro sys index call next label shared spawned _ _ before _ taken _
    constructor
    case fileSize => exact taken.fileSize ▸ before.fileSize
    case chunks => exact taken.chunksInfo ▸ before.chunks
    case nChunks =>
      simp only [DownloadEngine.nChunks, taken.chunksInfo]
      exact before.nChunks
  · intro sys api dispatched _ before
    exact before

/-- The two chunks tile their file. -/
theorem twoChunks_partitioned : twoChunks.shared.engine.Partitioned where
  tiles := by
    have spans : twoChunks.shared.engine.chunksInfo.map ChunkInfo.span
        = [⟨0, 10⟩, ⟨10, 10⟩] := by decide
    rw [spans]
    constructor
    · intro position
      simp only [List.mem_cons, List.not_mem_nil, or_false, exists_eq_or_imp, exists_eq_left,
        Span.Covers]
      change position < 20 ↔ _
      omega
    · simp only [List.pairwise_cons, List.mem_singleton, forall_eq, List.not_mem_nil,
        false_imp_iff, implies_true, List.Pairwise.nil, and_self, and_true]
      rintro position ⟨_, below⟩ ⟨above, _⟩
      simp only at below above
      omega
  received := by decide

/-- In every run, a rebuild that finds no worker scheduled plans exactly the missing bytes.
-/
theorem ReachableWhile.resumesMissing (constructed : start.Constructed)
    (reached : ReachableWhile meets start sys)
    (drained : sys.shared.engine.scheduledConnections = 0)
    (partitioned : sys.shared.engine.Partitioned)
    : sys.shared.engine.ResumesMissing := by
  have representable := reached.representable constructed.representable
  have counted := reached.counted constructed.built
  have settled : ∀ worker ∈ sys.workers, worker.pc ≠ .notifyTotal := by
    intro worker member at_pc
    have positive := counted.scheduled_pos member (by rw [at_pc]; rfl)
    omega
  have small := Nat.lt_of_le_of_lt partitioned.received_le representable.fileSize
  have accounted := reached.accounted constructed.built constructed.accounted
  exact partitioned.resumesMissing representable
    (accounted.nTotalReceivedBytes settled small)

end Sys

end Muld
