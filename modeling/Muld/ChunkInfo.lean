import Muld.Types
import Mathlib.Data.List.Basic

/-! Chunks and the work items rebuilt from them. -/

namespace Muld

/-- A chunk with its inclusive range and the bytes received for it. -/
structure ChunkInfo where
  chunkId : Nat
  startRange : Nat
  endRange : Nat
  received : Nat
deriving DecidableEq, Repr

namespace ChunkInfo

def getTotalSize (chunk : ChunkInfo) : Nat :=
  wrap (wrapSub chunk.endRange chunk.startRange + 1)

def getReceivedSize (chunk : ChunkInfo) : Nat := chunk.received

def updateReceived (chunk : ChunkInfo) (amount : Nat) : ChunkInfo :=
  { chunk with received := wrap (chunk.received + amount) }

def isFinished (chunk : ChunkInfo) : Bool :=
  decide (chunk.getTotalSize ≤ chunk.getReceivedSize)

/-- The entry of the chunk in a job image. -/
def toState (chunk : ChunkInfo) : ChunkState where
  startRange := chunk.startRange
  endRange := chunk.endRange
  downloaded := chunk.getReceivedSize

@[simp]
theorem updateReceived_chunkId (chunk : ChunkInfo) (amount : Nat)
    : (chunk.updateReceived amount).chunkId = chunk.chunkId := rfl

@[simp]
theorem updateReceived_startRange (chunk : ChunkInfo) (amount : Nat)
    : (chunk.updateReceived amount).startRange = chunk.startRange := rfl

@[simp]
theorem updateReceived_endRange (chunk : ChunkInfo) (amount : Nat)
    : (chunk.updateReceived amount).endRange = chunk.endRange := rfl

@[simp]
theorem updateReceived_received (chunk : ChunkInfo) (amount : Nat)
    : (chunk.updateReceived amount).received = wrap (chunk.received + amount) := rfl

@[simp]
theorem updateReceived_getTotalSize (chunk : ChunkInfo) (amount : Nat)
    : (chunk.updateReceived amount).getTotalSize = chunk.getTotalSize := rfl

theorem isFinished_iff (chunk : ChunkInfo)
    : chunk.isFinished = true ↔ chunk.getTotalSize ≤ chunk.received := by
  rw [isFinished, decide_eq_true_iff, getReceivedSize]

/-- A finished chunk stays finished while its counter does not wrap. -/
theorem isFinished_updateReceived {chunk : ChunkInfo} {amount : Nat}
    (fits : chunk.received + amount < sizeModulus) (finished : chunk.isFinished = true)
    : (chunk.updateReceived amount).isFinished = true := by
  rw [isFinished_iff] at finished ⊢
  rw [updateReceived_getTotalSize, updateReceived_received, wrap_of_lt fits]
  omega

/-- A chunk whose range is not empty and lies inside the file. -/
structure Proper (chunk : ChunkInfo) (fileSize : Nat) : Prop where
  ordered : chunk.startRange ≤ chunk.endRange
  inFile : chunk.endRange < fileSize

/-- A proper chunk has the size of its inclusive range. -/
theorem Proper.getTotalSize_eq {chunk : ChunkInfo} {fileSize : Nat}
    (proper : chunk.Proper fileSize) (small : fileSize < sizeModulus)
    : chunk.getTotalSize = chunk.endRange + 1 - chunk.startRange := by
  have ordered := proper.ordered
  have inFile := proper.inFile
  rw [getTotalSize, wrapSub_of_le ordered (by omega), wrap_of_lt (by omega)]
  omega

end ChunkInfo

/-- A scheduling unit, rebuilt on every start and resume. -/
structure WorkItem where
  workId : Nat
  chunkId : Nat
  rangeStart : Nat
  rangeEnd : Nat
deriving DecidableEq, Repr

/-- The work item for the part of a chunk that is still missing. -/
def ChunkInfo.missing (chunk : ChunkInfo) (workId chunkId : Nat) : WorkItem where
  workId := workId
  chunkId := chunkId
  rangeStart := wrap (chunk.startRange + chunk.getReceivedSize)
  rangeEnd := chunk.endRange

/-- The scan of `BuildPendingWork` over the chunks from index `chunkId` on, with the next
work id: finished chunks are skipped, the others get a work item.
-/
def pendingItems : Nat → Nat → List ChunkInfo → List WorkItem
  | _, _, [] => []
  | chunkId, workId, chunk :: rest =>
      if chunk.isFinished then pendingItems (chunkId + 1) workId rest
      else chunk.missing workId chunkId :: pendingItems (chunkId + 1) (workId + 1) rest

/-- The finished chunks counted by the same scan. -/
def finishedCount (chunks : List ChunkInfo) : Nat :=
  chunks.countP ChunkInfo.isFinished

-----------------------------------------------------------------------------------------
-- What the scan hands out
-----------------------------------------------------------------------------------------

/-- The item at a position carries that position as its work id and describes an
unfinished chunk, by induction on the scan.
-/
theorem pendingItems_getElem? {chunks : List ChunkInfo} {chunkId workId position : Nat}
    {item : WorkItem} (found : (pendingItems chunkId workId chunks)[position]? = some item)
    : ∃ (index : Nat) (chunk : ChunkInfo),
        chunks[index]? = some chunk
        ∧ chunk.isFinished = false
        ∧ item = chunk.missing (workId + position) (chunkId + index) := by
  induction chunks generalizing chunkId workId position with
  | nil => simp [pendingItems] at found
  | cons head rest ih =>
      rw [pendingItems] at found
      split at found
      · obtain ⟨index, chunk, inside, unfinished, rfl⟩ := ih found
        refine ⟨index + 1, chunk, inside, unfinished, ?_⟩
        rw [Nat.add_right_comm, Nat.add_assoc]
      · rename_i unfinished
        cases position with
        | zero => exact ⟨0, head, rfl, by simpa using unfinished, (Option.some.inj found).symm⟩
        | succ position =>
            obtain ⟨index, chunk, inside, missing, rfl⟩ :=
              @ih (chunkId + 1) (workId + 1) position found
            refine ⟨index + 1, chunk, inside, missing, ?_⟩
            rw [Nat.add_right_comm chunkId, Nat.add_assoc chunkId, Nat.add_right_comm workId,
              Nat.add_assoc workId]

/-- Every unfinished chunk gets an item, by induction on the scan. -/
theorem exists_pendingItem {chunks : List ChunkInfo} {chunkId workId index : Nat}
    {chunk : ChunkInfo} (inside : chunks[index]? = some chunk)
    (unfinished : chunk.isFinished = false)
    : ∃ (position : Nat) (item : WorkItem),
        (pendingItems chunkId workId chunks)[position]? = some item
        ∧ item.chunkId = chunkId + index := by
  induction chunks generalizing chunkId workId index with
  | nil => simp at inside
  | cons head rest ih =>
      rw [pendingItems]
      cases index with
      | zero =>
          obtain rfl : head = chunk := Option.some.inj inside
          rw [if_neg (by simp [unfinished])]
          exact ⟨0, head.missing workId chunkId, rfl, rfl⟩
      | succ index =>
          have inRest : rest[index]? = some chunk := inside
          split
          · obtain ⟨position, item, found, same⟩ := @ih (chunkId + 1) workId index inRest
            exact ⟨position, item, found, by omega⟩
          · obtain ⟨position, item, found, same⟩ := @ih (chunkId + 1) (workId + 1) index inRest
            exact ⟨position + 1, item, found, by omega⟩

/-- Items of the scan belong to the chunks from its first index on. -/
theorem le_chunkId_of_mem_pendingItems {chunks : List ChunkInfo} {chunkId workId : Nat}
    {item : WorkItem} (member : item ∈ pendingItems chunkId workId chunks)
    : chunkId ≤ item.chunkId := by
  obtain ⟨position, found⟩ := List.mem_iff_getElem?.mp member
  obtain ⟨index, chunk, _, _, rfl⟩ := pendingItems_getElem? found
  simp [ChunkInfo.missing]

/-- No two items belong to the same chunk: chunk indices grow along the scan. -/
theorem pendingItems_chunkId_nodup (chunks : List ChunkInfo) (chunkId workId : Nat)
    : ((pendingItems chunkId workId chunks).map WorkItem.chunkId).Nodup := by
  induction chunks generalizing chunkId workId with
  | nil => simp [pendingItems]
  | cons head rest ih =>
      rw [pendingItems]
      split
      · exact ih _ _
      · rw [List.map_cons, List.nodup_cons]
        refine ⟨?_, ih _ _⟩
        intro member
        obtain ⟨item, inside, same⟩ := List.mem_map.mp member
        have above := le_chunkId_of_mem_pendingItems inside
        simp only [ChunkInfo.missing] at same
        omega

end Muld
