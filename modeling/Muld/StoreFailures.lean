import Muld.StoreHistory

/-! What a store leaves on disk when its file operations fail or are cut off. An update in
place keeps the image usable wherever it is cut; a rewrite truncates the file first, and
from then until its last byte there is no usable image.
-/

namespace Muld

open FileStreams
open Disk (ChunkTable JobImageIndex encodeImage encodeTable)

namespace StoredJob

variable {job after : StoredJob}

-----------------------------------------------------------------------------------------
-- Usable images
-----------------------------------------------------------------------------------------

/-- The entry has the range of the chunk and no more bytes than it has. -/
structure Within (entry : Disk.ChunkState) (chunk : ChunkInfo) : Prop where
  startRange : entry.startRange.toNat = chunk.startRange
  endRange : entry.endRange.toNat = chunk.endRange
  downloaded : entry.downloaded.toNat ≤ chunk.received

/-- The file is accepted as an image, with the engine's ranges and with no count above the
current one.
-/
def Accepts (job : StoredJob) (file : Option Bytes) : Prop :=
  ∃ (img : Disk.JobImage) (index : JobImageIndex),
    Disk.readImageFromDisk {} file = .ok (img, index)
    ∧ List.Forall₂ Within img.chunks.items job.engine.chunksInfo

def Usable (job : StoredJob) : Prop := job.Accepts job.file

/-- The engine has a stored image: the one it was loaded from, or one that it wrote and has
the index of. It may have forgotten it, as it does when a file is not opened for a rewrite.
-/
structure HasImage (job : StoredJob) : Prop where
  typed : job.Typed
  writer : job.engine.writer = true
  usable : job.Usable
  indexed
    : job.imageIndex = {}
      ∨ ∃ img, job.file = some (encodeImage img) ∧ job.imageIndex = Disk.imageIndex img

/-- An entry within a chunk grows to the entry of the chunk. -/
theorem within_iff_growsTo {entry : Disk.ChunkState} {chunk : ChunkInfo}
    (start : chunk.startRange < sizeModulus) (end_ : chunk.endRange < sizeModulus)
    (received : chunk.received < sizeModulus)
    : Within entry chunk ↔ entry.GrowsTo chunk.toState.toDisk := by
  have start := UInt64.toNat_ofNat_of_lt' start
  have end_ := UInt64.toNat_ofNat_of_lt' end_
  have received := UInt64.toNat_ofNat_of_lt' received
  constructor
  · rintro ⟨startRange, endRange, downloaded⟩
    refine ⟨UInt64.toNat_inj.mp (startRange.trans start.symm),
      UInt64.toNat_inj.mp (endRange.trans end_.symm), UInt64.le_iff_toNat_le.mpr ?_⟩
    exact Nat.le_trans downloaded (Nat.le_of_eq received.symm)
  · rintro ⟨startRange, endRange, downloaded⟩
    exact ⟨(congrArg UInt64.toNat startRange).trans start,
      (congrArg UInt64.toNat endRange).trans end_,
      Nat.le_trans (UInt64.le_iff_toNat_le.mp downloaded) (Nat.le_of_eq received)⟩

/-- The entries of an image are within the chunks if they grow to the entries of a store. -/
theorem Typed.within_iff (typed : job.Typed) (entries : List Disk.ChunkState)
    : List.Forall₂ Within entries job.engine.chunksInfo
      ↔ List.Forall₂ Disk.ChunkState.GrowsTo entries job.entries.items := by
  rw [typed.entries_items, scan, List.map_map, List.forall₂_map_right_iff]
  have each : ∀ {entry : Disk.ChunkState} {chunk : ChunkInfo},
      (entry, chunk) ∈ entries.zip job.engine.chunksInfo →
      (Within entry chunk ↔ entry.GrowsTo chunk.toState.toDisk) := by
    intro entry chunk member
    obtain ⟨start, end_, received⟩ := typed.chunks chunk (List.of_mem_zip member).2
    exact within_iff_growsTo start end_ received
  rw [List.forall₂_iff_zip, List.forall₂_iff_zip]
  constructor
  · rintro ⟨same, all⟩
    exact ⟨same, fun member => (each member).mp (all member)⟩
  · rintro ⟨same, all⟩
    exact ⟨same, fun member => (each member).mpr (all member)⟩

/-- The file of an image is accepted if its entries grow to the current ones. -/
theorem Typed.accepts_encodeImage (typed : job.Typed) {img : Disk.JobImage}
    (grows : List.Forall₂ Disk.ChunkState.GrowsTo img.chunks.items job.entries.items)
    : job.Accepts (some (encodeImage img)) :=
  ⟨img, _, Disk.readImageFromDisk_encodeImage img {}, (typed.within_iff _).mpr grows⟩

/-- An image in an accepted file has entries that grow to the current ones. -/
theorem Typed.growsTo_of_accepts (typed : job.Typed) {img : Disk.JobImage}
    (accepts : job.Accepts (some (encodeImage img)))
    : List.Forall₂ Disk.ChunkState.GrowsTo img.chunks.items job.entries.items := by
  obtain ⟨read, index, accepted, within⟩ := accepts
  rw [Disk.readImageFromDisk_encodeImage] at accepted
  cases accepted
  exact (typed.within_iff _).mp within

/-- The entries of a store grow to themselves. -/
theorem growsTo_self (entries : List Disk.ChunkState)
    : List.Forall₂ Disk.ChunkState.GrowsTo entries entries :=
  List.forall₂_same.mpr fun _ _ => ⟨rfl, rfl, UInt64.le_refl _⟩

-----------------------------------------------------------------------------------------
-- When a store keeps the image usable
-----------------------------------------------------------------------------------------

/-- The update in place runs and reports success. -/
def UpdateSucceeds (conditions : StoreConditions) (job : StoredJob) : Prop :=
  job.UpdatesInPlace
  ∧ conditions.update.opens = true
  ∧ (conditions.update.Takes (8 + (encodeTable job.entries).length)
    ∨ conditions.update.reports = false)

/-- The rewrite reaches the disk to its last byte. -/
def RewriteTaken (conditions : StoreConditions) (job : StoredJob) : Prop :=
  conditions.rewrite.opens = true
  ∧ conditions.rewrite.Takes (encodeImage (job.image conditions.now)).length

instance (conditions : StoreConditions) (job : StoredJob)
    : Decidable (job.UpdateSucceeds conditions) := by
  unfold UpdateSucceeds
  infer_instance

/-- A store with an index keeps the image if the update succeeds, or the file is not opened
for the rewrite, or the rewrite reaches the disk whole. An update without an index, which
a job without chunks makes, may not touch the file.
-/
def KeepsImage (conditions : StoreConditions) (job : StoredJob) : Prop :=
  if job.UpdateSucceeds conditions then job.imageIndex ≠ {}
  else
    job.RewriteTaken conditions
    ∨ conditions.rewrite.opens = false
      ∧ (job.imageIndex ≠ {} ∨ 0 < job.engine.nChunks ∨ conditions.update.opens = false)

/-- The update in place succeeds as described, and leaves an accepted file unless it writes
without an index. An image that is forgotten is not updated.
-/
theorem HasImage.update (image : job.HasImage) (conditions : StoreConditions)
    : let updated :=
        if job.engine.imageStored then
          Disk.updateImageChunksOnDisk job.imageIndex job.entries conditions.now
            conditions.update job.file
        else (false, job.file)
      (updated.1 = true ↔ job.UpdateSucceeds conditions)
        ∧ (job.imageIndex ≠ {} ∨ 0 < job.engine.nChunks ∨ conditions.update.opens = false →
          job.Accepts updated.2) := by
  intro updated
  obtain ⟨content, file⟩ : ∃ content, job.file = some content := by
    obtain ⟨img, index, accepted, _⟩ := image.usable
    cases file : job.file with
    | none => simp [file, Disk.readImageFromDisk] at accepted
    | some content => exact ⟨content, rfl⟩
  by_cases inPlace : job.UpdatesInPlace
  · have counted := inPlace.2.1
    have runs : updated = Disk.updateImageChunksOnDisk job.imageIndex job.entries
        conditions.now conditions.update job.file := if_pos inPlace.1
    rw [runs]
    obtain ⟨timeAt, tableAt, time_at, table_at⟩
        : ∃ timeAt tableAt : Nat,
            job.imageIndex.updatedAtOffset = timeAt ∧ job.imageIndex.chunksOffset = tableAt := by
      obtain unindexed | ⟨img, _, indexed⟩ := image.indexed
      · exact ⟨0, 0, by rw [unindexed]; rfl, by rw [unindexed]; rfl⟩
      · exact ⟨_, _, by rw [indexed]; rfl, by rw [indexed]; rfl⟩
    constructor
    · have returned := Disk.updateImageChunksOnDisk_returned job.entries conditions.now
        conditions.update time_at table_at counted content
      rw [← file] at returned
      exact returned.trans (and_iff_right inPlace).symm
    · obtain unindexed | ⟨img, stored, indexed⟩ := image.indexed
      · rintro (indexed | chunks | closed)
        · exact absurd unindexed indexed
        · rw [unindexed, image.typed.entries_length] at counted
          exact absurd counted (Nat.ne_of_lt chunks)
        · have same : (Disk.updateImageChunksOnDisk job.imageIndex job.entries
              conditions.now conditions.update job.file).2 = job.file := by
            simp only [file, Disk.updateImageChunksOnDisk, if_neg (not_not.mpr counted),
              closed, Bool.false_eq_true, if_false]
          rw [same]
          exact image.usable
      · intro _
        have accepts := image.usable
        rw [Usable, stored] at accepts
        obtain ⟨time, between, grows, left⟩ := Disk.exists_updated img conditions.now
          conditions.update (image.typed.growsTo_of_accepts accepts)
        simp only [stored, indexed, left]
        exact image.typed.accepts_encodeImage grows
  · have same := updated_of_not_updatesInPlace inPlace conditions.now conditions.update
    simp only [updated, same]
    exact ⟨iff_of_false Bool.false_ne_true fun succeeds => inPlace succeeds.1,
      fun _ => image.usable⟩

/-- A rewrite leaves an accepted file exactly if it reaches the disk whole. -/
theorem Typed.accepts_rewrite_iff (typed : job.Typed) {conditions : StoreConditions}
    (opens : conditions.rewrite.opens = true)
    : job.Accepts
          (some (reach conditions.rewrite.room (encodeImage (job.image conditions.now))))
        ↔ job.RewriteTaken conditions := by
  have length := reach_length_eq_iff conditions.rewrite.room
    (encodeImage (job.image conditions.now))
  rw [RewriteTaken, Device.Takes, ← length]
  have part := reach_prefix conditions.rewrite.room (encodeImage (job.image conditions.now))
  constructor
  · rintro ⟨img, index, accepted, _⟩
    refine ⟨opens, ?_⟩
    by_contra cut
    have short := Nat.lt_of_le_of_ne part.length_le cut
    rw [Disk.readImageFromDisk_truncated _ _ part short] at accepted
    cases accepted
  · rintro ⟨_, whole⟩
    rw [part.eq_of_length whole]
    exact typed.accepts_encodeImage (growsTo_self _)

-----------------------------------------------------------------------------------------
-- Engines with an image
-----------------------------------------------------------------------------------------

/-- An engine has the image that it was loaded from. -/
theorem hasImage_of_loaded (shared : Shared) {file : Option Bytes} {img : Disk.JobImage}
    {index : JobImageIndex} (url : Disk.StringField)
    (accepted : Disk.readImageFromDisk {} file = .ok (img, index))
    : (ofOrigin shared file (.loaded img url)).HasImage := by
  have living := living_ofOrigin shared file (.loaded img url)
  have scanned : (ofOrigin shared file (.loaded img url)).scan
      = img.chunks.items.map ChunkState.ofDisk := by
    apply List.ext_getElem?
    intro position
    cases found : img.chunks.items[position]? with
    | none =>
        simp [scan, ofOrigin, engine, DownloadEngine.ofImage, JobImage.ofDisk, found]
    | some entry =>
        have received : wrap entry.downloaded.toNat = entry.downloaded.toNat :=
          wrap_of_lt entry.downloaded.toNat_lt
        simp [scan, ofOrigin, engine, DownloadEngine.ofImage, JobImage.ofDisk, found,
          DownloadEngine.imageChunk, ChunkInfo.toState, ChunkInfo.getReceivedSize,
          ChunkState.ofDisk, received]
  have entries : (ofOrigin shared file (.loaded img url)).entries.items = img.chunks.items := by
    rw [living.toTyped.entries_items, scanned, List.map_map]
    calc img.chunks.items.map (ChunkState.toDisk ∘ ChunkState.ofDisk)
        = img.chunks.items.map id := List.map_congr_left fun entry _ => by
          simp [ChunkState.toDisk, ChunkState.ofDisk]
      _ = img.chunks.items := List.map_id _
  refine ⟨living.toTyped, rfl, ⟨img, index, accepted, ?_⟩, Or.inl rfl⟩
  rw [living.toTyped.within_iff, entries]
  exact growsTo_self _

/-- An engine has the image that its last store left current. -/
theorem hasImage_of_current {stored : StoredFields} (living : job.Living)
    (phase : job.Phase (some stored)) (current : job.Current) : job.HasImage := by
  cases phase with
  | written img file indexed kept counted filePath url fileSize ranged =>
      have shows_ := (current_iff_of_file file).mp current
      have chunks : img.chunks.items.map ChunkState.ofDisk = job.scan :=
        congrArg JobImage.chunks shows_.engine
      have entries : img.chunks.items = job.entries.items := by
        rw [living.toTyped.entries_items, ← chunks, List.map_map]
        calc img.chunks.items
            = img.chunks.items.map id := (List.map_id _).symm
          _ = img.chunks.items.map (ChunkState.toDisk ∘ ChunkState.ofDisk) :=
            List.map_congr_left fun entry _ => by simp [ChunkState.toDisk, ChunkState.ofDisk]
      refine ⟨living.toTyped, living.writer, ?_, Or.inr ⟨img, file, indexed⟩⟩
      rw [Usable, file]
      exact living.toTyped.accepts_encodeImage (entries ▸ growsTo_self _)

/-- A store that fails or is cut off at any point leaves a usable image if it keeps the image
in the sense above, and, with an index or a chunk, only then.
-/
theorem store_usable (conditions : StoreConditions) (image : job.HasImage)
    (taken : job.store conditions = some after)
    : (job.KeepsImage conditions → after.Usable)
      ∧ (job.imageIndex ≠ {} ∨ 0 < job.engine.nChunks →
        after.Usable → job.KeepsImage conditions) := by
  obtain ⟨succeeded, accepts⟩ := image.update conditions
  simp only [store, if_pos image.writer] at taken
  generalize (if job.engine.imageStored then
      Disk.updateImageChunksOnDisk job.imageIndex job.entries conditions.now
        conditions.update job.file
    else (false, job.file)) = update at succeeded accepts taken
  obtain ⟨updated, file⟩ := update
  cases updated with
  | true =>
      have succeeds := succeeded.mp rfl
      cases taken
      rw [KeepsImage, if_pos succeeds]
      constructor
      · exact fun indexed => accepts (Or.inl indexed)
      · rintro (indexed | chunks) _ unindexed
        · exact indexed unindexed
        · have counted := succeeds.1.2.1
          rw [unindexed, image.typed.entries_length] at counted
          exact absurd counted (Nat.ne_of_lt chunks)
  | false =>
      have fails : ¬ job.UpdateSucceeds conditions :=
        fun succeeds => Bool.false_ne_true (succeeded.mpr succeeds)
      rw [KeepsImage, if_neg fails]
      cases opens : conditions.rewrite.opens with
      | true =>
          obtain ⟨rewritten, _⟩ := Disk.writeImageToDisk_of_opens (job.image conditions.now)
            conditions.rewrite opens job.imageIndex file
          have accepted := image.typed.accepts_rewrite_iff opens
          rw [← rewritten] at accepted
          cases taken
          constructor
          · rintro (whole | ⟨closed, _⟩)
            · exact accepted.mpr whole
            · exact Bool.noConfusion closed
          · exact fun _ usable => Or.inl (accepted.mp usable)
      | false =>
          have unchanged : Disk.writeImageToDisk (job.image conditions.now) conditions.rewrite
              job.imageIndex file
              = { returned := false, index := job.imageIndex, file } := by
            simp [Disk.writeImageToDisk, opens]
          rw [unchanged] at taken
          cases taken
          constructor
          · rintro (⟨open_, _⟩ | ⟨_, untouched⟩)
            · exact Bool.noConfusion (open_.symm.trans opens)
            · exact accepts untouched
          · rintro (indexed | chunks) _
            · exact Or.inr ⟨rfl, Or.inl indexed⟩
            · exact Or.inr ⟨rfl, Or.inr (Or.inl chunks)⟩

/-- The job of an image with one chunk, loaded from its file. -/
def loadedJob : StoredJob :=
  ofOrigin Sys.twoChunks.shared (some (encodeImage (Disk.oneChunkImage 5)))
    (.loaded (Disk.oneChunkImage 5) .empty)

theorem hasImage_loadedJob : loadedJob.HasImage :=
  hasImage_of_loaded _ _ (Disk.readImageFromDisk_encodeImage (Disk.oneChunkImage 5) {})

/-- The first store of the loaded job. -/
theorem store_usable_loaded
    : ∃ after : StoredJob,
        loadedJob.store { now := 7 } = some after
        ∧ (loadedJob.KeepsImage { now := 7 } → after.Usable)
        ∧ (loadedJob.imageIndex ≠ {} ∨ 0 < loadedJob.engine.nChunks →
          after.Usable → loadedJob.KeepsImage { now := 7 }) :=
  ⟨_, store_rewrites rfl (by decide) 7,
    store_usable { now := 7 } hasImage_loadedJob (store_rewrites rfl (by decide) 7)⟩

/-- The rewrite is cut off after it truncated the file. -/
theorem image_lost
    : ¬ ∀ (job after : StoredJob) (conditions : StoreConditions),
          job.HasImage → job.store conditions = some after → after.Usable := by
  intro usable
  have rewrites : ¬ loadedJob.UpdatesInPlace := by decide
  have unchanged := updated_of_not_updatesInPlace rewrites 7 .working
  obtain ⟨after, taken, file⟩
      : ∃ after : StoredJob,
          loadedJob.store { now := 7, rewrite := { room := some 0 } } = some after
            ∧ after.file = some [] := by
    obtain ⟨truncated, _⟩ := Disk.writeImageToDisk_of_opens (loadedJob.image 7)
      { room := some 0 } rfl loadedJob.imageIndex loadedJob.file
    have writer : loadedJob.engine.writer = true := rfl
    simp only [store, if_pos writer, unchanged, Bool.false_eq_true, if_false]
    exact ⟨_, rfl, truncated⟩
  obtain ⟨img, index, accepted, _⟩ := usable loadedJob after _ hasImage_loadedJob taken
  rw [file] at accepted
  cases accepted

end StoredJob

end Muld
