import Muld.ResumePlan
import Muld.UnversionedImages

/-! The plan of an engine against the plan of an engine that is loaded from its stored image.
An image holds what the plan depends on, so both are the same wherever the store leaves an
image of the engine.
-/

namespace Muld

open FileStreams Tilings
open Disk (StringField ChunkTable JobImageIndex encodeImage)

-----------------------------------------------------------------------------------------
-- The plan depends on the entries of the chunks
-----------------------------------------------------------------------------------------

/-- What `BuildPendingWork` leaves behind. -/
structure Plan where
  pendingWork : List WorkItem
  nDownloadedChunks : Nat
  nTotalReceivedBytes : Nat
deriving DecidableEq, Repr

def DownloadEngine.plan (engine : DownloadEngine) : Plan where
  pendingWork := engine.buildPendingWork.pendingWork
  nDownloadedChunks := engine.buildPendingWork.nDownloadedChunks
  nTotalReceivedBytes := engine.buildPendingWork.nTotalReceivedBytes

/-- A function of the entry of a chunk agrees on chunks with the same entries, by induction
on the chunks.
-/
theorem map_eq_of_toState {β : Type} {value : ChunkInfo → β}
    (reads : ∀ left right : ChunkInfo, left.toState = right.toState → value left = value right)
    {chunks others : List ChunkInfo}
    (same : chunks.map ChunkInfo.toState = others.map ChunkInfo.toState)
    : chunks.map value = others.map value := by
  induction chunks generalizing others with
  | nil =>
      obtain rfl : others = [] := by simpa using same.symm
      rfl
  | cons head rest ih =>
      cases others with
      | nil => cases same
      | cons other more =>
          obtain ⟨first, later⟩ := List.cons.inj same
          rw [List.map_cons, List.map_cons, reads head other first, ih later]

theorem isFinished_of_toState {left right : ChunkInfo} (same : left.toState = right.toState)
    : left.isFinished = right.isFinished := by
  obtain ⟨startRange, endRange, received⟩ := ChunkState.mk.inj same
  simp only [ChunkInfo.getReceivedSize] at received
  rw [Bool.eq_iff_iff, ChunkInfo.isFinished_iff, ChunkInfo.isFinished_iff]
  simp only [ChunkInfo.getTotalSize, startRange, endRange, received]

/-- By induction on the chunks. -/
theorem pendingItems_of_toState (chunkId workId : Nat) {chunks others : List ChunkInfo}
    (same : chunks.map ChunkInfo.toState = others.map ChunkInfo.toState)
    : pendingItems chunkId workId chunks = pendingItems chunkId workId others := by
  induction chunks generalizing chunkId workId others with
  | nil =>
      obtain rfl : others = [] := by simpa using same.symm
      rfl
  | cons head rest ih =>
      cases others with
      | nil => cases same
      | cons other more =>
          obtain ⟨first, later⟩ := List.cons.inj same
          obtain ⟨startRange, endRange, received⟩ := ChunkState.mk.inj first
          have item : head.missing workId chunkId = other.missing workId chunkId := by
            simp only [ChunkInfo.missing, startRange, endRange, received]
          rw [pendingItems, pendingItems, isFinished_of_toState first, item, ih _ _ later,
            ih _ _ later]

namespace DownloadEngine

variable {engine : DownloadEngine} {image : JobImage}

/-- An engine that is loaded from the entries of another one has its entries. -/
theorem ofImage_toState (representable : engine.Representable)
    (chunks : image.chunks = engine.chunksInfo.map ChunkInfo.toState)
    : (ofImage image).chunksInfo.map ChunkInfo.toState
        = engine.chunksInfo.map ChunkInfo.toState := by
  apply List.ext_getElem
  · simp [ofImage, chunks]
  · intro index _ inside
    rw [List.length_map] at inside
    have small := (representable.chunks _ (List.getElem_mem inside)).2.2
    simp [ofImage, chunks, imageChunk, ChunkInfo.toState, ChunkInfo.getReceivedSize,
      wrap_of_lt small]

/-- An engine that is loaded from the entries of another one has its plan. -/
theorem ofImage_plan (representable : engine.Representable)
    (partitioned : engine.Partitioned) (resumes : engine.ResumesMissing)
    (chunks : image.chunks = engine.chunksInfo.map ChunkInfo.toState)
    : (ofImage image).plan = engine.plan := by
  have entries := ofImage_toState representable chunks
  have finished : ((ofImage image).chunksInfo.map ChunkInfo.isFinished)
      = engine.chunksInfo.map ChunkInfo.isFinished :=
    map_eq_of_toState (fun _ _ => isFinished_of_toState) entries
  have count : finishedCount (ofImage image).chunksInfo = finishedCount engine.chunksInfo := by
    have counts := congrArg (List.countP id) finished
    rwa [List.countP_map, List.countP_map] at counts
  have downloaded : image.chunks.map ChunkState.downloaded
      = engine.chunksInfo.map ChunkInfo.received := by
    rw [chunks, List.map_map]
    rfl
  have small := Nat.lt_of_le_of_lt partitioned.received_le representable.fileSize
  have received : (ofImage image).nTotalReceivedBytes = engine.nTotalReceivedBytes := by
    have resumed : engine.nTotalReceivedBytes = (engine.chunksInfo.map ChunkInfo.received).sum :=
      resumes.nTotalReceivedBytes
    rw [resumed, ← wrap_of_lt small, ← downloaded]
    rfl
  have pending : (ofImage image).buildPendingWork.pendingWork
      = engine.buildPendingWork.pendingWork :=
    pendingItems_of_toState 0 0 entries
  rw [plan, plan, Plan.mk.injEq]
  exact ⟨pending, count, received⟩

/-- And it plans exactly the missing bytes, too. -/
theorem ofImage_partitioned (representable : engine.Representable)
    (partitioned : engine.Partitioned) (fileSize : image.fileSize = engine.fileSize)
    (chunks : image.chunks = engine.chunksInfo.map ChunkInfo.toState)
    : (ofImage image).Partitioned := by
  have entries := ofImage_toState representable chunks
  have spans : (ofImage image).chunksInfo.map ChunkInfo.span
      = engine.chunksInfo.map ChunkInfo.span := by
    refine map_eq_of_toState (fun left right same => ?_) entries
    obtain ⟨startRange, endRange, _⟩ := ChunkState.mk.inj same
    simp only [ChunkInfo.span, ChunkInfo.getTotalSize, startRange, endRange]
  constructor
  · have size : (ofImage image).fileSize = engine.fileSize := fileSize
    rw [spans, size]
    exact partitioned.tiles
  · intro chunk member
    have present := List.mem_map_of_mem (f := ChunkInfo.toState) member
    rw [entries] at present
    obtain ⟨old, inside, same⟩ := List.mem_map.mp present
    obtain ⟨startRange, endRange, received⟩ := ChunkState.mk.inj same
    have within := partitioned.received old inside
    simp only [ChunkInfo.getReceivedSize] at received
    simpa only [ChunkInfo.getTotalSize, startRange, endRange, received] using within

end DownloadEngine

namespace StoredJob

variable {job before after : StoredJob}

-----------------------------------------------------------------------------------------
-- The image file over the life of an engine
-----------------------------------------------------------------------------------------

/-- What `StoreUnlocked` does to the index and the file while the disk takes everything. -/
def storeFiles (img : Disk.JobImage) (job : StoredJob) : JobImageIndex × Option Bytes :=
  let (updated, file) :=
    if job.engine.imageStored then
      Disk.updateImageChunksOnDisk job.imageIndex img.chunks img.updatedAt .working job.file
    else (false, job.file)
  if updated then (job.imageIndex, file)
  else
    let written := Disk.writeImageToDisk img .working job.imageIndex file
    (written.index, written.file)

/-- What no method changes except a store or a cleanup. -/
structure SameImage (before after : StoredJob) : Prop where
  imageIndex : after.imageIndex = before.imageIndex
  file : after.file = before.file
  imageStored : after.engine.imageStored = before.engine.imageStored

/-- A job over the life of its engine, with everything but the image left open: whatever
the threads of the engine do between its stores, and whatever a store scans.
-/
inductive Filed : StoredJob → Prop
  | constructed (shared : Shared) (file : Option Bytes) (origin : Origin)
    : Filed (ofOrigin shared file origin)
  | moved {before after : StoredJob} (earlier : Filed before) (same : SameImage before after)
      (fileSize : after.engine.fileSize = before.engine.fileSize)
    : Filed after
  | stored {before after : StoredJob} (img : Disk.JobImage) (earlier : Filed before)
      (sameSize : img.fileSize.toNat = before.engine.fileSize)
      (files : storeFiles img before = (after.imageIndex, after.file))
      (fileSize : after.engine.fileSize = before.engine.fileSize)
    : Filed after
  /-- A store that failed leaves any file, and the next one rewrites it. -/
  | failed {before after : StoredJob} (earlier : Filed before)
      (unstored : after.engine.imageStored = false)
      (fileSize : after.engine.fileSize = before.engine.fileSize)
    : Filed after
  | cleaned {before after : StoredJob} (earlier : Filed before)
      (imageIndex : after.imageIndex = before.imageIndex) (removed : after.file = none)
      (imageStored : after.engine.imageStored = before.engine.imageStored)
      (fileSize : after.engine.fileSize = before.engine.fileSize)
    : Filed after

/-- What a store finds on disk. -/
inductive Indexed (job : StoredJob) : Prop
  | unstored (unstored : job.engine.imageStored = false)
  | unindexed (unindexed : job.imageIndex = {})
  | written (img : Disk.JobImage) (indexed : job.imageIndex = Disk.imageIndex img)
      (file : job.file = none ∨ job.file = some (encodeImage img))
      (fileSize : img.fileSize.toNat = job.engine.fileSize)

/-- An update in place with the index of the file keeps it the index of the file. -/
theorem imageIndex_updated {img : Disk.JobImage} {chunks : ChunkTable} (updatedAt : UInt64)
    (counted : chunks.items.length = img.chunks.items.length)
    : Disk.imageIndex { img with updatedAt, chunks } = Disk.imageIndex img := by
  simp only [Disk.imageIndex, Disk.encodeStrings, Disk.encodeHead, counted, List.length_append,
    Disk.encodeUInt64_length]

/-- A store with no file to update in place rewrites it. -/
theorem storeFiles_rewrites (img : Disk.JobImage)
    (rewrites
      : job.engine.imageStored = false
        ∨ job.imageIndex.chunkCount ≠ img.chunks.items.length
        ∨ job.file = none)
    : storeFiles img job = (Disk.imageIndex img, some (encodeImage img)) := by
  have unchanged
      : (if job.engine.imageStored then
            Disk.updateImageChunksOnDisk job.imageIndex img.chunks img.updatedAt .working job.file
          else (false, job.file))
        = (false, job.file) := by
    rcases rewrites with unstored | differs | missing
    · rw [unstored]
      rfl
    · simp only [Disk.updateImageChunksOnDisk, if_pos differs, ite_self]
    · simp only [Disk.updateImageChunksOnDisk, missing, ite_self]
  simp only [storeFiles, unchanged, Disk.writeImageToDisk_working]
  rfl

theorem storeFiles_updates {img old : Disk.JobImage} (stored : job.engine.imageStored = true)
    (indexed : job.imageIndex = Disk.imageIndex old) (file : job.file = some (encodeImage old))
    (counted : img.chunks.items.length = old.chunks.items.length)
    : storeFiles img job
        = (Disk.imageIndex old,
            some (encodeImage { old with updatedAt := img.updatedAt, chunks := img.chunks })) := by
  simp only [storeFiles, if_pos stored, file, indexed,
    Disk.updateImageChunksOnDisk_working old img.chunks img.updatedAt counted, if_true]

theorem storeFiles_unindexed {img : Disk.JobImage} {content : Bytes}
    (stored : job.engine.imageStored = true) (unindexed : job.imageIndex = {})
    (file : job.file = some content) (empty : img.chunks.items = [])
    : storeFiles img job = ({}, some (Disk.encodeSize 0 ++ content.drop 8)) := by
  simp only [storeFiles, if_pos stored, file, unindexed,
    Disk.updateImageChunksOnDisk_unindexed empty img.updatedAt content, if_true]

/-- A store leaves an image with the index of it, or the unfilled index. -/
theorem Indexed.stored (indexed : before.Indexed) (img : Disk.JobImage)
    (sameSize : img.fileSize.toNat = before.engine.fileSize)
    (files : storeFiles img before = (after.imageIndex, after.file))
    (fileSize : after.engine.fileSize = before.engine.fileSize)
    : after.Indexed := by
  have rewritten : storeFiles img before = (Disk.imageIndex img, some (encodeImage img)) →
      after.Indexed := by
    intro rewrites
    obtain ⟨index, file⟩ := Prod.mk.inj (files.symm.trans rewrites)
    exact .written img index (Or.inr file) (sameSize.trans fileSize.symm)
  by_cases rewrites : before.engine.imageStored = false
      ∨ before.imageIndex.chunkCount ≠ img.chunks.items.length
      ∨ before.file = none
  · exact rewritten (storeFiles_rewrites img rewrites)
  · simp only [not_or, ne_eq, not_not, Bool.not_eq_false] at rewrites
    obtain ⟨kept, counted, exists_⟩ := rewrites
    cases indexed with
    | unstored unstored =>
        rw [unstored] at kept
        contradiction
    | unindexed unindexed =>
        obtain ⟨content, file⟩ := Option.ne_none_iff_exists'.mp exists_
        have empty : img.chunks.items = [] :=
          List.eq_nil_of_length_eq_zero (by rw [← counted, unindexed])
        have zeroed := storeFiles_unindexed kept unindexed file empty
        exact .unindexed (Prod.mk.inj (files.symm.trans zeroed)).1
    | written old indexed file oldSize =>
        have file : before.file = some (encodeImage old) := file.resolve_left exists_
        have same : img.chunks.items.length = old.chunks.items.length := by
          rw [← counted, indexed]
          rfl
        have updates := storeFiles_updates kept indexed file same
        obtain ⟨index, content⟩ := Prod.mk.inj (files.symm.trans updates)
        have next := imageIndex_updated img.updatedAt same
        exact .written { old with updatedAt := img.updatedAt, chunks := img.chunks }
          (index.trans next.symm) (Or.inr content) (oldSize.trans fileSize.symm)

/-- By induction on the life of the engine. -/
theorem Filed.indexed (filed : job.Filed) : job.Indexed := by
  induction filed with
  | constructed shared file origin => exact .unindexed (by cases origin <;> rfl)
  | @moved before after _ same fileSize indexed =>
      cases indexed with
      | unstored unstored => exact .unstored (same.imageStored.trans unstored)
      | unindexed unindexed => exact .unindexed (same.imageIndex.trans unindexed)
      | written img indexed file size =>
          exact .written img (same.imageIndex.trans indexed)
            (file.imp same.file.trans same.file.trans) (size.trans fileSize.symm)
  | stored img _ sameSize files fileSize indexed =>
      exact indexed.stored img sameSize files fileSize
  | failed _ unstored _ _ => exact .unstored unstored
  | @cleaned before after _ imageIndex removed imageStored fileSize indexed =>
      cases indexed with
      | unstored unstored => exact .unstored (imageStored.trans unstored)
      | unindexed unindexed => exact .unindexed (imageIndex.trans unindexed)
      | written img indexed file size =>
          exact .written img (imageIndex.trans indexed) (Or.inl removed)
            (size.trans fileSize.symm)

/-- A store while the disk takes everything does this to the files. -/
theorem storeFiles_of_store {now : UInt64} (taken : job.store { now } = some after)
    : storeFiles (job.image now) job = (after.imageIndex, after.file) := by
  rw [store] at taken
  split at taken
  case isFalse => contradiction
  rw [storeFiles]
  cases stored : job.engine.imageStored with
  | false =>
      simp only [stored, Bool.false_eq_true, if_false] at taken ⊢
      cases taken
      rfl
  | true =>
      simp only [stored, if_true, image] at taken ⊢
      generalize Disk.updateImageChunksOnDisk job.imageIndex job.entries now .working job.file
        = update at taken ⊢
      obtain ⟨updated, file⟩ := update
      cases updated <;> cases taken <;> rfl

-----------------------------------------------------------------------------------------
-- Every run of the system has such a job
-----------------------------------------------------------------------------------------

/-- The image of the job with the chunks of a scan. -/
def scannedImage (scan : List ChunkState) (job : StoredJob) : Disk.JobImage :=
  { job.image 0 with chunks := .ofList (scan.map ChunkState.toDisk) }

/-- The files after a store of a scan. -/
theorem Filed.store_scan (filed : job.Filed) (representable : job.engine.Representable)
    (scan : List ChunkState) {shared : Shared}
    (fileSize : shared.engine.fileSize = job.engine.fileSize)
    : ∃ next : StoredJob, next.Filed ∧ next.shared = shared := by
  let files := storeFiles (job.scannedImage scan) job
  refine ⟨{ job with shared, imageIndex := files.1, file := files.2 }, ?_, rfl⟩
  refine filed.stored (job.scannedImage scan) ?_ rfl fileSize
  exact UInt64.toNat_ofNat_of_lt' representable.fileSize

/-- A job goes on with any step that does not touch the image. -/
theorem Filed.move (filed : job.Filed) {shared : Shared}
    (imageStored : shared.engine.imageStored = job.engine.imageStored)
    (fileSize : shared.engine.fileSize = job.engine.fileSize)
    : ∃ next : StoredJob, next.Filed ∧ next.shared = shared :=
  ⟨{ job with shared }, filed.moved ⟨rfl, rfl, imageStored⟩ fileSize, rfl⟩

end StoredJob

/-- A worker changes the record of a stored image where it stores one. -/
theorem Worker.Step.imageStored {shared shared' : Shared} {worker next : Worker}
    {label : WorkerLabel} (taken : Worker.Step shared worker label shared' next)
    : shared'.engine.imageStored = shared.engine.imageStored
      ∨ ∃ scan outcome, shared' = shared.storeImage scan outcome := by
  cases taken
  case store outcome _ _ => exact Or.inr ⟨_, _, rfl⟩
  all_goals exact Or.inl (by first | rfl | simp)

theorem Call.Step.imageStored {index : Nat} {shared shared' : Shared} {call next : Call}
    {label : CallLabel} {spawned : List Worker}
    (taken : Call.Step index shared call label shared' next spawned)
    : shared'.engine.imageStored = shared.engine.imageStored
      ∨ ∃ scan outcome, shared' = shared.storeImage scan outcome := by
  cases taken
  case store scan outcome _ => exact Or.inr ⟨_, _, rfl⟩
  case storeTerminate scan outcome _ => exact Or.inr ⟨_, _, rfl⟩
  all_goals exact Or.inl (by first | rfl | simp)

namespace Sys

variable {meets : Sys → Action → Sys → Prop} {start sys : Sys} {job : StoredJob}

/-- A step of the system is a step of the life of its job. -/
theorem filed_next (filed : job.Filed) (representable : job.engine.Representable)
    {shared : Shared} (fileSize : shared.engine.fileSize = job.engine.fileSize)
    (step
      : shared.engine.imageStored = job.engine.imageStored
        ∨ ∃ scan outcome, shared = job.shared.storeImage scan outcome)
    : ∃ next : StoredJob, next.Filed ∧ next.shared = shared := by
  rcases step with same | ⟨scan, outcome, rfl⟩
  · exact filed.move same fileSize
  · exact filed.store_scan representable scan fileSize

/-- The state is the state of a job with its files. -/
def HasFiles (sys : Sys) : Prop :=
  ∃ job : StoredJob, job.Filed ∧ job.shared = sys.shared

theorem ReachableWhile.hasFiles (constructed : start.Constructed)
    (reached : ReachableWhile meets start sys)
    : sys.HasFiles := by
  refine invariant reached ?_ ?_ ?_ ?_
  · cases constructed with
    | fresh maxConnections fileSize ranged nChunks file maxThreads =>
        let shared := (Sys.fresh maxConnections.toInt fileSize.toNat ranged nChunks.val file
          maxThreads.toInt).shared
        exact ⟨_, .constructed shared none
          (.fresh .empty .empty maxConnections fileSize ranged nChunks 0), rfl⟩
    | loaded image file maxThreads =>
        let shared := (Sys.loaded (.ofDisk image) file maxThreads.toInt).shared
        exact ⟨_, .constructed shared none (.loaded image .empty), rfl⟩
  · rintro sys index worker next label shared earlier _ ⟨job, filed, same⟩ _ taken _
    have representable : job.engine.Representable := by
      rw [StoredJob.engine, same]
      exact earlier.representable constructed.representable
    rw [← same] at taken
    exact filed_next filed representable taken.fileSize taken.imageStored
  · rintro sys index call next label shared spawned earlier _ ⟨job, filed, same⟩ _ taken _
    have representable : job.engine.Representable := by
      rw [StoredJob.engine, same]
      exact earlier.representable constructed.representable
    rw [← same] at taken
    exact filed_next filed representable taken.fileSize taken.imageStored
  · intro sys api dispatched _ exists_
    exact exists_

end Sys

namespace StoredJob

variable {job after : StoredJob}

-----------------------------------------------------------------------------------------
-- The plan after a reload
-----------------------------------------------------------------------------------------

/-- The image that a store leaves is accepted, and the engine loaded from it plans exactly
the missing bytes and has the plan of this one.
-/
def ReloadsPlan (now : UInt64) (job : StoredJob) : Prop :=
  ∀ after : StoredJob,
    job.store { now } = some after
    → ∃ (img : Disk.JobImage) (index : JobImageIndex),
        Disk.readImageFromDisk {} after.file = .ok (img, index)
        ∧ (DownloadEngine.ofImage (.ofDisk img)).ResumesMissing
        ∧ (DownloadEngine.ofImage (.ofDisk img)).plan = job.engine.plan

/-- A store of the job updates its file with an index that was never filled. -/
def ZeroesVersion (job : StoredJob) : Prop :=
  job.engine.writer = true ∧ job.UpdatesInPlace ∧ job.imageIndex = {}

/-- Behind its first eight bytes the file holds a string and a table without entries. -/
def HoldsEmptyTable (job : StoredJob) : Prop :=
  ∃ (content : Bytes) (url : StringField) (rest : Bytes),
    job.file = some content
    ∧ content.drop 8 = Disk.encodeString url ++ (Disk.encodeSize 0 ++ rest)

/-- An image with the chunks and the size of the engine gives its plan back. -/
theorem reloads_image {img : Disk.JobImage} (representable : job.engine.Representable)
    (partitioned : job.engine.Partitioned) (resumes : job.engine.ResumesMissing)
    (fileSize : img.fileSize.toNat = job.engine.fileSize)
    (chunks : img.chunks.items.map ChunkState.ofDisk = job.scan)
    : (DownloadEngine.ofImage (.ofDisk img)).ResumesMissing
      ∧ (DownloadEngine.ofImage (.ofDisk img)).plan = job.engine.plan := by
  have image_chunks : (JobImage.ofDisk img).chunks
      = job.engine.chunksInfo.map ChunkInfo.toState := chunks
  have tiled := DownloadEngine.ofImage_partitioned representable partitioned fileSize image_chunks
  have constructed := Sys.Constructed.loaded img (fun _ => 0) 0
  have reached : Sys.Reachable (Sys.loaded (.ofDisk img) (fun _ => 0) (0 : Int32).toInt)
      (Sys.loaded (.ofDisk img) (fun _ => 0) (0 : Int32).toInt) := .start
  exact ⟨Sys.ReachableWhile.resumesMissing constructed reached rfl tiled,
    DownloadEngine.ofImage_plan representable partitioned resumes image_chunks⟩

/-- A plan without work and without finished chunks is one of no chunks. -/
theorem chunksInfo_eq_nil {engine : DownloadEngine} (none_left : engine.plan.pendingWork = [])
    (none_done : engine.plan.nDownloadedChunks = 0) : engine.chunksInfo = [] := by
  have pending : pendingItems 0 0 engine.chunksInfo = [] := none_left
  have done : finishedCount engine.chunksInfo = 0 := none_done
  cases chunks : engine.chunksInfo with
  | nil => rfl
  | cons head rest =>
      rw [chunks] at pending done
      cases finished : head.isFinished with
      | true => simp [finishedCount, finished] at done
      | false => simp [pendingItems, finished] at pending

/-- A store that does not zero the version leaves an image of the engine. -/
theorem reloadsPlan_of_keeps (filed : job.Filed) (representable : job.engine.Representable)
    (partitioned : job.engine.Partitioned) (resumes : job.engine.ResumesMissing) (now : UInt64)
    (keeps : ¬ job.ZeroesVersion)
    : job.ReloadsPlan now := by
  intro after taken
  have writer : job.engine.writer = true := by
    by_contra closed
    rw [store, if_neg closed] at taken
    contradiction
  have files := storeFiles_of_store taken
  have scanned : (job.image now).chunks.items.map ChunkState.ofDisk = job.scan :=
    ofDisk_entries representable
  have size : (job.image now).fileSize.toNat = job.engine.fileSize :=
    UInt64.toNat_ofNat_of_lt' representable.fileSize
  have reloads : ∀ img : Disk.JobImage,
      after.file = some (encodeImage img) → img.fileSize.toNat = job.engine.fileSize →
      img.chunks.items.map ChunkState.ofDisk = job.scan →
      ∃ (img : Disk.JobImage) (index : JobImageIndex),
        Disk.readImageFromDisk {} after.file = .ok (img, index)
        ∧ (DownloadEngine.ofImage (.ofDisk img)).ResumesMissing
        ∧ (DownloadEngine.ofImage (.ofDisk img)).plan = job.engine.plan := by
    intro img file fileSize chunks
    refine ⟨img, Disk.imageIndex img, ?_, reloads_image representable partitioned resumes
      fileSize chunks⟩
    rw [file, Disk.readImageFromDisk_encodeImage]
  by_cases rewrites : job.engine.imageStored = false
      ∨ job.imageIndex.chunkCount ≠ (job.image now).chunks.items.length
      ∨ job.file = none
  · have rewritten := files.symm.trans (storeFiles_rewrites (job.image now) rewrites)
    exact reloads (job.image now) (Prod.mk.inj rewritten).2 size scanned
  · simp only [not_or, ne_eq, not_not, Bool.not_eq_false] at rewrites
    obtain ⟨stored, counted, exists_⟩ := rewrites
    cases filed.indexed with
    | unstored unstored =>
        rw [unstored] at stored
        contradiction
    | unindexed unindexed =>
        exact absurd ⟨writer, ⟨stored, counted, Option.isSome_iff_ne_none.mpr exists_⟩, unindexed⟩
          keeps
    | written old indexed file oldSize =>
        have file : job.file = some (encodeImage old) := file.resolve_left exists_
        have same : (job.image now).chunks.items.length = old.chunks.items.length := by
          rw [← counted, indexed]
          rfl
        have updated := files.symm.trans (storeFiles_updates stored indexed file same)
        exact reloads _ (Prod.mk.inj updated).2 oldSize scanned

/-- A store that zeroes the version leaves an image exactly if the rest of the file is one of
the older format without entries.
-/
theorem reloadsPlan_of_zeroes (representable : job.engine.Representable)
    (partitioned : job.engine.Partitioned) (resumes : job.engine.ResumesMissing) (now : UInt64)
    (zeroes : job.ZeroesVersion)
    : job.ReloadsPlan now ↔ job.HoldsEmptyTable := by
  obtain ⟨writer, ⟨stored, counted, exists_⟩, unindexed⟩ := zeroes
  obtain ⟨content, file⟩ := Option.isSome_iff_exists.mp exists_
  have empty : job.entries.items = [] :=
    List.eq_nil_of_length_eq_zero (by rw [← counted, unindexed])
  have noChunks : job.engine.chunksInfo = [] := by
    apply List.eq_nil_of_length_eq_zero
    have length := entries_length representable
    rw [empty] at length
    exact length.symm
  have fileSize : job.engine.fileSize = 0 := by
    have whole := partitioned.tiles.sum_size
    rw [noChunks] at whole
    exact whole.symm
  have taken := store_unindexed writer stored empty file unindexed now
  have zeros : Disk.encodeSize 0 = Disk.encodeUInt32 0 ++ Disk.encodeUInt32 0 := by decide
  have accepted := fun img index => Disk.readImageFromDisk_unversioned_iff
    (by decide : (0 : UInt32) ≠ Disk.kVersion) {} index
    (Disk.encodeUInt32 0 ++ content.drop 8) img
  rw [← List.append_assoc, ← zeros] at accepted
  constructor
  · intro reloads
    obtain ⟨img, index, read, _, same⟩ := reloads _ taken
    obtain ⟨_, filePath, url, chunks, tail, starts, rfl⟩ := (accepted img index).mp read
    have unplanned : job.engine.plan.pendingWork = [] ∧ job.engine.plan.nDownloadedChunks = 0 := by
      constructor
      · change pendingItems 0 0 job.engine.chunksInfo = []
        rw [noChunks, pendingItems]
      · change finishedCount job.engine.chunksInfo = 0
        rw [noChunks]
        rfl
    rw [← same] at unplanned
    have noEntries := chunksInfo_eq_nil unplanned.1 unplanned.2
    have none_ : chunks.items = [] := by
      simpa [DownloadEngine.ofImage, JobImage.ofDisk, Disk.unversionedImage] using noEntries
    have front : Disk.encodeSize 0 = Disk.encodeSize filePath.items.length := by
      have fronts := congrArg (List.take 8) starts
      simp only [Disk.encodeUnversioned, Disk.encodeString, List.append_assoc] at fronts
      rwa [List.take_left' (by simp), List.take_left' (by simp)] at fronts
    have noPath : filePath.items = [] := by
      have lengths := congrArg LittleEndian.decode front
      rw [Disk.decode_encodeSize (Nat.zero_le _), Disk.decode_encodeSize filePath.size_le]
        at lengths
      exact List.eq_nil_of_length_eq_zero lengths.symm
    refine ⟨content, url, tail, file, ?_⟩
    have behind := congrArg (List.drop 8) starts
    simpa [Disk.encodeUnversioned, Disk.encodeString, Disk.encodeTable, noPath, none_,
      Disk.encodeChunks, List.drop_left'] using behind
  · rintro ⟨other, url, rest, sameFile, behind⟩ after stored_
    obtain rfl : other = content := Option.some.inj (sameFile.symm.trans file)
    rw [taken] at stored_
    obtain rfl := Option.some.inj stored_
    refine ⟨Disk.unversionedImage .empty url .empty, {}, (accepted _ _).mpr ?_, ?_⟩
    · refine ⟨rfl, .empty, url, .empty, rest, ?_, rfl⟩
      rw [behind]
      simp [Disk.encodeUnversioned, Disk.encodeString, Disk.encodeTable, Disk.SizedList.empty,
        Disk.encodeChunks]
    · refine reloads_image representable partitioned resumes fileSize.symm ?_
      rw [scan, noChunks]
      rfl

/-- In every run, when no worker is scheduled and the chunks tile the file: the plan is
exactly the missing bytes and survives a store and a reload, unless the store zeroes the
version of a file that is not of the older format without entries.
-/
theorem resume_plan {start sys : Sys} (constructed : start.Constructed)
    (reached : Sys.Reachable start sys) (drained : sys.shared.engine.scheduledConnections = 0)
    (partitioned : sys.shared.engine.Partitioned) (filed : job.Filed)
    (shared : job.shared = sys.shared) (now : UInt64)
    : (sys.shared.engine.ResumesMissing ∧ job.ReloadsPlan now)
      ↔ (job.ZeroesVersion → job.HoldsEmptyTable) := by
  have resumes := Sys.ReachableWhile.resumesMissing constructed reached drained partitioned
  have representable := Sys.ReachableWhile.representable constructed.representable reached
  have engine : sys.shared.engine = job.engine := by rw [StoredJob.engine, shared]
  rw [engine] at partitioned resumes representable ⊢
  rw [and_iff_right resumes]
  by_cases zeroes : job.ZeroesVersion
  · rw [reloadsPlan_of_zeroes representable partitioned resumes now zeroes]
    exact ⟨fun holds _ => holds, fun holds => holds zeroes⟩
  · have reloads := reloadsPlan_of_keeps filed representable partitioned resumes now zeroes
    exact iff_of_true reloads fun zeroes_ => absurd zeroes_ zeroes

/-- A fresh job of two chunks. -/
theorem resume_plan_two_chunks
    : Sys.twoChunks.shared.engine.ResumesMissing
      ∧ (ofOrigin Sys.twoChunks.shared none
          .twoChunks).ReloadsPlan 7 :=
  (resume_plan Sys.twoChunks_constructed .start rfl Sys.twoChunks_partitioned
    (.constructed Sys.twoChunks.shared none .twoChunks) rfl 7).mpr
    fun zeroes => absurd zeroes.2.1 (by decide)

/-- The image of an empty job without chunks. -/
def noChunksImage : Disk.JobImage where
  filePath := .empty
  fileSize := 0
  maxConnections := 1
  ranged := true
  url := .empty
  etag := .empty
  lastModified := .empty
  chunks := .empty

/-- The first store of a job without chunks leaves a file that nothing can be loaded from. -/
theorem plan_lost
    : ¬ ∀ (start sys : Sys) (job : StoredJob) (now : UInt64),
        start.Constructed
        → Sys.Reachable start sys
        → sys.shared.engine.scheduledConnections = 0
        → sys.shared.engine.Partitioned
        → job.Filed
        → job.shared = sys.shared
        → sys.shared.engine.ResumesMissing ∧ job.ReloadsPlan now := by
  intro resumes
  let start := Sys.loaded (.ofDisk noChunksImage) (fun _ => 0) (8 : Int32).toInt
  let job := ofOrigin start.shared (some (encodeImage noChunksImage))
    (.loaded noChunksImage .empty)
  have partitioned : start.shared.engine.Partitioned := by
    constructor
    · constructor
      · intro position
        exact iff_of_false (Nat.not_lt_zero _) (by rintro ⟨_, member, _⟩; cases member)
      · exact .nil
    · intro chunk member
      cases member
  obtain ⟨_, reloads⟩ := resumes start start job 7 (.loaded noChunksImage (fun _ => 0) 8) .start
    rfl partitioned (.constructed start.shared _ _) rfl
  have taken : job.store { now := 7 } = some _ :=
    store_unindexed rfl rfl rfl rfl rfl 7
  obtain ⟨img, index, read, _⟩ := reloads _ taken
  have refused : Disk.readImageFromDisk {}
      (some (Disk.encodeSize 0 ++ (encodeImage noChunksImage).drop 8)) = .error .refused := by
    rfl
  rw [refused] at read
  contradiction

end StoredJob

end Muld
