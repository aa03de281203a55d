import Muld.StoredJob
import Muld.UnversionedImages

/-! What the stores of an engine leave in its image file over a whole history of calls: each
rewrite holds the engine as it is, each update in place holds the strings and the
connection bound of the rewrite before it.
-/

namespace Muld

open FileStreams
open Disk (StringField ChunkTable JobImageIndex imageIndex encodeImage)

/-- What an engine knows of its job is within the types of the source. -/
structure DownloadEngine.Representable (engine : DownloadEngine) : Prop where
  fileSize : engine.fileSize < sizeModulus
  chunks
    : ∀ chunk ∈ engine.chunksInfo,
        chunk.startRange < sizeModulus
        ∧ chunk.endRange < sizeModulus
        ∧ chunk.received < sizeModulus
  nChunks : engine.nChunks ≤ Disk.maxObjectSize / Disk.chunkStateSize

/-- A fresh engine of arguments of their types. -/
theorem DownloadEngine.create_representable (maxConnections : Int) (fileSize : UInt64)
    (ranged : Bool) (nChunks : Fin (Disk.maxObjectSize / Disk.chunkStateSize + 1))
    [NeZero nChunks.val]
    : (create maxConnections fileSize.toNat ranged nChunks.val).Representable := by
  have wrapped : ∀ value, wrap value < sizeModulus := fun value => Nat.mod_lt _ (by decide)
  constructor
  case fileSize => exact fileSize.toNat_lt
  case chunks =>
    intro chunk member
    obtain ⟨index, _, rfl⟩ := List.mem_map.mp member
    refine ⟨wrapped _, ?_, Nat.two_pow_pos 64⟩
    simp only [layoutChunk]
    split <;> exact wrapped _
  case nChunks =>
    have few := nChunks.isLt
    simp only [create, DownloadEngine.nChunks, List.length_map, List.length_range]
    omega

/-- An engine loaded from an image. -/
theorem DownloadEngine.ofImage_representable (image : Disk.JobImage)
    : (ofImage (.ofDisk image)).Representable := by
  constructor
  case fileSize => exact image.fileSize.toNat_lt
  case chunks =>
    intro chunk member
    obtain ⟨⟨entry, index⟩, inside, rfl⟩ := List.mem_map.mp member
    obtain ⟨stored, _, rfl⟩ := List.mem_map.mp (List.fst_mem_of_mem_zipIdx inside)
    exact ⟨stored.startRange.toNat_lt, stored.endRange.toNat_lt, Nat.mod_lt _ (by decide)⟩
  case nChunks =>
    simpa [ofImage, DownloadEngine.nChunks, JobImage.ofDisk] using image.chunks.size_le

/-- The entry of a chunk stands for the chunk. -/
theorem DownloadEngine.Representable.ofDisk_toDisk {engine : DownloadEngine}
    (representable : engine.Representable) {chunk : ChunkInfo}
    (member : chunk ∈ engine.chunksInfo)
    : ChunkState.ofDisk chunk.toState.toDisk = chunk.toState := by
  obtain ⟨start, end_, received⟩ := representable.chunks chunk member
  simp only [ChunkState.ofDisk, ChunkState.toDisk, ChunkInfo.toState, ChunkInfo.getReceivedSize,
    UInt64.toNat_ofNat_of_lt' start, UInt64.toNat_ofNat_of_lt' end_,
    UInt64.toNat_ofNat_of_lt' received]

namespace StoredJob

variable {job before after : StoredJob}

-----------------------------------------------------------------------------------------
-- What an image shows of the engine
-----------------------------------------------------------------------------------------

/-- The fields of the engine that an image is to show. -/
def toImage (job : StoredJob) : JobImage where
  fileSize := job.engine.fileSize
  maxConnections := job.engine.maxConnections
  ranged := job.engine.ranged
  chunks := job.scan

/-- The image has the engine's current fields. -/
structure Shows (img : Disk.JobImage) (job : StoredJob) : Prop where
  filePath : img.filePath = job.outputPath
  url : img.url = job.url
  etag : img.etag = job.etag
  lastModified : img.lastModified = job.lastModified
  engine : JobImage.ofDisk img = job.toImage

/-- The image file is accepted and has the engine's current fields. -/
def Current (job : StoredJob) : Prop :=
  ∃ (img : Disk.JobImage) (index : JobImageIndex),
    Disk.readImageFromDisk {} job.file = .ok (img, index) ∧ Shows img job

/-- The fields of the engine are within the types of the source. -/
structure Typed (job : StoredJob) : Prop extends DownloadEngine.Representable job.engine where
  lower : 1 ≤ job.engine.maxConnections
  upper : job.engine.maxConnections < 2 ^ 31

theorem entries_items (representable : job.engine.Representable)
    : job.entries.items = job.scan.map ChunkState.toDisk := by
  apply Disk.SizedList.items_ofList
  simpa [scan, DownloadEngine.nChunks] using representable.nChunks

theorem Typed.entries_items (typed : job.Typed)
    : job.entries.items = job.scan.map ChunkState.toDisk :=
  StoredJob.entries_items typed.toRepresentable

theorem entries_length (representable : job.engine.Representable)
    : job.entries.items.length = job.engine.nChunks := by
  simp [StoredJob.entries_items representable, scan, DownloadEngine.nChunks]

theorem Typed.entries_length (typed : job.Typed)
    : job.entries.items.length = job.engine.nChunks :=
  StoredJob.entries_length typed.toRepresentable

/-- The table of a store stands for the scan. -/
theorem ofDisk_entries (representable : job.engine.Representable)
    : job.entries.items.map ChunkState.ofDisk = job.scan := by
  rw [StoredJob.entries_items representable, List.map_map]
  calc job.scan.map (ChunkState.ofDisk ∘ ChunkState.toDisk)
      = job.scan.map id :=
        List.map_congr_left fun entry member => by
          obtain ⟨chunk, inside, rfl⟩ := List.mem_map.mp member
          exact representable.ofDisk_toDisk inside
    _ = job.scan := List.map_id _

/-- The image of a store shows the engine. -/
theorem Typed.shows_image (typed : job.Typed) (now : UInt64) : Shows (job.image now) job where
  filePath := rfl
  url := rfl
  etag := rfl
  lastModified := rfl
  engine := by
    have fileSize : (UInt64.ofNat job.engine.fileSize).toNat = job.engine.fileSize :=
      UInt64.toNat_ofNat_of_lt' typed.fileSize
    have lower := typed.lower
    have upper := typed.upper
    have bound : (Int32.ofInt job.engine.maxConnections).toInt = job.engine.maxConnections :=
      Int32.toInt_ofInt_of_le (by omega) upper
    simp only [JobImage.ofDisk, image, toImage, fileSize, bound,
      ofDisk_entries typed.toRepresentable]

-----------------------------------------------------------------------------------------
-- The two ways of a store
-----------------------------------------------------------------------------------------

/-- The update in place opens a file. -/
def UpdatesInPlace (job : StoredJob) : Prop :=
  job.engine.imageStored = true
  ∧ job.imageIndex.chunkCount = job.entries.items.length
  ∧ job.file.isSome

instance (job : StoredJob) : Decidable job.UpdatesInPlace := by
  unfold UpdatesInPlace
  infer_instance

/-- Without a file to open or an index for it, the update in place changes nothing. -/
theorem updated_of_not_updatesInPlace (rewrites : ¬ job.UpdatesInPlace) (now : UInt64)
    (device : Device)
    : (if job.engine.imageStored then
          Disk.updateImageChunksOnDisk job.imageIndex job.entries now device job.file
        else (false, job.file))
      = (false, job.file) := by
  split
  · rename_i stored
    cases file : job.file with
    | none =>
        rw [Disk.updateImageChunksOnDisk]
        split <;> rfl
    | some content =>
        have differs : job.imageIndex.chunkCount ≠ job.entries.items.length :=
          fun counted => rewrites ⟨stored, counted, by simp [file]⟩
        rw [Disk.updateImageChunksOnDisk, if_pos differs]
  · rfl

theorem store_rewrites (writer : job.engine.writer = true) (rewrites : ¬ job.UpdatesInPlace)
    (now : UInt64)
    : job.store { now }
        = some { job with
            shared := job.shared.lockDisk.storeImage job.scan .written
            updatedAt := now
            imageIndex := Disk.imageIndex (job.image now)
            file := some (encodeImage (job.image now)) } := by
  simp only [store, if_pos writer, updated_of_not_updatesInPlace rewrites,
    Disk.writeImageToDisk_working, if_true]
  rfl

theorem store_updates {img : Disk.JobImage} (writer : job.engine.writer = true)
    (stored : job.engine.imageStored = true) (file : job.file = some (encodeImage img))
    (indexed : job.imageIndex = Disk.imageIndex img)
    (counted : job.entries.items.length = img.chunks.items.length) (now : UInt64)
    : job.store { now }
        = some { job with
            shared := job.shared.lockDisk.storeImage job.scan .written
            updatedAt := now
            file := some (encodeImage { img with updatedAt := now, chunks := job.entries }) } := by
  simp only [store, if_pos writer, if_pos stored, file, indexed,
    Disk.updateImageChunksOnDisk_working img job.entries now counted, if_true]

/-- An update of a loaded job without chunks zeroes the version of the file. -/
theorem store_unindexed {content : Bytes} (writer : job.engine.writer = true)
    (stored : job.engine.imageStored = true) (empty : job.entries.items = [])
    (file : job.file = some content) (unindexed : job.imageIndex = {}) (now : UInt64)
    : job.store { now }
        = some { job with
            shared := job.shared.lockDisk.storeImage job.scan .written
            updatedAt := now
            file := some (Disk.encodeSize 0 ++ content.drop 8) } := by
  simp only [store, if_pos writer, if_pos stored, file, unindexed,
    Disk.updateImageChunksOnDisk_unindexed empty now content, if_true]

-----------------------------------------------------------------------------------------
-- Histories
-----------------------------------------------------------------------------------------

/-- A call on the engine while the disk takes everything. -/
inductive JobCall
  | store (now : UInt64)
  | setValidators (etag lastModified : StringField)
  | setConnectionBounds (minConnections maxConnections : Int32)
  | notifyChunkReceived (chunkId : Nat) (bytes : UInt64) (elapsed : Bool) (now later : UInt64)
deriving DecidableEq, Repr

/-- The effect of a call; one with an id out of range throws before it changes anything. -/
def perform : JobCall → StoredJob → StoredJob
  | .store now, job => (job.store { now }).getD job
  | .setValidators etag lastModified, job => job.setValidators etag lastModified
  | .setConnectionBounds minConnections maxConnections, job =>
      job.setConnectionBounds minConnections maxConnections
  | .notifyChunkReceived chunkId bytes elapsed now later, job =>
      (job.notifyChunkReceived
        { chunkId, bytes, elapsed, counted := { now }, completed := { now := later } }).getD job

/-- The call stores: always, or once ten megabytes came in since the last store. -/
def stores : JobCall → StoredJob → Bool
  | .store _, _ => true
  | .notifyChunkReceived chunkId bytes _ _ _, job =>
      decide (chunkId < job.engine.nChunks)
        && (job.engine.addFromLastStore bytes.toNat).needsStore
  | _, _ => false

/-- After each call that stores the image file is the engine's current one. -/
def StoresCurrent : List JobCall → StoredJob → Prop
  | [], _ => True
  | call :: rest, job =>
      (stores call job = true → (perform call job).Current)
        ∧ StoresCurrent rest (perform call job)

/-- The fields of an image that an update in place leaves as they are. -/
structure StoredFields where
  etag : StringField
  lastModified : StringField
  maxConnections : Int
deriving DecidableEq, Repr

def fields (job : StoredJob) : StoredFields where
  etag := job.etag
  lastModified := job.lastModified
  maxConnections := job.engine.maxConnections

/-- The first store rewrites the file, and a later one finds the fields of the first. -/
def Allowed (job : StoredJob) : Option StoredFields → Prop
  | none => ¬ job.UpdatesInPlace
  | some stored => job.fields = stored

/-- Each call that stores is allowed; `stored` are the fields that the first one found. -/
def KeepsFields : Option StoredFields → List JobCall → StoredJob → Prop
  | _, [], _ => True
  | stored, call :: rest, job =>
      if stores call job = true then
        job.Allowed stored
          ∧ KeepsFields (some (stored.getD job.fields)) rest (perform call job)
      else KeepsFields stored rest (perform call job)

/-- The engine was never started and has its writer. -/
structure Living (job : StoredJob) : Prop extends Typed job where
  writer : job.engine.writer = true
  state : job.engine.state = .initialized

/-- What the image file holds, given the fields of the first store. -/
inductive Phase (job : StoredJob) : Option StoredFields → Prop
  | unwritten (unindexed : job.imageIndex = {}) : Phase job none
  | written (img : Disk.JobImage) (file : job.file = some (encodeImage img))
      (indexed : job.imageIndex = Disk.imageIndex img)
      (stored : job.engine.imageStored = true)
      (counted : img.chunks.items.length = job.engine.nChunks)
      (filePath : img.filePath = job.outputPath) (url : img.url = job.url)
      (fileSize : img.fileSize.toNat = job.engine.fileSize)
      (ranged : img.ranged = job.engine.ranged)
    : Phase job (some ⟨img.etag, img.lastModified, img.maxConnections.toInt⟩)

/-- Two jobs with the same file, index and identity. -/
structure Alike (before after : StoredJob) : Prop where
  outputPath : after.outputPath = before.outputPath
  url : after.url = before.url
  imageIndex : after.imageIndex = before.imageIndex
  file : after.file = before.file
  fileSize : after.engine.fileSize = before.engine.fileSize
  ranged : after.engine.ranged = before.engine.ranged
  imageStored : after.engine.imageStored = before.engine.imageStored
  writer : after.engine.writer = before.engine.writer
  state : after.engine.state = before.engine.state
  nChunks : after.engine.nChunks = before.engine.nChunks

theorem Phase.alike {stored : Option StoredFields} (phase : before.Phase stored)
    (alike : Alike before after) : after.Phase stored := by
  cases phase with
  | unwritten unindexed => exact .unwritten (alike.imageIndex.trans unindexed)
  | written img file indexed kept counted filePath url fileSize ranged =>
      exact .written img (alike.file.trans file) (alike.imageIndex.trans indexed)
        (alike.imageStored.trans kept) (counted.trans alike.nChunks.symm)
        (filePath.trans alike.outputPath.symm) (url.trans alike.url.symm)
        (fileSize.trans alike.fileSize.symm) (ranged.trans alike.ranged.symm)

-----------------------------------------------------------------------------------------
-- One store
-----------------------------------------------------------------------------------------

/-- A job after a store, whatever the store did to the file. -/
structure Stored (before after : StoredJob) : Prop where
  outputPath : after.outputPath = before.outputPath
  url : after.url = before.url
  fields : after.fields = before.fields
  engine
    : after.engine
      = { before.engine with
          imageStored := true, nReceivedBytesFromLastStore := 0, diskLocked := false }

theorem Stored.toImage (stored : Stored before after) : after.toImage = before.toImage := by
  simp only [StoredJob.toImage, scan, stored.engine]

theorem Stored.living (stored : Stored before after) (living : before.Living)
    : after.Living where
  fileSize := by simpa only [stored.engine] using living.fileSize
  chunks := by simpa only [stored.engine] using living.chunks
  nChunks := by simpa only [DownloadEngine.nChunks, stored.engine] using living.nChunks
  lower := by simpa only [stored.engine] using living.lower
  upper := by simpa only [stored.engine] using living.upper
  writer := by simpa only [stored.engine] using living.writer
  state := by simpa only [stored.engine] using living.state

/-- What an image shows of a job it shows of the job after a store. -/
theorem Stored.shows (stored : Stored before after) {img : Disk.JobImage}
    : Shows img after ↔ Shows img before := by
  have etag : after.etag = before.etag := congrArg StoredFields.etag stored.fields
  have lastModified : after.lastModified = before.lastModified :=
    congrArg StoredFields.lastModified stored.fields
  constructor
  · rintro ⟨filePath, url, etag', lastModified', engine⟩
    exact ⟨filePath.trans stored.outputPath, url.trans stored.url, etag'.trans etag,
      lastModified'.trans lastModified, engine.trans stored.toImage⟩
  · rintro ⟨filePath, url, etag', lastModified', engine⟩
    exact ⟨filePath.trans stored.outputPath.symm, url.trans stored.url.symm,
      etag'.trans etag.symm, lastModified'.trans lastModified.symm,
      engine.trans stored.toImage.symm⟩

/-- With an image in the file, being current is what that image shows. -/
theorem current_iff_of_file {img : Disk.JobImage} (file : job.file = some (encodeImage img))
    : job.Current ↔ Shows img job := by
  have read := Disk.readImageFromDisk_encodeImage img {}
  constructor
  · rintro ⟨other, index, accepted, shows_⟩
    rw [file, read] at accepted
    cases accepted
    exact shows_
  · intro shows_
    exact ⟨img, _, by rw [file, read], shows_⟩

/-- An image without the version is never current: it has no connections. -/
theorem not_current_of_unversioned {rest : Bytes} (typed : job.Typed)
    (file : job.file = some (Disk.encodeUInt32 0 ++ rest)) : ¬ job.Current := by
  rintro ⟨img, index, accepted, shows_⟩
  rw [file] at accepted
  have none_ := Disk.maxConnections_of_unversioned (by decide) accepted
  have bound : img.maxConnections.toInt = job.engine.maxConnections :=
    congrArg JobImage.maxConnections shows_.engine
  have lower := typed.lower
  rw [← bound, none_] at lower
  exact absurd lower (by decide)

/-- A store is current exactly if it is allowed, and then the file has the fields of the
first store.
-/
theorem Phase.store {stored : Option StoredFields} (living : job.Living)
    (phase : job.Phase stored) (now : UInt64)
    : ∃ after : StoredJob,
        job.store { now } = some after
        ∧ Stored job after
        ∧ (after.Current ↔ job.Allowed stored)
        ∧ (job.Allowed stored → after.Phase (some (stored.getD job.fields))) := by
  have shown := living.toTyped.shows_image now
  cases phase with
  | unwritten unindexed =>
      by_cases inPlace : job.UpdatesInPlace
      · obtain ⟨imageStored, counted, exists_⟩ := inPlace
        obtain ⟨content, file⟩ := Option.isSome_iff_exists.mp exists_
        have empty : job.entries.items = [] :=
          List.eq_nil_of_length_eq_zero (by rw [← counted, unindexed])
        have updated := store_unindexed living.writer imageStored empty file unindexed now
        have kept : Stored job { job with
            shared := job.shared.lockDisk.storeImage job.scan .written
            updatedAt := now
            file := some (Disk.encodeSize 0 ++ content.drop 8) } := ⟨rfl, rfl, rfl, rfl⟩
        have zeros : Disk.encodeSize 0 = Disk.encodeUInt32 0 ++ Disk.encodeUInt32 0 := by decide
        have unusable := not_current_of_unversioned (kept.living living).toTyped
          (by simp only [zeros, List.append_assoc]; rfl)
        have inPlace : job.UpdatesInPlace := ⟨imageStored, counted, exists_⟩
        exact ⟨_, updated, kept, iff_of_false unusable (not_not.mpr inPlace),
          fun allowed => absurd inPlace allowed⟩
      · have kept : Stored job { job with
            shared := job.shared.lockDisk.storeImage job.scan .written
            updatedAt := now
            imageIndex := Disk.imageIndex (job.image now)
            file := some (encodeImage (job.image now)) } := ⟨rfl, rfl, rfl, rfl⟩
        refine ⟨_, store_rewrites living.writer inPlace now, kept, ?_, fun _ => ?_⟩
        · exact iff_of_true ((current_iff_of_file rfl).mpr (kept.shows.mpr shown)) inPlace
        · have bound : (job.image now).maxConnections.toInt = job.engine.maxConnections :=
            congrArg JobImage.maxConnections shown.engine
          have first : job.fields = ⟨(job.image now).etag, (job.image now).lastModified,
              (job.image now).maxConnections.toInt⟩ := by
            rw [bound]
            rfl
          rw [Option.getD_none, first]
          exact .written _ rfl rfl rfl living.toTyped.entries_length rfl rfl
            (congrArg JobImage.fileSize shown.engine) rfl
  | written img file indexed kept counted filePath url fileSize ranged =>
      have counts : job.entries.items.length = img.chunks.items.length :=
        living.toTyped.entries_length.trans counted.symm
      let updated : StoredJob := { job with
        shared := job.shared.lockDisk.storeImage job.scan .written
        updatedAt := now
        file := some (encodeImage { img with updatedAt := now, chunks := job.entries }) }
      have taken : job.store { now } = some updated :=
        store_updates living.writer kept file indexed counts now
      have same : Stored job updated := ⟨rfl, rfl, rfl, rfl⟩
      refine ⟨updated, taken, same, ?_, fun _ => ?_⟩
      · rw [current_iff_of_file rfl, same.shows]
        constructor
        · intro shows_
          have bound : img.maxConnections.toInt = job.engine.maxConnections :=
            congrArg JobImage.maxConnections shows_.engine
          have etag : img.etag = job.etag := shows_.etag
          have lastModified : img.lastModified = job.lastModified := shows_.lastModified
          simp only [Allowed, fields, bound, etag, lastModified]
        · intro allowed
          obtain ⟨etag, lastModified, bound⟩ := StoredFields.mk.inj allowed
          refine ⟨filePath, url, etag.symm, lastModified.symm, ?_⟩
          simp only [JobImage.ofDisk, StoredJob.toImage, fileSize, ranged, ← bound,
            ofDisk_entries living.toRepresentable]
      · have index : Disk.imageIndex { img with updatedAt := now, chunks := job.entries }
            = Disk.imageIndex img := by
          simp only [Disk.imageIndex, Disk.encodeStrings, Disk.encodeHead, counts,
            List.length_append, Disk.encodeUInt64_length]
        rw [Option.getD_some]
        exact .written { img with updatedAt := now, chunks := job.entries } rfl
          (indexed.trans index.symm) rfl living.toTyped.entries_length filePath url fileSize
          ranged

-----------------------------------------------------------------------------------------
-- One notification
-----------------------------------------------------------------------------------------

/-- The job when a notification tests whether a store is due. -/
def counted (call : Received) (chunk : ChunkInfo) (job : StoredJob) : StoredJob :=
  ({ job with shared := job.shared.receive call.notification chunk }).onEngine
    (.addFromLastStore call.bytes.toNat)

theorem counted_engine (call : Received) (chunk : ChunkInfo) (job : StoredJob)
    : (job.counted call chunk).engine
        = ((job.engine.updateReceived call.chunkId call.bytes.toNat).addTotal
            call.bytes.toNat).addFromLastStore call.bytes.toNat := by
  have received := Shared.receive_engine call.notification chunk job.shared
  rw [counted, onEngine, engine, Shared.onEngine, received]
  rfl

theorem alike_counted (job : StoredJob) (call : Received) (chunk : ChunkInfo)
    : Alike job (job.counted call chunk) where
  outputPath := rfl
  url := rfl
  imageIndex := rfl
  file := rfl
  fileSize := by rw [counted_engine]; rfl
  ranged := by rw [counted_engine]; rfl
  imageStored := by rw [counted_engine]; rfl
  writer := by rw [counted_engine]; rfl
  state := by rw [counted_engine]; rfl
  nChunks := by
    rw [counted_engine]
    simp [DownloadEngine.nChunks, DownloadEngine.addFromLastStore, DownloadEngine.addTotal,
      DownloadEngine.updateReceived]

theorem fields_counted (job : StoredJob) (call : Received) (chunk : ChunkInfo)
    : (job.counted call chunk).fields = job.fields := by
  rw [fields, counted_engine]
  rfl

theorem Living.counted (living : job.Living) (call : Received) (chunk : ChunkInfo)
    : (job.counted call chunk).Living := by
  have alike := alike_counted job call chunk
  have bound : (job.counted call chunk).engine.maxConnections = job.engine.maxConnections := by
    rw [counted_engine]
    rfl
  refine ⟨⟨⟨?fileSize, ?chunks, ?nChunks⟩, bound ▸ living.lower, bound ▸ living.upper⟩,
    alike.writer.trans living.writer, alike.state.trans living.state⟩
  case fileSize => exact alike.fileSize ▸ living.fileSize
  case nChunks => exact alike.nChunks ▸ living.nChunks
  case chunks =>
    intro updated member
    rw [counted_engine] at member
    obtain old | ⟨chunk, found, rfl⟩ := DownloadEngine.mem_updateReceived member
    · exact living.chunks updated old
    · obtain ⟨start, end_, _⟩ := living.chunks chunk (List.mem_of_getElem? found)
      exact ⟨start, end_, Nat.mod_lt _ (by decide)⟩

/-- An engine that was never started is not completed by its last chunk. -/
theorem finishChunk_of_initialized (initialized : job.engine.state = .initialized)
    (call : Received)
    : job.finishChunk call = some job
      ∨ job.finishChunk call = some (job.onEngine .bumpDownloaded) := by
  rw [finishChunk]
  split
  · split
    · right
      have state : (job.onEngine .bumpDownloaded).engine.state = .initialized := initialized
      simp only [complete, state]
    · exact Or.inr rfl
  · exact Or.inl rfl

/-- A notification stores if a store is due, and counts the chunk. -/
theorem notifyChunkReceived_of_found {call : Received} {chunk : ChunkInfo}
    (found : job.engine.chunksInfo[call.chunkId]? = some chunk)
    {middle : StoredJob}
    (taken
      : (if (job.engine.addFromLastStore call.bytes.toNat).needsStore then
            (job.counted call (chunk.updateReceived call.bytes.toNat)).store call.counted
          else some (job.counted call (chunk.updateReceived call.bytes.toNat)))
        = some middle)
    (initialized : middle.engine.state = .initialized)
    : job.notifyChunkReceived call = some middle
      ∨ job.notifyChunkReceived call = some (middle.onEngine .bumpDownloaded) := by
  have updated := Shared.updateReceived_getElem?_found found call.bytes.toNat
  have due : (job.counted call (chunk.updateReceived call.bytes.toNat)).engine.needsStore
      = (job.engine.addFromLastStore call.bytes.toNat).needsStore := by
    rw [counted_engine]
    rfl
  have stored
      : countStored call { job with
          shared :=
            job.shared.receive call.notification (chunk.updateReceived call.bytes.toNat) }
        = some middle := by
    rw [countStored, ← taken, ← due]
    rfl
  simp only [notifyChunkReceived, updated, stored, Option.bind_some]
  exact finishChunk_of_initialized initialized call

-----------------------------------------------------------------------------------------
-- Every history
-----------------------------------------------------------------------------------------

theorem alike_bumpDownloaded (job : StoredJob)
    : Alike job (job.onEngine .bumpDownloaded) :=
  ⟨rfl, rfl, rfl, rfl, rfl, rfl, rfl, rfl, rfl, rfl⟩

theorem Living.bumpDownloaded (living : job.Living)
    : (job.onEngine .bumpDownloaded).Living :=
  { living with }

/-- The chunk counter is no part of the image. -/
theorem current_bumpDownloaded (job : StoredJob)
    : (job.onEngine .bumpDownloaded).Current ↔ job.Current := by
  constructor
  · rintro ⟨img, index, accepted, filePath, url, etag, lastModified, engine⟩
    exact ⟨img, index, accepted, filePath, url, etag, lastModified, engine⟩
  · rintro ⟨img, index, accepted, filePath, url, etag, lastModified, engine⟩
    exact ⟨img, index, accepted, filePath, url, etag, lastModified, engine⟩

theorem setConnectionBounds_alike (minConnections maxConnections : Int32) (job : StoredJob)
    : Alike job (job.setConnectionBounds minConnections maxConnections)
      ∧ (job.setConnectionBounds minConnections maxConnections).engine.chunksInfo
        = job.engine.chunksInfo
      ∧ (job.setConnectionBounds minConnections maxConnections).engine.maxConnections
        = (job.engine.setBounds minConnections.toInt maxConnections.toInt).maxConnections := by
  obtain ⟨desired, budget, same⟩ := job.engine.setConnectionBounds_eq
    minConnections.toInt maxConnections.toInt
  have engine : (job.setConnectionBounds minConnections maxConnections).engine
      = { job.engine.setBounds minConnections.toInt maxConnections.toInt with
          desiredConnections := desired, releaseBudget := budget } := same
  refine ⟨⟨rfl, rfl, rfl, rfl, ?_, ?_, ?_, ?_, ?_, ?_⟩, ?_, ?_⟩
  all_goals simp only [DownloadEngine.nChunks, DownloadEngine.setBounds, engine]

/-- Both bounds are at least one and no larger than an `int`. -/
theorem Living.setConnectionBounds (living : job.Living) (minConnections maxConnections : Int32)
    : (job.setConnectionBounds minConnections maxConnections).Living := by
  obtain ⟨alike, chunks, bound⟩ := setConnectionBounds_alike minConnections maxConnections job
  have lower := minConnections.toInt_lt
  have upper := maxConnections.toInt_lt
  have representable
      : (job.setConnectionBounds minConnections maxConnections).engine.Representable :=
    ⟨alike.fileSize ▸ living.fileSize, chunks ▸ living.chunks, alike.nChunks ▸ living.nChunks⟩
  refine ⟨⟨representable, ?lower, ?upper⟩, alike.writer.trans living.writer,
    alike.state.trans living.state⟩
  case lower =>
    rw [bound, DownloadEngine.setBounds]
    dsimp only
    omega
  case upper =>
    rw [bound, DownloadEngine.setBounds]
    dsimp only
    split <;> omega

/-- What one call does to the file: nothing, or what an allowed store does. -/
structure Steps (job after : StoredJob) (stored : Option StoredFields) (stores : Bool) : Prop where
  living : after.Living
  kept : stores = false → after.Phase stored
  current : stores = true → (after.Current ↔ job.Allowed stored)
  moved : stores = true → job.Allowed stored → after.Phase (some (stored.getD job.fields))

theorem steps_of_alike {stored : Option StoredFields} (phase : job.Phase stored)
    (living : after.Living) (alike : Alike job after) : Steps job after stored false where
  living := living
  kept := fun _ => phase.alike alike
  current := fun absurd => Bool.noConfusion absurd
  moved := fun absurd => Bool.noConfusion absurd

theorem steps_store {stored : Option StoredFields} (living : job.Living)
    (phase : job.Phase stored) (now : UInt64)
    : ∃ after : StoredJob, job.store { now } = some after ∧ Steps job after stored true := by
  obtain ⟨after, taken, kept, current, moved⟩ := phase.store living now
  exact ⟨after, taken, kept.living living, fun absurd => Bool.noConfusion absurd,
    fun _ => current, fun _ => moved⟩

/-- The chunk counter changes nothing that a step is about. -/
theorem Steps.bumpDownloaded {stored : Option StoredFields} {stores : Bool}
    (steps : Steps job after stored stores)
    : Steps job (after.onEngine .bumpDownloaded) stored stores where
  living := steps.living.bumpDownloaded
  kept := fun early => (steps.kept early).alike (alike_bumpDownloaded after)
  current := fun due => (current_bumpDownloaded after).trans (steps.current due)
  moved := fun due allowed => (steps.moved due allowed).alike (alike_bumpDownloaded after)

/-- Whether a store is allowed does not depend on the received bytes. -/
theorem allowed_alike (stored : Option StoredFields) (living : before.Living)
    (living_after : after.Living) (alike : Alike before after)
    (fields : after.fields = before.fields)
    : after.Allowed stored ↔ before.Allowed stored := by
  cases stored with
  | none =>
      simp only [Allowed, UpdatesInPlace, living.toTyped.entries_length,
        living_after.toTyped.entries_length, alike.imageStored, alike.imageIndex, alike.file,
        alike.nChunks]
  | some stored => rw [Allowed, Allowed, fields]

theorem steps_notifyChunkReceived {stored : Option StoredFields} (living : job.Living)
    (phase : job.Phase stored) (call : Received) {chunk : ChunkInfo} {now : UInt64}
    (conditions : call.counted = { now })
    (found : job.engine.chunksInfo[call.chunkId]? = some chunk)
    : ∃ after : StoredJob,
        job.notifyChunkReceived call = some after
        ∧ Steps job after stored (job.engine.addFromLastStore call.bytes.toNat).needsStore := by
  have living_counted := living.counted call (chunk.updateReceived call.bytes.toNat)
  have alike := alike_counted job call (chunk.updateReceived call.bytes.toNat)
  have fields := fields_counted job call (chunk.updateReceived call.bytes.toNat)
  obtain ⟨middle, taken, steps⟩
      : ∃ middle : StoredJob,
          (if (job.engine.addFromLastStore call.bytes.toNat).needsStore then
              (job.counted call (chunk.updateReceived call.bytes.toNat)).store call.counted
            else some (job.counted call (chunk.updateReceived call.bytes.toNat)))
            = some middle
          ∧ Steps job middle stored
            (job.engine.addFromLastStore call.bytes.toNat).needsStore := by
    have same := allowed_alike stored living living_counted alike fields
    cases due : (job.engine.addFromLastStore call.bytes.toNat).needsStore with
    | true =>
        obtain ⟨middle, taken, steps⟩ := steps_store living_counted (phase.alike alike) now
        refine ⟨middle, by rw [if_pos rfl, conditions, taken], steps.living, ?_, ?_, ?_⟩
        · exact fun absurd => Bool.noConfusion absurd
        · exact fun _ => (steps.current rfl).trans same
        · exact fun _ allowed => fields ▸ steps.moved rfl (same.mpr allowed)
    | false => exact ⟨_, if_neg Bool.false_ne_true, steps_of_alike phase living_counted alike⟩
  obtain counted | finished := notifyChunkReceived_of_found found taken steps.living.state
  · exact ⟨middle, counted, steps⟩
  · exact ⟨_, finished, steps.bumpDownloaded⟩

/-- Every call keeps the engine living, and leaves the phase or stores. -/
theorem steps_perform {stored : Option StoredFields} (living : job.Living)
    (phase : job.Phase stored) (call : JobCall)
    : Steps job (perform call job) stored (stores call job) := by
  cases call with
  | store now =>
      obtain ⟨after, taken, steps⟩ := steps_store living phase now
      rw [perform, taken]
      exact steps
  | setValidators etag lastModified =>
      have alike : Alike job (job.setValidators etag lastModified) :=
        ⟨rfl, rfl, rfl, rfl, rfl, rfl, rfl, rfl, rfl, rfl⟩
      exact steps_of_alike phase { living with } alike
  | setConnectionBounds minConnections maxConnections =>
      exact steps_of_alike phase (living.setConnectionBounds minConnections maxConnections)
        (setConnectionBounds_alike minConnections maxConnections job).1
  | notifyChunkReceived chunkId bytes elapsed now later =>
      cases found : job.engine.chunksInfo[chunkId]? with
      | none =>
          have throws : job.notifyChunkReceived
              { chunkId, bytes, elapsed, counted := { now }, completed := { now := later } }
                = none := by
            simp [notifyChunkReceived, DownloadEngine.updateReceived_getElem?_self, found]
          have outside : ¬ chunkId < job.engine.nChunks :=
            Nat.not_lt.mpr (List.getElem?_eq_none_iff.mp found)
          rw [perform, throws, Option.getD_none, stores, decide_eq_false outside,
            Bool.false_and]
          exact steps_of_alike phase living ⟨rfl, rfl, rfl, rfl, rfl, rfl, rfl, rfl, rfl, rfl⟩
      | some chunk =>
          obtain ⟨after, taken, steps⟩ := steps_notifyChunkReceived living phase
            { chunkId, bytes, elapsed, counted := { now }, completed := { now := later } }
            rfl found
          have inside : chunkId < job.engine.nChunks := (List.getElem?_eq_some_iff.mp found).1
          rw [perform, taken, Option.getD_some, stores, decide_eq_true inside, Bool.true_and]
          exact steps

/-- By induction on the calls: the file is current after every store exactly if every store
is allowed.
-/
theorem storesCurrent_iff_keepsFields {stored : Option StoredFields} (living : job.Living)
    (phase : job.Phase stored) (calls : List JobCall)
    : StoresCurrent calls job ↔ KeepsFields stored calls job := by
  induction calls generalizing job stored with
  | nil => exact Iff.rfl
  | cons call rest ih =>
      have steps := steps_perform living phase call
      rw [StoresCurrent, KeepsFields]
      cases due : stores call job with
      | true =>
          rw [due] at steps
          simp only [if_true, forall_const, steps.current rfl]
          exact and_congr_right fun allowed => ih steps.living (steps.moved rfl allowed)
      | false =>
          rw [due] at steps
          simp only [Bool.false_eq_true, if_false, false_implies, true_and]
          exact ih steps.living (steps.kept rfl)

theorem living_ofOrigin (shared : Shared) (file : Option Bytes) (origin : Origin)
    : (ofOrigin shared file origin).Living := by
  cases origin with
  | fresh outputPath url maxConnections fileSize ranged nChunks now =>
      have upper := maxConnections.toInt_lt
      have created :=
        DownloadEngine.create_representable maxConnections.toInt fileSize ranged nChunks
      refine ⟨⟨created, ?_, ?_⟩, rfl, rfl⟩
      all_goals
        simp only [ofOrigin, engine, DownloadEngine.create]
        split <;> omega
  | loaded image url =>
      have upper : (JobImage.ofDisk image).maxConnections < 2 ^ 31 :=
        image.maxConnections.toInt_lt
      have built := DownloadEngine.ofImage_representable image
      refine ⟨⟨built, ?_, ?_⟩, rfl, rfl⟩
      all_goals
        simp only [ofOrigin, engine, DownloadEngine.ofImage]
        split <;> omega

/-- In every history of a fresh or loaded engine the image is current after each store
exactly if the first store rewrites the file and each later one finds the validators and the
connection bound of the first.
-/
theorem stores_current (shared : Shared) (file : Option Bytes) (origin : Origin)
    (calls : List JobCall)
    : StoresCurrent calls (ofOrigin shared file origin)
      ↔ KeepsFields none calls (ofOrigin shared file origin) := by
  refine storesCurrent_iff_keepsFields (living_ofOrigin shared file origin) ?_ calls
  cases origin <;> exact .unwritten rfl

/-- The validators of a started job are set after its first store and never reach the file. -/
theorem validators_not_stored
    : ¬ StoresCurrent
          [.store 1, .setValidators ⟨[65], by decide⟩ .empty, .store 2]
          (ofOrigin Sys.twoChunks.shared none .twoChunks) := by
  rw [storesCurrent_iff_keepsFields (living_ofOrigin _ _ _) (.unwritten rfl)]
  rintro ⟨_, allowed, _⟩
  exact absurd (congrArg StoredFields.etag allowed) (by decide)

end StoredJob

end Muld
