import Muld.ImageRoundTrip

/-! The update of an image in place: with every write taken it is a rewrite of the file, and
wherever it is cut off the file is that of an image between the old one and the new one.
-/

namespace Muld.Disk

open FileStreams LittleEndian

-----------------------------------------------------------------------------------------
-- What the update leaves
-----------------------------------------------------------------------------------------

/-- The bytes that the second write of an update may still use. -/
def roomForTable (device : Device) : Option Nat := device.room.map fun room => room - 8

section Update

variable (img : JobImage) (chunks : ChunkTable) (updatedAt : UInt64)

theorem time_overwritten (taken : Bytes) (fits : taken.length ≤ 8)
    : overwrite (encodeImage img) 25 taken
        = encodeHead img ++ (taken ++ (encodeUInt64 img.updatedAt).drop taken.length)
          ++ (encodeStrings img ++ encodeTable img.chunks) := by
  have middle := overwrite_middle (encodeHead img) (encodeUInt64 img.updatedAt)
    (encodeStrings img ++ encodeTable img.chunks) taken (by simpa using fits)
  rw [encodeHead_length] at middle
  rw [encodeImage, List.append_assoc (encodeHead img ++ _), middle]

theorem table_overwritten {time : Bytes} (width : time.length = 8) (taken : Bytes)
    (fits : taken.length ≤ (encodeTable img.chunks).length)
    : overwrite (encodeHead img ++ time ++ (encodeStrings img ++ encodeTable img.chunks))
          (33 + (encodeStrings img).length) taken
        = encodeHead img ++ time ++ encodeStrings img
          ++ (taken ++ (encodeTable img.chunks).drop taken.length) := by
  have middle := overwrite_middle (encodeHead img ++ time ++ encodeStrings img)
    (encodeTable img.chunks) [] taken fits
  simp only [List.length_append, encodeHead_length, width, List.append_nil] at middle
  rw [← List.append_assoc (encodeHead img ++ time), middle]

theorem encodeTable_length_eq (same : chunks.items.length = img.chunks.items.length)
    : (encodeTable chunks).length = (encodeTable img.chunks).length := by
  simp only [encodeTable, List.length_append, encodeSize_length, encodeChunks_length, same]

/-- A number of which only the first bytes were overwritten. -/
def overwrittenUInt64 (cut : Nat) (new old : UInt64) : UInt64 :=
  decodeUInt64 (splice cut (encodeUInt64 new) (encodeUInt64 old))

theorem splice_length (cut : Nat) {new old : Bytes} (same : new.length = old.length)
    : (splice cut new old).length = old.length := by
  simp only [splice, List.length_append, List.length_take, List.length_drop, same]
  omega

theorem encodeUInt64_overwrittenUInt64 (cut : Nat) (new old : UInt64)
    : encodeUInt64 (overwrittenUInt64 cut new old)
        = splice cut (encodeUInt64 new) (encodeUInt64 old) := by
  have length : (splice cut (encodeUInt64 new) (encodeUInt64 old)).length = 8 := by
    rw [splice_length cut (by simp), encodeUInt64_length]
  have small := decode_lt (splice cut (encodeUInt64 new) (encodeUInt64 old))
  rw [length] at small
  rw [encodeUInt64, overwrittenUInt64, decodeUInt64, UInt64.toNat_ofNat_of_lt' small, ← length]
  exact encode_decode _

/-- A larger number that overwrites a smaller one in part leaves at most itself. -/
theorem overwrittenUInt64_le (cut : Nat) {new old : UInt64} (grows : old ≤ new)
    : overwrittenUInt64 cut new old ≤ new := by
  have small : new.toNat < 256 ^ 8 := new.toNat_lt
  have left := decode_overwritten_le cut (UInt64.le_iff_toNat_le.mp grows) small
  rw [UInt64.le_iff_toNat_le, overwrittenUInt64, decodeUInt64, UInt64.toNat_ofNat_of_lt']
  · exact left
  · exact Nat.lt_of_le_of_lt left small

/-- The two stretches the update overwrites, each as far as the device takes it; a first
stretch that is not taken whole leaves nothing for the second one.
-/
theorem updateImageChunksOnDisk_overwrites {device : Device} (index : JobImageIndex)
    (timeAt tableAt : Nat) (opens : device.opens = true)
    (time_at : index.updatedAtOffset = timeAt) (table_at : index.chunksOffset = tableAt)
    (counted : index.chunkCount = chunks.items.length) (content : Bytes)
    : let taken := reach device.room (encodeUInt64 updatedAt)
      let takenTable := reach (roomForTable device) (encodeTable chunks)
      let result := updateImageChunksOnDisk index chunks updatedAt device (some content)
      result.2 = some (overwrite (overwrite content timeAt taken) tableAt takenTable)
        ∧ (result.1 = true
          ↔ taken.length = 8 ∧ takenTable.length = (encodeTable chunks).length
            ∨ device.reports = false) := by
  intro taken takenTable result
  have timed := (OutStream.wrote_nothing
    { OutStream.start content device with position := timeAt } rfl).write
      (encodeUInt64 updatedAt)
  have seeks : (OutStream.start content device).seekp index.updatedAtOffset
      = { OutStream.start content device with position := timeAt } := by
    rw [time_at]
    exact OutStream.seekp_good rfl timeAt
  have patched := timed.content
  simp only [List.nil_append] at timed patched
  generalize reached : OutStream.write (encodeUInt64 updatedAt)
    { OutStream.start content device with position := timeAt } = io at timed patched
  have counted : ¬ index.chunkCount ≠ chunks.items.length := not_not.mpr counted
  have last : result
      = ((writeChunks chunks (io.seekp index.chunksOffset)).good,
        some (writeChunks chunks (io.seekp index.chunksOffset)).content) := by
    simp only [result, updateImageChunksOnDisk, if_neg counted, if_pos opens, seeks, reached]
  have noticed_time : io.good = true ↔ taken.length = 8 ∨ device.reports = false := by
    have noticed := timed.good
    rwa [encodeUInt64_length] at noticed
  rw [last, table_at]
  by_cases good : io.good = true
  · have room : io.device.room = roomForTable device := by
      simp [timed.device good, OutStream.start, roomForTable]
    have reports : io.device.reports = device.reports := by
      simp [timed.device good, OutStream.start]
    have tabled := writeChunks_wrote (OutStream.wrote_nothing
      { io with position := tableAt } good) chunks
    have stored := tabled.content
    have noticed := tabled.good
    simp only [List.nil_append, room, reports] at stored noticed
    rw [OutStream.seekp_good good]
    constructor
    · rw [stored, patched]
      rfl
    · have passed := noticed_time.mp good
      rw [noticed]
      tauto
  · have bad : io.good = false := by simpa using good
    have unnoticed := mt noticed_time.mpr good
    have cut : (reach device.room (encodeUInt64 updatedAt)).length
        ≠ (encodeUInt64 updatedAt).length := by
      rw [encodeUInt64_length]
      exact fun whole => unnoticed (Or.inl whole)
    have nothing := reach_rest cut (encodeTable chunks)
    rw [encodeUInt64_length] at nothing
    change takenTable = [] at nothing
    rw [OutStream.seekp_bad bad, writeChunks_bad bad, nothing, patched, overwrite_nil]
    constructor
    · rfl
    · rw [bad]
      tauto

/-- The update reports success if everything was taken or nothing is noticed. -/
theorem updateImageChunksOnDisk_returned (device : Device) {index : JobImageIndex}
    {timeAt tableAt : Nat} (time_at : index.updatedAtOffset = timeAt)
    (table_at : index.chunksOffset = tableAt)
    (counted : index.chunkCount = chunks.items.length) (content : Bytes)
    : (updateImageChunksOnDisk index chunks updatedAt device (some content)).1 = true
      ↔ device.opens = true
        ∧ (device.Takes (8 + (encodeTable chunks).length) ∨ device.reports = false) := by
  by_cases opens : device.opens = true
  · obtain ⟨_, noticed⟩ := updateImageChunksOnDisk_overwrites chunks updatedAt index timeAt
      tableAt opens time_at table_at counted content
    have sized : 8 ≤ (encodeTable chunks).length := by simp [encodeTable]
    have all : (reach device.room (encodeUInt64 updatedAt)).length = 8
          ∧ (reach (roomForTable device) (encodeTable chunks)).length
            = (encodeTable chunks).length
        ↔ device.Takes (8 + (encodeTable chunks).length) := by
      have time := reach_length_eq_iff device.room (encodeUInt64 updatedAt)
      rw [encodeUInt64_length] at time
      rw [time, reach_length_eq_iff, Device.Takes, roomForTable]
      cases device.room with
      | none => simp
      | some room =>
          simp only [Option.map_some, Option.mem_some_iff, forall_eq']
          omega
    rw [noticed, all]
    simp [opens]
  · have counted : ¬ index.chunkCount ≠ chunks.items.length := not_not.mpr counted
    rw [updateImageChunksOnDisk, if_neg counted]
    simp [opens]

/-- With the index of the image, the stretches are the time and the table. -/
theorem updateImageChunksOnDisk_of_opens (device : Device) (opens : device.opens = true)
    (same : chunks.items.length = img.chunks.items.length)
    : let taken := reach device.room (encodeUInt64 updatedAt)
      let takenTable := reach (roomForTable device) (encodeTable chunks)
      let result := updateImageChunksOnDisk (imageIndex img) chunks updatedAt device
        (some (encodeImage img))
      result.2
          = some (encodeHead img ++ (taken ++ (encodeUInt64 img.updatedAt).drop taken.length)
            ++ encodeStrings img ++ (takenTable ++ (encodeTable img.chunks).drop takenTable.length))
        ∧ (result.1 = true
          ↔ taken.length = 8 ∧ takenTable.length = (encodeTable chunks).length
            ∨ device.reports = false) := by
  intro taken takenTable result
  have few : taken.length ≤ 8 := by
    simpa using reach_length_le device.room (encodeUInt64 updatedAt)
  have width : (taken ++ (encodeUInt64 img.updatedAt).drop taken.length).length = 8 := by
    simp only [List.length_append, List.length_drop, encodeUInt64_length]
    omega
  have fits : takenTable.length ≤ (encodeTable img.chunks).length := by
    rw [← encodeTable_length_eq img chunks same]
    exact reach_length_le _ _
  obtain ⟨content, noticed⟩ := updateImageChunksOnDisk_overwrites chunks updatedAt
    (imageIndex img) 25 (33 + (encodeStrings img).length) opens
    (by simp [imageIndex]) (by simp [imageIndex]) (by simp [imageIndex, same])
    (encodeImage img)
  refine ⟨content.trans ?_, noticed⟩
  rw [time_overwritten img taken few, table_overwritten img width takenTable fits]

end Update

/-- With every write taken, the update leaves the file of the new image. -/
theorem updateImageChunksOnDisk_working (img : JobImage) (chunks : ChunkTable)
    (updatedAt : UInt64) (same : chunks.items.length = img.chunks.items.length)
    : updateImageChunksOnDisk (imageIndex img) chunks updatedAt .working
          (some (encodeImage img))
        = (true, some (encodeImage { img with updatedAt, chunks })) := by
  obtain ⟨content, success⟩ :=
    updateImageChunksOnDisk_of_opens img chunks updatedAt .working rfl same
  have length := encodeTable_length_eq img chunks same
  have returned := success.mpr (Or.inl ⟨encodeUInt64_length updatedAt, rfl⟩)
  refine Prod.ext returned (content.trans ?_)
  simp [reach, roomForTable, Device.working, encodeImage, encodeHead, encodeStrings, length]

/-- The in-place update is a full rewrite: with an index that the writer or the reader of
the file filled, a table of the same size gives the file that a rewrite gives, and one of
another size changes nothing.
-/
theorem updateImageChunksOnDisk_eq_writeImageToDisk (img : JobImage) (chunks : ChunkTable)
    (updatedAt : UInt64) (index writerIndex readerIndex : JobImageIndex)
    (old other : Option Bytes)
    (indexed
      : index = (writeImageToDisk img .working writerIndex old).index
        ∨ ∃ read,
            readImageFromDisk readerIndex (writeImageToDisk img .working writerIndex old).file
              = .ok (read, index))
    : (chunks.items.length = index.chunkCount →
        updateImageChunksOnDisk index chunks updatedAt .working
            (writeImageToDisk img .working writerIndex old).file
          = (true,
              (writeImageToDisk { img with updatedAt, chunks } .working writerIndex other).file))
      ∧ (chunks.items.length ≠ index.chunkCount → ∀ device : Device,
          updateImageChunksOnDisk index chunks updatedAt device
              (writeImageToDisk img .working writerIndex old).file
            = (false, (writeImageToDisk img .working writerIndex old).file)) := by
  simp only [writeImageToDisk_working, readImageFromDisk_encodeImage] at indexed ⊢
  obtain rfl : index = imageIndex img := by
    obtain same | ⟨read, same⟩ := indexed
    · exact same
    · exact (congrArg Prod.snd (Except.ok.inj same)).symm
  constructor
  · exact updateImageChunksOnDisk_working img chunks updatedAt
  · intro differs device
    rw [updateImageChunksOnDisk, if_pos (Ne.symm differs)]

/-- The image of a job with one chunk of which `downloaded` bytes were received. -/
def oneChunkImage (downloaded : UInt64) : JobImage where
  filePath := .empty
  fileSize := 1000
  maxConnections := 1
  ranged := true
  url := .empty
  etag := .empty
  lastModified := .empty
  chunks := ⟨[{ startRange := 0, endRange := 999, downloaded }],
    (by decide : 1 ≤ maxObjectSize / chunkStateSize)⟩

/-- An update with the index the writer filled. -/
theorem updateImageChunksOnDisk_eq_writeImageToDisk_one_chunk
    : updateImageChunksOnDisk (writeImageToDisk (oneChunkImage 255) .working {} none).index
          (oneChunkImage 256).chunks 7 .working
          (writeImageToDisk (oneChunkImage 255) .working {} none).file
        = (true,
            (writeImageToDisk
              { oneChunkImage 255 with updatedAt := 7, chunks := (oneChunkImage 256).chunks }
              .working {} none).file) :=
  (updateImageChunksOnDisk_eq_writeImageToDisk (oneChunkImage 255) (oneChunkImage 256).chunks 7
    _ {} {} none none (Or.inl rfl)).1 (by rw [writeImageToDisk_working]; rfl)

/-- An update of no chunks with an index that was never filled zeroes the first eight bytes,
the version among them.
-/
theorem updateImageChunksOnDisk_unindexed {chunks : ChunkTable} (empty : chunks.items = [])
    (updatedAt : UInt64) (content : Bytes)
    : updateImageChunksOnDisk {} chunks updatedAt .working (some content)
        = (true, some (encodeSize 0 ++ content.drop 8)) := by
  have opens : Device.working.opens = true := rfl
  obtain ⟨stored, noticed⟩ := updateImageChunksOnDisk_overwrites chunks updatedAt
    {} 0 0 opens rfl rfl (by simp [empty]) content
  have returned := noticed.mpr (Or.inl ⟨encodeUInt64_length updatedAt, rfl⟩)
  have zeros : encodeTable chunks = encodeSize 0 := by simp [encodeTable, empty, encodeChunks]
  have timed : overwrite content 0 (encodeUInt64 updatedAt)
      = encodeUInt64 updatedAt ++ content.drop 8 := by
    rw [overwrite_of_le (Nat.zero_le _)]
    simp
  have landed : overwrite (overwrite content 0 (encodeUInt64 updatedAt)) 0 (encodeTable chunks)
      = encodeSize 0 ++ content.drop 8 := by
    rw [zeros, timed, overwrite_of_le (Nat.zero_le _)]
    simp
  exact Prod.ext returned (stored.trans (congrArg some landed))

-----------------------------------------------------------------------------------------
-- Interrupted updates
-----------------------------------------------------------------------------------------

/-- The same range with no fewer bytes. -/
structure ChunkState.GrowsTo (old new : ChunkState) : Prop where
  startRange : old.startRange = new.startRange
  endRange : old.endRange = new.endRange
  downloaded : old.downloaded ≤ new.downloaded

def overwrittenChunk (cut : Nat) (new old : ChunkState) : ChunkState :=
  { new with downloaded := overwrittenUInt64 (cut - 16) new.downloaded old.downloaded }

theorem encodeChunk_overwrittenChunk (cut : Nat) {new old : ChunkState}
    (grows : old.GrowsTo new)
    : splice cut (encodeChunk new) (encodeChunk old)
        = encodeChunk (overwrittenChunk cut new old) := by
  have ranges : (encodeUInt64 new.startRange ++ encodeUInt64 new.endRange).length = 16 := by
    simp
  rw [encodeChunk, encodeChunk, grows.startRange, grows.endRange, splice_append cut rfl,
    splice_self, ranges, ← encodeUInt64_overwrittenUInt64]
  rfl

/-- A table that is overwritten in part is a table between the two, by induction on the
entries: the cut is behind an entry, inside it or before it.
-/
theorem exists_overwrittenChunks {old new : List ChunkState}
    (grows : List.Forall₂ ChunkState.GrowsTo old new) (cut : Nat)
    : ∃ between : List ChunkState,
        List.Forall₂ ChunkState.GrowsTo between new
        ∧ splice cut (encodeChunks new) (encodeChunks old) = encodeChunks between := by
  induction grows generalizing cut with
  | nil => exact ⟨[], .nil, by simp [splice, encodeChunks]⟩
  | @cons old new olds news grows _ ih =>
      obtain ⟨between, inside, rest⟩ := ih (cut - 24)
      refine ⟨overwrittenChunk cut new old :: between, .cons ⟨rfl, rfl, ?_⟩ inside, ?_⟩
      · exact overwrittenUInt64_le _ grows.downloaded
      · simp only [encodeChunks, List.flatMap_cons] at rest ⊢
        rw [splice_append cut (by simp), encodeChunk_overwrittenChunk cut grows,
          encodeChunk_length, rest]

theorem exists_overwrittenTable {old new : ChunkTable}
    (grows : List.Forall₂ ChunkState.GrowsTo old.items new.items) (cut : Nat)
    : ∃ between : ChunkTable,
        List.Forall₂ ChunkState.GrowsTo between.items new.items
        ∧ splice cut (encodeTable new) (encodeTable old) = encodeTable between := by
  obtain ⟨items, inside, rest⟩ := exists_overwrittenChunks grows (cut - 8)
  have sameNew := inside.length_eq
  have sameOld := grows.length_eq
  refine ⟨⟨items, sameNew ▸ new.size_le⟩, inside, ?_⟩
  rw [encodeTable, encodeTable, sameOld, splice_append cut rfl, splice_self, encodeSize_length,
    rest]
  simp only [encodeTable, sameNew]

/-- However much of an update reaches the disk, the file is that of an image whose counts do
not exceed the new ones.
-/
theorem exists_updated (img : JobImage) {chunks : ChunkTable} (updatedAt : UInt64)
    (device : Device) (grows : List.Forall₂ ChunkState.GrowsTo img.chunks.items chunks.items)
    : ∃ (time : UInt64) (between : ChunkTable),
        List.Forall₂ ChunkState.GrowsTo between.items chunks.items
        ∧ (updateImageChunksOnDisk (imageIndex img) chunks updatedAt device
            (some (encodeImage img))).2
          = some (encodeImage { img with updatedAt := time, chunks := between }) := by
  have same := grows.length_eq
  by_cases opens : device.opens = true
  · obtain ⟨content, _⟩ := updateImageChunksOnDisk_of_opens img chunks updatedAt device opens
      same.symm
    obtain ⟨between, inside, table⟩ := exists_overwrittenTable grows
      ((roomForTable device).getD (encodeTable chunks).length)
    refine ⟨overwrittenUInt64 (device.room.getD 8) updatedAt img.updatedAt, between, inside, ?_⟩
    rw [content, reach_append_drop device.room (by simp),
      reach_append_drop _ (encodeTable_length_eq img chunks same.symm), table,
      encodeUInt64_length, ← encodeUInt64_overwrittenUInt64]
    rfl
  · refine ⟨img.updatedAt, img.chunks, grows, ?_⟩
    have counted : ¬ (imageIndex img).chunkCount ≠ chunks.items.length := by
      simp [imageIndex, same]
    rw [updateImageChunksOnDisk, if_neg counted]
    simp [opens]

/-- Wherever the bytes of an update are cut off, the file is an image with the ranges of the
chunks and with no count above the new one.
-/
theorem readImageFromDisk_interrupted (img : JobImage) (chunks : ChunkTable)
    (updatedAt : UInt64) (index readerIndex : JobImageIndex) (old : Option Bytes)
    (device : Device) (grows : List.Forall₂ ChunkState.GrowsTo img.chunks.items chunks.items)
    : ∃ (read : JobImage) (readIndex : JobImageIndex),
        readImageFromDisk readerIndex
            (updateImageChunksOnDisk (writeImageToDisk img .working index old).index chunks
              updatedAt device (writeImageToDisk img .working index old).file).2
          = .ok (read, readIndex)
        ∧ List.Forall₂ ChunkState.GrowsTo read.chunks.items chunks.items := by
  obtain ⟨time, between, inside, file⟩ := exists_updated img updatedAt device grows
  rw [writeImageToDisk_working, file]
  exact ⟨_, _, readImageFromDisk_encodeImage _ readerIndex, inside⟩

/-- The cut falls behind the first byte of a counter that goes from 255 to 256. -/
theorem readImageFromDisk_interrupted_carry
    : ∃ (read : JobImage) (readIndex : JobImageIndex),
        readImageFromDisk {}
            (updateImageChunksOnDisk (writeImageToDisk (oneChunkImage 255) .working {} none).index
              (oneChunkImage 256).chunks 7 { room := some 33 }
              (writeImageToDisk (oneChunkImage 255) .working {} none).file).2
          = .ok (read, readIndex)
        ∧ List.Forall₂ ChunkState.GrowsTo read.chunks.items (oneChunkImage 256).chunks.items :=
  readImageFromDisk_interrupted (oneChunkImage 255) (oneChunkImage 256).chunks 7 {} {} none
    { room := some 33 } (.cons ⟨rfl, rfl, by decide⟩ .nil)

end Muld.Disk
