import Muld.JobImage
import Mathlib.Data.UInt

/-! The layout of an image file, that the writer produces it, and that the reader gets the
image and its index back from it and accepts none of its strict prefixes.
-/

namespace Muld.Disk

open FileStreams LittleEndian

-----------------------------------------------------------------------------------------
-- The layout
-----------------------------------------------------------------------------------------

def encodeString (value : StringField) : Bytes := encodeSize value.items.length ++ value.items

def encodeTable (chunks : ChunkTable) : Bytes :=
  encodeSize chunks.items.length ++ encodeChunks chunks.items

/-- The fields before the time of the last update. -/
def encodeHead (img : JobImage) : Bytes :=
  encodeUInt32 kVersion ++ encodeUInt64 img.fileSize ++ encodeInt32 img.maxConnections
    ++ encodeBool img.ranged ++ encodeUInt64 img.createdAt

def encodeStrings (img : JobImage) : Bytes :=
  encodeString img.filePath ++ encodeString img.url ++ encodeString img.etag
    ++ encodeString img.lastModified

/-- The file of an image. -/
def encodeImage (img : JobImage) : Bytes :=
  encodeHead img ++ encodeUInt64 img.updatedAt ++ encodeStrings img ++ encodeTable img.chunks

/-- Where the fields of the file of an image start. -/
def imageIndex (img : JobImage) : JobImageIndex :=
  let strings := (encodeHead img ++ encodeUInt64 img.updatedAt).length
  let filePath := (encodeString img.filePath).length
  let url := (encodeString img.url).length
  let etag := (encodeString img.etag).length
  {
    updatedAtOffset := (encodeHead img).length
    filePathOffset := strings
    urlOffset := (strings + filePath : Nat)
    etagOffset := (strings + filePath + url : Nat)
    lastModifiedOffset := (strings + filePath + url + etag : Nat)
    chunksOffset := (strings + (encodeStrings img).length : Nat)
    chunkCount := img.chunks.items.length
  }

@[simp]
theorem encodeUInt64_length (value : UInt64) : (encodeUInt64 value).length = 8 :=
  encode_length 8 _

@[simp]
theorem encodeSize_length (size : Nat) : (encodeSize size).length = 8 := encode_length 8 _

@[simp]
theorem encodeUInt32_length (value : UInt32) : (encodeUInt32 value).length = 4 :=
  encode_length 4 _

@[simp]
theorem encodeInt32_length (value : Int32) : (encodeInt32 value).length = 4 :=
  encode_length 4 _

@[simp]
theorem encodeBool_length (value : Bool) : (encodeBool value).length = 1 := rfl

@[simp]
theorem encodeChunk_length (chunk : ChunkState) : (encodeChunk chunk).length = 24 := by
  simp [encodeChunk]

theorem encodeChunks_length (chunks : List ChunkState)
    : (encodeChunks chunks).length = chunks.length * chunkStateSize := by
  induction chunks with
  | nil => rfl
  | cons chunk rest ih =>
      rw [encodeChunks, List.flatMap_cons, List.length_append, encodeChunk_length,
        ← encodeChunks, ih, List.length_cons, Nat.succ_mul, Nat.add_comm, chunkStateSize]

@[simp]
theorem encodeHead_length (img : JobImage) : (encodeHead img).length = 25 := by
  simp [encodeHead]

-----------------------------------------------------------------------------------------
-- Fields
-----------------------------------------------------------------------------------------

theorem decodeUInt64_encodeUInt64 (value : UInt64)
    : decodeUInt64 (encodeUInt64 value) = value := by
  rw [decodeUInt64, encodeUInt64, decode_encode_of_lt value.toNat_lt, UInt64.ofNat_toNat]

theorem decodeUInt32_encodeUInt32 (value : UInt32)
    : decodeUInt32 (encodeUInt32 value) = value := by
  rw [decodeUInt32, encodeUInt32, decode_encode_of_lt value.toNat_lt, UInt32.ofNat_toNat]

theorem decodeInt32_encodeInt32 (value : Int32)
    : decodeInt32 (encodeInt32 value) = value := by
  rw [decodeInt32, encodeInt32, decodeUInt32_encodeUInt32, Int32.toInt32_toUInt32]

theorem decodeBool_encodeBool (value : Bool) : decodeBool (encodeBool value) = value := by
  cases value <;> decide

theorem decodeChunk_encodeChunk (chunk : ChunkState) (rest : Bytes)
    : decodeChunk (encodeChunk chunk ++ rest) = chunk := by
  have first : (encodeChunk chunk ++ rest).take 8 = encodeUInt64 chunk.startRange := by
    rw [encodeChunk, List.append_assoc, List.append_assoc, List.take_left' (by simp)]
  have second : ((encodeChunk chunk ++ rest).drop 8).take 8 = encodeUInt64 chunk.endRange := by
    rw [encodeChunk, List.append_assoc, List.append_assoc, List.drop_left' (by simp),
      List.take_left' (by simp)]
  have third : ((encodeChunk chunk ++ rest).drop 16).take 8
      = encodeUInt64 chunk.downloaded := by
    rw [encodeChunk, List.append_assoc, List.drop_left' (by simp), List.take_left' (by simp)]
  rw [decodeChunk, first, second, third]
  simp only [decodeUInt64_encodeUInt64]

/-- The entries of a table are read back, one by one. -/
theorem decodeChunks_encodeChunks (chunks : List ChunkState)
    : decodeChunks chunks.length (encodeChunks chunks) = chunks := by
  induction chunks with
  | nil => rfl
  | cons chunk rest ih =>
      rw [encodeChunks, List.flatMap_cons, ← encodeChunks, List.length_cons, decodeChunks,
        decodeChunk_encodeChunk, List.drop_left' (by simp [chunkStateSize]), ih]

/-- A container's size fits its field. -/
theorem decode_encodeSize {size : Nat} (fits : size ≤ maxObjectSize)
    : decode (encodeSize size) = size := by
  rw [encodeSize, decode_encode_of_lt]
  exact Nat.lt_of_le_of_lt fits (by decide)

theorem tableSize_le (chunks : ChunkTable) : chunks.items.length ≤ maxObjectSize :=
  Nat.le_trans chunks.size_le (Nat.div_le_self _ _)

-----------------------------------------------------------------------------------------
-- What the writer produces
-----------------------------------------------------------------------------------------

section Writing

variable {first out : OutStream} {bytes : Bytes}

theorem writeStringField_wrote (wrote : first.Wrote bytes out) (value : StringField)
    : first.Wrote (bytes ++ encodeString value) (writeStringField value out).2 := by
  rw [encodeString, ← List.append_assoc]
  exact (wrote.write _).write _

theorem writeChunks_wrote (wrote : first.Wrote bytes out) (chunks : ChunkTable)
    : first.Wrote (bytes ++ encodeTable chunks) (writeChunks chunks out) := by
  have sized := wrote.write (encodeSize chunks.items.length)
  rw [encodeTable, ← List.append_assoc, writeChunks]
  split
  · rename_i empty
    simpa [empty, encodeChunks] using sized
  · exact sized.write _

theorem good_of_writeStringField {value : StringField}
    (good : (writeStringField value out).2.good = true) : out.good = true :=
  OutStream.good_of_write (OutStream.good_of_write good)

theorem good_of_writeChunks {chunks : ChunkTable}
    (good : (writeChunks chunks out).good = true) : out.good = true := by
  rw [writeChunks] at good
  split at good
  · exact OutStream.good_of_write good
  · exact OutStream.good_of_write (OutStream.good_of_write good)

theorem writeChunks_bad (bad : out.good = false) (chunks : ChunkTable)
    : writeChunks chunks out = out := by
  simp only [writeChunks, OutStream.write_bad bad, ite_self]

end Writing

/-- The image is written front to back, and the index is right when the last write is good. -/
theorem writeImageToDisk_wrote (img : JobImage) {device : Device} (opens : device.opens = true)
    (index : JobImageIndex) (file : Option Bytes)
    : ∃ last : OutStream,
        (OutStream.start [] device).Wrote (encodeImage img) last
        ∧ (writeImageToDisk img device index file).returned = last.good
        ∧ (writeImageToDisk img device index file).file = some last.content
        ∧ (last.good = true → (writeImageToDisk img device index file).index = imageIndex img) := by
  have begun := OutStream.wrote_nothing (OutStream.start [] device) rfl
  have atTime := ((((begun.write (encodeUInt32 kVersion)).write
    (encodeUInt64 img.fileSize)).write (encodeInt32 img.maxConnections)).write
      (encodeBool img.ranged)).write (encodeUInt64 img.createdAt)
  have atFilePath := atTime.write (encodeUInt64 img.updatedAt)
  have atUrl := writeStringField_wrote atFilePath img.filePath
  have atEtag := writeStringField_wrote atUrl img.url
  have atLastModified := writeStringField_wrote atEtag img.etag
  have atChunks := writeStringField_wrote atLastModified img.lastModified
  have whole := writeChunks_wrote atChunks img.chunks
  have layout : encodeImage img
      = [] ++ encodeUInt32 kVersion ++ encodeUInt64 img.fileSize
        ++ encodeInt32 img.maxConnections ++ encodeBool img.ranged
        ++ encodeUInt64 img.createdAt ++ encodeUInt64 img.updatedAt
        ++ encodeString img.filePath ++ encodeString img.url ++ encodeString img.etag
        ++ encodeString img.lastModified ++ encodeTable img.chunks := by
    simp [encodeImage, encodeHead, encodeStrings]
  rw [← layout] at whole
  refine ⟨_, whole, ?_, ?_, ?_⟩
  · rw [writeImageToDisk, if_pos opens]
  · rw [writeImageToDisk, if_pos opens]
  · intro good
    have chunksGood := good_of_writeChunks good
    have lastModifiedGood := good_of_writeStringField chunksGood
    have etagGood := good_of_writeStringField lastModifiedGood
    have urlGood := good_of_writeStringField etagGood
    have filePathGood := good_of_writeStringField urlGood
    have timeGood := OutStream.good_of_write filePathGood
    have origin : (OutStream.start [] device).position = 0 := rfl
    rw [writeImageToDisk, if_pos opens, imageIndex, JobImageIndex.mk.injEq]
    refine ⟨(atFilePath.tellp filePathGood).trans ?_, (atUrl.tellp urlGood).trans ?_,
      (atEtag.tellp etagGood).trans ?_, (atLastModified.tellp lastModifiedGood).trans ?_,
      (atTime.tellp timeGood).trans ?_, (atChunks.tellp chunksGood).trans ?_, rfl⟩
    all_goals simp [origin, encodeStrings] <;> omega

/-- What a device takes of the image is in the file, and success means a right index. -/
theorem writeImageToDisk_of_opens (img : JobImage) (device : Device) (opens : device.opens = true)
    (index : JobImageIndex) (file : Option Bytes)
    : (writeImageToDisk img device index file).file
        = some (reach device.room (encodeImage img))
      ∧ ((writeImageToDisk img device index file).returned = true
        ↔ (reach device.room (encodeImage img)).length = (encodeImage img).length
          ∨ device.reports = false)
      ∧ ((writeImageToDisk img device index file).returned = true →
        (writeImageToDisk img device index file).index = imageIndex img) := by
  obtain ⟨last, wrote, returned, content, indexed⟩ := writeImageToDisk_wrote img opens index file
  refine ⟨?_, ?_, ?_⟩
  · rw [content, wrote.content, OutStream.start, overwrite_of_le (Nat.zero_le _)]
    simp
  · rw [returned]
    exact wrote.good
  · rw [returned]
    exact indexed

/-- With every write taken, the file is the image's. -/
theorem writeImageToDisk_working (img : JobImage) (index : JobImageIndex) (file : Option Bytes)
    : writeImageToDisk img .working index file
        = { returned := true, index := imageIndex img, file := some (encodeImage img) } := by
  obtain ⟨content, returned, indexed⟩ :=
    writeImageToDisk_of_opens img .working rfl index file
  have success : (writeImageToDisk img .working index file).returned = true :=
    returned.mpr (Or.inl rfl)
  rw [← success, ← indexed success]
  exact congrArg (Written.mk _ _) content

-----------------------------------------------------------------------------------------
-- What the reader makes of it
-----------------------------------------------------------------------------------------

section Reading

variable (before : Bytes)

theorem reads_readSize {size : Nat} (fits : size ≤ maxObjectSize)
    : Reader.Reads readSize before (encodeSize size) size [] := by
  have reads := Reader.reads_readAs before (encodeSize_length size) decode
  rwa [decode_encodeSize fits] at reads

theorem reads_readStringField (value : StringField)
    : Reader.Reads readStringField before (encodeString value) value
        [value.items.length] := by
  refine (reads_readSize before value.size_le).bind ?_
  refine (Reader.reads_check _).bind_silent ?_
  refine .bind_resize value.size_le ?_
  refine (Reader.reads_readUnlessEmpty _ rfl).bind_last ?_
  refine (Reader.reads_check _).bind_silent ?_
  rw [SizedList.ofList_items]
  exact Reader.reads_pure _ _

theorem reads_readChunks (chunks : ChunkTable)
    : Reader.Reads readChunks before (encodeTable chunks) chunks [chunks.items.length] := by
  refine (reads_readSize before (tableSize_le chunks)).bind ?_
  refine .bind_resize chunks.size_le ?_
  refine (Reader.reads_readUnlessEmpty _ (encodeChunks_length chunks.items)).bind_last ?_
  rw [decodeChunks_encodeChunks, SizedList.ofList_items]
  exact Reader.reads_pure _ _

/-- The buffers a reader of the image asks for. -/
def imageSizes (img : JobImage) : List Nat :=
  [img.filePath.items.length, img.url.items.length, img.etag.items.length,
    img.lastModified.items.length, img.chunks.items.length]

theorem reads_encodeUInt64 (value : UInt64)
    : Reader.Reads (Reader.readAs 8 decodeUInt64) before (encodeUInt64 value) value [] := by
  have reads := Reader.reads_readAs before (encodeUInt64_length value) decodeUInt64
  rwa [decodeUInt64_encodeUInt64] at reads

theorem reads_encodeInt32 (value : Int32)
    : Reader.Reads (Reader.readAs 4 decodeInt32) before (encodeInt32 value) value [] := by
  have reads := Reader.reads_readAs before (encodeInt32_length value) decodeInt32
  rwa [decodeInt32_encodeInt32] at reads

theorem reads_encodeBool (value : Bool)
    : Reader.Reads (Reader.readAs 1 decodeBool) before (encodeBool value) value [] := by
  have reads := Reader.reads_readAs before (encodeBool_length value) decodeBool
  rwa [decodeBool_encodeBool] at reads

theorem reads_readVersioned (img : JobImage) (index : JobImageIndex)
    : Reader.Reads (readVersioned index) (encodeUInt32 kVersion)
        (encodeUInt64 img.fileSize ++ (encodeInt32 img.maxConnections
          ++ (encodeBool img.ranged ++ (encodeUInt64 img.createdAt
            ++ (encodeUInt64 img.updatedAt ++ (encodeString img.filePath
              ++ (encodeString img.url ++ (encodeString img.etag
                ++ (encodeString img.lastModified ++ encodeTable img.chunks)))))))))
        (img, imageIndex img) (imageSizes img) := by
  rw [readVersioned, imageSizes]
  refine (reads_encodeUInt64 _ img.fileSize).bind_field ?_
  refine (reads_encodeInt32 _ img.maxConnections).bind_field ?_
  refine (reads_encodeBool _ img.ranged).bind_field ?_
  refine (reads_encodeUInt64 _ img.createdAt).bind_field ?_
  refine (Reader.reads_tellg _).bind_silent ?_
  refine (reads_encodeUInt64 _ img.updatedAt).bind_field ?_
  refine (Reader.reads_check _).bind_silent ?_
  refine (Reader.reads_tellg _).bind_silent ?_
  refine (reads_readStringField _ img.filePath).bind ?_
  refine (Reader.reads_tellg _).bind_silent ?_
  refine (reads_readStringField _ img.url).bind ?_
  refine (Reader.reads_tellg _).bind_silent ?_
  refine (reads_readStringField _ img.etag).bind ?_
  refine (Reader.reads_tellg _).bind_silent ?_
  refine (reads_readStringField _ img.lastModified).bind ?_
  refine (Reader.reads_tellg _).bind_silent ?_
  refine (reads_readChunks _ img.chunks).bind_last ?_
  refine (Reader.reads_check _).bind_silent ?_
  convert Reader.reads_pure _ _ using 1
  simp [imageIndex, encodeStrings]
  refine ⟨?_, ?_, ?_, ?_⟩ <;> omega

theorem encodeImage_eq (img : JobImage)
    : encodeImage img
        = encodeUInt32 kVersion ++ (encodeUInt64 img.fileSize
          ++ (encodeInt32 img.maxConnections ++ (encodeBool img.ranged
            ++ (encodeUInt64 img.createdAt ++ (encodeUInt64 img.updatedAt
              ++ (encodeString img.filePath ++ (encodeString img.url
                ++ (encodeString img.etag ++ (encodeString img.lastModified
                  ++ encodeTable img.chunks))))))))) := by
  simp [encodeImage, encodeHead, encodeStrings]

theorem reads_readImage (img : JobImage) (index : JobImageIndex)
    : Reader.Reads (readImage index) [] (encodeImage img) (img, imageIndex img)
        (imageSizes img) := by
  have version := Reader.reads_readAs [] (encodeUInt32_length kVersion) decodeUInt32
  rw [decodeUInt32_encodeUInt32] at version
  rw [encodeImage_eq]
  refine version.bind_field ?_
  refine (Reader.reads_check _).bind_silent ?_
  rw [if_pos rfl]
  exact reads_readVersioned img index

end Reading

/-- The reader gets the image and its index back. -/
theorem readImageFromDisk_encodeImage (img : JobImage) (index : JobImageIndex)
    : readImageFromDisk index (some (encodeImage img)) = .ok (img, imageIndex img) := by
  have reads := reads_readImage img index [] []
  rw [List.append_nil] at reads
  rw [readImageFromDisk, reads]

/-- Decoding undoes encoding: the reader gets the image that was written, and both fill the
same index.
-/
theorem readImageFromDisk_writeImageToDisk (img : JobImage) (index readerIndex : JobImageIndex)
    (file : Option Bytes)
    : (writeImageToDisk img .working index file).returned = true
      ∧ readImageFromDisk readerIndex (writeImageToDisk img .working index file).file
        = .ok (img, (writeImageToDisk img .working index file).index) := by
  rw [writeImageToDisk_working]
  exact ⟨rfl, readImageFromDisk_encodeImage img readerIndex⟩

-----------------------------------------------------------------------------------------
-- Truncated files
-----------------------------------------------------------------------------------------

section Truncated

variable (before : Bytes)

theorem refuses_number {α : Type} {bytes : Bytes} {width : Nat} (length : bytes.length = width)
    (value : Bytes → α)
    : Reader.Refuses (Reader.readAs width value) (fun _ => True) before bytes [] :=
  Reader.refuses_readAs before length fun _ _ => trivial

/-- What is read of a size that is cut off is at most the size. -/
theorem refuses_readSize {size : Nat} (fits : size ≤ maxObjectSize)
    : Reader.Refuses readSize (fun read => read ≤ size) before (encodeSize size) [] := by
  refine Reader.refuses_readAs before (encodeSize_length size) ?_
  intro cut prefix_
  rw [List.prefix_iff_eq_take.mp prefix_]
  calc decode ((encodeSize size).take cut.length)
      ≤ decode (encodeSize size) := decode_take_le _ _
    _ = size := decode_encodeSize fits

theorem refuses_readStringField (value : StringField)
    : Reader.Refuses readStringField (fun _ => False) before (encodeString value)
        [value.items.length] := by
  refine (refuses_readSize before value.size_le).bind (reads_readSize before value.size_le)
    (fun _ _ => Reader.idles_check _ _) ?_
  refine .bind_silent (Reader.reads_check _) ?_
  refine .bind_resize value.size_le ?_
  exact (Reader.refuses_readUnlessEmpty _ rfl).bind_last fun _ _ => Reader.idles_check _ _

theorem refuses_readChunks (chunks : ChunkTable)
    : Reader.Refuses readChunks (fun _ => True) before (encodeTable chunks)
        [chunks.items.length] := by
  have fits := tableSize_le chunks
  refine (refuses_readSize before fits).bind (reads_readSize before fits) ?_ ?_
  · intro size part
    refine .bind_resize (Nat.le_trans part chunks.size_le) part ?_
    exact (Reader.idles_readUnlessEmpty _).bind fun _ _ => Reader.idles_pure trivial
  · refine .bind_resize chunks.size_le ?_
    refine (Reader.refuses_readUnlessEmpty _ (encodeChunks_length chunks.items)).bind_last ?_
    exact fun _ _ => Reader.idles_pure trivial

theorem idles_number {α : Type} {width : Nat} {value : Bytes → α}
    : Reader.Idles (Reader.readAs width value) (fun _ => True) [] :=
  Reader.idles_readAs trivial

/-- A file cut off inside a fixed field fails the check behind them, one cut off inside a
string the check in its reader, and one cut off inside the table the last check.
-/
theorem refuses_readVersioned (img : JobImage) (index : JobImageIndex)
    : Reader.Refuses (readVersioned index) (fun _ => False) (encodeUInt32 kVersion)
        (encodeUInt64 img.fileSize ++ (encodeInt32 img.maxConnections
          ++ (encodeBool img.ranged ++ (encodeUInt64 img.createdAt
            ++ (encodeUInt64 img.updatedAt ++ (encodeString img.filePath
              ++ (encodeString img.url ++ (encodeString img.etag
                ++ (encodeString img.lastModified ++ encodeTable img.chunks)))))))))
        (imageSizes img) := by
  rw [readVersioned, imageSizes]
  refine (refuses_number _ (encodeUInt64_length img.fileSize) _).bind
    (reads_encodeUInt64 _ _) (fun _ _ => ?_) ?_
  · exact idles_number.bind fun _ _ => idles_number.bind fun _ _ => idles_number.bind fun _ _ =>
      Reader.idles_tellg.bind fun _ _ => idles_number.bind fun _ _ => Reader.idles_check _ _
  refine (refuses_number _ (encodeInt32_length img.maxConnections) _).bind
    (reads_encodeInt32 _ _) (fun _ _ => ?_) ?_
  · exact idles_number.bind fun _ _ => idles_number.bind fun _ _ =>
      Reader.idles_tellg.bind fun _ _ => idles_number.bind fun _ _ => Reader.idles_check _ _
  refine (refuses_number _ (encodeBool_length img.ranged) _).bind
    (reads_encodeBool _ _) (fun _ _ => ?_) ?_
  · exact idles_number.bind fun _ _ => Reader.idles_tellg.bind fun _ _ =>
      idles_number.bind fun _ _ => Reader.idles_check _ _
  refine (refuses_number _ (encodeUInt64_length img.createdAt) _).bind
    (reads_encodeUInt64 _ _) (fun _ _ => ?_) ?_
  · exact Reader.idles_tellg.bind fun _ _ => idles_number.bind fun _ _ => Reader.idles_check _ _
  refine .bind_silent (Reader.reads_tellg _) ?_
  refine (refuses_number _ (encodeUInt64_length img.updatedAt) _).bind
    (reads_encodeUInt64 _ _) (fun _ _ => Reader.idles_check _ _) ?_
  refine .bind_silent (Reader.reads_check _) ?_
  refine .bind_silent (Reader.reads_tellg _) ?_
  refine (refuses_readStringField _ img.filePath).bind (reads_readStringField _ _)
    (fun _ absurd => absurd.elim) ?_
  refine .bind_silent (Reader.reads_tellg _) ?_
  refine (refuses_readStringField _ img.url).bind (reads_readStringField _ _)
    (fun _ absurd => absurd.elim) ?_
  refine .bind_silent (Reader.reads_tellg _) ?_
  refine (refuses_readStringField _ img.etag).bind (reads_readStringField _ _)
    (fun _ absurd => absurd.elim) ?_
  refine .bind_silent (Reader.reads_tellg _) ?_
  refine (refuses_readStringField _ img.lastModified).bind (reads_readStringField _ _)
    (fun _ absurd => absurd.elim) ?_
  refine .bind_silent (Reader.reads_tellg _) ?_
  exact (refuses_readChunks _ img.chunks).bind_last fun _ _ => Reader.idles_check _ _

theorem refuses_readImage (img : JobImage) (index : JobImageIndex)
    : Reader.Refuses (readImage index) (fun _ => False) [] (encodeImage img)
        (imageSizes img) := by
  have version := Reader.reads_readAs [] (encodeUInt32_length kVersion) decodeUInt32
  rw [decodeUInt32_encodeUInt32] at version
  rw [encodeImage_eq]
  refine (refuses_number [] (encodeUInt32_length kVersion) _).bind version
    (fun _ _ => Reader.idles_check _ _) ?_
  refine .bind_silent (Reader.reads_check _) ?_
  rw [if_pos rfl]
  exact refuses_readVersioned img index

end Truncated

/-- A file that ends before its image does is not accepted. -/
theorem readImageFromDisk_truncated (img : JobImage) (index : JobImageIndex) {cut : Bytes}
    (prefix_ : cut <+: encodeImage img) (short : cut.length < (encodeImage img).length)
    : readImageFromDisk index (some cut) = .error .refused := by
  have ended := refuses_readImage img index cut [] prefix_ short
  rw [readImageFromDisk]
  generalize readImage index ⟨.between [] cut, []⟩ = outcome at ended
  cases ended with
  | refused => rfl
  | failed _ _ _ absurd => exact absurd.elim

end Muld.Disk
