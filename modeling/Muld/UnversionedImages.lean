import Muld.ImageRoundTrip

/-! Files without the version of the image. The reader accepts one exactly if it starts with
two strings and a table, and takes these for the image.
-/

namespace Muld.Disk

open FileStreams LittleEndian

/-- The file of the older format. -/
def encodeUnversioned (filePath url : StringField) (chunks : ChunkTable) : Bytes :=
  encodeString filePath ++ encodeString url ++ encodeTable chunks

/-- What the reader makes of a file of the older format. -/
def unversionedImage (filePath url : StringField) (chunks : ChunkTable) : JobImage where
  filePath := filePath
  fileSize := 0
  maxConnections := 0
  ranged := false
  url := url
  etag := .empty
  lastModified := .empty
  chunks := chunks

-----------------------------------------------------------------------------------------
-- Fields that were read
-----------------------------------------------------------------------------------------

/-- Eight bytes are the encoding of the size they stand for. -/
theorem encodeSize_decode {bytes : Bytes} (length : bytes.length = 8)
    : encodeSize (decode bytes) = bytes := by
  rw [encodeSize, ← length, encode_decode]

theorem encodeUInt64_decodeUInt64 {bytes : Bytes} (length : bytes.length = 8)
    : encodeUInt64 (decodeUInt64 bytes) = bytes := by
  have small := decode_lt bytes
  rw [length] at small
  rw [encodeUInt64, decodeUInt64, UInt64.toNat_ofNat_of_lt' small, ← length, encode_decode]

/-- The first bytes of an array of entries are those of its first entry. -/
theorem encodeChunk_decodeChunk {bytes : Bytes} (enough : chunkStateSize ≤ bytes.length)
    : encodeChunk (decodeChunk bytes) = bytes.take chunkStateSize := by
  rw [chunkStateSize] at enough
  have field : ∀ start, start + 8 ≤ 24 → ((bytes.drop start).take 8).length = 8 := by
    intro start inside
    rw [List.length_take, List.length_drop]
    omega
  simp only [encodeChunk, decodeChunk]
  have first := field 0 (by omega)
  rw [List.drop_zero] at first
  rw [encodeUInt64_decodeUInt64 first, encodeUInt64_decodeUInt64 (field 8 (by omega)),
    encodeUInt64_decodeUInt64 (field 16 (by omega)), ← List.take_add, ← List.take_add,
    chunkStateSize]

theorem encodeChunks_decodeChunks {count : Nat} {bytes : Bytes}
    (length : bytes.length = count * chunkStateSize)
    : encodeChunks (decodeChunks count bytes) = bytes := by
  induction count generalizing bytes with
  | zero => exact (List.eq_nil_of_length_eq_zero (by simpa using length)).symm
  | succ count ih =>
      have rest : (bytes.drop chunkStateSize).length = count * chunkStateSize := by
        rw [List.length_drop, length, Nat.succ_mul, Nat.add_sub_cancel]
      have first : chunkStateSize ≤ bytes.length := by
        rw [length, Nat.succ_mul]
        exact Nat.le_add_left _ _
      rw [decodeChunks, encodeChunks, List.flatMap_cons, ← encodeChunks, ih rest,
        encodeChunk_decodeChunk first, List.take_append_drop]

theorem decodeChunks_length (count : Nat) (bytes : Bytes)
    : (decodeChunks count bytes).length = count := by
  induction count generalizing bytes with
  | zero => rfl
  | succ count ih => rw [decodeChunks, List.length_cons, ih]

theorem takes_readStringField (known : Prop)
    : Reader.Takes known readStringField fun value bytes => bytes = encodeString value := by
  refine (Reader.takes_readAs known 8 decode).bind fun size width => ?_
  refine (Reader.takes_check _).bind fun _ _ => ?_
  refine (Reader.takes_resize _ _ _).bind fun _ _ => ?_
  refine (Reader.takes_readUnlessEmpty _ _).bind fun value bytes => ?_
  refine (Reader.takes_check _).bind fun _ _ => Reader.takes_pure ?_
  rintro ⟨⟨⟨⟨⟨_, rfl, eight⟩, rfl⟩, rfl, fits⟩, rfl, length⟩, rfl⟩
  have items : (SizedList.ofList value : StringField).items = value :=
    SizedList.items_ofList (length ▸ fits)
  rw [encodeString, items, length, encodeSize_decode eight]
  simp

theorem takes_readChunks (known : Prop)
    : Reader.Takes known readChunks fun value bytes => bytes = encodeTable value := by
  refine (Reader.takes_readAs known 8 decode).bind fun size width => ?_
  refine (Reader.takes_resize _ _ _).bind fun _ _ => ?_
  refine (Reader.takes_readUnlessEmpty _ _).bind fun entries bytes => Reader.takes_pure ?_
  rintro ⟨⟨⟨_, rfl, eight⟩, rfl, fits⟩, rfl, length⟩
  have count := decodeChunks_length (decode width) entries
  have items : (SizedList.ofList (decodeChunks (decode width) entries) : ChunkTable).items
      = decodeChunks (decode width) entries := SizedList.items_ofList (by rwa [count])
  rw [encodeTable, items, count, encodeSize_decode eight, encodeChunks_decodeChunks length]
  simp

-----------------------------------------------------------------------------------------
-- Whole files
-----------------------------------------------------------------------------------------

/-- The branch for files of another version, from the start of the file on. -/
def readUnversionedFields (index : JobImageIndex) : Reader (JobImage × JobImageIndex) := do
  let filePath ← readStringField
  let url ← readStringField
  let chunks ← readChunks
  Reader.check
  return (unversionedImage filePath url chunks, index)

/-- The branch starts over at the first byte. -/
theorem readUnversioned_between (index : JobImageIndex) (before ahead : Bytes)
    (asked : List Nat)
    : readUnversioned index ⟨.between before ahead, asked⟩
        = readUnversionedFields index ⟨.between [] (before ++ ahead), asked⟩ := rfl

theorem takes_readUnversionedFields (index : JobImageIndex)
    : Reader.Takes True (readUnversionedFields index) fun result bytes =>
        ∃ filePath url chunks,
          bytes = encodeUnversioned filePath url chunks
          ∧ result = (unversionedImage filePath url chunks, index) := by
  refine (takes_readStringField _).bind fun filePath _ => ?_
  refine (takes_readStringField _).bind fun url _ => ?_
  refine (takes_readChunks _).bind fun chunks _ => ?_
  refine (Reader.takes_check _).bind fun _ _ => Reader.takes_pure ?_
  rintro ⟨⟨⟨⟨_, rfl⟩, rfl⟩, rfl⟩, rfl⟩
  exact ⟨filePath, url, chunks, by simp [encodeUnversioned], rfl⟩

theorem reads_readUnversionedFields (index : JobImageIndex) (filePath url : StringField)
    (chunks : ChunkTable)
    : Reader.Reads (readUnversionedFields index) [] (encodeUnversioned filePath url chunks)
        (unversionedImage filePath url chunks, index)
        ([filePath.items.length] ++ ([url.items.length] ++ [chunks.items.length])) := by
  rw [encodeUnversioned, List.append_assoc]
  refine (reads_readStringField _ filePath).bind ?_
  refine (reads_readStringField _ url).bind ?_
  refine (reads_readChunks _ chunks).bind_last ?_
  exact (Reader.reads_check _).bind_silent (Reader.reads_pure _ _)

theorem endsGood_readUnversionedFields (index : JobImageIndex)
    : Reader.EndsGood (readUnversionedFields index) :=
  .bind fun _ => .bind fun _ => .bind fun _ => Reader.endsGood_check _

/-- The first four bytes of a file decide about the branch. -/
theorem readImage_branch (version : UInt32) (index : JobImageIndex) (rest : Bytes)
    : readImage index ⟨.between [] (encodeUInt32 version ++ rest), []⟩
        = if version = kVersion then readVersioned index ⟨.between (encodeUInt32 version) rest, []⟩
          else readUnversioned index ⟨.between (encodeUInt32 version) rest, []⟩ := by
  have versioned := Reader.reads_readAs [] (encodeUInt32_length version) decodeUInt32 rest []
  have checked := Reader.reads_check (encodeUInt32 version) rest []
  rw [decodeUInt32_encodeUInt32] at versioned
  simp only [List.nil_append, List.append_nil] at versioned checked
  rw [readImage, Reader.bind_apply, versioned]
  dsimp only
  rw [Reader.bind_apply, checked]
  exact apply_ite (fun branch : Reader (JobImage × JobImageIndex) => branch _) _ _ _

/-- A file that starts with another version goes to the branch for other versions. -/
theorem readImage_unversioned {version : UInt32} (other : version ≠ kVersion)
    (index : JobImageIndex) (rest : Bytes)
    : readImage index ⟨.between [] (encodeUInt32 version ++ rest), []⟩
        = readUnversionedFields index ⟨.between [] (encodeUInt32 version ++ rest), []⟩ := by
  rw [readImage_branch, if_neg other]
  exact readUnversioned_between index (encodeUInt32 version) rest []

/-- A file that starts with another version is accepted exactly if it is of the older
format, with the fields it starts with.
-/
theorem readImageFromDisk_unversioned_iff {version : UInt32} (other : version ≠ kVersion)
    (index readIndex : JobImageIndex) (rest : Bytes) (img : JobImage)
    : readImageFromDisk index (some (encodeUInt32 version ++ rest)) = .ok (img, readIndex)
      ↔ readIndex = index
        ∧ ∃ filePath url chunks tail,
            encodeUInt32 version ++ rest = encodeUnversioned filePath url chunks ++ tail
            ∧ img = unversionedImage filePath url chunks := by
  rw [readImageFromDisk, readImage_unversioned other]
  constructor
  · intro read
    cases taken : readUnversionedFields index
        ⟨.between [] (encodeUInt32 version ++ rest), []⟩ with
    | mk outcome further =>
        rw [taken] at read
        obtain rfl : outcome = .ok (img, readIndex) := read
        obtain ⟨_, tail, starts, ⟨filePath, url, chunks, rfl, same⟩, _⟩ :=
          (takes_readUnversionedFields index).takes trivial _ _ _ _ _ taken
            (endsGood_readUnversionedFields index _ _ _ taken)
        obtain ⟨rfl, rfl⟩ := Prod.mk.inj same
        exact ⟨rfl, filePath, url, chunks, tail, starts, rfl⟩
  · rintro ⟨rfl, filePath, url, chunks, tail, starts, rfl⟩
    rw [starts, reads_readUnversionedFields]

/-- The older format has no connections. -/
theorem maxConnections_of_unversioned {version : UInt32} {rest : Bytes} {img : JobImage}
    {index readIndex : JobImageIndex} (other : version ≠ kVersion)
    (read
      : readImageFromDisk index (some (encodeUInt32 version ++ rest)) = .ok (img, readIndex))
    : img.maxConnections = 0 := by
  obtain ⟨_, filePath, url, chunks, _, _, rfl⟩ :=
    (readImageFromDisk_unversioned_iff other index readIndex rest img).mp read
  rfl

end Muld.Disk
