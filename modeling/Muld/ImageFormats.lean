import Muld.UnversionedImages

/-! Both layouts of an image file. A file that is accepted holds every string and entry of its
image whole; the reader tells the layouts apart by the first four bytes, which in the layout
without a version belong to the length of a path.
-/

namespace Muld.Disk

open FileStreams LittleEndian

-----------------------------------------------------------------------------------------
-- The layout with a version
-----------------------------------------------------------------------------------------

/-- The strings and the table behind the fields of fixed width. -/
theorem takes_readVersioned (index : JobImageIndex)
    : Reader.Takes True (readVersioned index) fun result bytes =>
        ∃ numbers,
          numbers.length = 29
          ∧ bytes = numbers ++ encodeStrings result.1 ++ encodeTable result.1.chunks := by
  refine (Reader.takes_readAs _ 8 decodeUInt64).bind fun fileSize sizeBytes => ?_
  refine (Reader.takes_readAs _ 4 decodeInt32).bind fun maxConnections maxBytes => ?_
  refine (Reader.takes_readAs _ 1 decodeBool).bind fun ranged rangedBytes => ?_
  refine (Reader.takes_readAs _ 8 decodeUInt64).bind fun createdAt createdBytes => ?_
  refine (Reader.takes_tellg _).bind fun _ _ => ?_
  refine (Reader.takes_readAs _ 8 decodeUInt64).bind fun updatedAt updatedBytes => ?_
  refine (Reader.takes_check _).bind fun _ _ => ?_
  refine (Reader.takes_tellg _).bind fun _ _ => ?_
  refine (takes_readStringField _).bind fun filePath _ => ?_
  refine (Reader.takes_tellg _).bind fun _ _ => ?_
  refine (takes_readStringField _).bind fun url _ => ?_
  refine (Reader.takes_tellg _).bind fun _ _ => ?_
  refine (takes_readStringField _).bind fun etag _ => ?_
  refine (Reader.takes_tellg _).bind fun _ _ => ?_
  refine (takes_readStringField _).bind fun lastModified _ => ?_
  refine (Reader.takes_tellg _).bind fun _ _ => ?_
  refine (takes_readChunks _).bind fun chunks _ => ?_
  refine (Reader.takes_check _).bind fun _ _ => Reader.takes_pure ?_
  rintro ⟨⟨⟨⟨⟨⟨⟨⟨⟨⟨⟨⟨⟨⟨⟨⟨⟨⟨_, _, eight⟩, _, four⟩, _, one⟩, _, eight'⟩, rfl⟩, _, eight''⟩, rfl⟩,
    rfl⟩, rfl⟩, rfl⟩, rfl⟩, rfl⟩, rfl⟩, rfl⟩, rfl⟩, rfl⟩, rfl⟩, rfl⟩
  refine ⟨sizeBytes ++ maxBytes ++ rangedBytes ++ createdBytes ++ updatedBytes, ?_, ?_⟩
  · simp [eight, four, one, eight', eight'']
  · simp [encodeStrings]

theorem endsGood_readVersioned (index : JobImageIndex)
    : Reader.EndsGood (readVersioned index) :=
  .bind fun _ => .bind fun _ => .bind fun _ => .bind fun _ => .bind fun _ => .bind fun _ =>
    .bind fun _ => .bind fun _ => .bind fun _ => .bind fun _ => .bind fun _ => .bind fun _ =>
      .bind fun _ => .bind fun _ => .bind fun _ => .bind fun _ => .bind fun _ =>
        Reader.endsGood_check _

/-- A file that starts with the version goes to its branch. -/
theorem readImage_versioned (index : JobImageIndex) (rest : Bytes)
    : readImage index ⟨.between [] (encodeUInt32 kVersion ++ rest), []⟩
        = readVersioned index ⟨.between (encodeUInt32 kVersion) rest, []⟩ := by
  rw [readImage_branch, if_pos rfl]

/-- An accepted file of the version is made of the fields of its image. -/
theorem readImageFromDisk_versioned {index readIndex : JobImageIndex} {rest : Bytes}
    {img : JobImage}
    (read
      : readImageFromDisk index (some (encodeUInt32 kVersion ++ rest)) = .ok (img, readIndex))
    : ∃ numbers tail,
        numbers.length = 29
        ∧ rest = numbers ++ encodeStrings img ++ encodeTable img.chunks ++ tail := by
  rw [readImageFromDisk, readImage_versioned] at read
  cases taken : readVersioned index ⟨.between (encodeUInt32 kVersion) rest, []⟩ with
  | mk outcome further =>
      rw [taken] at read
      obtain rfl : outcome = .ok (img, readIndex) := read
      obtain ⟨_, tail, starts, ⟨numbers, length, rfl⟩, _⟩ :=
        (takes_readVersioned index).takes trivial _ _ _ _ _ taken
          (endsGood_readVersioned index _ _ _ taken)
      exact ⟨numbers, tail, length, starts⟩

-----------------------------------------------------------------------------------------
-- Every file
-----------------------------------------------------------------------------------------

/-- The file holds every string and entry of the image whole, in one of the two layouts. -/
inductive HoldsImage (content : Bytes) (img : JobImage) : Prop
  | versioned (numbers tail : Bytes) (length : numbers.length = 29)
      (starts
        : content
            = encodeUInt32 kVersion ++ numbers ++ encodeStrings img ++ encodeTable img.chunks
              ++ tail)
  | unversioned (tail : Bytes)
      (starts
        : content = encodeUnversioned img.filePath img.url img.chunks ++ tail)
      (others : img = unversionedImage img.filePath img.url img.chunks)

theorem encodeUInt32_decodeUInt32 {bytes : Bytes} (length : bytes.length = 4)
    : encodeUInt32 (decodeUInt32 bytes) = bytes := by
  have small := decode_lt bytes
  rw [length] at small
  rw [encodeUInt32, decodeUInt32, UInt32.toNat_ofNat_of_lt' small, ← length, encode_decode]

/-- A file of four bytes or more starts with some version. -/
theorem starts_with_version {content : Bytes} (enough : 4 ≤ content.length)
    : content = encodeUInt32 (decodeUInt32 (content.take 4)) ++ content.drop 4 := by
  rw [encodeUInt32_decodeUInt32 (by simpa using enough), List.take_append_drop]

/-- A shorter file is refused. -/
theorem readImageFromDisk_short (index : JobImageIndex) {content : Bytes}
    (short : content.length < 4)
    : readImageFromDisk index (some content) = .error .refused := by
  obtain ⟨_, bad⟩ := InStream.read_short [] short
  simp [readImageFromDisk, readImage, Reader.bind_apply, Reader.readAs, Reader.read,
    Reader.check, Reader.pure_apply, bad]

/-- What is read from an accepted file is in the file. -/
theorem holdsImage_of_read {index readIndex : JobImageIndex} {content : Bytes}
    {img : JobImage} (read : readImageFromDisk index (some content) = .ok (img, readIndex))
    : HoldsImage content img := by
  by_cases short : content.length < 4
  · rw [readImageFromDisk_short index short] at read
    cases read
  · have starts := starts_with_version (Nat.le_of_not_lt short)
    generalize decodeUInt32 (content.take 4) = version at starts
    rw [starts] at read ⊢
    by_cases current : version = kVersion
    · subst current
      obtain ⟨numbers, tail, length, behind⟩ := readImageFromDisk_versioned read
      exact .versioned numbers tail length (by rw [behind]; simp only [List.append_assoc])
    · obtain ⟨_, filePath, url, chunks, tail, behind, rfl⟩ :=
        (readImageFromDisk_unversioned_iff current index readIndex _ img).mp read
      exact .unversioned tail behind rfl

-----------------------------------------------------------------------------------------
-- Files without a version
-----------------------------------------------------------------------------------------

/-- The reader returns these strings and entries, and empty validators. -/
def ReadsBack (outcome : Except Stop (JobImage × JobImageIndex)) (filePath url : StringField)
    (chunks : ChunkTable) : Prop :=
  ∃ img index,
    outcome = .ok (img, index)
    ∧ img.filePath = filePath
    ∧ img.url = url
    ∧ img.chunks = chunks
    ∧ img.etag = .empty
    ∧ img.lastModified = .empty

/-- The first four bytes of the layout without a version are the low half of a length. -/
theorem version_of_unversioned (filePath url : StringField) (chunks : ChunkTable)
    : decodeUInt32 ((encodeUnversioned filePath url chunks).take 4) = kVersion
      ↔ filePath.items.length % 2 ^ 32 = 2 := by
  have half : (encodeUnversioned filePath url chunks).take 4
      = encode 4 filePath.items.length := by
    rw [encodeUnversioned, encodeString, List.append_assoc, List.append_assoc,
      List.take_append_of_le_length (by simp), encodeSize, encode_take _ _ _ (by omega)]
  rw [half, decodeUInt32, decode_encode, ← UInt32.toNat_inj, UInt32.toNat_ofNat', kVersion]
  change _ % 2 ^ 32 % 2 ^ 32 = 2 ↔ _
  rw [Nat.mod_mod]

theorem encodeUnversioned_length (filePath url : StringField) (chunks : ChunkTable)
    : (encodeUnversioned filePath url chunks).length
        = (encodeString filePath).length + (encodeString url).length
          + (encodeTable chunks).length := by
  rw [encodeUnversioned, List.length_append, List.length_append]

theorem four_le_encodeUnversioned (filePath url : StringField) (chunks : ChunkTable)
    : 4 ≤ (encodeUnversioned filePath url chunks).length := by
  rw [encodeUnversioned_length, encodeTable, List.length_append, encodeSize_length]
  omega

/-- In the layout of the version the same strings and entries need a longer file. -/
theorem not_readsBack_of_version {filePath url : StringField} {chunks : ChunkTable}
    (index : JobImageIndex)
    (clash : decodeUInt32 ((encodeUnversioned filePath url chunks).take 4) = kVersion)
    : ¬ ReadsBack (readImageFromDisk index (some (encodeUnversioned filePath url chunks)))
        filePath url chunks := by
  rintro ⟨img, readIndex, read, rfl, rfl, rfl, etag, lastModified⟩
  have length := encodeUnversioned_length img.filePath img.url img.chunks
  have starts := starts_with_version
    (four_le_encodeUnversioned img.filePath img.url img.chunks)
  rw [clash] at starts
  rw [starts] at read
  obtain ⟨numbers, tail, twenty_nine, behind⟩ := readImageFromDisk_versioned read
  rw [behind] at starts
  have total := congrArg List.length starts
  simp only [List.length_append, encodeUInt32_length, twenty_nine, encodeStrings, length]
    at total
  omega

/-- A file that does not look like one of the version is read back. -/
theorem readsBack_of_other {filePath url : StringField} {chunks : ChunkTable}
    (index : JobImageIndex)
    (other : decodeUInt32 ((encodeUnversioned filePath url chunks).take 4) ≠ kVersion)
    : ReadsBack (readImageFromDisk index (some (encodeUnversioned filePath url chunks)))
        filePath url chunks := by
  refine ⟨unversionedImage filePath url chunks, index, ?_, rfl, rfl, rfl, rfl, rfl⟩
  have starts := starts_with_version (four_le_encodeUnversioned filePath url chunks)
  rw [starts, readImageFromDisk_unversioned_iff other]
  exact ⟨rfl, filePath, url, chunks, [], by rw [← starts, List.append_nil], rfl⟩

/-- A file without a version is read back, and is not taken for one of the version, if and
only if the length of its path does not begin with the four bytes of the version.
-/
theorem legacy_image_read_back (filePath url : StringField) (chunks : ChunkTable)
    (index : JobImageIndex)
    : (ReadsBack (readImageFromDisk index (some (encodeUnversioned filePath url chunks)))
          filePath url chunks
        ↔ filePath.items.length % 2 ^ 32 ≠ 2)
      ∧ (decodeUInt32 ((encodeUnversioned filePath url chunks).take 4) ≠ kVersion
        ↔ filePath.items.length % 2 ^ 32 ≠ 2) := by
  have version := version_of_unversioned filePath url chunks
  refine ⟨⟨?_, ?_⟩, not_congr version⟩
  · intro readsBack clash
    exact not_readsBack_of_version index (version.mpr clash) readsBack
  · intro apart
    exact readsBack_of_other index fun same => apart (version.mp same)

/-- A path of two characters makes an older file look like one of the version. -/
theorem two_letter_path_misread
    : ¬ ∀ (filePath url : StringField) (chunks : ChunkTable) (index : JobImageIndex),
        ReadsBack (readImageFromDisk index (some (encodeUnversioned filePath url chunks)))
          filePath url chunks := by
  intro always
  have readsBack := always ⟨[97, 98], by decide⟩ .empty .empty {}
  exact not_readsBack_of_version {} (by decide) readsBack

-----------------------------------------------------------------------------------------
-- Truncated files
-----------------------------------------------------------------------------------------

/-- Every strict prefix of what the writer produces for an image is refused, and no buffer is
asked for that is larger than its field of the image.
-/
theorem truncated_image_refused (img : JobImage) (index writeIndex : JobImageIndex)
    {file : Option Bytes} {written cut : Bytes}
    (produced : (writeImageToDisk img .working writeIndex file).file = some written)
    (prefix_ : cut <+: written) (strict : cut ≠ written)
    : readImageFromDisk index (some cut) = .error .refused
      ∧ Reader.AtMost (readImage index ⟨.between [] cut, []⟩).2.asked (imageSizes img) := by
  obtain rfl : encodeImage img = written := by
    rw [writeImageToDisk_working] at produced
    exact Option.some.inj produced
  have short : cut.length < (encodeImage img).length :=
    Nat.lt_of_le_of_ne prefix_.length_le fun same => strict (prefix_.eq_of_length same)
  refine ⟨readImageFromDisk_truncated img index prefix_ short, ?_⟩
  have ended := refuses_readImage img index cut [] prefix_ short
  generalize readImage index ⟨.between [] cut, []⟩ = outcome at ended
  cases ended with
  | refused stream more small => exact small
  | failed _ _ _ absurd => exact absurd.elim

/-- An image without strings and entries whose file ends after three bytes. -/
theorem truncated_image_refused_three
    : readImageFromDisk {} (some [2, 0, 0]) = .error .refused
      ∧ Reader.AtMost (readImage {} ⟨.between [] [2, 0, 0], []⟩).2.asked
          (imageSizes (unversionedImage .empty .empty .empty)) :=
  @truncated_image_refused (unversionedImage .empty .empty .empty) {} {} none _ [2, 0, 0] rfl
    (by decide) (by decide)

end Muld.Disk
