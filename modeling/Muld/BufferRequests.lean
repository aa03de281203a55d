import Muld.ImageFormats
import Muld.Library.ReadScripts

/-! The buffers that the reader of an image asks for. It makes each one of the size it has
just read, before it is known whether the file goes on that far.
-/

namespace Muld.Disk

open FileStreams LittleEndian

-----------------------------------------------------------------------------------------
-- The reader step by step
-----------------------------------------------------------------------------------------

def readStringFieldSteps : Script StringField := do
  let size ← Script.readAs 8 decode
  Script.check
  Script.resize size 1 maxObjectSize
  let value ← Script.readUnlessEmpty size
  Script.check
  return .ofList value

def readChunksSteps : Script ChunkTable := do
  let size ← Script.readAs 8 decode
  Script.resize size chunkStateSize (maxObjectSize / chunkStateSize)
  let bytes ← Script.readUnlessEmpty (size * chunkStateSize)
  return .ofList (decodeChunks size bytes)

def readVersionedSteps (index : JobImageIndex) : Script (JobImage × JobImageIndex) := do
  let fileSize ← Script.readAs 8 decodeUInt64
  let maxConnections ← Script.readAs 4 decodeInt32
  let ranged ← Script.readAs 1 decodeBool
  let createdAt ← Script.readAs 8 decodeUInt64
  let updatedAtOffset ← Script.tellg
  let updatedAt ← Script.readAs 8 decodeUInt64
  Script.check
  let filePathOffset ← Script.tellg
  let filePath ← readStringFieldSteps
  let urlOffset ← Script.tellg
  let url ← readStringFieldSteps
  let etagOffset ← Script.tellg
  let etag ← readStringFieldSteps
  let lastModifiedOffset ← Script.tellg
  let lastModified ← readStringFieldSteps
  let chunksOffset ← Script.tellg
  let chunks ← readChunksSteps
  Script.check
  return (
    {
      filePath, fileSize, maxConnections, ranged, url, etag, lastModified, createdAt,
      updatedAt, chunks
    },
    {
      index with
      filePathOffset, urlOffset, etagOffset, lastModifiedOffset, updatedAtOffset,
      chunksOffset, chunkCount := chunks.items.length
    })

def readUnversionedSteps (index : JobImageIndex) : Script (JobImage × JobImageIndex) := do
  Script.seekg 0
  let filePath ← readStringFieldSteps
  let url ← readStringFieldSteps
  let chunks ← readChunksSteps
  Script.check
  return (unversionedImage filePath url chunks, index)

def readImageSteps (index : JobImageIndex) : Script (JobImage × JobImageIndex) := do
  let version ← Script.readAs 4 decodeUInt32
  Script.check
  if version = kVersion then readVersionedSteps index else readUnversionedSteps index

@[simp]
theorem run_readStringFieldSteps : readStringFieldSteps.run = readStringField := by
  simp only [readStringFieldSteps, Script.run_bind, Script.run_readAs, Script.run_check,
    Script.run_resize, Script.run_readUnlessEmpty, Script.run_pure]
  rfl

@[simp]
theorem run_readChunksSteps : readChunksSteps.run = readChunks := by
  simp only [readChunksSteps, Script.run_bind, Script.run_readAs, Script.run_resize,
    Script.run_readUnlessEmpty, Script.run_pure]
  rfl

@[simp]
theorem run_readVersionedSteps (index : JobImageIndex)
    : (readVersionedSteps index).run = readVersioned index := by
  simp only [readVersionedSteps, Script.run_bind, Script.run_readAs, Script.run_tellg,
    Script.run_check, run_readStringFieldSteps, run_readChunksSteps, Script.run_pure]
  rfl

@[simp]
theorem run_readUnversionedSteps (index : JobImageIndex)
    : (readUnversionedSteps index).run = readUnversioned index := by
  simp only [readUnversionedSteps, Script.run_bind, Script.run_seekg, Script.run_check,
    run_readStringFieldSteps, run_readChunksSteps, Script.run_pure]
  rfl

/-- The steps are those of the reader. -/
theorem run_readImageSteps (index : JobImageIndex)
    : (readImageSteps index).run = readImage index := by
  simp only [readImageSteps, Script.run_bind, Script.run_readAs, Script.run_check]
  have branches (version : UInt32)
      : (if version = kVersion then readVersionedSteps index
          else readUnversionedSteps index).run
        = if version = kVersion then readVersioned index else readUnversioned index := by
    split
    · exact run_readVersionedSteps index
    · exact run_readUnversionedSteps index
  simp only [branches]
  rfl

-----------------------------------------------------------------------------------------
-- Length fields
-----------------------------------------------------------------------------------------

/-- The size in front of some bytes; where fewer than eight are left, the size they begin. -/
def sizeAhead (rest : Bytes) : Nat := decode (rest.take 8)

/-- The count of the table is that of entries that follow. -/
def TableFits (rest : Bytes) : Prop :=
  sizeAhead rest * chunkStateSize ≤ rest.length - 8
  ∧ sizeAhead rest ≤ maxObjectSize / chunkStateSize

/-- The length of each string that is reached, and the count of the table behind `strings`
of them, are of bytes that follow.
-/
def StringsFit : Nat → Bytes → Prop
  | 0, rest => TableFits rest
  | strings + 1, rest =>
      8 ≤ rest.length
      → sizeAhead rest ≤ rest.length - 8
        ∧ sizeAhead rest ≤ maxObjectSize
        ∧ StringsFit strings (rest.drop (8 + sizeAhead rest))

/-- The same for a file: with the version it has 29 bytes of numbers and four strings,
without it two strings.
-/
def FieldsFit (content : Bytes) : Prop :=
  4 ≤ content.length
  → if decodeUInt32 (content.take 4) = kVersion then
      33 ≤ content.length → StringsFit 4 (content.drop 33)
    else StringsFit 2 content

instance decidableTableFits (rest : Bytes) : Decidable (TableFits rest) :=
  inferInstanceAs (Decidable (_ ∧ _))

instance decidableStringsFit
    : (strings : Nat) → (rest : Bytes) → Decidable (StringsFit strings rest)
  | 0, rest => decidableTableFits rest
  | strings + 1, rest =>
      have := decidableStringsFit strings (rest.drop (8 + sizeAhead rest))
      inferInstanceAs (Decidable (_ → _ ∧ _ ∧ _))

instance decidableFieldsFit (content : Bytes) : Decidable (FieldsFit content) :=
  inferInstanceAs (Decidable (_ → ite _ _ _))

-----------------------------------------------------------------------------------------
-- Buffers of fields
-----------------------------------------------------------------------------------------

variable {α : Type}

/-- A string asks for its buffer, and what follows it goes on behind it. -/
theorem modest_readStringField {next : StringField → Script α} (before rest : Bytes)
    : (readStringFieldSteps >>= next).Modest (.between before rest)
      ↔ (8 ≤ rest.length
        → sizeAhead rest ≤ rest.length - 8
          ∧ sizeAhead rest ≤ maxObjectSize
          ∧ (next (.ofList ((rest.drop 8).take (sizeAhead rest)))).Modest
              (.between (before ++ rest.take (8 + sizeAhead rest))
                (rest.drop (8 + sizeAhead rest)))) := by
  rw [readStringFieldSteps, Script.bind_assoc, Script.modest_field before rest]
  · refine imp_congr_right fun enough => ?_
    rw [Script.bind_assoc, Script.modest_check _ rfl, Script.bind_assoc, Script.modest_resize,
      Nat.mul_one, InStream.left_between, List.length_drop]
    refine and_congr_right fun inside => and_congr_right fun _ => ?_
    rw [← List.length_drop] at inside
    rw [Script.bind_assoc, Script.modest_readUnlessEmpty _ _ inside, Script.bind_assoc,
      Script.modest_check _ rfl, List.drop_drop, List.append_assoc, ← List.take_add]
    exact Iff.rfl
  · rw [Script.bind_assoc]
    exact Script.quiet_check _

/-- The table asks for its buffer also where its count was cut off. -/
theorem modest_readChunks {next : ChunkTable → Script α} (before rest : Bytes)
    (nothing : ∀ chunks stream, (next chunks).Modest stream)
    : (readChunksSteps >>= next).Modest (.between before rest) ↔ TableFits rest := by
  obtain ⟨delivered, left⟩ := InStream.read_between_take before rest 8
  rw [readChunksSteps, Script.bind_assoc]
  change Script.Modest (Script.resize _ _ _ >>= _ >>= _) _ ↔ _
  rw [delivered, Script.bind_assoc, Script.modest_resize, left, ← and_assoc]
  refine and_iff_left ?_
  rw [Script.bind_assoc]
  exact Script.modest_readUnlessEmpty_of_all _ (fun _ _ => nothing _ _) _

-----------------------------------------------------------------------------------------
-- Every file
-----------------------------------------------------------------------------------------

theorem modest_readUnversioned (index : JobImageIndex) (before rest : Bytes)
    : (readUnversionedSteps index).Modest (.between before rest)
      ↔ StringsFit 2 (before ++ rest) := by
  change Script.Modest (readStringFieldSteps >>= _) (.between [] (before ++ rest)) ↔ _
  rw [modest_readStringField]
  refine imp_congr_right fun _ => and_congr_right fun _ => and_congr_right fun _ => ?_
  rw [modest_readStringField]
  refine imp_congr_right fun _ => and_congr_right fun _ => and_congr_right fun _ => ?_
  exact modest_readChunks _ _ fun _ _ _ => trivial

theorem modest_readVersioned (index : JobImageIndex) (before rest : Bytes)
    : (readVersionedSteps index).Modest (.between before rest)
      ↔ (29 ≤ rest.length → StringsFit 4 (rest.drop 29)) := by
  rw [readVersionedSteps, Script.modest_field, Script.modest_field, Script.enough_for_both,
    List.drop_drop, Script.modest_field, Script.enough_for_both, List.drop_drop,
    Script.modest_field, Script.enough_for_both, List.drop_drop, Script.modest_tellg,
    Script.modest_field, Script.enough_for_both, List.drop_drop, Script.modest_check _ rfl]
  · refine imp_congr_right fun _ => ?_
    rw [Script.modest_tellg, modest_readStringField]
    refine imp_congr_right fun _ => and_congr_right fun _ => and_congr_right fun _ => ?_
    rw [Script.modest_tellg, modest_readStringField]
    refine imp_congr_right fun _ => and_congr_right fun _ => and_congr_right fun _ => ?_
    rw [Script.modest_tellg, modest_readStringField]
    refine imp_congr_right fun _ => and_congr_right fun _ => and_congr_right fun _ => ?_
    rw [Script.modest_tellg, modest_readStringField]
    refine imp_congr_right fun _ => and_congr_right fun _ => and_congr_right fun _ => ?_
    exact modest_readChunks _ _ fun _ _ _ => trivial
  · exact Script.quiet_check _
  · exact Script.quiet_tellg fun _ => Script.quiet_readAs _ _ (Script.quiet_check _)
  · exact Script.quiet_readAs _ _
      (Script.quiet_tellg fun _ => Script.quiet_readAs _ _ (Script.quiet_check _))
  · exact Script.quiet_readAs _ _ (Script.quiet_readAs _ _
      (Script.quiet_tellg fun _ => Script.quiet_readAs _ _ (Script.quiet_check _)))
  · exact Script.quiet_readAs _ _ (Script.quiet_readAs _ _ (Script.quiet_readAs _ _
      (Script.quiet_tellg fun _ => Script.quiet_readAs _ _ (Script.quiet_check _))))

/-- Every buffer that the reader makes is of bytes that follow if and only if the length
fields on its way are.
-/
theorem modest_readImage (index : JobImageIndex) (content : Bytes)
    : (readImageSteps index).Modest (.between [] content) ↔ FieldsFit content := by
  rw [readImageSteps, Script.modest_field, FieldsFit]
  · refine imp_congr_right fun enough => ?_
    rw [Script.modest_check _ rfl]
    split
    · have behind : 29 ≤ (content.drop 4).length ↔ 33 ≤ content.length := by
        rw [List.length_drop]
        omega
      rw [modest_readVersioned, List.drop_drop, behind]
    · rw [modest_readUnversioned, List.nil_append, List.take_append_drop]
  · exact Script.quiet_check _

/-- A run of the reader that returns true or false, makes no buffer larger than what is left
of the file, and returns only what it read whole.
-/
structure ReadsSafely (index : JobImageIndex) (content : Bytes) : Prop where
  contained : readImageFromDisk index (some content) ≠ .error .lengthError
  covered
    : ∀ request ∈ (readImageSteps index).requests (.between [] content),
        request.bytes ≤ request.left
  complete
    : ∀ img readIndex,
        readImageFromDisk index (some content) = .ok (img, readIndex) → HoldsImage content img

theorem readsSafely_iff (index : JobImageIndex) (content : Bytes)
    : ReadsSafely index content ↔ (readImageSteps index).Modest (.between [] content) := by
  rw [Script.modest_iff _ _ [], run_readImageSteps]
  constructor
  · intro safe
    exact ⟨safe.covered, safe.contained⟩
  · rintro ⟨covered, contained⟩
    exact {
      contained := contained
      covered := covered
      complete := fun _ _ read => holdsImage_of_read read
    }

/-- The reader is safe on exactly the files whose length fields, as far as it gets, are of
bytes that follow in the file.
-/
theorem image_read_safely_iff (content : Bytes) (index : JobImageIndex)
    : ReadsSafely index content ↔ FieldsFit content :=
  (readsSafely_iff index content).trans (modest_readImage index content)

/-- Eight bytes that ask for a string longer than any object. -/
theorem length_without_string_escapes
    : ¬ ∀ (content : Bytes) (index : JobImageIndex), ReadsSafely index content := by
  intro always
  exact (always (List.replicate 8 255) {}).contained rfl

end Muld.Disk
