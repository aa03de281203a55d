import Muld.Types
import Muld.Library.LittleEndian
import Muld.Library.Readers

/-! The image of a job on disk: its fields at their widths, and the functions that write,
read and update the file. Widths and byte order are those of a little-endian 64-bit host.
-/

namespace Muld.Disk

open FileStreams LittleEndian

-----------------------------------------------------------------------------------------
-- The image
-----------------------------------------------------------------------------------------

/-- The elements of a container, no more than it can hold. -/
structure SizedList (α : Type) (limit : Nat) where
  items : List α
  size_le : items.length ≤ limit
deriving DecidableEq, Repr

namespace SizedList

variable {α : Type} {limit : Nat}

def empty : SizedList α limit := ⟨[], Nat.zero_le _⟩

/-- As many elements as fit. -/
def ofList (items : List α) : SizedList α limit where
  items := items.take limit
  size_le := List.length_take_le limit items

theorem ext_items {left right : SizedList α limit} (same : left.items = right.items)
    : left = right := by
  cases left
  cases right
  cases same
  rfl

@[simp]
theorem ofList_items (list : SizedList α limit) : ofList list.items = list :=
  ext_items (List.take_of_length_le list.size_le)

theorem items_ofList {items : List α} (fits : items.length ≤ limit)
    : (ofList items : SizedList α limit).items = items :=
  List.take_of_length_le fits

end SizedList

/-- No object is larger than the largest `ptrdiff_t`. -/
def maxObjectSize : Nat := 2 ^ 63 - 1

abbrev StringField := SizedList UInt8 maxObjectSize

structure ChunkState where
  startRange : UInt64
  endRange : UInt64
  downloaded : UInt64
deriving DecidableEq, Repr

/-- `sizeof(ChunkState)`. -/
def chunkStateSize : Nat := 24

abbrev ChunkTable := SizedList ChunkState (maxObjectSize / chunkStateSize)

/-- `JobImage::kVersion`. -/
def kVersion : UInt32 := 2

structure JobImage where
  filePath : StringField
  fileSize : UInt64
  maxConnections : Int32
  ranged : Bool
  url : StringField
  etag : StringField
  lastModified : StringField
  createdAt : UInt64 := 0
  updatedAt : UInt64 := 0
  chunks : ChunkTable
deriving DecidableEq, Repr

structure JobImageIndex where
  filePathOffset : Int := 0
  urlOffset : Int := 0
  etagOffset : Int := 0
  lastModifiedOffset : Int := 0
  updatedAtOffset : Int := 0
  chunksOffset : Int := 0
  chunkCount : Nat := 0
deriving DecidableEq, Repr

-----------------------------------------------------------------------------------------
-- Fields as bytes
-----------------------------------------------------------------------------------------

def encodeUInt64 (value : UInt64) : Bytes := encode 8 value.toNat

def decodeUInt64 (bytes : Bytes) : UInt64 := UInt64.ofNat (decode bytes)

def encodeSize (size : Nat) : Bytes := encode 8 size

def encodeUInt32 (value : UInt32) : Bytes := encode 4 value.toNat

def decodeUInt32 (bytes : Bytes) : UInt32 := UInt32.ofNat (decode bytes)

def encodeInt32 (value : Int32) : Bytes := encodeUInt32 value.toUInt32

def decodeInt32 (bytes : Bytes) : Int32 := (decodeUInt32 bytes).toInt32

def encodeBool (value : Bool) : Bytes := [if value then 1 else 0]

def decodeBool (bytes : Bytes) : Bool := decode bytes != 0

def encodeChunk (chunk : ChunkState) : Bytes :=
  encodeUInt64 chunk.startRange ++ encodeUInt64 chunk.endRange ++ encodeUInt64 chunk.downloaded

def decodeChunk (bytes : Bytes) : ChunkState where
  startRange := decodeUInt64 (bytes.take 8)
  endRange := decodeUInt64 ((bytes.drop 8).take 8)
  downloaded := decodeUInt64 ((bytes.drop 16).take 8)

def encodeChunks (chunks : List ChunkState) : Bytes := chunks.flatMap encodeChunk

/-- The first `count` entries of an array. -/
def decodeChunks : Nat → Bytes → List ChunkState
  | 0, _ => []
  | count + 1, bytes =>
      decodeChunk bytes :: decodeChunks count (bytes.drop chunkStateSize)

-----------------------------------------------------------------------------------------
-- Writing
-----------------------------------------------------------------------------------------

/-- The offset at which the field starts and the stream behind it. -/
def writeStringField (value : StringField) (out : OutStream) : Int × OutStream :=
  (out.tellp, (out.write (encodeSize value.items.length)).write value.items)

/-- The count and, if there are entries, the entries. -/
def writeChunks (chunks : ChunkTable) (out : OutStream) : OutStream :=
  let out := out.write (encodeSize chunks.items.length)
  if chunks.items = [] then out else out.write (encodeChunks chunks.items)

/-- What a function over the image file returns and leaves on disk. -/
structure Written where
  returned : Bool
  index : JobImageIndex
  /-- The content of the file, if there is one. -/
  file : Option Bytes
deriving DecidableEq, Repr

def writeImageToDisk (img : JobImage) (device : Device) (index : JobImageIndex)
    (file : Option Bytes) : Written :=
  if device.opens then
    let out := OutStream.start [] device
    let out := out.write (encodeUInt32 kVersion)
    let out := out.write (encodeUInt64 img.fileSize)
    let out := out.write (encodeInt32 img.maxConnections)
    let out := out.write (encodeBool img.ranged)
    let out := out.write (encodeUInt64 img.createdAt)
    let updatedAtOffset := out.tellp
    let out := out.write (encodeUInt64 img.updatedAt)
    let (filePathOffset, out) := writeStringField img.filePath out
    let (urlOffset, out) := writeStringField img.url out
    let (etagOffset, out) := writeStringField img.etag out
    let (lastModifiedOffset, out) := writeStringField img.lastModified out
    let chunksOffset := out.tellp
    let out := writeChunks img.chunks out
    {
      returned := out.good
      index := {
        filePathOffset
        urlOffset
        etagOffset
        lastModifiedOffset
        updatedAtOffset
        chunksOffset
        chunkCount := img.chunks.items.length
      }
      file := some out.content
    }
  else { returned := false, index, file }

/-- A stream opened for reading and writing needs the file to exist. -/
def updateImageChunksOnDisk (index : JobImageIndex) (chunks : ChunkTable) (updatedAt : UInt64)
    (device : Device) (file : Option Bytes) : Bool × Option Bytes :=
  if index.chunkCount ≠ chunks.items.length then (false, file)
  else
    match file with
    | none => (false, none)
    | some content =>
        if device.opens then
          let io := OutStream.start content device
          let io := io.seekp index.updatedAtOffset
          let io := io.write (encodeUInt64 updatedAt)
          let io := io.seekp index.chunksOffset
          let io := writeChunks chunks io
          (io.good, some io.content)
        else (false, some content)

-----------------------------------------------------------------------------------------
-- Reading
-----------------------------------------------------------------------------------------

def readSize : Reader Nat := Reader.readAs 8 decode

def readStringField : Reader StringField := do
  let size ← readSize
  Reader.check
  Reader.resize size maxObjectSize
  let value ← Reader.readUnlessEmpty size
  Reader.check
  return .ofList value

/-- The count and the entries; entries that the file does not hold stay zero. -/
def readChunks : Reader ChunkTable := do
  let size ← readSize
  Reader.resize size (maxObjectSize / chunkStateSize)
  let bytes ← Reader.readUnlessEmpty (size * chunkStateSize)
  return .ofList (decodeChunks size bytes)

/-- The branch for files of version `kVersion`, with the table behind it. -/
def readVersioned (index : JobImageIndex) : Reader (JobImage × JobImageIndex) := do
  let fileSize ← Reader.readAs 8 decodeUInt64
  let maxConnections ← Reader.readAs 4 decodeInt32
  let ranged ← Reader.readAs 1 decodeBool
  let createdAt ← Reader.readAs 8 decodeUInt64
  let updatedAtOffset ← Reader.tellg
  let updatedAt ← Reader.readAs 8 decodeUInt64
  Reader.check
  let filePathOffset ← Reader.tellg
  let filePath ← readStringField
  let urlOffset ← Reader.tellg
  let url ← readStringField
  let etagOffset ← Reader.tellg
  let etag ← readStringField
  let lastModifiedOffset ← Reader.tellg
  let lastModified ← readStringField
  let chunksOffset ← Reader.tellg
  let chunks ← readChunks
  Reader.check
  return (
    {
      filePath, fileSize, maxConnections, ranged, url, etag, lastModified, createdAt,
      updatedAt, chunks
    },
    {
      index with
      filePathOffset, urlOffset, etagOffset, lastModifiedOffset, updatedAtOffset,
      chunksOffset, chunkCount := chunks.items.length
    })

/-- The branch for every other file, which has no version field. -/
def readUnversioned (index : JobImageIndex) : Reader (JobImage × JobImageIndex) := do
  Reader.seekg 0
  let filePath ← readStringField
  let url ← readStringField
  let chunks ← readChunks
  Reader.check
  return (
    {
      filePath
      fileSize := 0
      maxConnections := 0
      ranged := false
      url
      etag := .empty
      lastModified := .empty
      chunks
    },
    index)

def readImage (index : JobImageIndex) : Reader (JobImage × JobImageIndex) := do
  let version ← Reader.readAs 4 decodeUInt32
  Reader.check
  if version = kVersion then readVersioned index else readUnversioned index

/-- The image and the index, or why there are none. -/
def readImageFromDisk (index : JobImageIndex) (file : Option Bytes)
    : Except Stop (JobImage × JobImageIndex) :=
  match file with
  | none => .error .refused
  | some content => (readImage index ⟨.between [] content, []⟩).1

end Muld.Disk
