import Muld.Connections
import Muld.ResumePlan

/-! The chunks of a fresh download. The dispatcher rounds the file up to a count of chunks of
a clamped size, and the constructor of the engine rounds up again, from the count to a size.
-/

namespace Muld

open Tilings

-----------------------------------------------------------------------------------------
-- Numbers of two types
-----------------------------------------------------------------------------------------

/-- A `size_t` cast to `int` keeps its low 32 bits. -/
def toInt (value : Nat) : Int := Int.bmod value (2 ^ 32)

/-- An `int` converted to `size_t`. -/
def toSize (value : Int) : Nat := (value % (sizeModulus : Int)).toNat

theorem toSize_toInt {value : Nat} (fits : value ≤ intMax) : toSize (toInt value) = value := by
  have same : toInt value = value := by
    rw [intMax] at fits
    exact Int.bmod_eq_of_le (by omega) (by omega)
  rw [intMax] at fits
  rw [toSize, same, ← Int.natCast_mod, Int.toNat_natCast]
  exact Nat.mod_eq_of_lt (Nat.lt_of_le_of_lt fits (by decide))

-----------------------------------------------------------------------------------------
-- Construction of the engine
-----------------------------------------------------------------------------------------

/-- The exceptions that the dispatcher tells apart. -/
inductive Exception
  | systemError (what : String)
  | other (what : String)
deriving DecidableEq, Repr

/-- What goes wrong outside the library while an engine is constructed. -/
structure Host where
  openError : Option String := none
  truncateError : Option String := none
  /-- There is no memory for the chunks. -/
  resizeError : Option String := none
deriving DecidableEq, Repr

/-- `ftruncate`, whose length is signed. -/
def Host.truncate (host : Host) (length : Nat) : Option String :=
  if 2 ^ 63 ≤ length then some "Invalid argument" else host.truncateError

/-- `Writer::Writer`. -/
def Host.openWriter (host : Host) (totalSize : Nat) : Except Exception Unit :=
  match host.openError with
  | some reason => .error (.systemError ("Failed to open file: " ++ reason))
  | none =>
      if 0 < totalSize then
        match host.truncate totalSize with
        | some reason => .error (.systemError ("Failed to open file: " ++ reason))
        | none => .ok ()
      else .ok ()

/-- `sizeof(ChunkInfo)`. -/
def chunkInfoSize : Nat := 32

/-- `chunksInfo_.resize`, which allocates nothing for no chunks. -/
def Host.resizeChunks (host : Host) (nChunks : Nat) : Except Exception Unit :=
  if nChunks = 0 then .ok ()
  else if Disk.maxObjectSize / chunkInfoSize < nChunks then
    .error (.other "vector::_M_default_append")
  else
    match host.resizeError with
    | some reason => .error (.other reason)
    | none => .ok ()

/-- How a construction ends without an engine. -/
inductive Failure
  | thrown (exception : Exception)
  /-- An integer is divided by zero, which ends the process. -/
  | divisionByZero
deriving DecidableEq, Repr

/-- The constructor of a fresh job; the writer is opened before the chunks are laid out. -/
def DownloadEngine.construct (host : Host) (maxConnections : Int) (fileSize : Nat)
    (ranged : Bool) (nChunks : Nat) : Except Failure DownloadEngine := do
  (host.openWriter fileSize).mapError .thrown
  (host.resizeChunks nChunks).mapError .thrown
  if some_chunk : nChunks ≠ 0 then
    return @create maxConnections fileSize ranged nChunks ⟨some_chunk⟩
  else throw .divisionByZero

-----------------------------------------------------------------------------------------
-- The dispatcher's part
-----------------------------------------------------------------------------------------

/-- What the server says about a file. -/
structure FileInfo where
  totalSize : Nat := 0
  supportsRange : Bool := false
  etag : List Char := []
  lastModified : List Char := []
deriving DecidableEq, Repr

/-- `MIN_CHUNK_SIZE`. -/
def minChunkSize : Nat := 1024 * 1024

/-- `MAX_CHUNK_SIZE`. -/
def maxChunkSize : Nat := 10 * 1024 * 1024

/-- `max_connections * 4` as a divisor of a `size_t`. The product is an `int`, which is taken to
wrap around.
-/
def targetParts (maxConnections : Int) : Nat := toSize (wrapInt (maxConnections * 4))

/-- `actual_chunk_size`, for a divisor other than zero. -/
def actualChunkSize (totalSize : Nat) (maxConnections : Int) : Nat :=
  max minChunkSize (min maxChunkSize (totalSize / targetParts maxConnections))

/-- The number of chunks before it becomes an `int`. -/
def chunkQuotient (totalSize : Nat) (maxConnections : Int) : Nat :=
  wrapSub (wrap (totalSize + actualChunkSize totalSize maxConnections)) 1
    / actualChunkSize totalSize maxConnections

/-- `n_chunks`. -/
def chunkCount (info : FileInfo) (maxConnections : Int) : Int :=
  if info.supportsRange = true ∧ 0 < info.totalSize then
    toInt (chunkQuotient info.totalSize maxConnections)
  else 1

/-- The engine that the dispatcher makes for a fresh download. -/
def newDownload (host : Host) (info : FileInfo) (maxConnections initialConnections : Int)
    (speedLimitBps : Nat) : Except Failure DownloadEngine :=
  -- the first division is the dispatcher's own, by `max_connections * 4`
  if info.supportsRange = true ∧ 0 < info.totalSize ∧ targetParts maxConnections = 0 then
    throw .divisionByZero
  else do
    let job ←
      DownloadEngine.construct host maxConnections info.totalSize info.supportsRange
        (toSize (chunkCount info maxConnections))
    let job := job.setConnectionBounds 1 maxConnections
    let job := job.setDesiredConnections initialConnections
    return { job with speedLimitBps }

-----------------------------------------------------------------------------------------
-- The two roundings
-----------------------------------------------------------------------------------------

theorem actualChunkSize_pos (totalSize : Nat) (maxConnections : Int)
    : 0 < actualChunkSize totalSize maxConnections :=
  Nat.lt_of_lt_of_le (by decide) (Nat.le_max_left _ _)

theorem actualChunkSize_le (totalSize : Nat) (maxConnections : Int)
    : actualChunkSize totalSize maxConnections ≤ maxChunkSize :=
  Nat.max_le.mpr ⟨by decide, Nat.min_le_left _ _⟩

/-- A sum less one that does not wrap is rounded up by the division. -/
theorem wrap_ceilDiv {total part : Nat} (some_total : 0 < total)
    (fits : total + part < sizeModulus)
    : wrapSub (wrap (total + part)) 1 / part = total ⌈/⌉ part := by
  rw [wrap_of_lt fits, wrapSub_of_le (by omega) fits, Nat.ceilDiv_eq_add_pred_div]

/-- A writer is opened on a file of a signed length only. -/
theorem Host.openWriter_ok {host : Host} {totalSize : Nat}
    (opened : host.openWriter totalSize = .ok ())
    : totalSize < 2 ^ 63 := by
  by_contra large
  have sized : 0 < totalSize := by omega
  have refused : host.truncate totalSize = some "Invalid argument" := if_pos (by omega)
  rw [openWriter] at opened
  split at opened
  · cases opened
  · rw [if_pos sized, refused] at opened
    cases opened

/-- How the construction ends, by the writer, the table of the chunks and their number. -/
theorem DownloadEngine.construct_eq (host : Host) (maxConnections : Int)
    (fileSize nChunks : Nat) (ranged : Bool)
    : construct host maxConnections fileSize ranged nChunks
        = match host.openWriter fileSize, host.resizeChunks nChunks with
          | .error exception, _ => .error (.thrown exception)
          | .ok _, .error exception => .error (.thrown exception)
          | .ok _, .ok _ =>
              if some_chunk : nChunks ≠ 0 then
                .ok (@create maxConnections fileSize ranged nChunks ⟨some_chunk⟩)
              else .error .divisionByZero := by
  rw [construct]
  cases host.openWriter fileSize with
  | error exception => rfl
  | ok opened =>
      cases host.resizeChunks nChunks with
      | error exception => rfl
      | ok resized => rfl

/-- What is constructed has the layout, on a file of a signed length. -/
theorem DownloadEngine.construct_ok {host : Host} {maxConnections : Int}
    {fileSize nChunks : Nat} {ranged : Bool} {engine : DownloadEngine}
    (built : construct host maxConnections fileSize ranged nChunks = .ok engine)
    : host.openWriter fileSize = .ok ()
      ∧ host.resizeChunks nChunks = .ok ()
      ∧ ∃ some_chunk : NeZero nChunks,
          engine = @create maxConnections fileSize ranged nChunks some_chunk := by
  rw [construct_eq] at built
  split at built
  · cases built
  · cases built
  · rename_i opened resized
    split at built
    · exact ⟨opened, resized, _, (Except.ok.inj built).symm⟩
    · cases built

/-- The dispatcher's part of the construction prepares the engine of the constructor. -/
theorem newDownload_eq_ok {host : Host} {info : FileInfo}
    {maxConnections initialConnections : Int} {speedLimitBps : Nat} {engine : DownloadEngine}
    (built
      : newDownload host info maxConnections initialConnections speedLimitBps = .ok engine)
    : ∃ job,
        DownloadEngine.construct host maxConnections info.totalSize info.supportsRange
            (toSize (chunkCount info maxConnections))
          = .ok job
        ∧ engine
          = { (job.setConnectionBounds 1 maxConnections).setDesiredConnections
                initialConnections with
              speedLimitBps } := by
  rw [newDownload] at built
  split at built
  · cases built
  · simp only [bind, Except.bind] at built
    split at built
    · cases built
    · rename_i job constructed
      exact ⟨job, constructed, (Except.ok.inj built).symm⟩

/-- The dispatcher's part of the construction leaves the chunks alone. -/
theorem newDownload_ok {host : Host} {info : FileInfo}
    {maxConnections initialConnections : Int} {speedLimitBps nChunks : Nat}
    {engine : DownloadEngine}
    (built
      : newDownload host info maxConnections initialConnections speedLimitBps = .ok engine)
    (count : toSize (chunkCount info maxConnections) = nChunks)
    : info.totalSize < 2 ^ 63
      ∧ engine.fileSize = info.totalSize
      ∧ engine.chunksInfo
          = (List.range nChunks).map
              (DownloadEngine.layoutChunk info.totalSize nChunks
                (wrapSub (wrap (info.totalSize + nChunks)) 1 / nChunks)) := by
  subst count
  obtain ⟨job, constructed, rfl⟩ := newDownload_eq_ok built
  obtain ⟨opened, _, some_chunk, rfl⟩ := DownloadEngine.construct_ok constructed
  simp only [DownloadEngine.setConnectionBounds_eq_desired,
    DownloadEngine.setDesiredConnections_eq, DownloadEngine.setBounds]
  exact ⟨Host.openWriter_ok opened, rfl, rfl⟩

-----------------------------------------------------------------------------------------
-- The layout of a file
-----------------------------------------------------------------------------------------

/-- The chunks follow each other from the first byte of the file to the last, none of them
empty or larger than `MAX_CHUNK_SIZE`.
-/
structure PartitionsFile (chunks : List ChunkInfo) (fileSize : Nat) : Prop where
  nonempty : ∀ chunk ∈ chunks, chunk.startRange ≤ chunk.endRange
  first : chunks.head?.map ChunkInfo.startRange = some 0
  last : chunks.getLast?.map ChunkInfo.endRange = some (fileSize - 1)
  next
    : ∀ (index : Nat) (left right : ChunkInfo),
        chunks[index]? = some left
        → chunks[index + 1]? = some right
        → right.startRange = left.endRange + 1
  total : (chunks.map ChunkInfo.getTotalSize).sum = fileSize
  bounded : ∀ chunk ∈ chunks, chunk.getTotalSize ≤ maxChunkSize

namespace DownloadEngine

variable {fileSize nChunks chunkSize index : Nat}

/-- A chunk size for which a count of chunks reaches the end of the file with its last chunk.
-/
structure Fits (fileSize nChunks chunkSize : Nat) : Prop where
  small : fileSize < sizeModulus
  positive : 0 < chunkSize
  enters : (nChunks - 1) * chunkSize < fileSize
  ends : fileSize ≤ nChunks * chunkSize

/-- The ranges do not wrap. -/
theorem Fits.range (fits : Fits fileSize nChunks chunkSize) (inside : index < nChunks)
    : (layoutChunk fileSize nChunks chunkSize index).startRange = index * chunkSize
      ∧ (layoutChunk fileSize nChunks chunkSize index).endRange
          = (if index = nChunks - 1 then fileSize else index * chunkSize + chunkSize) - 1 := by
  obtain ⟨small, positive, enters, _⟩ := fits
  have start_le : index * chunkSize ≤ (nChunks - 1) * chunkSize :=
    Nat.mul_le_mul_right chunkSize (by omega)
  have start : wrap (index * chunkSize) = index * chunkSize := wrap_of_lt (by omega)
  refine ⟨start, ?_⟩
  simp only [layoutChunk, start]
  split
  · exact wrapSub_of_le (by omega) small
  · have next_le : (index + 1) * chunkSize ≤ (nChunks - 1) * chunkSize :=
      Nat.mul_le_mul_right chunkSize (by omega)
    rw [Nat.succ_mul] at next_le
    rw [wrap_of_lt (by omega)]
    exact wrapSub_of_le (by omega) (by omega)

/-- Every chunk lies in the file and is not empty. -/
theorem Fits.proper (fits : Fits fileSize nChunks chunkSize) (inside : index < nChunks)
    : (layoutChunk fileSize nChunks chunkSize index).Proper fileSize := by
  obtain ⟨start, end_⟩ := fits.range inside
  obtain ⟨_, positive, enters, _⟩ := fits
  have start_le : index * chunkSize ≤ (nChunks - 1) * chunkSize :=
    Nat.mul_le_mul_right chunkSize (by omega)
  constructor <;> rw [end_]
  case ordered =>
    rw [start]
    split <;> omega
  case inFile =>
    split
    · omega
    · have next_le : (index + 1) * chunkSize ≤ (nChunks - 1) * chunkSize :=
        Nat.mul_le_mul_right chunkSize (by omega)
      rw [Nat.succ_mul] at next_le
      omega

/-- The chunks are the spans of one size, the last one cut to the end of the file. -/
theorem Fits.span (fits : Fits fileSize nChunks chunkSize) (inside : index < nChunks)
    : (layoutChunk fileSize nChunks chunkSize index).span
        = evenSpan nChunks chunkSize fileSize index := by
  obtain ⟨start, end_⟩ := fits.range inside
  have size := (fits.proper inside).getTotalSize_eq fits.small
  have ordered := (fits.proper inside).ordered
  have enters := fits.enters
  have positive := fits.positive
  rw [start, end_] at size ordered
  rw [ChunkInfo.span, evenSpan, start, size]
  congr 1
  by_cases last : index = nChunks - 1
  · rw [if_pos last, if_pos last] at *
    omega
  · rw [if_neg last, if_neg last] at *
    omega

theorem Fits.getTotalSize_le (fits : Fits fileSize nChunks chunkSize)
    (inside : index < nChunks)
    : (layoutChunk fileSize nChunks chunkSize index).getTotalSize ≤ chunkSize := by
  have size : (layoutChunk fileSize nChunks chunkSize index).getTotalSize
      = (evenSpan nChunks chunkSize fileSize index).size :=
    congrArg Span.size (fits.span inside)
  have whole : (nChunks - 1) * chunkSize + chunkSize = nChunks * chunkSize := by
    rw [← Nat.succ_mul, Nat.succ_eq_add_one, Nat.sub_add_cancel (by omega)]
  have ends := fits.ends
  rw [size, evenSpan]
  split
  · rename_i last
    subst last
    simp only
    omega
  · exact Nat.le_refl _

theorem Fits.tiles (fits : Fits fileSize nChunks chunkSize) (some_chunk : 0 < nChunks)
    : Tiles
        (((List.range nChunks).map (layoutChunk fileSize nChunks chunkSize)).map
          ChunkInfo.span)
        fileSize := by
  have spans : ((List.range nChunks).map (layoutChunk fileSize nChunks chunkSize)).map
      ChunkInfo.span = (List.range nChunks).map (evenSpan nChunks chunkSize fileSize) := by
    rw [List.map_map]
    exact List.map_congr_left fun index member => fits.span (List.mem_range.mp member)
  rw [spans]
  exact tiles_evenSpan some_chunk fits.enters fits.ends

theorem Fits.partitionsFile (fits : Fits fileSize nChunks chunkSize)
    (bounded : chunkSize ≤ maxChunkSize) (some_chunk : 0 < nChunks)
    : PartitionsFile ((List.range nChunks).map (layoutChunk fileSize nChunks chunkSize))
        fileSize := by
  constructor
  case nonempty =>
    intro chunk member
    obtain ⟨index, inside, rfl⟩ := List.mem_map.mp member
    exact (fits.proper (List.mem_range.mp inside)).ordered
  case first =>
    obtain ⟨start, _⟩ := fits.range some_chunk
    simp only [List.head?_map, List.head?_range, if_neg (Nat.ne_of_gt some_chunk),
      Option.map_some, start, Nat.zero_mul]
  case last =>
    obtain ⟨_, end_⟩ := fits.range (Nat.sub_lt some_chunk Nat.one_pos)
    rw [List.getLast?_map, List.getLast?_range, if_neg (Nat.ne_of_gt some_chunk),
      Option.map_some, Option.map_some, end_, if_pos rfl]
  case next =>
    intro index left right atLeft atRight
    rw [List.getElem?_map, Option.map_eq_some_iff] at atLeft atRight
    obtain ⟨_, inLeft, rfl⟩ := atLeft
    obtain ⟨_, inRight, rfl⟩ := atRight
    obtain ⟨left_lt, rfl⟩ := List.getElem?_eq_some_iff.mp inLeft
    obtain ⟨right_lt, rfl⟩ := List.getElem?_eq_some_iff.mp inRight
    rw [List.length_range] at left_lt right_lt
    rw [List.getElem_range, List.getElem_range, (fits.range left_lt).2,
      (fits.range right_lt).1, if_neg (by omega), Nat.succ_mul]
    have positive := fits.positive
    omega
  case total =>
    have sum := (fits.tiles some_chunk).sum_size
    rw [List.map_map] at sum
    exact sum
  case bounded =>
    intro chunk member
    obtain ⟨index, inside, rfl⟩ := List.mem_map.mp member
    exact Nat.le_trans (fits.getTotalSize_le (List.mem_range.mp inside)) bounded

end DownloadEngine

variable {host : Host} {info : FileInfo} {maxConnections initialConnections : Int}
  {speedLimitBps : Nat} {engine : DownloadEngine}

/-- The count of the dispatcher and the size that the constructor makes of it fit the file. -/
theorem fits_chunkQuotient {totalSize : Nat} (nonempty : 0 < totalSize)
    (signed : totalSize < 2 ^ 63)
    (counted : chunkQuotient totalSize maxConnections ≤ intMax)
    : 0 < chunkQuotient totalSize maxConnections
      ∧ wrapSub (wrap (totalSize + chunkQuotient totalSize maxConnections)) 1
            / chunkQuotient totalSize maxConnections
          ≤ maxChunkSize
      ∧ DownloadEngine.Fits totalSize (chunkQuotient totalSize maxConnections)
          (wrapSub (wrap (totalSize + chunkQuotient totalSize maxConnections)) 1
            / chunkQuotient totalSize maxConnections) := by
  have target_pos := actualChunkSize_pos totalSize maxConnections
  have target_le := actualChunkSize_le totalSize maxConnections
  have modulus : sizeModulus = 2 ^ 64 := rfl
  have largest : maxChunkSize = 10 * 1024 * 1024 := rfl
  have count : chunkQuotient totalSize maxConnections
      = totalSize ⌈/⌉ actualChunkSize totalSize maxConnections :=
    wrap_ceilDiv nonempty (by omega)
  rw [intMax] at counted
  rw [wrap_ceilDiv nonempty (by omega), count]
  obtain ⟨count_pos, size_le, enters, ends⟩ := ceilDiv_ceilDiv nonempty target_pos
  refine ⟨count_pos, Nat.le_trans size_le target_le, by omega, ?_, enters, ends⟩
  by_contra empty
  rw [Nat.eq_zero_of_not_pos empty, Nat.mul_zero] at ends
  omega

/-- Without range support the file is one chunk. -/
theorem fits_one {totalSize : Nat} (nonempty : 0 < totalSize) (signed : totalSize < 2 ^ 63)
    : DownloadEngine.Fits totalSize 1 (wrapSub (wrap (totalSize + 1)) 1 / 1) := by
  have modulus : sizeModulus = 2 ^ 64 := rfl
  rw [wrap_of_lt (by omega), wrapSub_of_le (by omega) (by omega), Nat.div_one]
  exact ⟨by omega, by omega, by omega, by omega⟩

/-- The chunks of a fresh download with a known size tile the file, none of them with a byte
received.
-/
theorem newDownload_partitioned (nonempty : 0 < info.totalSize)
    (counted
      : info.supportsRange = true
        → chunkQuotient info.totalSize maxConnections ≤ intMax)
    (built
      : newDownload host info maxConnections initialConnections speedLimitBps = .ok engine)
    : engine.Partitioned := by
  obtain ⟨signed, size, chunks⟩ := newDownload_ok built rfl
  constructor
  case tiles =>
    rw [size, chunks, chunkCount]
    by_cases ranged : info.supportsRange = true
    · obtain ⟨count_pos, _, fits⟩ := fits_chunkQuotient nonempty signed (counted ranged)
      rw [if_pos ⟨ranged, nonempty⟩, toSize_toInt (counted ranged)]
      exact fits.tiles count_pos
    · rw [if_neg fun both => ranged both.1]
      exact (fits_one nonempty signed).tiles Nat.one_pos
  case received =>
    intro chunk member
    rw [chunks] at member
    obtain ⟨index, _, rfl⟩ := List.mem_map.mp member
    exact Nat.zero_le _

/-- For every file size with range support and every number of connections for which the
count of chunks is an `int`, the chunks of the engine partition the file.
-/
theorem chunks_partition_file (ranged : info.supportsRange = true)
    (nonempty : 0 < info.totalSize)
    (counted : chunkQuotient info.totalSize maxConnections ≤ intMax)
    (built
      : newDownload host info maxConnections initialConnections speedLimitBps = .ok engine)
    : PartitionsFile engine.chunksInfo info.totalSize := by
  have count : toSize (chunkCount info maxConnections)
      = chunkQuotient info.totalSize maxConnections := by
    rw [chunkCount, if_pos ⟨ranged, nonempty⟩, toSize_toInt counted]
  obtain ⟨signed, _, chunks⟩ := newDownload_ok built count
  obtain ⟨count_pos, bounded, fits⟩ := fits_chunkQuotient nonempty signed counted
  rw [chunks]
  exact fits.partitionsFile bounded count_pos

/-- A file one byte above five chunks of the least size is laid out in six. -/
theorem chunks_partition_file_six
    : ∃ engine,
        newDownload {} { totalSize := 5 * 1024 * 1024 + 1, supportsRange := true } 8 2 0
            = .ok engine
          ∧ engine.nChunks = 6
          ∧ PartitionsFile engine.chunksInfo (5 * 1024 * 1024 + 1) :=
  ⟨_, rfl, by decide,
    @chunks_partition_file {} { totalSize := 5 * 1024 * 1024 + 1, supportsRange := true }
      8 2 0 _ rfl (by decide) (by decide) rfl⟩

end Muld
