import Muld.FinalProgress
import Muld.NewJobs
import Muld.UnsavedBytes

/-! Downloads that outlive their process. A store writes down what the chunks had received
when it read them, and a served chunk never receives less than it had, so that the job that
another process loads from the image stands behind the output file. Whatever process
completes the download has completed the remote file.
-/

namespace Muld

open Content Threads Tilings

-----------------------------------------------------------------------------------------
-- What an image claims of the chunks
-----------------------------------------------------------------------------------------

/-- The chunk has received what the entry claims of it. -/
structure ChunkInfo.Backs (chunk : ChunkInfo) (entry : ChunkState) : Prop where
  startRange : entry.startRange = chunk.startRange
  endRange : entry.endRange = chunk.endRange
  downloaded : entry.downloaded ≤ chunk.received

/-- The entries are those of the first chunks, and each chunk has received what its entry
claims.
-/
def Backing (chunks : List ChunkInfo) (entries : List ChunkState) : Prop :=
  ∀ (position : Nat) (entry : ChunkState),
    entries[position]? = some entry
    → ∃ chunk, chunks[position]? = some chunk ∧ chunk.Backs entry

variable {chunks later : List ChunkInfo} {entries : List ChunkState}

theorem backing_nil (chunks : List ChunkInfo) : Backing chunks [] := nofun

/-- What has been read of the chunks. -/
def readOf (chunks : List ChunkInfo) : List ChunkState := chunks.map ChunkInfo.toState

theorem backing_readOf (chunks : List ChunkInfo) : Backing chunks (readOf chunks) := by
  intro position entry found
  rw [readOf, List.getElem?_map] at found
  obtain ⟨chunk, present, rfl⟩ := Option.map_eq_some_iff.mp found
  exact ⟨chunk, present, rfl, rfl, Nat.le_refl _⟩

/-- Chunks that back what was read of earlier ones back what these did. -/
theorem Backing.trans (grown : Backing later (readOf chunks)) (backing : Backing chunks entries)
    : Backing later entries := by
  intro position entry found
  obtain ⟨chunk, present, backs⟩ := backing position entry found
  obtain ⟨grownChunk, presentLater, more⟩ :=
    grown position chunk.toState (by rw [readOf, List.getElem?_map, present]; rfl)
  refine ⟨grownChunk, presentLater, ?_, ?_, ?_⟩
  · exact backs.startRange.trans more.startRange
  · exact backs.endRange.trans more.endRange
  · exact Nat.le_trans backs.downloaded more.downloaded

/-- A scan that reads on is backed. -/
theorem Backing.logs {thread : Thread} {shared : Shared}
    {before after : Option (List ChunkState)} {event : Option DiskEvent}
    (logs : Logs thread shared before after event)
    (backing : ∀ scan, before = some scan → Backing shared.engine.chunksInfo scan)
    : ∀ scan, after = some scan → Backing shared.engine.chunksInfo scan := by
  cases logs with
  | silent => exact backing
  | outside => exact nofun
  | wrote => exact nofun
  | stored => exact nofun
  | locked =>
      intro scan same
      rw [← Option.some.inj same]
      exact backing_nil _
  | read scan chunk found =>
      intro entries same
      rw [← Option.some.inj same]
      intro position entry present
      rcases getElem?_snoc_cases present with old | ⟨rfl, rfl⟩
      · exact backing scan rfl position entry old
      · exact ⟨chunk, found, rfl, rfl, Nat.le_refl _⟩

/-- Entries for all chunks have the ranges of the chunks. -/
theorem Backing.ranges (backing : Backing chunks entries)
    (whole : chunks.length ≤ entries.length)
    : entries.map (fun entry => (entry.startRange, entry.endRange))
        = chunks.map (fun chunk => (chunk.startRange, chunk.endRange)) := by
  refine List.ext_getElem? fun position => ?_
  rw [List.getElem?_map, List.getElem?_map]
  cases found : entries[position]? with
  | some entry =>
      obtain ⟨chunk, present, backs⟩ := backing position entry found
      rw [present, Option.map_some, Option.map_some, backs.startRange, backs.endRange]
  | none =>
      have outside := List.getElem?_eq_none_iff.mp found
      rw [List.getElem?_eq_none_iff.mpr (by omega)]
      rfl

theorem DownloadEngine.ofImage_getElem? (image : JobImage) (position : Nat)
    : (ofImage image).chunksInfo[position]?
        = (image.chunks[position]?).map (imageChunk position) := by
  simp [ofImage, List.getElem?_zipIdx, Function.comp_def]

/-- A loaded chunk has received what its entry says. -/
theorem DownloadEngine.imageChunk_toState {position : Nat} {entry : ChunkState}
    (fits : entry.downloaded < sizeModulus)
    : (imageChunk position entry).toState = entry := by
  simp [imageChunk, ChunkInfo.toState, ChunkInfo.getReceivedSize, wrap_of_lt fits]

theorem DownloadEngine.readOf_ofImage {image : JobImage}
    (fits : ∀ entry ∈ image.chunks, entry.downloaded < sizeModulus)
    : readOf (ofImage image).chunksInfo = image.chunks := by
  refine List.ext_getElem? fun position => ?_
  rw [readOf, List.getElem?_map, ofImage_getElem?, Option.map_map]
  cases found : image.chunks[position]? with
  | none => rfl
  | some entry =>
      have small := fits entry (List.mem_of_getElem? found)
      rw [Option.map_some, Function.comp_apply, imageChunk_toState small]

/-- What a job that is loaded from backed entries starts with: the ranges of the chunks that
backed them, and for each chunk no more than its chunk had received.
-/
theorem Backing.loaded (backing : Backing chunks entries)
    (whole : chunks.length ≤ entries.length)
    (read : readOf later = entries)
    : later.map (fun chunk => (chunk.startRange, chunk.endRange))
          = chunks.map (fun chunk => (chunk.startRange, chunk.endRange))
        ∧ ∀ chunk ∈ later,
            ∃ before ∈ chunks,
              chunk.startRange = before.startRange
              ∧ chunk.endRange = before.endRange
              ∧ chunk.received ≤ before.received := by
  constructor
  · rw [← backing.ranges whole, ← read, readOf, List.map_map]
    rfl
  · intro chunk member
    obtain ⟨position, found⟩ := List.mem_iff_getElem?.mp member
    obtain ⟨before, present, backs⟩ :=
      backing position chunk.toState (by rw [← read, readOf, List.getElem?_map, found]; rfl)
    exact ⟨before, List.mem_of_getElem? present, backs.startRange, backs.endRange,
      backs.downloaded⟩

-----------------------------------------------------------------------------------------
-- Steps and the image
-----------------------------------------------------------------------------------------

/-- A step of a worker leaves the image, writes its scan into it, or spoils or removes it. -/
theorem Worker.Step.image {shared shared' : Shared} {worker next : Worker}
    {label : WorkerLabel} (taken : Worker.Step shared worker label shared' next)
    : shared'.image = shared.image
      ∨ (∃ site, worker.pc = .storeWrite site ∧ shared'.image = .stored worker.scan)
      ∨ ∀ entries, shared'.image ≠ .stored entries := by
  cases taken
  case store site outcome at_pc open_ =>
    cases outcome with
    | written => exact Or.inr (Or.inl ⟨site, at_pc, rfl⟩)
    | openFailed => exact Or.inl rfl
    | writeFailed => exact Or.inr (Or.inr nofun)
  all_goals first
    | exact Or.inl rfl
    | (unfold Shared.cleanupArtifacts
       split
       · exact Or.inl rfl
       · exact Or.inr (Or.inr nofun))

theorem Call.Step.image {index : Nat} {shared shared' : Shared} {call next : Call}
    {label : CallLabel} {spawned : List Worker}
    (taken : Call.Step index shared call label shared' next spawned)
    : shared'.image = shared.image
      ∨ (∃ terminate scan,
          call = .storeWrite terminate scan ∧ shared'.image = .stored scan)
      ∨ ∀ entries, shared'.image ≠ .stored entries := by
  cases taken
  case store scan outcome open_ =>
    cases outcome with
    | written => exact Or.inr (Or.inl ⟨_, scan, rfl, rfl⟩)
    | openFailed => exact Or.inl rfl
    | writeFailed => exact Or.inr (Or.inr nofun)
  case storeTerminate scan outcome open_ =>
    cases outcome with
    | written => exact Or.inr (Or.inl ⟨_, scan, rfl, rfl⟩)
    | openFailed => exact Or.inl rfl
    | writeFailed => exact Or.inr (Or.inr nofun)
  all_goals first
    | exact Or.inl rfl
    | (unfold Shared.cleanupArtifacts
       split
       · exact Or.inl rfl
       · exact Or.inr (Or.inr nofun))

-----------------------------------------------------------------------------------------
-- Runs of one process
-----------------------------------------------------------------------------------------

namespace Sys

variable {meets : Sys → Action → Sys → Prop} {start sys : Sys} {remote : Nat → Byte}

/-- The chunks back the scans in progress and the image, which has entries for all of them.
-/
structure Recoverable (sys : Sys) : Prop where
  workers
    : ∀ worker ∈ sys.workers,
        ∀ scan, worker.scan? = some scan → Backing sys.shared.engine.chunksInfo scan
  calls
    : ∀ call ∈ sys.calls,
        ∀ scan, call.scan? = some scan → Backing sys.shared.engine.chunksInfo scan
  image
    : ∀ entries,
        sys.shared.image = .stored entries
        → Backing sys.shared.engine.chunksInfo entries
          ∧ sys.shared.engine.nChunks ≤ entries.length

/-- A served worker that counts bytes raises the counter of its chunk, which has room for
them.
-/
theorem ServedRuns.grows (served : ServedRuns remote meets start)
    (reached : ReachableWhile meets start sys) {index : Nat} {worker next : Worker}
    {label : WorkerLabel} {shared : Shared} (found : sys.workers[index]? = some worker)
    (taken : worker.Step sys.shared label shared next)
    : Backing shared.engine.chunksInfo (readOf sys.shared.engine.chunksInfo) := by
  have member := List.mem_of_getElem? found
  have delivered := served.delivers reached
  have layout := reached.layout served.layout
  intro position entry atPosition
  rw [readOf, List.getElem?_map] at atPosition
  obtain ⟨chunk, present, rfl⟩ := Option.map_eq_some_iff.mp atPosition
  rcases taken.chunksInfo with same | ⟨item, at_pc, rfl, held, moved⟩
  · rw [same]
    exact ⟨chunk, present, rfl, rfl, Nat.le_refl _⟩
  · rw [moved]
    by_cases own : item.chunkId = position
    · subst own
      have course := delivered.counting member at_pc held present
      have counts := (course.counted at_pc layout.small taken.fileSize taken.ranged).1
      refine ⟨chunk.updateReceived worker.bytesRead, ?_, rfl, rfl, ?_⟩
      · rw [DownloadEngine.updateReceived_getElem?_self, present, Option.map_some]
      · rw [counts]
        exact Nat.le_add_right _ _
    · rw [DownloadEngine.updateReceived_getElem?_other _ _ own]
      exact ⟨chunk, present, rfl, rfl, Nat.le_refl _⟩

theorem Recoverable.worker_step (recoverable : sys.Recoverable) (complete : sys.Complete)
    {index : Nat} {worker next : Worker} {label : WorkerLabel} {shared : Shared}
    (found : sys.workers[index]? = some worker)
    (taken : worker.Step sys.shared label shared next)
    (logs
      : Logs (.worker index) sys.shared worker.scan? next.scan?
          (worker.diskEvent index sys.shared label))
    (grown : Backing shared.engine.chunksInfo (readOf sys.shared.engine.chunksInfo))
    : Recoverable { sys with shared, workers := sys.workers.set index next } := by
  have member := List.mem_of_getElem? found
  have own := Backing.logs logs (recoverable.workers worker member)
  constructor
  case workers =>
    refine forall_set (fun other inside scan scans => ?_) fun scan scans => ?_
    · exact grown.trans (recoverable.workers other inside scan scans)
    · exact grown.trans (own scan scans)
  case calls =>
    intro call inside scan scans
    exact grown.trans (recoverable.calls call inside scan scans)
  case image =>
    intro entries stored
    rw [taken.nChunks]
    rcases taken.image with same | ⟨site, at_pc, written⟩ | other
    · obtain ⟨backing, whole⟩ := recoverable.image entries (same ▸ stored)
      exact ⟨grown.trans backing, whole⟩
    · have scans := @Worker.scan?_of_scanning worker (by rw [at_pc]; rfl)
      obtain rfl : worker.scan = entries := ImageFile.stored.inj (written.symm.trans stored)
      exact ⟨grown.trans (recoverable.workers worker member _ scans),
        complete.workers worker member site at_pc⟩
    · exact absurd stored (other entries)

theorem Recoverable.call_step (recoverable : sys.Recoverable) (complete : sys.Complete)
    {index : Nat} {call next : Call} {label : CallLabel} {shared : Shared}
    {spawned : List Worker} (found : sys.calls[index]? = some call)
    (taken : Call.Step index sys.shared call label shared next spawned)
    : Recoverable { sys with
        shared
        workers := sys.workers ++ spawned
        calls := sys.calls.set index next } := by
  have member := List.mem_of_getElem? found
  have own := Backing.logs taken.logs (recoverable.calls call member)
  constructor <;> simp only [taken.chunksInfo, DownloadEngine.nChunks]
  case workers =>
    intro worker inside scan scans
    rcases taken.mem_workers inside with old | rfl
    · exact recoverable.workers worker old scan scans
    · cases scans
  case calls => exact forall_set recoverable.calls own
  case image =>
    intro entries stored
    rcases taken.image with same | ⟨terminate, scan, rfl, written⟩ | other
    · exact recoverable.image entries (same ▸ stored)
    · obtain rfl : scan = entries := ImageFile.stored.inj (written.symm.trans stored)
      exact ⟨recoverable.calls _ member scan rfl, complete.calls _ member terminate scan rfl⟩
    · exact absurd stored (other entries)

/-- In a served run, whatever has been scanned and stored is backed. -/
theorem ServedRuns.recoverable (served : ServedRuns remote meets start)
    (base : start.Recoverable) (reached : ReachableWhile meets start sys)
    : sys.Recoverable := by
  obtain ⟨log, logged⟩ := reached.logged diskEvent
  refine @logged_invariant _ _ _ _ (fun sys _ => sys.Recoverable) logged base ?_ ?_ ?_
  · intro sys log index worker next label shared earlier recoverable found taken logs _
    have before := earlier.reachable
    exact recoverable.worker_step (ReachableWhile.complete served.built before) found taken logs
      (served.grows before found taken)
  · intro sys log index call next label shared spawned earlier recoverable found taken _
    exact recoverable.call_step (ReachableWhile.complete served.built earlier.reachable) found
      taken
  · intro sys log api dispatched _ recoverable
    refine { recoverable with calls := ?_ }
    intro call member scan scans
    rcases mem_snoc_cases member with old | rfl
    · exact recoverable.calls call old scan scans
    · cases api <;> cases scans

-----------------------------------------------------------------------------------------
-- Downloads of several processes
-----------------------------------------------------------------------------------------

/-- A download that the dispatcher starts afresh. -/
inductive StartsAfresh (info : FileInfo) : Sys → Prop
  | download {host : Host} {maxConnections initialConnections : Int} {speedLimitBps : Nat}
      {engine : DownloadEngine} (file : Nat → Byte) (maxThreads : Int)
      (counted : chunkQuotient info.totalSize maxConnections ≤ intMax)
      (built
        : newDownload host info maxConnections initialConnections speedLimitBps = .ok engine)
    : StartsAfresh info (launched engine file .absent maxThreads)

/-- The dispatcher of another process loads the job from the image and the output file that
were left behind, and learns that the file has the size and the range support it had.
-/
inductive Reloads (info : FileInfo) (stopped : Sys) : Sys → Prop
  | load {entries : List ChunkState} {file : Nat → Byte} {host : Host} {img : LoadedImage}
      {now : FileInfo} {correctedUrl url : Url} {speedLimitBps : Nat} {engine : DownloadEngine}
      (maxThreads : Int)
      (image : stopped.shared.image = .stored entries)
      (output : stopped.shared.output = some file)
      (chunks : img.job.chunks = entries)
      (size : now.totalSize = info.totalSize)
      (ranged : now.supportsRange = info.supportsRange)
      (built
        : loadedDownload host (img.correct now correctedUrl) speedLimitBps maxThreads
          = .ok (url, engine))
    : Reloads info stopped (launched engine file (.stored entries) maxThreads)

/-- Where the processes of a download start that may be stopped after any step. -/
abbrev SessionStart (remote : Nat → Byte) (info : FileInfo) : Sys → Prop :=
  Transition.Restarted step (RemoteRun remote) (Reloads info) (StartsAfresh info)

/-- A job that a process can take up. -/
structure Ready (remote : Nat → Byte) (info : FileInfo) (start : Sys) : Prop where
  built : start.Built
  layout : start.shared.engine.Layout
  tiles : Tiles (start.shared.engine.chunksInfo.map ChunkInfo.span) start.shared.engine.fileSize
  resumable : start.Resumable remote
  recoverable : start.Recoverable
  ranged : start.shared.engine.ranged = true
  fileSize : start.shared.engine.fileSize = info.totalSize

variable {info : FileInfo}

/-- The preparation of a fresh engine leaves its mode alone. -/
theorem newDownload_ranged {host : Host} {maxConnections initialConnections : Int}
    {speedLimitBps : Nat} {engine : DownloadEngine}
    (built
      : newDownload host info maxConnections initialConnections speedLimitBps = .ok engine)
    : engine.ranged = info.supportsRange := by
  obtain ⟨job, constructed, rfl⟩ := newDownload_eq_ok built
  obtain ⟨_, _, some_chunk, rfl⟩ := DownloadEngine.construct_ok constructed
  simp [DownloadEngine.setConnectionBounds_eq_desired, DownloadEngine.setDesiredConnections_eq,
    DownloadEngine.setBounds, DownloadEngine.create]

/-- The preparation of a loaded engine leaves the job alone. -/
theorem loadedDownload_job {host : Host} {img : LoadedImage} {url : Url}
    {speedLimitBps : Nat} {maxThreads : Int} {engine : DownloadEngine}
    (built : loadedDownload host img speedLimitBps maxThreads = .ok (url, engine))
    : engine.fileSize = img.job.fileSize
      ∧ engine.ranged = img.job.ranged
      ∧ engine.chunksInfo = (DownloadEngine.ofImage img.job).chunksInfo := by
  simp only [loadedDownload, DownloadEngine.constructLoaded, bind, Except.bind] at built
  split at built
  · cases built
  · rename_i constructed
    split at constructed
    · cases constructed
    · split at constructed
      · cases constructed
      · split at constructed
        · cases constructed
        · cases constructed
          cases built
          simp [DownloadEngine.setConnectionBounds_eq_desired,
            DownloadEngine.setDesiredConnections_eq, DownloadEngine.setBounds,
            DownloadEngine.ofImage]

/-- The chunks of a fresh ranged download of a file that is not empty tile the file and have
received nothing.
-/
theorem newDownload_chunks {host : Host} {maxConnections initialConnections : Int}
    {speedLimitBps : Nat} {engine : DownloadEngine} (ranged : info.supportsRange = true)
    (nonempty : 0 < info.totalSize)
    (counted : chunkQuotient info.totalSize maxConnections ≤ intMax)
    (built
      : newDownload host info maxConnections initialConnections speedLimitBps = .ok engine)
    : engine.Representable
      ∧ engine.Partitioned
      ∧ ∀ chunk ∈ engine.chunksInfo, chunk.received = 0 := by
  have count : toSize (chunkCount info maxConnections)
      = chunkQuotient info.totalSize maxConnections := by
    rw [chunkCount, if_pos ⟨ranged, nonempty⟩, toSize_toInt counted]
  obtain ⟨signed, size, chunks⟩ := newDownload_ok built count
  obtain ⟨some_chunk, _⟩ := fits_chunkQuotient nonempty signed counted
  have few : chunkQuotient info.totalSize maxConnections
      < Disk.maxObjectSize / Disk.chunkStateSize + 1 :=
    Nat.lt_of_le_of_lt counted (by decide)
  have created := @DownloadEngine.create_representable maxConnections
    (UInt64.ofNat info.totalSize) info.supportsRange ⟨_, few⟩ ⟨Nat.ne_of_gt some_chunk⟩
  rw [UInt64.toNat_ofNat_of_lt' (Nat.lt_trans signed (by decide))] at created
  refine ⟨⟨?_, ?_, ?_⟩, newDownload_partitioned nonempty (fun _ => counted) built, ?_⟩
  · rw [size]
    exact created.fileSize
  · rw [chunks]
    exact created.chunks
  · rw [DownloadEngine.nChunks, chunks]
    exact created.nChunks
  · rw [chunks]
    intro chunk member
    obtain ⟨index, _, rfl⟩ := List.mem_map.mp member
    rfl

/-- What a chunk spans depends on its range only. -/
theorem spans_of_ranges {engine other : DownloadEngine} (ranges : other.ranges = engine.ranges)
    : other.chunksInfo.map ChunkInfo.span = engine.chunksInfo.map ChunkInfo.span := by
  have spans (engine : DownloadEngine) : engine.chunksInfo.map ChunkInfo.span
      = engine.ranges.map fun range => ⟨range.1, wrap (wrapSub range.2 range.1 + 1)⟩ := by
    rw [DownloadEngine.ranges, List.map_map]
    rfl
  rw [spans, spans, ranges]

/-- Chunks that tile the file cover it. -/
theorem coversFile_of_tiles {sys : Sys}
    (tiles : Tiles (sys.shared.engine.chunksInfo.map ChunkInfo.span) sys.shared.engine.fileSize)
    (layout : sys.shared.engine.Layout)
    : sys.CoversFile := by
  intro position inFile
  obtain ⟨span, member, low, high⟩ := (tiles.covers position).mp inFile
  obtain ⟨chunk, inChunks, rfl⟩ := List.mem_map.mp member
  simp only [ChunkInfo.span] at low high
  have proper := layout.proper chunk inChunks (by omega)
  have total := proper.getTotalSize_eq layout.small
  refine ⟨(chunk.startRange, chunk.endRange), List.mem_map.mpr ⟨chunk, inChunks, rfl⟩, low,
    ?_, proper.inFile⟩
  simp only
  omega

/-- A fresh download is ready: it has received nothing and stored nothing. -/
theorem StartsAfresh.ready (remote : Nat → Byte) (ranged : info.supportsRange = true)
    (nonempty : 0 < info.totalSize) (begins : StartsAfresh info start)
    : start.Ready remote info := by
  obtain ⟨file, maxThreads, counted, built⟩ := begins
  rename_i host maxConnections initialConnections speedLimitBps engine
  obtain ⟨representable, partitioned, untouched⟩ :=
    newDownload_chunks ranged nonempty counted built
  have mode := (newDownload_ranged built).trans ranged
  have layout := layout_of_partitioned partitioned representable
    fun notRanged => by simp [mode] at notRanged
  have launched := (newDownload_unstarted built).launched file .absent maxThreads
  constructor
  case built => exact launched
  case layout => exact layout
  case tiles => exact partitioned.tiles
  case resumable =>
    refine ⟨?_, rfl, ?_⟩
    · intro chunk member
      rw [untouched chunk member]
      exact Nat.zero_le _
    · intro written _ chunk member
      rw [untouched chunk member]
      exact Agrees.empty _ _ _
  case recoverable =>
    refine ⟨by simp [launched.workers], by simp [launched.calls], fun entries stored => ?_⟩
    rw [show (Sys.launched engine file .absent maxThreads).shared.image = .absent from rfl]
      at stored
    contradiction
  case ranged => exact mode
  case fileSize => exact (newDownload_ok built rfl).2.1

theorem Ready.served (ready : start.Ready remote info)
    : ServedRuns remote (RemoteRun remote) start where
  built := ready.built
  layout := ready.layout
  delivered := ready.built.delivered ready.resumable
  alone := fun _ earlier =>
    earlier.holds_after (by simp [BuildAlone, ready.built.calls]) (fun _ _ _ met => met.2)
  serves := fun _ _ _ met => met.1
  rebuilds := by
    intro before action after earlier _
    have stillRanged := earlier.sameJob.ranged.trans ready.ranged
    unfold RebuildsFromOrigin
    split
    · intro _ notRanged
      simp [stillRanged] at notRanged
    · trivial

/-- A job that is loaded from what a ready one has left is ready. -/
theorem Reloads.ready {stopped : Sys} (supports : info.supportsRange = true)
    (ready : start.Ready remote info)
    (reached : ReachableWhile (RemoteRun remote) start stopped)
    (reloads : Reloads info stopped sys)
    : sys.Ready remote info := by
  obtain ⟨maxThreads, image, output, chunks, size, ranged, built⟩ := reloads
  rename_i entries file host img now correctedUrl url speedLimitBps engine
  have served := ready.served
  have delivered := served.delivers reached
  have same := reached.sameJob
  obtain ⟨backing, whole⟩ :=
    (served.recoverable ready.recoverable reached).image entries image
  obtain ⟨fileSize, mode, loaded⟩ := loadedDownload_job built
  have launched := (loadedDownload_unstarted built).launched file (.stored entries) maxThreads
  -- Counters of chunks are sizes, so that the constructor reads them back as they were.
  have fits : ∀ entry ∈ entries, entry.downloaded < sizeModulus := by
    intro entry member
    obtain ⟨position, found⟩ := List.mem_iff_getElem?.mp member
    obtain ⟨chunk, present, backs⟩ := backing position entry found
    have received := delivered.received chunk (List.mem_of_getElem? present)
    have total : chunk.getTotalSize < sizeModulus := Nat.mod_lt _ (by decide)
    have claimed := backs.downloaded
    omega
  have read : readOf engine.chunksInfo = entries := by
    rw [loaded, ← chunks]
    exact @DownloadEngine.readOf_ofImage (img.correct now correctedUrl).job (chunks ▸ fits)
  obtain ⟨ranges, behind⟩ := backing.loaded whole read
  have sizes : engine.fileSize = stopped.shared.engine.fileSize :=
    (fileSize.trans size).trans (ready.fileSize.symm.trans same.fileSize.symm)
  have stillRanged : engine.ranged = stopped.shared.engine.ranged := by
    rw [mode, same.ranged, ready.ranged]
    exact ranged.trans supports
  constructor
  case built => exact launched
  case layout => exact (reached.layout served.layout).congr sizes stillRanged ranges
  case tiles =>
    have kept : engine.ranges = start.shared.engine.ranges := Eq.trans ranges same.ranges
    have tiles := ready.tiles
    rw [← spans_of_ranges kept, ← same.fileSize, ← sizes] at tiles
    exact tiles
  case resumable =>
    refine ⟨?_, rfl, ?_⟩
    · intro chunk member
      obtain ⟨before, inChunks, starts, ends, less⟩ := behind chunk member
      have received := delivered.received before inChunks
      rw [ChunkInfo.getTotalSize, starts, ends]
      exact Nat.le_trans less received
    · intro written present chunk member
      obtain ⟨before, inChunks, starts, ends, less⟩ := behind chunk member
      obtain rfl : file = written := Option.some.inj present
      have agrees := delivered.disk file output before inChunks
      intro position low high
      exact agrees position (starts ▸ low) (by omega)
  case recoverable =>
    refine ⟨by simp [launched.workers], by simp [launched.calls], fun written stored => ?_⟩
    obtain rfl : entries = written := ImageFile.stored.inj stored
    refine ⟨?_, ?_⟩
    · have own := backing_readOf engine.chunksInfo
      rwa [read] at own
    · have length := congrArg List.length read
      simp only [readOf, List.length_map] at length
      exact Nat.le_of_eq length
  case ranged => exact stillRanged.trans (same.ranged.trans ready.ranged)
  case fileSize => exact fileSize.trans size

/-- By induction on the sessions. -/
theorem SessionStart.ready (supports : info.supportsRange = true)
    (nonempty : 0 < info.totalSize) (begun : SessionStart remote info start)
    : start.Ready remote info :=
  begun.invariant (fun _ begins => begins.ready remote supports nonempty)
    fun _ _ _ earlier stopped reloads => reloads.ready supports earlier stopped

/-- What a process leaves behind at any moment, and when it has completed the download. -/
structure Survives (remote : Nat → Byte) (info : FileInfo) (sys : Sys) : Prop where
  /-- The image has an entry for each chunk, which claims bytes that are those of the remote
  file.
  -/
  image
    : ∀ entries file,
        sys.shared.image = .stored entries
        → sys.shared.output = some file
        → entries.map (fun entry => (entry.startRange, entry.endRange))
              = sys.shared.engine.ranges
            ∧ ∀ entry ∈ entries,
                Agrees file remote entry.startRange (entry.startRange + entry.downloaded)
  completed
    : sys.shared.history.cancelAccepted = false
      → sys.shared.engine.state = .completed
      → ∃ file,
          sys.shared.output = some file
          ∧ ∀ position < info.totalSize, file position = remote position

/-- However often the process of a ranged download is stopped, between any two steps, and the
download loaded again, the images stay true, and the process that completes the download has
the remote file.
-/
theorem survives_restarts (supports : info.supportsRange = true)
    (nonempty : 0 < info.totalSize) (begun : SessionStart remote info start)
    (reached : ReachableWhile (RemoteRun remote) start sys)
    : sys.Survives remote info := by
  have ready := SessionStart.ready supports nonempty begun
  have served := ready.served
  constructor
  · intro entries file image output
    obtain ⟨backing, whole⟩ :=
      (served.recoverable ready.recoverable reached).image entries image
    refine ⟨backing.ranges whole, fun entry member => ?_⟩
    obtain ⟨position, found⟩ := List.mem_iff_getElem?.mp member
    obtain ⟨chunk, present, backs⟩ := backing position entry found
    have agrees := (served.delivers reached).disk file output chunk
      (List.mem_of_getElem? present)
    have claimed := backs.downloaded
    intro offset low high
    rw [backs.startRange] at low high
    exact agrees offset low (by omega)
  · intro uncanceled completed
    obtain ⟨file, output, same⟩ :=
      served.completed (coversFile_of_tiles ready.tiles ready.layout) ready.resumable.output
        reached uncanceled completed
    refine ⟨file, output, fun position inFile => same position ?_⟩
    rwa [reached.sameJob.fileSize, ready.fileSize]

/-- A file of twenty bytes on a server with range support. -/
def twentyBytesRanged : FileInfo := { totalSize := 20, supportsRange := true }

/-- A download of the twenty bytes. -/
def twentyBytesJob : Sys :=
  let created := @DownloadEngine.create 8 20 true 1 DownloadEngine.one_chunk
  launched ((created.setConnectionBounds 1 8).setDesiredConnections 2) (fun _ => 0) .absent 8

theorem twentyBytesJob_starts
    : SessionStart UInt8.ofNat twentyBytesRanged twentyBytesJob :=
  .first (.download (fun _ => 0) 8 (by decide)
    (rfl : newDownload {} twentyBytesRanged 8 2 0 = .ok _))

open Muld.Action in
/-- The download after eight bytes and a store. -/
def eightBytes : Sys :=
  (Transition.runWhile step (RemoteRun UInt8.ofNat) twentyBytesJob
    (.invoke .start :: callRuns 0 14 ++ workerRuns 0 6 ++ fetch 0 206 (slice UInt8.ofNat 0 8)
      ++ .invoke .store :: callRuns 1 3 ++ [.call 1 (.stored .written)])).get (by decide +kernel)

/-- The image of the eight bytes. -/
def eightBytesImage : LoadedImage where
  filePath := "f".toList
  url := "http://h/f".toList
  etag := []
  lastModified := []
  job := {
    fileSize := 20
    maxConnections := 8
    ranged := true
    chunks := [{ startRange := 0, endRange := 19, downloaded := 8 }]
  }

/-- The job that is loaded from the files of the eight bytes. -/
def eightBytesJob : Sys :=
  launched
    (((DownloadEngine.ofImage eightBytesImage.job).setConnectionBounds 1 8).setDesiredConnections
      8)
    (eightBytes.shared.output.get (by decide +kernel))
    (.stored eightBytesImage.job.chunks) 8

theorem eightBytesJob_starts
    : SessionStart UInt8.ofNat twentyBytesRanged eightBytesJob := by
  have reached : ReachableWhile (RemoteRun UInt8.ofNat) twentyBytesJob eightBytes :=
    Transition.Reachable.extend .start (Option.some_get _).symm
  refine twentyBytesJob_starts.restart reached (.load 8 ?_ (Option.some_get _).symm rfl rfl rfl
    (rfl
      : loadedDownload {} (eightBytesImage.correct twentyBytesRanged {
          scheme := "http".toList
          host := "h".toList
          port := "80".toList
          path := "/f".toList
        }) 0 8 = .ok _))
  decide +kernel

open Muld.Action in
/-- The first process is stopped after eight bytes and a store; the second one completes the
download from there.
-/
theorem survives_restarts_eight_bytes
    : ∃ sys : Sys,
        sys.shared.engine.state = .completed
        ∧ ∃ file,
            sys.shared.output = some file
            ∧ ∀ position < 20, file position = UInt8.ofNat position := by
  obtain ⟨sys, reached, holds⟩ :=
    exists_reachable (RemoteRun UInt8.ofNat) eightBytesJob
      (.invoke .start :: callRuns 0 14 ++ workerRuns 0 6
        ++ fetch 0 206 (slice UInt8.ofNat 8 12) ++ workerRuns 0 2)
      (fun sys => sys.shared.engine.state == .completed && !sys.shared.history.cancelAccepted)
      (by decide +kernel)
  simp only [Bool.and_eq_true, Bool.not_eq_true', beq_iff_eq] at holds
  exact ⟨sys, holds.1,
    (survives_restarts rfl (by decide) eightBytesJob_starts reached).completed holds.2 holds.1⟩

end Sys

end Muld
