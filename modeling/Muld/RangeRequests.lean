import Muld.Fetching
import Muld.Recovery

/-! What the workers ask the server for: each request names the bytes that its chunk still
misses, and no two workers ask for the same byte.
-/

namespace Muld

open Tilings

-----------------------------------------------------------------------------------------
-- Requests
-----------------------------------------------------------------------------------------

/-- The GET request of a worker, with the header fields that are set. -/
structure Request where
  target : Text
  host : Text
  userAgent : Text
  range : Option Text
deriving DecidableEq, Repr

/-- `std::to_string` of a size. -/
def toText (number : Nat) : Text := Nat.toDigits 10 number

/-- The value of the `Range` header; both ends are inclusive. -/
def rangeValue (rangeStart rangeEnd : Nat) : Text :=
  "bytes=".toList ++ toText rangeStart ++ '-' :: toText rangeEnd

def buildRequest (url : Url) (rangeStart rangeEnd : Nat) (isRanged : Bool) : Request where
  target := url.path
  host := url.host
  userAgent := "muld/0.1".toList
  range := if isRanged then some (rangeValue rangeStart rangeEnd) else none

/-- The request of a worker that is about to send one. -/
def Worker.request? (url : Url) (engine : DownloadEngine) (worker : Worker) : Option Request :=
  if worker.pc = .request then
    worker.item.map fun item =>
      buildRequest url worker.currentOffset item.rangeEnd engine.ranged
  else none

-----------------------------------------------------------------------------------------
-- What a server reads
-----------------------------------------------------------------------------------------

/-- One range of bytes: the first and the last position, both written in decimal. -/
def parseRange (value : Text) : Option (Nat × Nat) :=
  match value.dropPrefix? "bytes=".toList with
  | none => none
  | some spec =>
      match spec.dropWhile Char.isDigit with
      | '-' :: last =>
          let first := spec.takeWhile Char.isDigit
          if first ≠ [] ∧ last ≠ [] ∧ last.all Char.isDigit then
            some (decimal first, decimal last)
          else none
      | _ => none

/-- The request asks for the byte at a position. -/
def Request.AsksFor (request : Request) (position : Nat) : Prop :=
  ∃ range ∈ request.range.bind parseRange, range.1 ≤ position ∧ position ≤ range.2

theorem decimal_toText (number : Nat) : decimal (toText number) = number := by
  have read : Nat.ofDigitChars 10 (toText number) 0 = number :=
    Nat.ofDigitChars_ten_toDigits
  rw [Nat.ofDigitChars_eq_foldl] at read
  simpa only [decimal, Nat.mul_comm] using read

theorem digits_toText (number : Nat)
    : ∀ character ∈ toText number, character.isDigit = true :=
  fun _ member => Nat.isDigit_of_mem_toDigits (by decide) (by decide) member

/-- A server reads back the ends that the header was made of. -/
theorem parseRange_rangeValue (first last : Nat)
    : parseRange (rangeValue first last) = some (first, last) := by
  have shape : rangeValue first last
      = "bytes=".toList ++ (toText first ++ '-' :: toText last) :=
    List.append_assoc _ _ _
  have dropped : (rangeValue first last).dropPrefix? "bytes=".toList
      = some (toText first ++ '-' :: toText last) :=
    shape ▸ List.dropPrefix?_append_of_beq _ BEq.rfl
  have taken : (toText first ++ '-' :: toText last).takeWhile Char.isDigit = toText first := by
    rw [List.takeWhile_append_of_pos (digits_toText first),
      List.takeWhile_cons_of_neg (by decide), List.append_nil]
  have left : (toText first ++ '-' :: toText last).dropWhile Char.isDigit
      = '-' :: toText last := by
    rw [List.dropWhile_append_of_pos (digits_toText first),
      List.dropWhile_cons_of_neg (by decide)]
  have digits : (toText last).all Char.isDigit = true :=
    List.all_eq_true.mpr (digits_toText last)
  have written : ∀ number, toText number ≠ [] := fun _ => Nat.toDigits_ne_nil
  simp only [parseRange, dropped, left, taken, digits, written, ne_eq, not_false_eq_true,
    and_self, if_true, decimal_toText]

-----------------------------------------------------------------------------------------
-- The workers of a run
-----------------------------------------------------------------------------------------

/-- The byte at a position belongs to the chunk and has not been received. -/
def ChunkInfo.Lacks (chunk : ChunkInfo) (position : Nat) : Prop :=
  chunk.startRange + chunk.received ≤ position ∧ position ≤ chunk.endRange

/-- The worker is still to fetch the byte at a position. -/
def Worker.Fetches (worker : Worker) (position : Nat) : Prop :=
  worker.pc ≠ .failSet
  ∧ ∃ item,
      worker.item = some item
      ∧ worker.currentOffset ≤ position
      ∧ position ≤ item.rangeEnd

/-- A ranged request asks for what its worker is still to fetch. -/
theorem Worker.asksFor_iff {url : Url} {engine : DownloadEngine} {worker : Worker}
    {request : Request} (ranged : engine.ranged = true)
    (sends : worker.request? url engine = some request) (position : Nat)
    : request.AsksFor position ↔ worker.Fetches position := by
  rw [Worker.request?] at sends
  split at sends
  · rename_i at_pc
    obtain ⟨item, held, rfl⟩ := Option.map_eq_some_iff.mp sends
    have running : worker.pc ≠ .failSet := by simp [at_pc]
    simp [Request.AsksFor, buildRequest, ranged, parseRange_rangeValue, Worker.Fetches, held,
      running]
  · cases sends

namespace Sys

variable {meets : Sys → Action → Sys → Prop} {remote : Nat → Byte} {start sys : Sys}
  {info : FileInfo}

/-- What a worker is still to fetch belongs to the chunk of its item. -/
theorem Delivered.fetches (delivered : sys.Delivered remote) (generation : sys.Generation)
    {worker : Worker} (member : worker ∈ sys.workers) {position : Nat}
    (fetches : worker.Fetches position)
    : ∃ item chunk,
        worker.item = some item
        ∧ sys.shared.engine.chunksInfo[item.chunkId]? = some chunk
        ∧ worker.OnCourse remote sys.shared chunk
        ∧ chunk.Lacks position := by
  obtain ⟨running, item, held, above, below⟩ := fetches
  obtain ⟨chunk, present, ends⟩ := generation.chunk_of_held member held
  have course := delivered.course worker member item chunk held running present
  have offset := course.offset
  exact ⟨item, chunk, held, present, course, by omega, ends ▸ below⟩

/-- In every run of a ranged download that is served the file, over all its sessions, the
request of a worker asks for exactly the bytes that its chunk lacks, all of them inside the
file, and no two workers are to fetch the same byte.
-/
theorem requests_apart (supports : info.supportsRange = true)
    (nonempty : 0 < info.totalSize) (begun : SessionStart remote info start)
    (reached : ReachableWhile (RemoteRun remote) start sys) (url : Url)
    : (∀ worker ∈ sys.workers,
        ∀ request,
          worker.request? url sys.shared.engine = some request
          → ∃ chunk ∈ sys.shared.engine.chunksInfo,
              chunk.endRange < info.totalSize
              ∧ ∀ position,
                  (request.AsksFor position ↔ worker.Fetches position)
                  ∧ (request.AsksFor position ↔ chunk.Lacks position))
      ∧ ∀ (first second : Nat) (left right : Worker),
          first ≠ second
          → sys.workers[first]? = some left
          → sys.workers[second]? = some right
          → ∀ position, left.Fetches position → ¬ right.Fetches position := by
  have ready := SessionStart.ready supports nonempty begun
  have served := ready.served
  have delivered := served.delivers reached
  have generation := reached.generation served.built served.alone
  have small := (reached.layout served.layout).small
  have same := reached.sameJob
  have size : sys.shared.engine.fileSize = info.totalSize := same.fileSize.trans ready.fileSize
  have ranged : sys.shared.engine.ranged = true := same.ranged.trans ready.ranged
  constructor
  · intro worker member request sends
    have asks := Worker.asksFor_iff ranged sends
    obtain ⟨at_pc, item, held⟩ :
        worker.pc = .request ∧ ∃ item, worker.item = some item := by
      rw [Worker.request?] at sends
      split at sends
      · obtain ⟨item, held, _⟩ := Option.map_eq_some_iff.mp sends
        exact ⟨‹_›, item, held⟩
      · cases sends
    have running : worker.pc ≠ .failSet := by simp [at_pc]
    obtain ⟨chunk, present, ends⟩ := generation.chunk_of_held member held
    have course := delivered.course worker member item chunk held running present
    have offset := course.offset
    simp only [Worker.uncounted, at_pc, WorkerPc.phase, Nat.add_zero] at offset
    refine ⟨chunk, List.mem_of_getElem? present, size ▸ course.proper.inFile, ?_⟩
    intro position
    refine ⟨asks position, (asks position).trans ?_⟩
    simp only [Worker.Fetches, ChunkInfo.Lacks, held, Option.some.injEq, exists_eq_left', ends,
      offset, running, ne_eq, not_false_eq_true, true_and]
  · intro first second left right different atFirst atSecond position fetchesLeft fetchesRight
    obtain ⟨item, chunk, held, present, course, lacks⟩ :=
      delivered.fetches generation (List.mem_of_getElem? atFirst) fetchesLeft
    obtain ⟨other, next, holds, found, courseNext, lacksNext⟩ :=
      delivered.fetches generation (List.mem_of_getElem? atSecond) fetchesRight
    have apart := generation.item_ne atSecond holds different atFirst held
    -- the spans of different chunks have no position in common
    have tiles := ready.tiles
    rw [← spans_of_ranges same.ranges] at tiles
    have covered (chunk : ChunkInfo) (proper : chunk.Proper sys.shared.engine.fileSize)
        (lacks : chunk.Lacks position) : chunk.span.Covers position := by
      have total := proper.getTotalSize_eq small
      simp only [ChunkInfo.Lacks] at lacks
      simp only [ChunkInfo.span, Span.Covers]
      omega
    have spanOf {item : WorkItem} {chunk : ChunkInfo}
        (present : sys.shared.engine.chunksInfo[item.chunkId]? = some chunk)
        : (sys.shared.engine.chunksInfo.map ChunkInfo.span)[item.chunkId]? = some chunk.span := by
      rw [List.getElem?_map, present, Option.map_some]
    exact apart_of_ne tiles.apart apart (spanOf present) (spanOf found) position
      (covered chunk course.proper lacks) (covered next courseNext.proper lacksNext)

/-- The address of the file. -/
def hostFile : Url where
  scheme := "http".toList
  host := "h".toList
  port := "80".toList
  path := "/f".toList

open Muld.Action in
/-- A download of twenty bytes that is taken up behind its first eight asks for the others. -/
theorem requests_apart_eight_bytes
    : ∃ (sys : Sys) (worker : Worker) (request : Request),
        worker ∈ sys.workers
        ∧ worker.request? hostFile sys.shared.engine = some request
        ∧ request.range = some "bytes=8-19".toList
        ∧ ∃ chunk ∈ sys.shared.engine.chunksInfo,
            ∀ position, request.AsksFor position ↔ chunk.Lacks position := by
  obtain ⟨sys, reached, holds⟩ :=
    exists_reachable (RemoteRun UInt8.ofNat) eightBytesJob
      (.invoke .start :: callRuns 0 14 ++ workerRuns 0 8)
      (fun sys => sys.workers.any fun worker =>
        (worker.request? hostFile sys.shared.engine).any fun request =>
          request.range == some "bytes=8-19".toList)
      (by decide +kernel)
  obtain ⟨worker, member, sends⟩ := List.any_eq_true.mp holds
  obtain ⟨request, made, range⟩ := (Option.any_eq_true _ _).mp sends
  obtain ⟨chunk, inChunks, _, asks⟩ :=
    (requests_apart rfl (by decide) eightBytesJob_starts reached hostFile).1 worker member
      request made
  exact ⟨sys, worker, request, member, made, by simpa using range, chunk, inChunks,
    fun position => (asks position).2⟩

end Sys

end Muld
