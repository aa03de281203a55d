import Muld.EngineCalls
import Muld.Accounting
import Mathlib.Algebra.BigOperators.Group.List.Basic

/-! The chunks of an engine over a run of calls: their counters, the running total and the
mirror that the handler keeps.
-/

namespace Muld

open Threads Transition

-----------------------------------------------------------------------------------------
-- What is kept about the chunks
-----------------------------------------------------------------------------------------

namespace ChunkInfo

/-- What a handler shows of a chunk. -/
def progress (chunk : ChunkInfo) : ChunkProgress :=
  { downloadedBytes := chunk.getReceivedSize, totalBytes := chunk.getTotalSize }

/-- The id and the range. -/
def identity (chunk : ChunkInfo) : Nat × Nat × Nat :=
  (chunk.chunkId, chunk.startRange, chunk.endRange)

end ChunkInfo

namespace DownloadEngine

/-- An engine as one of its constructors leaves it. -/
inductive New : DownloadEngine → Prop
  | fresh (maxConnections : Int) (fileSize : Nat) (ranged : Bool) (nChunks : Nat)
      [NeZero nChunks]
    : New (.create maxConnections fileSize ranged nChunks)
  | loaded (image : JobImage) : New (.ofImage image)

def identities (engine : DownloadEngine) : List (Nat × Nat × Nat) :=
  engine.chunksInfo.map ChunkInfo.identity

/-- The sum of the received counts. -/
def receivedSum (engine : DownloadEngine) : Nat :=
  (engine.chunksInfo.map ChunkInfo.received).sum

variable {engine : DownloadEngine}

/-- The total of a new engine is the sum of its counts, as a `size_t`. -/
theorem New.total_eq (new : engine.New)
    : engine.nTotalReceivedBytes = wrap engine.receivedSum := by
  cases new with
  | fresh maxConnections fileSize ranged nChunks =>
      have none : (create maxConnections fileSize ranged nChunks).receivedSum = 0 := by
        refine List.sum_eq_zero ?_
        intro received member
        obtain ⟨chunk, inside, rfl⟩ := List.mem_map.mp member
        obtain ⟨index, _, rfl⟩ := List.mem_map.mp inside
        rfl
      rw [none]
      rfl
  | loaded image =>
      rw [receivedSum, Sys.ofImage_received]
      exact List.sum_nat_mod _ _

theorem New.unlocked (new : engine.New) : engine.diskLocked = false := by
  cases new <;> rfl

/-- Bytes for a chunk move the sum by as many, up to wrapping. -/
theorem wrap_receivedSum_updateReceived {chunkId : Nat} {chunk : ChunkInfo}
    (found : engine.chunksInfo[chunkId]? = some chunk) (bytes : Nat)
    : wrap (engine.updateReceived chunkId bytes).receivedSum
        = wrap (engine.receivedSum + bytes) := by
  have moved := total_updateReceived found bytes
  rw [Sys.total_receivedShare, Sys.total_receivedShare, ← Nat.cast_add] at moved
  exact Int.natCast_modEq_iff.mp moved

/-- And exactly where the counter does not wrap. -/
theorem receivedSum_updateReceived {chunkId bytes : Nat} {chunk : ChunkInfo}
    (found : engine.chunksInfo[chunkId]? = some chunk)
    (fits : chunk.received + bytes < sizeModulus)
    : (engine.updateReceived chunkId bytes).receivedSum = engine.receivedSum + bytes := by
  have moved : total ChunkInfo.receivedShare (engine.updateReceived chunkId bytes).chunksInfo
      = total ChunkInfo.receivedShare engine.chunksInfo - chunk.received
        + wrap (chunk.received + bytes) := by
    rw [updateReceived_chunksInfo found]
    exact total_set ChunkInfo.receivedShare found
  rw [Sys.total_receivedShare, Sys.total_receivedShare, wrap_of_lt fits] at moved
  simp only [receivedSum]
  omega

/-- A count is part of the sum. -/
theorem received_le_receivedSum {index : Nat} {chunk : ChunkInfo}
    (found : engine.chunksInfo[index]? = some chunk)
    : chunk.received ≤ engine.receivedSum :=
  List.single_le_sum (fun _ _ => Nat.zero_le _) _
    (List.mem_map_of_mem (List.mem_of_getElem? found))

theorem updateReceived_identities (chunkId bytes : Nat)
    : (engine.updateReceived chunkId bytes).identities = engine.identities :=
  updateReceived_map ChunkInfo.identity fun _ => rfl

end DownloadEngine

/-- The bytes of a notification. -/
def EngineCall.received : EngineCall → Option Nat
  | .notifyChunkReceived call => some call.bytes
  | _ => none

namespace Shared

/-- What `AttachEngine` does before it hands on the command that was recorded. -/
def attachEngine (bps : Nat) (shared : Shared) : Shared :=
  Call.publish (shared.onEngine fun engine => { engine with callbacksAttached := true }) bps

/-- A new engine has been attached to a handler. -/
inductive Attached : Shared → Prop
  | attach {shared : Shared} (new : shared.engine.New) (bps : Nat)
    : Attached (shared.attachEngine bps)

/-- The total and the handler agree with the chunks, and no call is in the middle of a store. -/
structure Mirrored (shared : Shared) : Prop where
  attached : shared.engine.callbacksAttached = true
  chunks : shared.handler.chunks = shared.engine.chunksInfo.map ChunkInfo.progress
  total : shared.engine.nTotalReceivedBytes = wrap shared.engine.receivedSum
  unlocked : shared.engine.diskLocked = false

/-- Nothing that `Mirrored` speaks about has changed. -/
structure SameChunks (before after : Shared) : Prop where
  chunksInfo : after.engine.chunksInfo = before.engine.chunksInfo
  total : after.engine.nTotalReceivedBytes = before.engine.nTotalReceivedBytes
  attached : after.engine.callbacksAttached = before.engine.callbacksAttached
  chunks : after.handler.chunks = before.handler.chunks
  unlocked : before.engine.diskLocked = false → after.engine.diskLocked = false

variable {shared before middle after : Shared}

theorem SameChunks.trans (first : SameChunks before middle) (second : SameChunks middle after)
    : SameChunks before after where
  chunksInfo := second.chunksInfo.trans first.chunksInfo
  total := second.total.trans first.total
  attached := second.attached.trans first.attached
  chunks := second.chunks.trans first.chunks
  unlocked := second.unlocked ∘ first.unlocked

theorem SameChunks.refl (shared : Shared) : SameChunks shared shared := ⟨rfl, rfl, rfl, rfl, id⟩

/-- A callback that leaves the chunk list alone. -/
theorem sameChunks_callback {run : SharedState → SharedState}
    (keeps : ∀ handler, (run handler).chunks = handler.chunks)
    : SameChunks shared (shared.callback run) :=
  ⟨rfl, rfl, rfl, callback_keeps SharedState.chunks keeps, id⟩

theorem sameChunks_reportState (state : DownloadState)
    : SameChunks shared (shared.reportState state) :=
  sameChunks_callback fun _ => rfl

theorem sameChunks_reportError (error : MuldError)
    : SameChunks shared (shared.reportError error) :=
  sameChunks_callback fun _ => rfl

theorem sameChunks_reportFinish : SameChunks shared shared.reportFinish := by
  have reported : SameChunks shared
      (shared.callback fun handler => { handler with state := .completed }) :=
    sameChunks_callback fun _ => rfl
  exact reported.trans ⟨rfl, rfl, rfl, rfl, id⟩

theorem sameChunks_setState {next : DownloadState} (admitted : shared.setState next = some after)
    : SameChunks shared after := by
  obtain ⟨engine, moved, rfl⟩ := Option.map_eq_some_iff.mp admitted
  obtain ⟨_, rfl⟩ := DownloadEngine.setState_eq_some_iff.mp moved
  refine SameChunks.trans ?_ (sameChunks_reportState next)
  exact ⟨rfl, rfl, rfl, rfl, id⟩

theorem sameChunks_store {outcome : StoreOutcome} (taken : shared.store outcome = some after)
    : SameChunks shared after := by
  have released := store_unlocked taken
  rw [store] at taken
  split at taken <;> cases taken
  exact ⟨rfl, rfl, rfl, rfl, fun _ => released⟩

theorem sameChunks_cleanupArtifacts (removeOutputFile : Bool)
    : SameChunks shared (shared.cleanupArtifacts removeOutputFile) := by
  constructor <;> simp

theorem sameChunks_enqueueTasks : SameChunks shared shared.enqueueTasks := by
  rw [enqueueTasks, onEngine]
  rcases shared.engine.planNewWorkers_cases shared.maxThreads with none | ⟨toAdd, _, _, some⟩
  · rw [none]
    exact .refl shared
  · rw [some]
    exact ⟨rfl, rfl, rfl, rfl, id⟩

theorem sameChunks_restart : SameChunks shared shared.restart := by
  have built : SameChunks shared (shared.onEngine .buildPendingWork) := ⟨rfl, rfl, rfl, rfl, id⟩
  rw [restart]
  refine SameChunks.trans ?_ sameChunks_enqueueTasks
  exact ⟨built.chunksInfo, built.total, built.attached, built.chunks, built.unlocked⟩

theorem sameChunks_start (taken : shared.start = some after) : SameChunks shared after := by
  rw [start] at taken
  split at taken
  · cases taken
    exact .refl shared
  · rename_i admitted
    split at taken <;> cases taken
    exact (sameChunks_setState admitted).trans sameChunks_restart

theorem sameChunks_pause : SameChunks shared shared.pause := by
  rw [pause]
  split
  · exact .refl shared
  · rename_i admitted
    exact (sameChunks_setState admitted).trans ⟨rfl, rfl, rfl, rfl, id⟩

theorem sameChunks_fail {error : MuldError} {outcome : StoreOutcome}
    (taken : shared.fail error outcome = some after)
    : SameChunks shared after := by
  rw [fail] at taken
  split at taken
  · cases taken
    exact .refl shared
  · rename_i failed admitted
    obtain ⟨stored, kept, rfl⟩ := Option.map_eq_some_iff.mp taken
    have disturbed : SameChunks failed
        (failed.onHistory fun history => { history with undisturbed := false }) :=
      ⟨rfl, rfl, rfl, rfl, id⟩
    have erred : SameChunks stored (stored.onEngine fun engine => { engine with error }) :=
      ⟨rfl, rfl, rfl, rfl, id⟩
    exact (((sameChunks_setState admitted).trans disturbed).trans (sameChunks_store kept)).trans
      (erred.trans (sameChunks_reportError error))

theorem sameChunks_open : SameChunks shared shared.notifyConnectionOpen := by
  have opened : SameChunks shared (shared.onEngine .notifyConnectionOpen) :=
    ⟨rfl, rfl, rfl, rfl, id⟩
  rw [notifyConnectionOpen]
  split
  · exact opened.trans (sameChunks_reportState .downloading)
  · exact opened

theorem sameChunks_close : SameChunks shared shared.notifyConnectionClose := by
  have closed : SameChunks shared (shared.onEngine .notifyConnectionClose) :=
    ⟨rfl, rfl, rfl, rfl, id⟩
  rw [notifyConnectionClose]
  split
  · exact closed.trans (sameChunks_cleanupArtifacts true)
  · exact closed

/-- The second half of a notification: the counter since the last store, and completion. -/
theorem sameChunks_countStored {bytes : Nat} {outcome : StoreOutcome}
    (taken : shared.countStored bytes outcome = some after)
    : SameChunks shared after := by
  have counted : SameChunks shared (shared.onEngine (.addFromLastStore bytes)) :=
    ⟨rfl, rfl, rfl, rfl, id⟩
  rw [countStored] at taken
  split at taken
  · exact counted.trans (sameChunks_store taken)
  · cases taken
    exact counted

theorem sameChunks_finishCompleted {outcome : StoreOutcome}
    (taken : shared.finishCompleted outcome = some after)
    : SameChunks shared after := by
  obtain ⟨stored, kept, rfl⟩ := Option.map_eq_some_iff.mp taken
  exact ((sameChunks_store kept).trans (sameChunks_cleanupArtifacts false)).trans
    sameChunks_reportFinish

theorem sameChunks_complete {outcome : StoreOutcome}
    (taken : shared.complete outcome = some after)
    : SameChunks shared after := by
  have completed : SameChunks shared
      (shared.onEngine fun engine => { engine with state := .completed }) :=
    ⟨rfl, rfl, rfl, rfl, id⟩
  rw [complete] at taken
  split at taken
  case h_4 =>
    cases taken
    exact .refl shared
  all_goals exact completed.trans (sameChunks_finishCompleted taken)

theorem sameChunks_finishChunk {chunkId : Nat} {outcome : StoreOutcome}
    (taken : shared.finishChunk chunkId outcome = some after)
    : SameChunks shared after := by
  have bumped : SameChunks shared (shared.onEngine .bumpDownloaded) := ⟨rfl, rfl, rfl, rfl, id⟩
  rw [finishChunk] at taken
  split at taken
  · split at taken
    · exact bumped.trans (sameChunks_complete taken)
    · cases taken
      exact bumped
  · cases taken
    exact .refl shared

/-- A chunk of the list needs no place made for it. -/
theorem resizeChunks_of_lt {chunks : List ChunkProgress} {chunkId : Nat}
    (inside : chunkId < chunks.length)
    : resizeChunks chunks chunkId = chunks := by
  rw [resizeChunks, Nat.sub_eq_zero_of_le inside]
  exact List.append_nil chunks

theorem receive_chunks {call : Notification} (chunk : ChunkInfo)
    (attached : shared.engine.callbacksAttached = true)
    : (shared.receive call chunk).handler.chunks
        = (resizeChunks shared.handler.chunks call.chunkId).set call.chunkId chunk.progress := by
  have keeps : ∀ downloadedBytes (shared : Shared),
      (shared.reportProgress downloadedBytes).handler.chunks = shared.handler.chunks :=
    fun _ _ => callback_keeps SharedState.chunks fun _ => rfl
  rw [receive]
  split
  · rw [keeps]
    exact congrArg SharedState.chunks (if_pos attached)
  · exact congrArg SharedState.chunks (if_pos attached)

/-- A notification adds to the chunk, to the total and to the mirror. -/
theorem Mirrored.receive {call : Notification} {chunk : ChunkInfo} (mirrored : shared.Mirrored)
    (found : shared.engine.chunksInfo[call.chunkId]? = some chunk)
    : (shared.receive call (chunk.updateReceived call.bytes)).Mirrored := by
  have engine := receive_engine call (chunk.updateReceived call.bytes) shared
  constructor
  case attached =>
    rw [engine]
    exact mirrored.attached
  case chunks =>
    obtain ⟨inside, _⟩ := List.getElem?_eq_some_iff.mp found
    have shown : call.chunkId < (shared.engine.chunksInfo.map ChunkInfo.progress).length := by
      rwa [List.length_map]
    rw [receive_chunks _ mirrored.attached, mirrored.chunks, resizeChunks_of_lt shown, engine,
      ← List.map_set, ← DownloadEngine.updateReceived_chunksInfo found]
    rfl
  case total =>
    have counted : (shared.receive call (chunk.updateReceived call.bytes)).engine.receivedSum
        = (shared.engine.updateReceived call.chunkId call.bytes).receivedSum := by
      rw [engine]
      rfl
    rw [counted, DownloadEngine.wrap_receivedSum_updateReceived found, engine]
    change wrap (shared.engine.nTotalReceivedBytes + call.bytes) = _
    rw [mirrored.total]
    exact Nat.mod_add_mod _ _ _
  case unlocked =>
    rw [engine]
    exact mirrored.unlocked

theorem Mirrored.of_same (mirrored : before.Mirrored) (same : SameChunks before after)
    : after.Mirrored where
  attached := same.attached.trans mirrored.attached
  chunks := by rw [same.chunks, same.chunksInfo, mirrored.chunks]
  total := by
    rw [same.total, mirrored.total, DownloadEngine.receivedSum, DownloadEngine.receivedSum,
      same.chunksInfo]
  unlocked := same.unlocked mirrored.unlocked

/-- A call leaves all this alone or is a notification, which receives bytes first. -/
theorem call_cases {call : EngineCall} (taken : before.call call = some after)
    : call.received = none ∧ SameChunks before after
      ∨ ∃ notification chunk,
          call = .notifyChunkReceived notification
          ∧ before.engine.chunksInfo[notification.chunkId]? = some chunk
          ∧ SameChunks (before.receive notification (chunk.updateReceived notification.bytes))
              after := by
  cases call with
  | start => exact .inl ⟨rfl, sameChunks_start taken⟩
  | resume => exact .inl ⟨rfl, sameChunks_start taken⟩
  | pause =>
      cases taken
      exact .inl ⟨rfl, sameChunks_pause⟩
  | fail error outcome => exact .inl ⟨rfl, sameChunks_fail taken⟩
  | store outcome => exact .inl ⟨rfl, sameChunks_store taken⟩
  | notifyConnectionOpen =>
      cases taken
      exact .inl ⟨rfl, sameChunks_open⟩
  | notifyConnectionClose =>
      cases taken
      exact .inl ⟨rfl, sameChunks_close⟩
  | notifyChunkReceived notification =>
      have returned : before.notifyChunkReceived notification = some after := taken
      obtain ⟨chunk, found⟩ := found_of_notifyChunkReceived returned
      refine .inr ⟨notification, chunk, rfl, found, ?_⟩
      simp only [notifyChunkReceived, updateReceived_getElem?_found found] at returned
      obtain ⟨counted, stored, finished⟩ := Option.bind_eq_some_iff.mp returned
      exact (sameChunks_countStored stored).trans (sameChunks_finishChunk finished)

/-- Every call keeps the handler in step. -/
theorem Mirrored.call {call : EngineCall} (mirrored : before.Mirrored)
    (taken : before.call call = some after)
    : after.Mirrored := by
  rcases call_cases taken with ⟨_, same⟩ | ⟨notification, chunk, _, found, same⟩
  · exact mirrored.of_same same
  · exact (mirrored.receive found).of_same same

/-- The attachment publishes all chunks. -/
theorem Attached.mirrored (attached : shared.Attached) : shared.Mirrored := by
  cases attached with
  | attach new bps => exact ⟨rfl, rfl, new.total_eq, new.unlocked⟩

-----------------------------------------------------------------------------------------
-- Runs of calls
-----------------------------------------------------------------------------------------

end Shared

/-- The states that calls, one after another, lead to, with the bytes they were notified of. -/
abbrev CallsRun (start : Shared) : Shared → List Nat → Prop :=
  Transition.Logged Shared.call anyStep (fun _ call => call.received) start

variable {start before middle after : Shared} {log : List Nat}

theorem CallsRun.mirrored (run : CallsRun start after log) (mirrored : start.Mirrored)
    : after.Mirrored := by
  refine run.reachable.invariant mirrored ?_
  intro before call after _ mirrored taken _
  exact mirrored.call taken

/-- Each call of a run does what its program does when it runs alone. -/
theorem CallsRun.next_runs {call : EngineCall} (run : CallsRun start before log)
    (attached : start.Attached) (taken : before.call call = some after)
    : call.Runs before after :=
  Shared.call_runs (run.mirrored attached.mirrored).unlocked taken

/-- What a run leaves of the chunks: their ids and ranges, and while no counter can wrap the
bytes they had.
-/
structure Grown (start after : DownloadEngine) (bytes : Nat) : Prop where
  identities : after.identities = start.identities
  received
    : start.receivedSum + bytes < sizeModulus
      → after.receivedSum = start.receivedSum + bytes
        ∧ ∀ {index : Nat} {chunk now : ChunkInfo},
            start.chunksInfo[index]? = some chunk
            → after.chunksInfo[index]? = some now
            → chunk.received ≤ now.received

theorem Grown.refl (engine : DownloadEngine) : Grown engine engine 0 := by
  refine ⟨rfl, ?_⟩
  intro _
  refine ⟨rfl, ?_⟩
  intro index chunk now found again
  obtain rfl := Option.some.inj (found.symm.trans again)
  exact Nat.le_refl _

theorem Grown.of_same {start middle after : DownloadEngine} {bytes : Nat}
    (grown : Grown start middle bytes) (same : after.chunksInfo = middle.chunksInfo)
    : Grown start after bytes := by
  have sum : after.receivedSum = middle.receivedSum := by
    rw [DownloadEngine.receivedSum, DownloadEngine.receivedSum, same]
  refine ⟨?_, ?_⟩
  · rw [DownloadEngine.identities, same]
    exact grown.identities
  · rw [sum, same]
    exact grown.received

/-- A notification adds its bytes to one chunk. -/
theorem Grown.updateReceived {start middle : DownloadEngine} {bytes chunkId more : Nat}
    {chunk : ChunkInfo} (grown : Grown start middle bytes)
    (found : middle.chunksInfo[chunkId]? = some chunk)
    : Grown start (middle.updateReceived chunkId more) (bytes + more) := by
  refine ⟨?_, ?_⟩
  · rw [DownloadEngine.updateReceived_identities]
    exact grown.identities
  · intro fits
    obtain ⟨sum, kept⟩ := grown.received (by omega)
    have part := DownloadEngine.received_le_receivedSum found
    have added : chunk.received + more < sizeModulus := by omega
    refine ⟨?_, ?_⟩
    · rw [DownloadEngine.receivedSum_updateReceived found added, sum, Nat.add_assoc]
    · intro index old now present present_now
      by_cases same : chunkId = index
      · subst same
        rw [DownloadEngine.updateReceived_getElem?_self, found] at present_now
        obtain rfl := Option.some.inj present_now
        rw [ChunkInfo.updateReceived_received, wrap_of_lt added]
        exact (kept present found).trans (Nat.le_add_right _ _)
      · rw [DownloadEngine.updateReceived_getElem?_other _ _ same] at present_now
        exact kept present present_now

/-- Over a run of calls the chunks grow by the bytes of its notifications. -/
theorem CallsRun.grown (run : CallsRun start after log)
    : Grown start.engine after.engine log.sum := by
  refine @Transition.Logged.invariant _ _ _ _ _ _ _ _
    (fun after log => Grown start.engine after.engine log.sum) _ run (Grown.refl start.engine) ?_
  intro before call after log _ grown taken _
  rcases Shared.call_cases taken with ⟨silent, same⟩ | ⟨notification, chunk, rfl, found, same⟩
  · rw [silent, Option.toList_none, List.append_nil]
    exact grown.of_same same.chunksInfo
  · have more : (log ++ (EngineCall.received (.notifyChunkReceived notification)).toList).sum
        = log.sum + notification.bytes := List.sum_append
    have received : Grown start.engine
        (before.receive notification (chunk.updateReceived notification.bytes)).engine
        (log.sum + notification.bytes) := by
      rw [Shared.receive_engine]
      exact (grown.updateReceived found).of_same rfl
    rw [more]
    exact received.of_same same.chunksInfo

/-- Between any two points of a run the chunks keep their ids and ranges; the handler shows
each of them, and the total is the sum of the counts as a `size_t`. Where the counts of the
start and the bytes of all notifications are below 2^64, the total is the sum itself, and no
count has gone down.
-/
theorem chunks_stable {earlier later : List Nat} (attached : start.Attached)
    (began : CallsRun start middle earlier) (went_on : CallsRun middle after later)
    : after.engine.identities = middle.engine.identities
      ∧ after.handler.chunks = after.engine.chunksInfo.map ChunkInfo.progress
      ∧ after.engine.nTotalReceivedBytes = wrap after.engine.receivedSum
      ∧ (start.engine.receivedSum + earlier.sum + later.sum < sizeModulus
        → after.engine.nTotalReceivedBytes = after.engine.receivedSum
          ∧ ∀ (index : Nat) (chunk now : ChunkInfo),
              middle.engine.chunksInfo[index]? = some chunk
              → after.engine.chunksInfo[index]? = some now
              → chunk.received ≤ now.received) := by
  have mirrored := went_on.mirrored (began.mirrored attached.mirrored)
  refine ⟨went_on.grown.identities, mirrored.chunks, mirrored.total, ?_⟩
  intro fits
  obtain ⟨sum_middle, _⟩ := began.grown.received (by omega)
  obtain ⟨sum, kept⟩ := went_on.grown.received (by omega)
  refine ⟨?_, fun _ _ _ => kept⟩
  rw [mirrored.total]
  exact wrap_of_lt (by omega)

/-- What a list of calls makes of a state, with the bytes of its notifications. -/
def runCalls (start : Shared) (calls : List EngineCall) : Option (Shared × List Nat) :=
  Transition.logWhile Shared.call anyStep (fun _ call => call.received) start [] calls

theorem callsRun_of_runCalls {calls : List EngineCall}
    (ran : runCalls start calls = some (after, log))
    : CallsRun start after log :=
  Transition.Logged.start.extend ran

/-- Twenty bytes in two chunks, attached to a handler. -/
def twoAttached : Shared := Sys.twoChunks.shared.attachEngine 0

theorem twoAttached_attached : twoAttached.Attached :=
  .attach (.fresh 8 20 true 2) 0

/-- A chunk that is received by halves, with a pause between them. -/
theorem chunks_stable_resumed
    : ∃ middle after,
        CallsRun twoAttached middle [5]
        ∧ CallsRun middle after [5]
        ∧ after.engine.nTotalReceivedBytes = 10
        ∧ after.engine.nTotalReceivedBytes = after.engine.receivedSum
        ∧ after.handler.chunks = after.engine.chunksInfo.map ChunkInfo.progress := by
  have ran : (runCalls twoAttached
      [.start, .notifyConnectionOpen, .notifyChunkReceived { chunkId := 0, bytes := 5 },
        .pause, .notifyConnectionClose, .notifyConnectionClose]).any
      (fun middle => middle.2 == [5]
        && (runCalls middle.1
            [.resume, .notifyConnectionOpen,
              .notifyChunkReceived { chunkId := 0, bytes := 5 }]).any
            fun after => after.2 == [5] && after.1.engine.nTotalReceivedBytes == 10) = true := by
    decide +kernel
  obtain ⟨⟨middle, earlier⟩, began, rest⟩ := (Option.any_eq_true _ _).mp ran
  obtain ⟨halves, ran⟩ := Bool.and_eq_true_iff.mp rest
  obtain ⟨⟨after, later⟩, went_on, rest⟩ := (Option.any_eq_true _ _).mp ran
  obtain ⟨others, ten⟩ := Bool.and_eq_true_iff.mp rest
  obtain rfl := eq_of_beq halves
  obtain rfl := eq_of_beq others
  have first := callsRun_of_runCalls began
  have second := callsRun_of_runCalls went_on
  obtain ⟨_, chunks, _, exact_⟩ := chunks_stable twoAttached_attached first second
  exact ⟨middle, after, first, second, eq_of_beq ten, (exact_ (by decide +kernel)).1, chunks⟩

/-- A count goes down where it wraps. -/
theorem count_wraps
    : ¬ ∀ (start middle after : Shared) (earlier later : List Nat),
        start.Attached
        → CallsRun start middle earlier
        → CallsRun middle after later
        → ∀ (index : Nat) (chunk now : ChunkInfo),
            middle.engine.chunksInfo[index]? = some chunk
            → after.engine.chunksInfo[index]? = some now
            → chunk.received ≤ now.received := by
  intro stable
  have ran : (runCalls twoAttached [.notifyChunkReceived { chunkId := 0, bytes := 1 }]).any
      (fun middle => (middle.1.engine.chunksInfo[0]?).any (·.received == 1)
        && (runCalls middle.1
            [.notifyChunkReceived { chunkId := 0, bytes := 2 ^ 64 - 1 }]).any
            fun after => (after.1.engine.chunksInfo[0]?).any (·.received == 0)) = true := by
    decide +kernel
  obtain ⟨⟨middle, earlier⟩, began, rest⟩ := (Option.any_eq_true _ _).mp ran
  obtain ⟨counted, ran⟩ := Bool.and_eq_true_iff.mp rest
  obtain ⟨⟨after, later⟩, went_on, wrapped⟩ := (Option.any_eq_true _ _).mp ran
  obtain ⟨chunk, found, one⟩ := (Option.any_eq_true _ _).mp counted
  obtain ⟨now, found_now, zero⟩ := (Option.any_eq_true _ _).mp wrapped
  have grows := stable twoAttached middle after earlier later twoAttached_attached
    (callsRun_of_runCalls began) (callsRun_of_runCalls went_on) 0 chunk now found found_now
  rw [eq_of_beq one, eq_of_beq zero] at grows
  exact absurd grows (by decide)

end Muld
