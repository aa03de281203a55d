import Muld.Scheduling

/-! Who uses the writer and who drops it. A thread uses the writer some steps after its last
look at the state, and `CleanupArtifacts` runs on a state seen earlier too; the mutex they
share covers neither look.
-/

namespace Muld

open Threads

-----------------------------------------------------------------------------------------
-- Threads that will use the writer and threads that clean up
-----------------------------------------------------------------------------------------

/-- The program points from which a worker may write or store without another look at the
state.
-/
def WorkerPc.usesWriter : WorkerPc → Bool
  | .budget | .awaitBudget | .read | .write | .notifyUpdate | .notifyTotal | .notifyEvent
  | .notifyEventReport | .notifyProgress | .notifyProgressReport | .notifyCount
  | .completeForce | .storeLock _ | .storeScan _ | .storeWrite _ | .failReport => true
  | _ => false

/-- The program points at which a worker is in or before a `CleanupArtifacts`. -/
def WorkerPc.cleaning : WorkerPc → Bool
  | .completeCleanup | .closeCleanup => true
  | _ => false

/-- A call that stores, or a `Terminate` that has passed the comparison with the state. -/
def Call.usesWriter (state : DownloadState) : Call → Bool
  | .storeLock _ | .storeScan _ _ | .storeWrite _ _ => true
  | .terminateState rest => !rest.contains state
  | _ => false

/-- The states in which no loop of a worker goes on. -/
def DownloadState.ended : DownloadState → Bool
  | .canceled | .completed => true
  | _ => false

-----------------------------------------------------------------------------------------
-- What a cleanup leaves
-----------------------------------------------------------------------------------------

namespace Shared

/-- The writer and the image are there until the artifacts are cleaned, and a cleanup of a
download that is not completed leaves no output file.
-/
structure Tidy (shared : Shared) : Prop where
  writer : shared.engine.writer = !shared.engine.artifactsCleaned
  image : shared.engine.artifactsCleaned = true → shared.image = .absent
  output
    : shared.engine.artifactsCleaned = true
      → shared.engine.state = .completed ∨ shared.output = none

variable {shared after : Shared}

theorem Tidy.cleaned_of_closed (tidy : shared.Tidy) (closed : shared.engine.writer = false)
    : shared.engine.artifactsCleaned = true := by
  simpa [closed] using tidy.writer

/-- A cleanup removes the output file unless the download is completed. -/
theorem Tidy.cleanup (tidy : shared.Tidy) {removeOutputFile : Bool}
    (kept : removeOutputFile = false → shared.engine.state = .completed)
    : (shared.cleanupArtifacts removeOutputFile).Tidy where
  writer := by simp [tidy.writer]
  image := by
    intro _
    unfold cleanupArtifacts
    split
    · exact tidy.image ‹_›
    · rfl
  output := by
    intro _
    cases removeOutputFile
    · exact Or.inl (by simpa using kept rfl)
    · unfold cleanupArtifacts
      split
      · exact tidy.output ‹_›
      · exact Or.inr rfl

/-- A store needs the writer, so none follows a cleanup. -/
theorem Tidy.store (tidy : shared.Tidy) (open_ : shared.engine.writer = true)
    (scan : List ChunkState) (outcome : StoreOutcome)
    : (shared.storeImage scan outcome).Tidy := by
  have unclean : shared.engine.artifactsCleaned = false := by
    simpa [open_] using tidy.writer
  exact ⟨tidy.writer, by simp [storeImage, unclean], by simp [storeImage, unclean]⟩

/-- A step that leaves the files alone, or only writes to the output file, keeps them tidy. -/
theorem Tidy.of_same (tidy : shared.Tidy)
    (same
      : after.engine.artifactsCleaned = shared.engine.artifactsCleaned
        ∧ after.engine.writer = shared.engine.writer
        ∧ after.image = shared.image)
    (completed : shared.engine.state = .completed → after.engine.state = .completed)
    (output : shared.output = none → after.output = none)
    : after.Tidy where
  writer := by rw [same.1, same.2.1, tidy.writer]
  image := by rw [same.1, same.2.2]; exact tidy.image
  output := by rw [same.1]; exact fun cleaned => (tidy.output cleaned).imp completed output

end Shared

namespace Worker

variable {shared shared' : Shared} {worker next : Worker} {label : WorkerLabel}

/-- A worker gets to a use of the writer through a state that has not ended. -/
theorem Step.usesWriter (taken : Step shared worker label shared' next)
    (after : next.pc.usesWriter = true)
    : worker.pc.usesWriter = true ∨ shared.engine.state.ended = false := by
  cases taken
  case streamProceed found => exact Or.inr (by rw [found]; rfl)
  case complete found => exact Or.inr (by rw [found]; rfl)
  case completeStopped found =>
    exact Or.inr (by rcases found with found | found <;> rw [found] <;> rfl)
  case fail admitted =>
    refine Or.inr ?_
    cases state : shared.engine.state <;> simp_all [DownloadEngine.admits, DownloadState.ended]
  case store site _ at_pc _ => cases site <;> cases after
  case nullWriter => exact Or.inl after
  case allow at_pc _ _ => rcases at_pc with at_pc | at_pc <;> exact Or.inl (by rw [at_pc]; rfl)
  all_goals first | cases after; done | exact Or.inl (by rw [‹worker.pc = _›]; rfl)

/-- The files of the job change where a worker stores or cleans up. -/
theorem Step.artifacts (taken : Step shared worker label shared' next)
    : (shared'.engine.artifactsCleaned = shared.engine.artifactsCleaned
        ∧ shared'.engine.writer = shared.engine.writer
        ∧ shared'.image = shared.image)
      ∨ (∃ site outcome,
          worker.pc = .storeWrite site
          ∧ shared.engine.writer = true
          ∧ shared' = shared.storeImage worker.scan outcome)
      ∨ ∃ removeOutputFile,
          worker.pc.cleaning = true
          ∧ (removeOutputFile = false → worker.pc.finishing = true)
          ∧ shared' = shared.cleanupArtifacts removeOutputFile := by
  cases taken
  case store site outcome at_pc open_ =>
    exact Or.inr (Or.inl ⟨site, outcome, at_pc, open_, rfl⟩)
  case cleanup at_pc _ =>
    exact Or.inr (Or.inr ⟨false, by rw [at_pc]; rfl, fun _ => by rw [at_pc]; rfl, rfl⟩)
  case closeCleanup at_pc _ =>
    exact Or.inr (Or.inr ⟨true, by rw [at_pc]; rfl, by simp, rfl⟩)
  all_goals exact Or.inl ⟨rfl, rfl, rfl⟩

/-- A null writer is used where a worker writes or stores without one. -/
theorem Step.nullWriter_cases (taken : Step shared worker label shared' next)
    : shared'.nullWriter = shared.nullWriter
      ∨ (worker.pc.usesWriter = true ∧ shared.engine.writer = false) := by
  cases taken
  case nullWriter at_pc closed =>
    refine Or.inr ⟨?_, closed⟩
    rcases at_pc with at_pc | ⟨_, at_pc⟩ <;> rw [at_pc] <;> rfl
  all_goals exact Or.inl (by first | rfl | simp)

/-- While no thread uses the writer, an ended state is final for workers. -/
theorem Step.stays_ended (taken : Step shared worker label shared' next)
    (ended : shared.engine.state.ended = true) (idle : worker.pc.usesWriter = false)
    : shared'.engine.state = shared.engine.state := by
  rcases taken.state with same | ⟨_, _, found, _⟩ | ⟨⟨_, found⟩ | forced, _⟩ | ⟨_, _, found, _⟩
  · exact same
  · simp [found, DownloadState.ended] at ended
  · simp [found, DownloadState.ended] at ended
  · simp [forced, WorkerPc.usesWriter] at idle
  · rcases found with found | found <;> simp [found, DownloadState.ended] at ended

end Worker

namespace Call

variable {index : Nat} {shared shared' : Shared} {call next : Call} {label : CallLabel}
  {spawned : List Worker}

/-- In an ended state a call gets to a use of the writer only from one. -/
theorem Step.usesWriter (taken : Step index shared call label shared' next spawned)
    (ended : shared.engine.state.ended = true)
    (after : next.usesWriter shared.engine.state = true)
    : call.usesWriter shared.engine.state = true := by
  cases taken
  case terminateOpen =>
    cases state : shared.engine.state <;>
      simp [state, DownloadState.ended, Call.usesWriter, finishedStates] at ended after
  case terminateNext finished rest found =>
    simpa [Call.usesWriter, found] using after
  all_goals first | rfl | grind [Call.usesWriter]

/-- The files of the job change where a call stores or cleans up. -/
theorem Step.artifacts (taken : Step index shared call label shared' next spawned)
    : (shared'.engine.artifactsCleaned = shared.engine.artifactsCleaned
        ∧ shared'.engine.writer = shared.engine.writer
        ∧ shared'.image = shared.image)
      ∨ (∃ terminate scan outcome,
          call = .storeWrite terminate scan
          ∧ shared.engine.writer = true
          ∧ shared' = shared.storeImage scan outcome)
      ∨ (call = .cancelCleanup
        ∧ next = .returned true
        ∧ shared' = shared.cleanupArtifacts true) := by
  cases taken
  case store scan outcome open_ => exact Or.inr (Or.inl ⟨false, scan, outcome, rfl, open_, rfl⟩)
  case storeTerminate scan outcome open_ =>
    exact Or.inr (Or.inl ⟨true, scan, outcome, rfl, open_, rfl⟩)
  case cancelCleanup => exact Or.inr (Or.inr ⟨rfl, rfl, rfl⟩)
  all_goals exact Or.inl ⟨rfl, rfl, rfl⟩

theorem Step.nullWriter_cases (taken : Step index shared call label shared' next spawned)
    : shared'.nullWriter = shared.nullWriter
      ∨ (call.usesWriter shared.engine.state = true ∧ shared.engine.writer = false) := by
  cases taken
  case nullWriter closed => exact Or.inr ⟨rfl, closed⟩
  all_goals exact Or.inl (by first | rfl | simp)

/-- An ended state is final for calls but for a `Start` or `Resume` of a canceled download.
-/
theorem Step.stays_ended (taken : Step index shared call label shared' next spawned)
    (ended : shared.engine.state.ended = true)
    : shared'.engine.state = shared.engine.state
      ∨ (call = .startSet ∧ DownloadEngine.admits .queued shared.engine.state = true) := by
  rcases taken.accepts with
    ⟨same, _⟩ | ⟨at_pc, _, admitted, _⟩ | ⟨_, _, admitted, _⟩ | ⟨_, _, admitted, _⟩
  · exact Or.inl same
  · exact Or.inr ⟨at_pc, admitted⟩
  all_goals
    cases state : shared.engine.state <;>
      simp [state, DownloadState.ended, DownloadEngine.admits] at ended admitted

end Call

namespace Sys

variable {meets : Sys → Action → Sys → Prop} {start sys : Sys}

/-- The files of the job over a whole run: what follows a completion keeps the output. -/
structure Artifacts (sys : Sys) : Prop where
  tidy : sys.shared.Tidy
  finishing
    : ∀ worker ∈ sys.workers,
        worker.pc.finishing = true → sys.shared.engine.state = .completed

theorem ReachableWhile.artifacts (built : start.Built)
    (reached : ReachableWhile meets start sys)
    : sys.Artifacts := by
  refine invariant reached ?_ ?_ ?_ ?_
  · exact ⟨⟨by simp [built.writer, built.artifactsCleaned],
      by simp [built.artifactsCleaned], by simp [built.artifactsCleaned]⟩,
      by simp [built.workers]⟩
  · intro sys index worker next label shared _ _ artifacts found taken _
    have member := List.mem_of_getElem? found
    constructor
    case tidy =>
      rcases taken.artifacts with same | ⟨_, outcome, _, open_, rfl⟩ | ⟨_, _, kept, rfl⟩
      · refine artifacts.tidy.of_same same taken.stays_completed ?_
        intro removed
        rcases taken.output with same | ⟨_, _, rfl⟩ | ⟨_, rfl⟩
        · rw [same, removed]
        · simp [Shared.writeOutput, removed]
        · rcases sys.shared.cleanupArtifacts_output true with same | none
          · rw [same, removed]
          · exact none
      · exact artifacts.tidy.store open_ _ outcome
      · exact artifacts.tidy.cleanup fun keep => artifacts.finishing worker member (kept keep)
    case finishing =>
      refine forall_set (fun other old inside =>
        taken.stays_completed (artifacts.finishing other old inside)) ?_
      intro inside
      exact (taken.entersFinishing inside).elim
        (fun before => taken.stays_completed (artifacts.finishing worker member before)) id
  · intro sys index call next label shared spawned _ _ artifacts found taken _
    constructor
    case tidy =>
      rcases taken.artifacts with same | ⟨_, _, outcome, _, open_, rfl⟩ | ⟨_, _, rfl⟩
      · refine artifacts.tidy.of_same same taken.stays_completed ?_
        intro removed
        rcases taken.output with same | ⟨_, rfl⟩
        · rw [same, removed]
        · rcases sys.shared.cleanupArtifacts_output true with same | none
          · rw [same, removed]
          · exact none
      · exact artifacts.tidy.store open_ _ outcome
      · exact artifacts.tidy.cleanup (by simp)
    case finishing =>
      intro worker present inside
      rcases taken.mem_workers present with old | rfl
      · exact taken.stays_completed (artifacts.finishing worker old inside)
      · cases inside
  · intro sys api dispatched _ artifacts
    exact ⟨artifacts.tidy, artifacts.finishing⟩

-----------------------------------------------------------------------------------------
-- The writer over whole runs
-----------------------------------------------------------------------------------------

/-- The download has ended and no thread has passed its last look at the state before a use
of the writer.
-/
structure WriterIdle (sys : Sys) : Prop where
  state : sys.shared.engine.state.ended = true
  workers : ∀ worker ∈ sys.workers, worker.pc.usesWriter = false
  calls : ∀ call ∈ sys.calls, call.usesWriter sys.shared.engine.state = false

instance (sys : Sys) : Decidable sys.WriterIdle :=
  decidable_of_iff
    (sys.shared.engine.state.ended = true
      ∧ (∀ worker ∈ sys.workers, worker.pc.usesWriter = false)
      ∧ ∀ call ∈ sys.calls, call.usesWriter sys.shared.engine.state = false)
    ⟨fun ⟨state, workers, calls⟩ => ⟨state, workers, calls⟩,
      fun idle => ⟨idle.state, idle.workers, idle.calls⟩⟩

/-- A cleanup finds the writer idle, and after it no `Start`, `Resume` or `Store` gets
through.
-/
def CleansIdle (before : Sys) (action : Action) (_ : Sys) : Prop :=
  match action with
  | .worker index _ =>
      ∀ worker ∈ before.workers[index]?, worker.pc.cleaning = true → before.WriterIdle
  | .call index _ =>
      (before.calls[index]? = some .cancelCleanup → before.WriterIdle)
        ∧ (before.calls[index]? = some .startSet
          → DownloadEngine.admits .queued before.shared.engine.state = true
          → before.shared.engine.artifactsCleaned = false)
  | .invoke api => api = .store → before.shared.engine.artifactsCleaned = false

instance (before : Sys) (action : Action) (after : Sys)
    : Decidable (CleansIdle before action after) :=
  match action with
  | .worker .. | .call .. | .invoke .. => by unfold CleansIdle; infer_instance

theorem WriterIdle.worker_step (idle : sys.WriterIdle) {index : Nat}
    {worker next : Worker} {label : WorkerLabel} {shared : Shared}
    (found : sys.workers[index]? = some worker)
    (taken : worker.Step sys.shared label shared next)
    : WriterIdle { sys with shared, workers := sys.workers.set index next } := by
  have outside := idle.workers worker (List.mem_of_getElem? found)
  have same := taken.stays_ended idle.state outside
  constructor <;> simp only [same]
  case state => exact idle.state
  case workers =>
    refine forall_set idle.workers (eq_false_of_ne_true fun inside => ?_)
    rcases taken.usesWriter inside with before | open_
    · simp [outside] at before
    · simp [idle.state] at open_
  case calls => exact idle.calls

theorem WriterIdle.call_step (idle : sys.WriterIdle) {index : Nat} {call next : Call}
    {label : CallLabel} {shared : Shared} {spawned : List Worker}
    (found : sys.calls[index]? = some call)
    (taken : Call.Step index sys.shared call label shared next spawned)
    (refused
      : call = .startSet → DownloadEngine.admits .queued sys.shared.engine.state = false)
    : WriterIdle { sys with
        shared
        workers := sys.workers ++ spawned
        calls := sys.calls.set index next } := by
  have outside := idle.calls call (List.mem_of_getElem? found)
  have same : shared.engine.state = sys.shared.engine.state := by
    refine (taken.stays_ended idle.state).resolve_right ?_
    rintro ⟨at_pc, admitted⟩
    simp [refused at_pc] at admitted
  constructor <;> simp only [same]
  case state => exact idle.state
  case workers =>
    intro worker member
    rcases taken.mem_workers member with old | rfl
    · exact idle.workers worker old
    · rfl
  case calls =>
    refine forall_set idle.calls (eq_false_of_ne_true fun inside => ?_)
    simp [taken.usesWriter idle.state inside] at outside

/-- No null writer was used, and after a cleanup the writer is idle. -/
structure WriterSafe (sys : Sys) : Prop where
  valid : sys.shared.nullWriter = false
  idle : sys.shared.engine.artifactsCleaned = true → sys.WriterIdle

/-- By induction on the run: a cleanup finds the writer idle, and an idle writer stays idle.
-/
theorem ReachableWhile.writerSafe (built : start.Built)
    (reached : ReachableWhile CleansIdle start sys)
    : sys.WriterSafe := by
  refine invariant_of_steps reached ?_ ?_ ?_ ?_
  · exact ⟨built.nullWriter, by simp [built.artifactsCleaned]⟩
  · intro sys index worker next label shared earlier _ safe found taken met
    constructor
    case valid =>
      rcases taken.nullWriter_cases with same | ⟨uses, closed⟩
      · exact same.trans safe.valid
      · have idle := safe.idle ((earlier.artifacts built).tidy.cleaned_of_closed closed)
        simp [idle.workers worker (List.mem_of_getElem? found)] at uses
    case idle =>
      intro cleaned
      have idle : sys.WriterIdle := by
        rcases taken.artifacts with ⟨same, _⟩ | ⟨_, _, _, _, rfl⟩ | ⟨_, cleaning, _⟩
        · exact safe.idle (same ▸ cleaned)
        · exact safe.idle cleaned
        · exact met worker found cleaning
      exact idle.worker_step found taken
  · intro sys index call next label shared spawned earlier _ safe found taken met
    constructor
    case valid =>
      rcases taken.nullWriter_cases with same | ⟨uses, closed⟩
      · exact same.trans safe.valid
      · have idle := safe.idle ((earlier.artifacts built).tidy.cleaned_of_closed closed)
        simp [idle.calls call (List.mem_of_getElem? found)] at uses
    case idle =>
      intro cleaned
      have idle : sys.WriterIdle := by
        rcases taken.artifacts with ⟨same, _⟩ | ⟨_, _, _, _, _, rfl⟩ | ⟨rfl, _⟩
        · exact safe.idle (same ▸ cleaned)
        · exact safe.idle cleaned
        · exact met.1 found
      refine idle.call_step found taken ?_
      intro starts
      refine eq_false_of_ne_true fun admitted => ?_
      have unclean := met.2 (starts ▸ found) admitted
      rcases taken.artifacts with ⟨same, _⟩ | ⟨_, _, _, stores, _⟩ | ⟨cleans, _⟩
      · simp [same, unclean] at cleaned
      · simp [starts] at stores
      · simp [starts] at cleans
  · intro sys api _ safe _ met
    refine ⟨safe.valid, fun cleaned => ?_⟩
    have idle := safe.idle cleaned
    refine ⟨idle.state, idle.workers, ?_⟩
    intro call member
    rcases mem_snoc_cases member with old | rfl
    · exact idle.calls call old
    · cases api
      case store => simp [met rfl] at cleaned
      all_goals rfl

/-- Where every cleanup finds the writer idle, a null writer is never used. -/
theorem writer_valid (built : start.Built) (reached : ReachableWhile CleansIdle start sys)
    : sys.shared.nullWriter = false :=
  (reached.writerSafe built).valid

open Muld.Action in
/-- One worker downloads both chunks and cleans up, while the other one is still queued. -/
theorem writer_valid_two_chunks
    : ∃ sys : Sys,
        sys.shared.engine.artifactsCleaned = true ∧ sys.shared.nullWriter = false := by
  obtain ⟨sys, reached, cleaned⟩ :=
    exists_reachable CleansIdle twoChunks
      (.invoke .start :: callRuns 0 14 ++ workerRuns 0 6
        ++ fetch 0 206 (List.replicate 10 0)
        ++ workerRuns 0 2 ++ [.worker 0 (.isDone true)] ++ workerRuns 0 3
        ++ fetch 0 206 (List.replicate 10 0) ++ workerRuns 0 6
        ++ [.worker 0 (.stored .written)] ++ workerRuns 0 3)
      (fun sys => sys.shared.engine.artifactsCleaned)
      (by decide +kernel)
  exact ⟨sys, cleaned, writer_valid twoChunks_built reached⟩

open Muld.Action in
/-- A `Cancel` of a queued download cleans up, a `Resume` is accepted after it, and the worker
that it plans writes through the dropped writer.
-/
theorem writer_used_after_cleanup
    : ¬ ∀ start sys : Sys, start.Built → Reachable start sys → sys.shared.nullWriter = false := by
  intro valid
  obtain ⟨sys, reached, used⟩ :=
    exists_reachable Transition.anyStep twoChunks
      ([.invoke .start] ++ callRuns 0 1 ++ [.invoke .cancel] ++ callRuns 1 4 ++ callRuns 0 7
        ++ [.invoke .resume] ++ callRuns 2 14 ++ workerRuns 0 8
        ++ [.worker 0 (.header 206 ""), .worker 0 (.isDone false)] ++ workerRuns 0 2
        ++ [.worker 0 (.read [0] .none), .worker 0 (.wrote 1)])
      (fun sys => sys.shared.nullWriter)
      (by decide +kernel)
  simp [valid _ _ twoChunks_built reached] at used

end Sys

end Muld
