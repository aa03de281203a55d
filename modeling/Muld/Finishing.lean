import Muld.Completion

/-! When a download whose chunks are all finished gets to `Completed` and `on_finish`. The
only trigger is the bump that takes its chunk for the last one, so a generation that starts
with every chunk finished has none.
-/

namespace Muld

open Threads

namespace Sys

variable {start sys : Sys}

/-- No worker is queued or running and no call is in progress. -/
def Quiescent (sys : Sys) : Prop :=
  (∀ worker ∈ sys.workers, worker.pc = .closed)
  ∧ ∀ call ∈ sys.calls, call = .returned true ∨ call = .returned false

instance (sys : Sys) : Decidable sys.Quiescent := by
  unfold Quiescent
  infer_instance

/-- A started download with every chunk finished that comes to rest is completed, unless it
was canceled.
-/
def CompletionKept (sys : Sys) : Prop :=
  sys.Quiescent
  → sys.shared.engine.AllFinished
  → sys.shared.history.startAccepted = true
  → sys.shared.history.cancelAccepted = false
  → sys.shared.engine.state = .completed ∧ 0 < sys.shared.history.finishes

instance (sys : Sys) : Decidable sys.CompletionKept := by
  unfold CompletionKept
  infer_instance

/-- A rebuild finds an unfinished chunk unless the download is completed, and the worker
that finished the last chunk does not meet a new `Start` or `Resume`.
-/
def RebuildsUnfinished (before : Sys) (action : Action) (after : Sys) : Prop :=
  PlanAvoidsRebuild before action after
  ∧ match action with
    | .worker index _ =>
        ∀ worker ∈ before.workers[index]?,
          worker.pc = .completeCas → before.shared.engine.state ≠ .queued
    | .call index _ =>
        before.calls[index]? = some .rebuild
        → before.shared.engine.AllFinished
        → before.shared.engine.state = .completed
    | .invoke _ => True

instance (before : Sys) (action : Action) (after : Sys)
    : Decidable (RebuildsUnfinished before action after) :=
  match action with
  | .worker .. | .call .. | .invoke .. => by unfold RebuildsUnfinished; infer_instance

-----------------------------------------------------------------------------------------
-- The history of a download that was started
-----------------------------------------------------------------------------------------

/-- What the past says about the state and the calls in progress. -/
structure Recorded (sys : Sys) : Prop where
  canceled
    : sys.shared.engine.state = .canceled → sys.shared.history.cancelAccepted = true
  initialized
    : sys.shared.engine.state = .initialized → sys.shared.history.startAccepted = false
  starting
    : ∀ call ∈ sys.calls, call.starting = true → sys.shared.history.startAccepted = true
  built : sys.shared.history.built = true → sys.shared.history.startAccepted = true
  started
    : sys.shared.history.startAccepted = true
      → sys.shared.history.built = true ∨ ∃ call ∈ sys.calls, call.starting = true

theorem Recorded.worker_step (recorded : sys.Recorded) {index : Nat} {worker next : Worker}
    {label : WorkerLabel} {shared : Shared} (taken : worker.Step sys.shared label shared next)
    : Recorded { sys with shared, workers := sys.workers.set index next } := by
  have moved : shared.engine.state = sys.shared.engine.state
      ∨ (shared.engine.state ≠ .canceled ∧ shared.engine.state ≠ .initialized) := by
    rcases taken.state with same | ⟨_, _, _, after⟩ | ⟨_, _, after⟩ | ⟨_, _, _, after⟩
    · exact Or.inl same
    all_goals exact Or.inr (by simp [after])
  constructor <;>
    simp only [taken.startAccepted, taken.cancelAccepted, taken.built]
  case canceled =>
    rcases moved with same | ⟨other, _⟩
    · exact same ▸ recorded.canceled
    · exact fun canceled => absurd canceled other
  case initialized =>
    rcases moved with same | ⟨_, other⟩
    · exact same ▸ recorded.initialized
    · exact fun initialized => absurd initialized other
  case starting => exact recorded.starting
  case built => exact recorded.built
  case started => exact recorded.started

theorem Recorded.call_step (recorded : sys.Recorded) {index : Nat} {call next : Call}
    {label : CallLabel} {shared : Shared} {spawned : List Worker}
    (found : sys.calls[index]? = some call)
    (taken : Call.Step index sys.shared call label shared next spawned)
    : Recorded { sys with
        shared
        workers := sys.workers ++ spawned
        calls := sys.calls.set index next } := by
  have member := List.mem_of_getElem? found
  constructor
  case canceled =>
    intro canceled
    rcases taken.accepts with
      ⟨same, _, cancels, _⟩ | ⟨_, _, _, rfl⟩ | ⟨_, _, _, rfl⟩ | ⟨_, _, _, rfl⟩
    · rw [cancels]
      exact recorded.canceled (same ▸ canceled)
    · cases canceled
    · cases canceled
    · rfl
  case initialized =>
    intro initialized
    rcases taken.accepts with
      ⟨same, starts, _⟩ | ⟨_, _, _, rfl⟩ | ⟨_, _, _, rfl⟩ | ⟨_, _, _, rfl⟩
    · rw [starts]
      exact recorded.initialized (same ▸ initialized)
    all_goals cases initialized
  case starting =>
    refine forall_set
      (fun other old inside => taken.keepsStarted (recorded.starting other old inside)) ?_
    intro inside
    rcases taken.starting inside with before | after
    · exact taken.keepsStarted (recorded.starting call member before)
    · exact after
  case built =>
    intro done
    rcases taken.nDownloadedChunks with ⟨_, same, _⟩ | ⟨_, rfl, _⟩
    · exact taken.keepsStarted (recorded.built (same ▸ done))
    · exact taken.keepsStarted (recorded.starting _ member rfl)
  case started =>
    intro after
    have carries : sys.shared.history.startAccepted = true →
        shared.history.built = true
          ∨ ∃ other ∈ sys.calls.set index next, other.starting = true := by
      intro before
      rcases recorded.started before with done | present
      · exact Or.inl (taken.keepsBuilt done)
      · exact (exists_set found present taken.starts).symm
    rcases taken.accepts with ⟨_, same, _⟩ | ⟨_, rfl, _⟩ | ⟨_, _, _, rfl⟩ | ⟨_, _, _, rfl⟩
    · exact carries (same ▸ after)
    · exact Or.inr ⟨_, mem_set_self found, rfl⟩
    · exact carries after
    · exact carries after

theorem ReachableWhile.recorded {meets : Sys → Action → Sys → Prop} (built : start.Built)
    (reached : ReachableWhile meets start sys)
    : sys.Recorded := by
  refine invariant reached ?_ ?_ ?_ ?_
  · exact ⟨by simp [built.state], by simp [built.history], by simp [built.calls],
      by simp [built.history], by simp [built.history]⟩
  · intro sys index worker next label shared _ _ recorded _ taken _
    exact recorded.worker_step taken
  · intro sys index call next label shared spawned _ _ recorded found taken _
    exact recorded.call_step found taken
  · intro sys api dispatched _ recorded
    refine { recorded with starting := ?_, started := ?_ }
    · intro call member inside
      rcases mem_snoc_cases member with old | rfl
      · exact recorded.starting call old inside
      · cases api <;> cases inside
    · intro accepted
      refine (recorded.started accepted).imp_right ?_
      rintro ⟨call, member, inside⟩
      exact ⟨call, List.mem_append_left _ member, inside⟩

-----------------------------------------------------------------------------------------
-- A full counter completes the download
-----------------------------------------------------------------------------------------

/-- The download is completed or a worker is about to complete it. -/
def Completing (sys : Sys) : Prop :=
  sys.shared.engine.state = .completed ∨ ∃ worker ∈ sys.workers, worker.pc.completing = true

/-- What carries a full counter to `on_finish`. -/
structure CarriedThrough (sys : Sys) : Prop where
  building
    : sys.Building
      → sys.shared.engine.AllFinished
      → sys.shared.engine.state = .completed
  full
    : sys.shared.history.built = true
      → ¬ sys.Building
      → sys.shared.history.cancelAccepted = false
      → sys.shared.engine.nChunks ≤ sys.shared.engine.nDownloadedChunks
      → sys.Completing
  finished
    : sys.shared.engine.state = .completed
      → (∃ worker ∈ sys.workers, worker.pc.finishing = true)
        ∨ 0 < sys.shared.history.finishes

theorem Built.carriedThrough (built : start.Built) : start.CarriedThrough where
  building := by simp [Building, built.calls]
  full := by simp [built.history]
  finished := by simp [built.state]

/-- A worker that is about to complete a started download does, or meets a state that only
a `Cancel` or a new start leaves behind.
-/
theorem Completing.worker_step (completing : sys.Completing) (recorded : sys.Recorded)
    (done : sys.shared.history.built = true)
    (uncanceled : sys.shared.history.cancelAccepted = false) {index : Nat}
    {worker next : Worker} {label : WorkerLabel} {shared : Shared} {after : Sys}
    (found : sys.workers[index]? = some worker)
    (taken : worker.Step sys.shared label shared next)
    (met : RebuildsUnfinished sys (.worker index label) after)
    : Completing { sys with shared, workers := sys.workers.set index next } := by
  rcases completing with completed | present
  · exact Or.inl (taken.stays_completed completed)
  · refine (exists_set found present fun inside => ?_).symm
    rcases taken.completes inside with
      still | completed | ⟨at_pc, other, notPaused, notFailed, rfl⟩
    · exact Or.inl still
    · exact Or.inr completed
    · refine Or.inr ?_
      have notQueued := met.2 worker found at_pc
      cases state : sys.shared.engine.state
      case initialized =>
        have unstarted := recorded.initialized state
        simp [recorded.built done] at unstarted
      case queued => exact absurd state notQueued
      case downloading => exact absurd state other
      case completed => rfl
      case failed => exact absurd state notFailed
      case paused => exact absurd state notPaused
      case canceled => simp [recorded.canceled state] at uncanceled

theorem CarriedThrough.worker_step (carried : sys.CarriedThrough) (recorded : sys.Recorded)
    (counted : sys.Counted) (alone : sys.BuildAlone)
    (fits : sys.shared.engine.nChunks < sizeModulus) {index : Nat} {worker next : Worker}
    {label : WorkerLabel} {shared : Shared} {after : Sys}
    (found : sys.workers[index]? = some worker)
    (taken : worker.Step sys.shared label shared next)
    (met : RebuildsUnfinished sys (.worker index label) after)
    : CarriedThrough { sys with shared, workers := sys.workers.set index next } where
  building := by
    intro building all
    have before : sys.Building := building
    rw [DownloadEngine.AllFinished, (before.worker_step counted alone found taken).1] at all
    exact taken.stays_completed (carried.building before all)
  full := by
    intro done outside uncanceled enough
    have doneBefore := taken.built ▸ done
    have uncanceledBefore := taken.cancelAccepted ▸ uncanceled
    have continues : sys.Completing →
        Completing { sys with shared, workers := sys.workers.set index next } :=
      fun completing =>
        completing.worker_step recorded doneBefore uncanceledBefore found taken met
    simp only [taken.nChunks] at enough
    rcases taken.nDownloadedChunks with same | ⟨_, bumped, last⟩
    · exact continues (carried.full doneBefore outside uncanceledBefore (same ▸ enough))
    · by_cases before : sys.shared.engine.nChunks ≤ sys.shared.engine.nDownloadedChunks
      · exact continues (carried.full doneBefore outside uncanceledBefore before)
      · rw [DownloadEngine.lastChunk_iff (by omega) fits] at last
        refine Or.inr ⟨next, mem_set_self found, ?_⟩
        rw [last (by omega)]
        rfl
  finished := by
    intro completed
    rcases taken.state with same | ⟨_, _, _, other⟩ | ⟨_, next_pc, _⟩ | ⟨_, _, _, other⟩
    · rcases carried.finished (same ▸ completed) with present | finished
      · exact exists_set found present taken.finishing
      · exact Or.inr (Nat.lt_of_lt_of_le finished taken.finishes)
    · simp [other] at completed
    · exact Or.inl ⟨next, mem_set_self found, by rw [next_pc]; rfl⟩
    · simp [other] at completed

theorem CarriedThrough.call_step (carried : sys.CarriedThrough) (generation : sys.Generation)
    {index : Nat} {call next : Call} {label : CallLabel} {shared : Shared}
    {spawned : List Worker} {after : Sys} (found : sys.calls[index]? = some call)
    (taken : Call.Step index sys.shared call label shared next spawned)
    (met : RebuildsUnfinished sys (.call index label) after)
    : CarriedThrough { sys with
        shared
        workers := sys.workers ++ spawned
        calls := sys.calls.set index next } where
  building := by
    rintro ⟨other, member, inside⟩ all
    rw [DownloadEngine.AllFinished, taken.chunksInfo] at all
    apply taken.stays_completed
    rcases List.mem_or_eq_of_mem_set member with old | rfl
    · exact carried.building ⟨other, old, inside⟩ all
    · rcases taken.work with ⟨_, _, outside⟩ | ⟨rfl, _, _⟩ | ⟨finished, rfl, _, _⟩
      · simp [outside] at inside
      · exact met.2 found all
      · exact carried.building ⟨_, List.mem_of_getElem? found, rfl⟩ all
  full := by
    intro done outside uncanceled enough
    have member := List.mem_of_getElem? found
    simp only [DownloadEngine.nChunks, taken.chunksInfo] at enough
    rcases taken.nDownloadedChunks with ⟨same, built, stays⟩ | ⟨count, rfl, _, _, reset, _⟩
    · have uncanceledBefore : sys.shared.history.cancelAccepted = false := by
        rcases taken.accepts with
          ⟨_, _, cancels, _⟩ | ⟨_, _, _, rfl⟩ | ⟨_, _, _, rfl⟩ | ⟨_, _, _, rfl⟩
        · exact cancels ▸ uncanceled
        · exact uncanceled
        · exact uncanceled
        · cases uncanceled
      have before := carried.full (built ▸ done)
        (fun building => outside (building.call_step found stays)) uncanceledBefore
        (same ▸ enough)
      rcases before with completed | ⟨worker, present, inside⟩
      · exact Or.inl (taken.stays_completed completed)
      · exact Or.inr ⟨worker, List.mem_append_left _ present, inside⟩
    · refine Or.inl (taken.stays_completed (carried.building ⟨_, member, rfl⟩ ?_))
      rw [DownloadEngine.allFinished_iff, ← generation.finished count (Or.inr member)]
      simpa [reset, DownloadEngine.resetCount, DownloadEngine.nChunks] using enough
  finished := by
    intro completed
    rw [taken.finishes]
    rcases taken.accepts with ⟨same, _⟩ | ⟨_, _, _, rfl⟩ | ⟨_, _, _, rfl⟩ | ⟨_, _, _, rfl⟩
    · refine (carried.finished (same ▸ completed)).imp_left ?_
      rintro ⟨worker, present, inside⟩
      exact ⟨worker, List.mem_append_left _ present, inside⟩
    all_goals cases completed

theorem ReachableWhile.carriedThrough (built : start.Built)
    (reached : ReachableWhile RebuildsUnfinished start sys)
    : sys.CarriedThrough := by
  have alone : ∀ sys, ReachableWhile RebuildsUnfinished start sys → sys.BuildAlone :=
    fun _ earlier => earlier.buildAlone built (fun _ _ _ met => met.1)
  refine invariant reached built.carriedThrough ?_ ?_ ?_
  · intro sys index worker next label shared earlier _ carried found taken met
    exact carried.worker_step (earlier.recorded built) (earlier.counted built)
      (alone sys earlier) (earlier.nChunks_lt built) found taken met
  · intro sys index call next label shared spawned earlier _ carried found taken met
    exact carried.call_step (earlier.generation built alone) found taken met
  · intro sys api dispatched _ carried
    have entry : api.entry.building = false := by cases api <;> rfl
    have old : Building { sys with calls := sys.calls ++ [api.entry], dispatched } →
        sys.Building := by
      rintro ⟨call, member, inside⟩
      rcases mem_snoc_cases member with before | rfl
      · exact ⟨call, before, inside⟩
      · simp [entry] at inside
    exact {
      building := fun building => carried.building (old building)
      full := fun done outside => carried.full done (fun building => outside building.snoc)
      finished := carried.finished
    }

-----------------------------------------------------------------------------------------
-- Completion is not lost
-----------------------------------------------------------------------------------------

/-- Where rebuilds find unfinished work and no straggler meets a new start, a download that
comes to rest with every chunk finished is completed. Witness: at rest nothing is owed to
the counter, so it is full.
-/
theorem completion_kept (built : start.Built)
    (reached : ReachableWhile RebuildsUnfinished start sys)
    : sys.CompletionKept := by
  intro quiescent all started uncanceled
  have alone : ∀ sys, ReachableWhile RebuildsUnfinished start sys → sys.BuildAlone :=
    fun _ earlier => earlier.buildAlone built (fun _ _ _ met => met.1)
  have carried := reached.carriedThrough built
  have returned : ∀ call ∈ sys.calls, call.starting = false ∧ call.building = false := by
    intro call member
    rcases quiescent.2 call member with rfl | rfl <;> exact ⟨rfl, rfl⟩
  have outside : ¬ sys.Building := by
    rintro ⟨call, member, inside⟩
    simp [(returned call member).2] at inside
  have done : sys.shared.history.built = true := by
    refine ((reached.recorded built).started started).resolve_right ?_
    rintro ⟨call, member, inside⟩
    simp [(returned call member).1] at inside
  have silent : total (Worker.owed sys.shared.engine) sys.workers = 0 :=
    total_eq_zero fun worker member =>
      Worker.owed_eq_zero (by simp [quiescent.1 worker member])
        (by rw [quiescent.1 worker member]; rfl)
  have exceeds : sys.ExcessHolds (0 ≤ ·) :=
    reached.excessHolds built alone (Int.le_refl 0) (fun _ _ _ _ _ _ _ _ => by omega)
  have excess := exceeds done outside
  rw [DownloadEngine.allFinished_iff] at all
  have completed : sys.shared.engine.state = .completed := by
    refine (carried.full done outside uncanceled ?_).resolve_right ?_
    · simp only [Sys.excess, silent] at excess
      omega
    · rintro ⟨worker, member, inside⟩
      simp [quiescent.1 worker member, WorkerPc.completing] at inside
  refine ⟨completed, (carried.finished completed).resolve_left ?_⟩
  rintro ⟨worker, member, inside⟩
  simp [quiescent.1 worker member, WorkerPc.finishing] at inside

open Muld.Action in
/-- Two workers come to rest after one of them downloaded both chunks. -/
theorem completion_kept_two_chunks
    : ∃ sys : Sys,
        sys.Quiescent
        ∧ sys.shared.engine.state = .completed
        ∧ 0 < sys.shared.history.finishes := by
  obtain ⟨sys, reached, holds⟩ :=
    exists_reachable RebuildsUnfinished twoChunks
      (.invoke .start :: callRuns 0 14 ++ workerRuns 0 6
        ++ fetch 0 206 (List.replicate 10 0)
        ++ workerRuns 0 2 ++ [.worker 0 (.isDone true)] ++ workerRuns 0 3
        ++ fetch 0 206 (List.replicate 10 0) ++ workerRuns 0 6
        ++ [.worker 0 (.stored .written)] ++ workerRuns 0 3
        ++ [.worker 0 (.isDone true)] ++ workerRuns 0 6 ++ workerRuns 1 8)
      (fun sys =>
        decide sys.Quiescent
          && decide sys.shared.engine.AllFinished
          && sys.shared.history.startAccepted
          && !sys.shared.history.cancelAccepted)
      (by decide +kernel)
  simp only [Bool.and_eq_true, Bool.not_eq_true', decide_eq_true_iff] at holds
  obtain ⟨⟨⟨quiescent, all⟩, started⟩, uncanceled⟩ := holds
  exact ⟨sys, quiescent,
    completion_kept twoChunks_built reached quiescent all started uncanceled⟩

open Muld.Action in
/-- The chunk of an empty file is finished from the start: both workers find no work and
close, and the download stays in the downloading state.
-/
theorem completion_lost
    : ¬ ∀ start sys : Sys, start.Built → Reachable start sys → sys.CompletionKept := by
  intro kept
  obtain ⟨sys, reached, holds⟩ :=
    exists_reachable Transition.anyStep (fresh 8 0 true 1 (fun _ => 0) 8)
      (.invoke .start :: callRuns 0 14 ++ workerRuns 0 9 ++ workerRuns 1 8)
      (fun sys => !decide sys.CompletionKept)
      (by decide +kernel)
  have lost : ¬ sys.CompletionKept := by simpa using holds
  exact lost (kept _ _ (fresh_built _ _ _ _ _ (by decide)) reached)

end Sys

end Muld
