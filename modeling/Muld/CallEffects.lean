import Muld.Regions
import Muld.CallSteps

/-! What a step of a call can change, one statement for each part of the state. -/

namespace Muld

namespace Call

variable {index : Nat} {shared shared' : Shared} {call next : Call} {label : CallLabel}
  {spawned : List Worker}

/-- The workers a call has counted as scheduled and still has to enqueue. -/
def planned : Call → Int
  | .enqueue count => count
  | _ => 0

/-- A plan that reaches its compare-and-swap adds at least one worker. -/
def PlansSome : Call → Prop
  | .planCas _ toAdd => 0 < toAdd
  | _ => True

theorem Step.plansSome (taken : Step index shared call label shared' next spawned)
    : next.PlansSome := by
  cases taken <;> first | trivial | grind [PlansSome]

/-- A call enqueues fresh workers only. -/
theorem Step.spawned_cases (taken : Step index shared call label shared' next spawned)
    : spawned = [] ∨ spawned = [{}] := by
  cases taken <;> simp

/-- The workers after a call step are those before it and perhaps a fresh one. -/
theorem Step.mem_workers (taken : Step index shared call label shared' next spawned)
    {workers : List Worker} {worker : Worker} (member : worker ∈ workers ++ spawned)
    : worker ∈ workers ∨ worker = {} := by
  rcases List.mem_append.mp member with old | new
  · exact Or.inl old
  · rcases taken.spawned_cases with rfl | rfl
    · contradiction
    · exact Or.inr (List.mem_singleton.mp new)

/-- Planning counts the workers that it enqueues afterwards. -/
theorem Step.scheduledConnections
    (taken : Step index shared call label shared' next spawned)
    : (shared'.engine.scheduledConnections = shared.engine.scheduledConnections
        ∧ next.planned + spawned.length = call.planned)
      ∨ ∃ scheduled toAdd,
          call = .planCas scheduled toAdd
          ∧ next = .enqueue toAdd.toNat
          ∧ spawned = []
          ∧ shared.engine.scheduledConnections = scheduled
          ∧ shared'.engine.scheduledConnections = scheduled + toAdd := by
  cases taken
  case plan scheduled toAdd found => exact Or.inr ⟨scheduled, toAdd, rfl, rfl, rfl, found, rfl⟩
  all_goals
    refine Or.inl ⟨?_, ?_⟩
    · first | rfl | simp
    · first | rfl | grind [planned]

theorem Step.nConnections (taken : Step index shared call label shared' next spawned)
    : shared'.engine.nConnections = shared.engine.nConnections := by
  cases taken <;> first | rfl | simp

theorem Step.chunksInfo (taken : Step index shared call label shared' next spawned)
    : shared'.engine.chunksInfo = shared.engine.chunksInfo := by
  cases taken <;> first | rfl | simp

theorem Step.ranged (taken : Step index shared call label shared' next spawned)
    : shared'.engine.ranged = shared.engine.ranged := by
  cases taken <;> first | rfl | simp

theorem Step.fileSize (taken : Step index shared call label shared' next spawned)
    : shared'.engine.fileSize = shared.engine.fileSize := by
  cases taken <;> first | rfl | simp

/-- A call touches the work list in its rebuild only. -/
theorem Step.work (taken : Step index shared call label shared' next spawned)
    : (shared'.engine.pendingWork = shared.engine.pendingWork
        ∧ shared'.engine.nextWorkItem = shared.engine.nextWorkItem
        ∧ next.building = false)
      ∨ (call = .rebuild
        ∧ next = .resetNext (finishedCount shared.engine.chunksInfo)
        ∧ shared'.engine = shared.engine.rebuildPending)
      ∨ ∃ finished,
          call = .resetNext finished
          ∧ next = .resetCount finished
          ∧ shared'.engine = shared.engine.resetNext := by
  cases taken
  case rebuild => exact Or.inr (Or.inl ⟨rfl, rfl, rfl⟩)
  case resetNext finished => exact Or.inr (Or.inr ⟨finished, rfl, rfl, rfl⟩)
  all_goals
    refine Or.inl ⟨?_, ?_, ?_⟩
    · first | rfl | simp
    · first | rfl | simp
    · first | rfl | grind [building]

/-- A call sets the counter of finished chunks at the end of its rebuild. -/
theorem Step.nDownloadedChunks (taken : Step index shared call label shared' next spawned)
    : (shared'.engine.nDownloadedChunks = shared.engine.nDownloadedChunks
        ∧ shared'.history.built = shared.history.built
        ∧ (call.building = true → next.building = true))
      ∨ ∃ finished,
          call = .resetCount finished
          ∧ spawned = []
          ∧ next = .planState
          ∧ shared'.engine = shared.engine.resetCount finished
          ∧ shared'.history.built = true := by
  cases taken
  case resetCount finished => exact Or.inr ⟨finished, rfl, rfl, rfl, rfl, rfl⟩
  all_goals
    refine Or.inl ⟨?_, ?_, ?_⟩
    · first | rfl | simp
    · first | rfl | simp
    · first | exact id | grind [building]

/-- The work list changes in the scan of a rebuild. -/
theorem Step.pendingWork (taken : Step index shared call label shared' next spawned)
    : shared'.engine.pendingWork = shared.engine.pendingWork
      ∨ (call = .rebuild
        ∧ shared'.engine.pendingWork = pendingItems 0 0 shared.engine.chunksInfo) := by
  cases taken
  case rebuild => exact Or.inr ⟨rfl, rfl⟩
  all_goals exact Or.inl (by first | rfl | simp)

/-- A call changes the output file where a `Cancel` cleans up. -/
theorem Step.output (taken : Step index shared call label shared' next spawned)
    : shared'.output = shared.output
      ∨ (call = .cancelCleanup ∧ shared' = shared.cleanupArtifacts true) := by
  cases taken
  case cancelCleanup => exact Or.inr ⟨rfl, rfl⟩
  all_goals exact Or.inl rfl

/-- A rebuild starts with a drain check. -/
theorem Step.rebuilding (taken : Step index shared call label shared' next spawned)
    (after : next.rebuilding = true)
    : call.rebuilding = true ∨ shared.engine.scheduledConnections = 0 := by
  cases taken
  case drained idle => exact Or.inr idle
  case resetBudget => exact Or.inl rfl
  case rebuild => exact Or.inl rfl
  case resetNext finished => exact Or.inl rfl
  all_goals grind [Call.rebuilding]

/-- A disturbance is cleared by the end of a rebuild only. -/
theorem Step.undisturbed (taken : Step index shared call label shared' next spawned)
    (after : shared'.history.undisturbed = true)
    : shared'.engine.state = shared.engine.state
      ∧ next ≠ .resetNext (finishedCount shared.engine.chunksInfo)
      ∧ (shared.history.undisturbed = true
        ∨ ∃ finished,
            call = .resetCount finished
            ∧ spawned = []
            ∧ shared'.engine = shared.engine.resetCount finished) := by
  cases taken
  case start => cases after
  case pause => cases after
  case cancel => cases after
  case rebuild => cases after
  case resetCount finished => exact ⟨rfl, by simp, Or.inr ⟨finished, rfl, rfl, rfl⟩⟩
  case cancelCleanup => exact ⟨by simp, by simp, Or.inl (by simpa using after)⟩
  all_goals refine ⟨rfl, ?_, Or.inl after⟩
  all_goals grind

/-- The state moves where `SetState` accepts the transition of a call. -/
theorem Step.accepts (taken : Step index shared call label shared' next spawned)
    : (shared'.engine.state = shared.engine.state
        ∧ shared'.history.startAccepted = shared.history.startAccepted
        ∧ shared'.history.cancelAccepted = shared.history.cancelAccepted
        ∧ shared'.history.lastCancel = shared.history.lastCancel
        ∧ (next.canceling = true → call.canceling = true))
      ∨ (call = .startSet
        ∧ next = .startReport
        ∧ DownloadEngine.admits .queued shared.engine.state = true
        ∧ shared' = { shared with
            engine := { shared.engine with state := .queued }
            history := { shared.history with
              startAccepted := true, lastCancel := none, undisturbed := false } })
      ∨ (call = .pauseSet
        ∧ next = .pauseReport
        ∧ DownloadEngine.admits .paused shared.engine.state = true
        ∧ shared' = { shared with
            engine := { shared.engine with state := .paused }
            history := { shared.history with undisturbed := false } })
      ∨ (call = .cancelSet
        ∧ next = .cancelReport
        ∧ DownloadEngine.admits .canceled shared.engine.state = true
        ∧ shared' = { shared with
            engine := { shared.engine with state := .canceled }
            history := { shared.history with
              cancelAccepted := true, lastCancel := some index, undisturbed := false } }) := by
  cases taken
  case start admitted => exact Or.inr (Or.inl ⟨rfl, rfl, admitted, rfl⟩)
  case pause admitted => exact Or.inr (Or.inr (Or.inl ⟨rfl, rfl, admitted, rfl⟩))
  case cancel admitted => exact Or.inr (Or.inr (Or.inr ⟨rfl, rfl, admitted, rfl⟩))
  all_goals
    refine Or.inl ⟨?_, ?_, ?_, ?_, ?_⟩
    · first | rfl | simp
    · first | rfl | simp
    · first | rfl | simp
    · first | rfl | simp
    · first | exact id | grind [canceling]

/-- A started download stays one. -/
theorem Step.keepsStarted (taken : Step index shared call label shared' next spawned)
    (before : shared.history.startAccepted = true)
    : shared'.history.startAccepted = true := by
  rcases taken.accepts with ⟨_, same, _⟩ | ⟨_, _, _, rfl⟩ | ⟨_, _, _, rfl⟩ | ⟨_, _, _, rfl⟩
  · rw [same, before]
  · rfl
  · exact before
  · exact before

/-- While no `Cancel` is accepted, the state moves by an accepted `Start`, `Resume` or
`Pause` only.
-/
theorem Step.accepts_uncanceled (taken : Step index shared call label shared' next spawned)
    (after : shared'.history.cancelAccepted = false)
    : shared.history.cancelAccepted = false
      ∧ (shared'.engine.state = shared.engine.state
          ∨ shared'.engine.state = .queued
          ∨ shared'.engine.state = .paused)
      ∧ (next.canceling = true → call.canceling = true) := by
  rcases taken.accepts with
    ⟨same, _, cancels, _, stays⟩ | ⟨rfl, rfl, _, rfl⟩ | ⟨rfl, rfl, _, rfl⟩ | ⟨_, _, _, rfl⟩
  · exact ⟨cancels ▸ after, Or.inl same, stays⟩
  · exact ⟨after, Or.inr (Or.inl rfl), id⟩
  · exact ⟨after, Or.inr (Or.inr rfl), id⟩
  · cases after

/-- A work list that was rebuilt once stays on record. -/
theorem Step.keepsBuilt (taken : Step index shared call label shared' next spawned)
    (before : shared.history.built = true)
    : shared'.history.built = true := by
  rcases taken.nDownloadedChunks with ⟨_, same, _⟩ | ⟨_, _, _, _, _, done⟩
  · rw [same, before]
  · exact done

/-- `Completed` is final for calls. -/
theorem Step.stays_completed (taken : Step index shared call label shared' next spawned)
    (completed : shared.engine.state = .completed)
    : shared'.engine.state = .completed := by
  rcases taken.accepts with
    ⟨same, _⟩ | ⟨_, _, admitted, _⟩ | ⟨_, _, admitted, _⟩ | ⟨_, _, admitted, _⟩
  · rw [same, completed]
  all_goals simp [DownloadEngine.admits, completed] at admitted

/-- An accepted `Start` or `Resume` goes on until it has rebuilt the work list. -/
theorem Step.starts (taken : Step index shared call label shared' next spawned)
    (at_pc : call.starting = true)
    : next.starting = true ∨ shared'.history.built = true := by
  cases taken
  case resetCount => exact Or.inr rfl
  all_goals first | exact Or.inl rfl | grind [starting]

/-- A call gets into a start through an accepted `Start` or `Resume`. -/
theorem Step.starting (taken : Step index shared call label shared' next spawned)
    (after : next.starting = true)
    : call.starting = true ∨ shared'.history.startAccepted = true := by
  cases taken
  case start => exact Or.inr rfl
  all_goals first | exact Or.inl rfl | grind [Call.starting]

theorem Step.finishes (taken : Step index shared call label shared' next spawned)
    : shared'.history.finishes = shared.history.finishes := by
  cases taken <;> first | rfl | simp

end Call

end Muld
