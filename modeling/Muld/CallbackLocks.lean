import Muld.Locking
import Muld.OneEngine

/-! Which mutexes a thread holds while it runs code of the client. A callback of an engine is
invoked with none; so are those of the dispatcher, except for the `on_error` of a `Load` that
is turned away after its image was read.
-/

namespace Muld

open LockTraces Threads

-----------------------------------------------------------------------------------------
-- The threads of a job
-----------------------------------------------------------------------------------------

namespace Sys

/-- What the method that takes the step does with the mutexes. -/
def lockTrace (sys : Sys) : Action → List Event
  | .worker index label =>
      match sys.workers[index]? with
      | some worker => worker.lockTrace sys.shared label
      | none => []
  | .call index _ =>
      match sys.calls[index]? with
      | some call => call.lockTrace sys.shared
      | none => []
  | .invoke _ => []

/-- What a method holds. -/
def holding (sys : Sys) : Frame → List Mutex
  | .worker index =>
      match sys.workers[index]? with
      | some worker => worker.pc.held
      | none => []
  | .call index =>
      match sys.calls[index]? with
      | some call => call.held
      | none => []

variable {sys after : Sys} {action : Action} {frame : Frame}

/-- A step of a method is disciplined. -/
theorem disciplined_lockTrace (taken : sys.step action = some after)
    (moves : action.frame = some frame)
    : Disciplined Deed.exposed (sys.holding frame) (sys.lockTrace action)
        (after.holding frame) := by
  cases Sys.step_cases taken with
  | worker index worker next label shared found stepped =>
      obtain rfl : .worker index = frame := Option.some.inj moves
      have inside := (List.getElem?_eq_some_iff.mp found).1
      simpa [holding, lockTrace, found, List.getElem?_set_self inside] using stepped.disciplined
  | call index call next label shared spawned found stepped =>
      obtain rfl : .call index = frame := Option.some.inj moves
      have inside := (List.getElem?_eq_some_iff.mp found).1
      simpa [holding, lockTrace, found, List.getElem?_set_self inside] using stepped.disciplined
  | invoke => cases moves

/-- A method in a callback holds nothing. -/
theorem holding_of_entersCallback (taken : sys.step action = some after)
    (enters : sys.entersCallback action = some frame)
    : after.holding frame = [] := by
  cases Sys.step_cases taken with
  | worker index worker next label shared found stepped =>
      have inside := (List.getElem?_eq_some_iff.mp found).1
      simp only [entersCallback, found] at enters
      split at enters
      · rename_i invokes
        rw [Bool.and_eq_true] at invokes
        obtain rfl := Option.some.inj enters
        simpa [holding, List.getElem?_set_self inside]
          using stepped.held_of_invokesCallback invokes.1
      · cases enters
  | call index call next label shared spawned found stepped =>
      have inside := (List.getElem?_eq_some_iff.mp found).1
      simp only [entersCallback, found] at enters
      split at enters
      · rename_i invokes
        rw [Bool.or_eq_true, Bool.and_eq_true] at invokes
        obtain rfl := Option.some.inj enters
        simpa [holding, List.getElem?_set_self inside]
          using stepped.held_of_invokesCallback (invokes.imp_left And.left)
      · cases enters
  | invoke => cases enters

/-- A method that does not move goes on holding nothing. -/
theorem holding_of_move (free : sys.holding frame = []) (taken : sys.step action = some after)
    (other : action.frame ≠ some frame)
    : after.holding frame = [] := by
  cases frame with
  | worker index =>
      simp only [holding] at free ⊢
      cases Sys.step_cases taken with
      | worker position worker next label shared found stepped =>
          have different : position ≠ index := fun same => other (by rw [Action.frame, same])
          simpa [List.getElem?_set_ne different] using free
      | call position call next label shared spawned found stepped =>
          split
          · rename_i worker at_index
            rw [List.getElem?_append] at at_index
            split at at_index
            · simpa [at_index] using free
            · rcases stepped.spawned_cases with rfl | rfl
              · cases at_index
              · rw [List.getElem?_singleton] at at_index
                split at at_index
                · cases at_index
                  rfl
                · cases at_index
          · rfl
      | invoke => exact free
  | call index =>
      simp only [holding] at free ⊢
      cases Sys.step_cases taken with
      | worker => exact free
      | call position call next label shared spawned found stepped =>
          have different : position ≠ index := fun same => other (by rw [Action.frame, same])
          simpa [List.getElem?_set_ne different] using free
      | invoke api allowed =>
          split
          · rename_i call at_index
            rcases getElem?_snoc_cases at_index with before | ⟨_, rfl⟩
            · simpa [before] using free
            · cases api <;> rfl
          · rfl

end Sys

namespace Threaded

/-- The methods in whose callbacks a call runs, on the same thread. -/
inductive RunsIn (threaded : Threaded) : (call : Nat) → Frame → Prop
  | caller {index : Nat} {frame : Frame}
      (called : threaded.callers[index]? = some (some frame))
    : RunsIn threaded index frame
  | outer {index position : Nat} {frame : Frame}
      (called : threaded.callers[index]? = some (some (.call position)))
      (runs : RunsIn threaded position frame)
    : RunsIn threaded index frame

/-- The step of a method runs code of the client with no mutex held by its thread: not by the
method, nor by those in whose callbacks it runs. The thread never waits for itself.
-/
structure CallsBackUnlocked (threaded : Threaded) (action : Action) (frame : Frame) : Prop where
  reentrant
    : Reentrant Deed.exposed (threaded.sys.holding frame) (threaded.sys.lockTrace action)
  outer
    : ∀ index outer,
        frame = .call index
        → threaded.RunsIn index outer
        → threaded.sys.holding outer = []

/-- The books of the threads are right, and a method in a callback holds nothing. -/
structure Sound (threaded : Threaded) : Prop where
  aligned : threaded.Aligned
  nested : threaded.Nested
  free : ∀ frame ∈ threaded.inside, threaded.sys.holding frame = []

variable {threaded after : Threaded}

theorem sound_attaching (shared : Shared) : (attaching shared).Sound where
  aligned := ⟨rfl, rfl⟩
  nested := by
    have uncalled : ∀ (index : Nat) (frame : Frame),
        (attaching shared).callers[index]? ≠ some (some frame) := by
      intro index frame
      cases index <;> simp [attaching]
    constructor
    case caller => exact fun index frame called => absurd called (uncalled index frame)
    case root => intro index _; cases index <;> rfl
    case waits => exact fun index frame called => absurd called (uncalled index frame)
    case within => simp [attaching]
    case called => simp [attaching]
  free := by simp [attaching]

theorem Sound.step (sound : threaded.Sound) {action : ThreadAction}
    (taken : threaded.Step action after)
    : after.Sound where
  aligned := sound.aligned.step taken
  nested := sound.nested.step sound.aligned taken
  free := by
    intro frame inside
    cases taken with
    | move action moved sys moves outside taken =>
        rcases List.mem_append.mp inside with enters | before
        · exact Sys.holding_of_entersCallback taken (Option.mem_toList.mp enters)
        · refine Sys.holding_of_move (sound.free frame before) taken ?_
          rw [moves]
          intro same
          obtain rfl := Option.some.inj same
          exact outside before
    | invoke api sys taken =>
        exact Sys.holding_of_move (sound.free frame inside) taken (by simp [Action.frame])
    | nest caller api sys within idle taken =>
        exact Sys.holding_of_move (sound.free frame inside) taken (by simp [Action.frame])
    | leave caller within idle => exact sound.free frame (List.mem_of_mem_erase inside)

/-- The methods around a call that runs are in their callbacks, by induction on them. -/
theorem Sound.outer_inside (sound : threaded.Sound) {index : Nat} {frame : Frame}
    (runs : threaded.RunsIn index frame) (running : threaded.finished index = false)
    : frame ∈ threaded.inside := by
  induction runs with
  | caller called => exact sound.nested.waits _ _ called running
  | outer called _ ih =>
      exact ih (not_finished_of_inside (sound.nested.waits _ _ called running))

/-- A method takes its step with no mutex held around its callbacks. -/
theorem Sound.callsBackUnlocked (sound : threaded.Sound) {action : Action} {frame : Frame}
    {sys : Sys} (moves : action.frame = some frame) (taken : threaded.sys.step action = some sys)
    : threaded.CallsBackUnlocked action frame where
  reentrant :=
    have disciplined := Sys.disciplined_lockTrace taken moves
    reentrant_iff.mpr ⟨disciplined.unlocked, disciplined.unblocked⟩
  outer := by
    rintro index outer rfl runs
    exact sound.free outer (sound.outer_inside runs (not_finished_of_moves moves taken))

end Threaded

namespace MuldDownloadManager

-----------------------------------------------------------------------------------------
-- The threads of the manager
-----------------------------------------------------------------------------------------

/-- Every callback of a step is invoked by a thread that holds no mutex, and no thread waits
for itself.
-/
def CallsBackUnlocked (manager : MuldDownloadManager) (action : ManagerAction) : Prop :=
  match action with
  | .request conditions request =>
      Reentrant Deed.exposed [] (manager.process conditions request).2.events
  | .job position (.act action) =>
      ∀ job frame sys,
        manager.jobs[position]? = some job
        → action.frame = some frame
        → job.threads.sys.step action = some sys
        → job.threads.CallsBackUnlocked action frame
  -- the end of a callback and the entry of a call have no effect of their own
  | .job _ _ => True

/-- The request is not a `Load` with an `on_error` that is turned away after its image was
read.
-/
def ReportsUnlocked (manager : MuldDownloadManager) (action : ManagerAction) : Prop :=
  match action with
  | .request conditions request => ¬ ReportsLocked conditions manager request
  | .job _ _ => True

/-- The threads of every job are sound. -/
def Sound (manager : MuldDownloadManager) : Prop := ∀ job ∈ manager.jobs, job.threads.Sound

variable {manager after : MuldDownloadManager}
  {meets : MuldDownloadManager → ManagerAction → MuldDownloadManager → Prop}
  {maxThreads : Int} {logger : Bool}

theorem Sound.step (sound : manager.Sound) {action : ManagerAction}
    (taken : manager.Step action after)
    : after.Sound := by
  intro other member
  cases taken with
  | request processed completes =>
      cases completes with
      | failed _ shows =>
          rw [shows.manager] at member
          exact sound other member
      | attached _ _ _ fresh shows =>
          rw [shows.manager] at member
          rcases mem_addJob member with rfl | before
          · obtain ⟨shared, threads, _⟩ := fresh
            exact threads ▸ Threaded.sound_attaching shared
          · exact sound other before
  | job found taken =>
      obtain ⟨index, at_index⟩ := List.mem_iff_getElem?.mp member
      rcases getElem?_setThreads found at_index with ⟨_, rfl⟩ | ⟨_, before⟩
      · exact (sound _ (List.mem_of_getElem? found)).step taken
      · exact sound other (List.mem_of_getElem? before)

/-- By induction on the run. -/
theorem ReachableWhile.sound (reached : ReachableWhile meets maxThreads logger manager)
    : manager.Sound := by
  induction reached with
  | start => simp [Sound, create]
  | next _ taken _ ih => exact ih.step (step_cases taken)

/-- The dispatcher holds nothing in a callback if and only if the request is not turned away
in the scope of a lock; it never waits for itself.
-/
theorem process_reentrant (manager : MuldDownloadManager) (conditions : RequestConditions)
    (request : PendingDownloadRequest)
    : Reentrant Deed.exposed [] (manager.process conditions request).2.events
      ↔ ¬ ReportsLocked conditions manager request := by
  have ends := process_cases manager conditions request
  generalize manager.process conditions request = ended at ends ⊢
  cases ends with
  | completes _ _ completes =>
      cases completes with
      | failed _ shows =>
          exact reentrant_iff.trans ((and_iff_left shows.unblocked).trans shows.unlocked)
      | attached _ accepted _ _ shows =>
          exact iff_of_true (reentrant_iff.mpr ⟨shows.unlocked.mpr trivial, shows.unblocked⟩)
            accepted
  | escapes _ accepted shows =>
      exact iff_of_true (reentrant_iff.mpr ⟨shows.unlocked.mpr trivial, shows.unblocked⟩)
        accepted
  | killed _ accepted shows =>
      exact iff_of_true (reentrant_iff.mpr ⟨shows.unlocked.mpr trivial, shows.unblocked⟩)
        accepted

/-- In every run a step calls back with no mutex held, except where a `Load` with an
`on_error` is turned away after its image was read.
-/
theorem calls_back_unlocked (reached : Reachable maxThreads logger manager)
    (action : ManagerAction)
    : manager.CallsBackUnlocked action ↔ manager.ReportsUnlocked action := by
  cases action with
  | request conditions request => exact process_reentrant manager conditions request
  | job position action =>
      refine iff_of_true ?_ trivial
      cases action with
      | act action =>
          intro job frame sys found moves taken
          have sound := ReachableWhile.sound reached job (List.mem_of_getElem? found)
          exact sound.callsBackUnlocked moves taken
      | nest => trivial
      | leave => trivial

/-- A `Download` never calls back in a lock. -/
theorem calls_back_unlocked_download
    : (create 8 false).CallsBackUnlocked (.request (serves none) downloadFile) := by
  refine (calls_back_unlocked .start _).mpr ?_
  rintro ⟨isLoad, _⟩
  cases isLoad

/-- A server that does not have the file of an image any more. -/
def missesFile : RequestConditions where
  imageFile := some imageOfFile
  answers := fun _ => .connected (.response { status := 404, reason := "Not Found" } none)

/-- A `Load` that is turned away invokes `on_error` in the scope of `jobs_mtx_`. -/
theorem refused_load_reports_locked
    : ¬ ∀ (maxThreads : Int) (logger : Bool) (manager : MuldDownloadManager)
        (action : ManagerAction),
        Reachable maxThreads logger manager → manager.CallsBackUnlocked action := by
  intro always
  have reentrant := always 8 false _ (.request missesFile loadFile) .start
  have locked : ¬ Unlocked Deed.exposed []
      ((create 8 false).process missesFile loadFile).2.events := by
    decide +kernel
  exact locked reentrant.unlocked

end MuldDownloadManager

end Muld
