import Muld.Advancing
import Muld.Artifacts
import Muld.EngineCalls
import Muld.Recovery
import Muld.Stranding
import Muld.Targets

/-! What `Resume` can make of a download that has come to rest. A chunk that lacks bytes is
enough for it to be completed; without one the download is never completed.
-/

namespace Muld

open Threads Content

-----------------------------------------------------------------------------------------
-- Targets that leave room for a worker
-----------------------------------------------------------------------------------------

/-- The lower bound and the target of connections are at least one. -/
structure DownloadEngine.Staffable (engine : DownloadEngine) : Prop where
  minConnections : 1 ≤ engine.minConnections
  desiredConnections : 1 ≤ engine.desiredConnections

theorem DownloadEngine.Planned.staffable {engine : DownloadEngine} (planned : engine.Planned)
    : engine.Staffable :=
  ⟨planned.minConnections.ge, planned.lower⟩

theorem DownloadEngine.SameTargets.staffable {before after : DownloadEngine}
    (same : before.SameTargets after) (staffable : before.Staffable)
    : after.Staffable :=
  ⟨same.minConnections ▸ staffable.minConnections,
    same.desiredConnections ▸ staffable.desiredConnections⟩

/-- With room below the target, some workers are planned. -/
theorem DownloadEngine.plans {engine : DownloadEngine} {maxThreads : Int}
    (threads : 0 < maxThreads) (active : engine.active = true)
    (room : engine.scheduledConnections < engine.desiredConnections)
    : ∃ toAdd,
        0 < toAdd
        ∧ engine.planNewWorkers maxThreads
            = (toAdd,
              { engine with
                scheduledConnections := engine.scheduledConnections + toAdd }) := by
  have adds : 0 < min (engine.desiredConnections - engine.scheduledConnections) maxThreads := by
    omega
  refine ⟨_, adds, ?_⟩
  simp only [planNewWorkers]
  rw [if_neg (by simp [active]; omega), if_neg (by omega)]

/-- A `Start` or `Resume` up to its plan. -/
def Shared.rebuilt (shared : Shared) : Shared :=
  let queued := shared.onEngine fun engine => { engine with state := .queued }
  ((queued.reportState .queued).onEngine fun engine =>
      { engine with releaseBudget := 0 }.buildPendingWork).onHistory fun history =>
    { history with startAccepted := true, lastCancel := none, built := true, undisturbed := true }

/-- A download after an accepted `Pause`. -/
def Shared.paused (shared : Shared) : Shared :=
  Shared.reportState .paused { shared with
    engine := { shared.engine with state := .paused }
    history := { shared.history with undisturbed := false } }

@[simp] theorem Shared.cleanupArtifacts_maxThreads (shared : Shared) (removeOutputFile : Bool)
    : (shared.cleanupArtifacts removeOutputFile).maxThreads = shared.maxThreads := by
  unfold cleanupArtifacts
  split <;> rfl

theorem Worker.Step.maxThreads {shared shared' : Shared} {worker next : Worker}
    {label : WorkerLabel} (taken : Worker.Step shared worker label shared' next)
    : shared'.maxThreads = shared.maxThreads := by
  cases taken <;> first | rfl | simp

theorem Call.Step.maxThreads {index : Nat} {shared shared' : Shared} {call next : Call}
    {label : CallLabel} {spawned : List Worker}
    (taken : Call.Step index shared call label shared' next spawned)
    : shared'.maxThreads = shared.maxThreads := by
  cases taken <;> first | rfl | simp

/-- The program points of `EnqueueTasks`. -/
def Call.planning : Call → Bool
  | .planState | .planScheduled | .planDesired _ | .planCas _ _ | .enqueue _ | .returned _ => true
  | _ => false

/-- `EnqueueTasks` stays what it is to its end. -/
theorem Call.Step.planning {index : Nat} {shared shared' : Shared} {call next : Call}
    {label : CallLabel} {spawned : List Worker}
    (taken : Call.Step index shared call label shared' next spawned)
    (plans : call.planning = true)
    : next.planning = true ∧ next.building = false ∧ shared'.nullWriter = shared.nullWriter := by
  cases taken
  case forward at_pc => rcases at_pc with ⟨rfl, _⟩ | ⟨rfl, _⟩ | ⟨rfl, _⟩ <;> cases plans
  case handlerSpeedLimit => cases plans
  case attachDispatch => cases plans
  all_goals first | exact ⟨rfl, rfl, rfl⟩ | cases plans

namespace Sys

variable {meets : Sys → Action → Sys → Prop} {remote : Nat → Byte} {start sys : Sys}
  {info : FileInfo}

/-- No step leaves a job without room for a worker. -/
theorem ReachableWhile.staffable (staffable : start.shared.engine.Staffable)
    (reached : ReachableWhile meets start sys)
    : sys.shared.engine.Staffable := by
  refine @invariant meets start sys (fun sys => sys.shared.engine.Staffable) reached staffable
    ?_ ?_ ?_
  · intro sys index worker next label shared _ _ staffable _ taken _
    exact taken.sameTargets.staffable staffable
  · intro sys index call next label shared spawned _ _ staffable _ taken _
    cases steers : call.steers with
    | false => exact (taken.sameTargets steers).1.staffable staffable
    | true =>
        cases call <;> simp only [Call.steers, Bool.false_eq_true] at steers
        case bounds =>
          cases taken
          case bounds => exact ⟨Int.le_max_left _ _, staffable.desiredConnections⟩
          all_goals simp_all
        case desire =>
          obtain ⟨sameMin, _, placed, _⟩ := taken.desires
          have lowest := staffable.minConnections
          refine ⟨sameMin ▸ lowest, ?_⟩
          rw [placed, DownloadEngine.clampDesired]
          omega
  · intro sys api dispatched _ staffable
    exact staffable

/-- The dispatcher launches jobs with room for a worker. -/
theorem SessionStart.staffable (begun : SessionStart remote info start)
    : start.shared.engine.Staffable := by
  cases begun with
  | first begins =>
      obtain ⟨_, _, _, built⟩ := begins
      exact (newDownload_unstarted built).planned.staffable
  | restart _ _ restarted =>
      obtain ⟨_, _, _, _, _, _, built⟩ := restarted
      exact (loadedDownload_unstarted built).planned.staffable

-----------------------------------------------------------------------------------------
-- One more call beside those that have returned
-----------------------------------------------------------------------------------------

/-- The system with one more call, and the shared state and the workers it has come to. -/
def attending (sys : Sys) (shared : Shared) (call : Call) (spawned : List Worker) : Sys :=
  { sys with shared, workers := sys.workers ++ spawned, calls := sys.calls ++ [call] }

/-- A step that the user alone brings about: a `Pause` or a `Resume` begins, or a call goes on,
and a rebuild runs alone.
-/
def PausesAndResumes (_ : Sys) (action : Action) (after : Sys) : Prop :=
  (match action with
    | .worker .. => False
    | .call .. => True
    | .invoke api => api = .pause ∨ api = .resume)
  ∧ after.BuildAlone

/-- Calls need nothing of the server. -/
theorem ReachableWhile.remoteRun (reached : ReachableWhile PausesAndResumes start sys)
    : ReachableWhile (RemoteRun remote) start sys := by
  refine Transition.Reachable.mono reached ?_
  intro before action after met
  cases action with
  | worker index label => exact met.1.elim
  | call index label => exact ⟨trivial, met.2⟩
  | invoke api => exact ⟨trivial, met.2⟩

/-- A new call enters. -/
theorem ReachableWhile.enters
    (returned : ∀ call ∈ sys.calls, call = .returned true ∨ call = .returned false)
    (running : sys.shared.nullWriter = false) (api : Api) (chosen : api = .pause ∨ api = .resume)
    : ReachableWhile PausesAndResumes sys (sys.attending sys.shared api.entry []) := by
  have free : api.dispatches = false := by
    rcases chosen with rfl | rfl <;> rfl
  have entered : sys.step (.invoke api) = some (sys.attending sys.shared api.entry []) := by
    simp [step, running, free, attending]
  refine .next .start entered ⟨chosen, ?_⟩
  intro call member building
  rcases mem_snoc_cases member with old | rfl
  · rcases returned call old with rfl | rfl <;> cases building
  · cases api <;> cases building

/-- The last call takes a step. -/
theorem ReachableWhile.attends {shared after : Shared} {call next : Call}
    {spawned more : List Worker}
    (returned : ∀ call ∈ sys.calls, call = .returned true ∨ call = .returned false)
    (reached : ReachableWhile PausesAndResumes sys (sys.attending shared call spawned))
    (running : shared.nullWriter = false)
    (taken : call.step sys.calls.length shared .run = some (after, next, more))
    (alone : next.building = true → after.engine.scheduledConnections = 0)
    : ReachableWhile PausesAndResumes sys (sys.attending after next (spawned ++ more)) := by
  have moved : (sys.attending shared call spawned).step (.call sys.calls.length .run)
      = some (sys.attending after next (spawned ++ more)) := by
    simp [step, attending, running, taken]
  refine .next reached moved ⟨trivial, ?_⟩
  intro other member building
  rcases mem_snoc_cases member with old | rfl
  · rcases returned other old with rfl | rfl <;> cases building
  · exact alone building

/-- `EnqueueTasks` runs to its end, by induction on its steps. -/
theorem ReachableWhile.attends_alone {shared after : Shared} {call next : Call}
    {spawned more : List Worker}
    (returned : ∀ call ∈ sys.calls, call = .returned true ∨ call = .returned false)
    (alone : Call.RunsAlone sys.calls.length shared call after next more)
    (plans : call.planning = true) (running : shared.nullWriter = false)
    (reached : ReachableWhile PausesAndResumes sys (sys.attending shared call spawned))
    : ReachableWhile PausesAndResumes sys (sys.attending after next (spawned ++ more)) := by
  induction alone generalizing spawned with
  | done => simpa using reached
  | next taken rest ih =>
      obtain ⟨still, outside, same⟩ := (Call.step_cases taken).planning plans
      have moved := reached.attends returned running taken (by simp [outside])
      rw [List.append_nil] at moved
      exact ih still (same.trans running) moved
  | enqueue taken rest ih =>
      obtain ⟨still, outside, same⟩ := (Call.step_cases taken).planning plans
      have moved := reached.attends returned running taken (by simp [outside])
      have later := ih still (same.trans running) moved
      rwa [List.append_assoc, List.singleton_append] at later

/-- An active download can be paused. -/
theorem ReachableWhile.pauses
    (returned : ∀ call ∈ sys.calls, call = .returned true ∨ call = .returned false)
    (running : sys.shared.nullWriter = false)
    (active : DownloadEngine.admits .paused sys.shared.engine.state = true)
    : ReachableWhile PausesAndResumes sys
        (sys.attending sys.shared.paused (.returned true) []) := by
  have accepted := DownloadEngine.setState_eq_some_iff.mpr ⟨active, rfl⟩
  have at_set := ReachableWhile.enters returned running .pause (Or.inl rfl)
  have at_report := at_set.attends returned running
    (by simp only [Api.entry, Call.step, accepted]; rfl) (fun building => by cases building)
  exact at_report.attends returned running rfl (fun building => by cases building)

-----------------------------------------------------------------------------------------
-- An interrupted download comes to rest
-----------------------------------------------------------------------------------------

/-- The pool stays as it is. -/
theorem ReachableWhile.maxThreads (reached : ReachableWhile meets start sys)
    : sys.shared.maxThreads = start.shared.maxThreads := by
  refine @invariant meets start sys (fun sys => sys.shared.maxThreads = start.shared.maxThreads)
    reached rfl ?_ ?_ ?_
  · intro sys index worker next label shared _ _ same _ taken _
    exact taken.maxThreads.trans same
  · intro sys index call next label shared spawned _ _ same _ taken _
    exact taken.maxThreads.trans same
  · intro sys api dispatched _ same
    exact same

/-- The writer is dropped when the download is completed or the output file erased. -/
theorem ReachableWhile.writer (built : start.Built) (output : start.shared.output.isSome)
    (reached : ReachableWhile meets start sys)
    (uncanceled : sys.shared.history.cancelAccepted = false)
    (uncompleted : sys.shared.engine.state ≠ .completed)
    : sys.shared.engine.writer = true := by
  have tidy := (reached.artifacts built).tidy
  by_contra closed
  rcases tidy.output (tidy.cleaned_of_closed (eq_false_of_ne_true closed)) with
    completed | erased
  · exact uncompleted completed
  · have kept := (reached.keepsOutput built output uncanceled).output
    simp [erased] at kept

/-- A worker of a stopped download that waits for nobody has a next step; a read may end
without a byte.
-/
theorem Delivered.exists_step (delivered : sys.Delivered remote) (generation : sys.Generation)
    (counted : sys.Counted) (inside : sys.ItemsInside)
    (small : sys.shared.engine.fileSize < sizeModulus) (stopped : sys.Stopped)
    {worker : Worker} (member : worker ∈ sys.workers) (open_ : worker.pc ≠ .closed)
    (free : sys.shared.engine.diskLocked = false ∨ worker.pc.scanning = true)
    : ∃ label,
        worker.Served remote sys.shared.engine label
        ∧ (worker.step sys.shared label).isSome = true := by
  by_cases at_read : worker.pc = .read
  · refine ⟨.read [] .none, ⟨rfl, ?_⟩, by simp [Worker.step, at_read]⟩
    intro item held
    obtain ⟨chunk, _, course, ends, _, _⟩ :=
      delivered.bounds generation small member (by simp [at_read]) held
    have bounded := course.bounded
    have body := course.body (by simp [at_read, WorkerPc.phase])
    have inFile := course.proper.inFile
    rw [List.length_nil]
    split <;> omega
  · obtain ⟨label, taken⟩ := Worker.exists_step (counted.holding worker member)
      (inside.held worker member) open_ stopped.inactive free
    refine ⟨label, ?_, taken⟩
    cases label
    case read => simp [Worker.step, at_read] at taken
    all_goals trivial

/-- A download at rest whose output file is open and that is not completed. -/
structure Resting (sys : Sys) : Prop where
  quiescent : sys.Quiescent
  running : sys.shared.nullWriter = false
  open_ : sys.shared.engine.writer = true
  uncompleted : sys.shared.engine.state ≠ .completed

/-- A stopped download that the user has not canceled, while its process lives. -/
structure Halting (sys : Sys) : Prop where
  stopped : sys.Stopped
  running : sys.shared.nullWriter = false
  uncanceled : sys.shared.history.cancelAccepted = false

theorem Halting.step (served : ServedRuns remote (RemoteRun remote) start)
    (output : start.shared.output.isSome)
    (reached : ReachableWhile (RemoteRun remote) start sys) (halting : sys.Halting)
    (uncompleted : sys.shared.engine.state ≠ .completed)
    (some_open : ∃ worker ∈ sys.workers, worker.pc ≠ .closed)
    : ∃ action after,
        sys.step action = some after
        ∧ RemoteRun remote sys action after
        ∧ after.Halting
        ∧ after.remaining < sys.remaining := by
  have built := served.built
  have counted := reached.counted built
  have writer := reached.writer built output halting.uncanceled uncompleted
  obtain ⟨worker, member, open_, free⟩ :=
    (reached.lockHeld built).exists_free halting.stopped.returned some_open
  obtain ⟨label, allowed, taken⟩ :=
    (served.delivers reached).exists_step (reached.generation built served.alone) counted
      (reached.itemsInside built) (reached.layout served.layout).small halting.stopped member
      open_ free
  obtain ⟨⟨shared, next⟩, moved⟩ := Option.isSome_iff_exists.mp taken
  obtain ⟨index, found⟩ := List.mem_iff_getElem?.mp member
  have stepped
      : sys.step (.worker index label)
        = some { sys with shared, workers := sys.workers.set index next } := by
    simp [Sys.step, halting.running, found, moved]
  have taken := Worker.step_cases moved
  obtain ⟨stopped, lower⟩ := halting.stopped.worker_step stepped
  refine ⟨_, _, stepped, ⟨?_, ?_⟩, ⟨stopped, ?_, ?_⟩, lower⟩
  · intro other same
    obtain rfl : worker = other := Option.some.inj (found.symm.trans same)
    exact allowed
  · intro call present building
    rcases halting.stopped.returned call present with rfl | rfl <;> cases building
  · rcases taken.nullWriter_cases with same | ⟨_, closed⟩
    · exact same.trans halting.running
    · simp [writer] at closed
  · exact taken.cancelAccepted.trans halting.uncanceled

/-- A stopped download comes to rest or is completed, by induction on the steps of its
workers.
-/
theorem Halting.rests (served : ServedRuns remote (RemoteRun remote) start)
    (output : start.shared.output.isSome)
    (reached : ReachableWhile (RemoteRun remote) start sys) (halting : sys.Halting)
    : ∃ after,
        ReachableWhile (RemoteRun remote) sys after
        ∧ after.shared.history.cancelAccepted = false
        ∧ (after.shared.engine.state = .completed ∨ after.Resting) := by
  let ends (after : Sys) : Prop :=
    after.shared.engine.state = .completed ∨ ∀ worker ∈ after.workers, worker.pc = .closed
  -- What is left at a halting system that has come to its end.
  have rests : ∀ after,
      ReachableWhile (RemoteRun remote) start after
      → after.Halting
      → ends after
      → after.shared.history.cancelAccepted = false
        ∧ (after.shared.engine.state = .completed ∨ after.Resting) := by
    intro after later still done
    refine ⟨still.uncanceled, ?_⟩
    by_cases completed : after.shared.engine.state = .completed
    · exact Or.inl completed
    · exact Or.inr ⟨⟨done.resolve_left completed, still.stopped.returned⟩, still.running,
        later.writer served.built output still.uncanceled completed, completed⟩
  by_cases done : ends sys
  · exact ⟨sys, .start, rests sys reached halting done⟩
  · have goes_on : ∀ before,
        ReachableWhile (RemoteRun remote) start before
        → before.Halting ∧ ¬ ends before
        → ∃ action after,
            before.step action = some after
            ∧ RemoteRun remote before action after
            ∧ (after.Halting ∧ ends after
              ∨ (after.Halting ∧ ¬ ends after) ∧ after.remaining < before.remaining) := by
      intro before earlier ⟨still, unfinished⟩
      simp only [ends, not_or, not_forall] at unfinished
      obtain ⟨uncompleted, worker, member, open_⟩ := unfinished
      obtain ⟨action, after, moved, met, next, lower⟩ :=
        still.step served output earlier uncompleted ⟨worker, member, open_⟩
      refine ⟨action, after, moved, met, ?_⟩
      by_cases done : ends after
      · exact Or.inl ⟨next, done⟩
      · exact Or.inr ⟨⟨next, done⟩, lower⟩
    obtain ⟨after, later, still, done⟩ := reached.descends remaining goes_on ⟨halting, done⟩
    exact ⟨after, later, rests after (reached.trans later) still done⟩

-----------------------------------------------------------------------------------------
-- A download at rest is taken up again
-----------------------------------------------------------------------------------------

/-- A download at rest can be paused if it is not. -/
theorem Resting.pauses (resting : sys.Resting)
    : ∃ after,
        ReachableWhile PausesAndResumes sys after
        ∧ after.Resting
        ∧ DownloadEngine.admits .queued after.shared.engine.state = true
        ∧ after.shared.engine.chunksInfo = sys.shared.engine.chunksInfo
        ∧ after.shared.history.cancelAccepted = sys.shared.history.cancelAccepted := by
  by_cases admitted : DownloadEngine.admits .queued sys.shared.engine.state = true
  · exact ⟨sys, .start, resting, admitted, rfl, rfl⟩
  · have active : DownloadEngine.admits .paused sys.shared.engine.state = true := by
      have uncompleted := resting.uncompleted
      cases state : sys.shared.engine.state <;> simp_all [DownloadEngine.admits]
    refine ⟨_, ReachableWhile.pauses resting.quiescent.2 resting.running active,
      ⟨⟨?_, ?_⟩, resting.running, resting.open_,
        (by decide : DownloadState.paused ≠ .completed)⟩, rfl, rfl, rfl⟩
    · simpa [attending] using resting.quiescent.1
    · intro call member
      rcases mem_snoc_cases member with old | rfl
      · exact resting.quiescent.2 call old
      · exact Or.inl rfl

/-- A `Resume` that finds no connection scheduled comes to its plan. -/
theorem Resting.rebuilds (resting : sys.Resting)
    (idle : sys.shared.engine.scheduledConnections = 0)
    (admitted : DownloadEngine.admits .queued sys.shared.engine.state = true)
    : ReachableWhile PausesAndResumes sys (sys.attending sys.shared.rebuilt .planState []) := by
  have returned := resting.quiescent.2
  have running := resting.running
  have accepted := DownloadEngine.setState_eq_some_iff.mpr ⟨admitted, rfl⟩
  have at_set := ReachableWhile.enters returned running .resume (Or.inr rfl)
  have at_report := at_set.attends returned running
    (by simp only [Api.entry, Call.step, accepted]; rfl) (fun building => by cases building)
  have at_drain := at_report.attends returned running rfl (fun building => by cases building)
  have at_reset := at_drain.attends returned running (if_pos idle)
    (fun building => by cases building)
  have at_rebuild := at_reset.attends returned running rfl (fun building => by cases building)
  have at_next := at_rebuild.attends returned running rfl (fun _ => by exact idle)
  have at_count := at_next.attends returned running rfl (fun _ => by exact idle)
  exact at_count.attends returned running rfl (fun building => by cases building)

theorem Resting.resumes (resting : sys.Resting) (counted : sys.Counted)
    (staffable : sys.shared.engine.Staffable) (threads : 0 < sys.shared.maxThreads)
    (admitted : DownloadEngine.admits .queued sys.shared.engine.state = true)
    (lacks : ∃ chunk ∈ sys.shared.engine.chunksInfo, chunk.isFinished = false)
    : ∃ after,
        ReachableWhile PausesAndResumes sys after
        ∧ after.Advancing
        ∧ after.shared.history.cancelAccepted = sys.shared.history.cancelAccepted := by
  have returned := resting.quiescent.2
  have idle := counted.unscheduled resting.quiescent.1 resting.quiescent.2
  have at_plan := resting.rebuilds idle admitted
  have running : sys.shared.rebuilt.nullWriter = false := resting.running
  have at_end := at_plan.attends_alone returned Call.runsAlone_planState rfl running
  have room : sys.shared.engine.scheduledConnections < sys.shared.engine.desiredConnections := by
    have positive := staffable.desiredConnections
    omega
  obtain ⟨toAdd, positive, planned⟩ :=
    @DownloadEngine.plans sys.shared.rebuilt.engine sys.shared.rebuilt.maxThreads threads rfl room
  simp only [Shared.onEngine, planned, List.nil_append] at at_end
  let fresh : Worker := {}
  have workers : ∀ worker ∈ sys.workers ++ List.replicate toAdd.toNat fresh,
      worker.pc = .closed ∨ worker = fresh := by
    intro worker member
    rcases List.mem_append.mp member with old | new
    · exact Or.inl (resting.quiescent.1 worker old)
    · exact Or.inr (List.eq_of_mem_replicate new)
  refine ⟨_, at_end, ?_, rfl⟩
  constructor
  case returned =>
    intro call member
    rcases mem_snoc_cases member with old | rfl
    · exact returned call old
    · exact Or.inl rfl
  case running => exact resting.running
  case live => exact Or.inl rfl
  case open_ => exact resting.open_
  case budget => exact Int.le_refl 0
  case undisturbed => rfl
  case built => rfl
  case circulating =>
    refine ⟨fun _ _ => allCovered_of_rebuilt rfl rfl, ?_, ?_⟩
    · intro _ _ worker member scheduled
      rcases workers worker member with closed | rfl
      · simp [closed, WorkerPc.scheduled] at scheduled
      · exact Or.inl rfl
    · intro worker member at_pc
      rcases workers worker member with closed | rfl
      · simp [closed] at at_pc
      · cases at_pc
  case steady =>
    intro worker member
    rcases workers worker member with closed | rfl
    · exact Worker.steady_of_closed closed
    · exact Worker.steady_fresh _
  case staffed =>
    intro _
    have some_new : toAdd.toNat ≠ 0 := by omega
    exact ⟨fresh, List.mem_append_right _ (List.mem_replicate.mpr ⟨some_new, rfl⟩), rfl⟩
  case full =>
    intro enough
    have all : sys.shared.engine.AllFinished :=
      (DownloadEngine.allFinished_iff _).mpr enough
    obtain ⟨chunk, inside, unfinished⟩ := lacks
    simp [all chunk inside] at unfinished

/-- The output file is the remote file. -/
def Whole (remote : Nat → Byte) (info : FileInfo) (sys : Sys) : Prop :=
  ∃ file,
    sys.shared.output = some file
    ∧ ∀ position < info.totalSize, file position = remote position

/-- The user's calls alone can have the download taken up again, so that the workers complete
it with the remote file: whatever the order in which they take their steps, they do so after
a bounded number of them, while the network and the disk do their work.
-/
def Completable (remote : Nat → Byte) (info : FileInfo) (sys : Sys) : Prop :=
  ∃ resumed bound,
    ReachableWhile PausesAndResumes sys resumed
    ∧ ∀ (actions : List Action) (after : Sys),
        Transition.runWhile step (Attends remote) resumed actions = some after
        → actions.length ≤ bound
          ∧ (after.shared.engine.state = .completed ∧ after.Whole remote info
            ∨ ∃ action next, after.step action = some next ∧ Attends remote after action next)

section Sessions

variable (supports : info.supportsRange = true) (nonempty : 0 < info.totalSize)
  (begun : SessionStart remote info start)
  (reached : ReachableWhile (RemoteRun remote) start sys)

include supports nonempty begun reached

/-- Once all chunks are finished, nothing is missing in the output file. -/
theorem AllFinished.whole (uncanceled : sys.shared.history.cancelAccepted = false)
    (all : sys.shared.engine.AllFinished)
    : sys.Whole remote info := by
  have ready := SessionStart.ready supports nonempty begun
  obtain ⟨file, output, agrees⟩ :=
    ready.served.finished (coversFile_of_tiles ready.tiles ready.layout)
      ready.resumable.output reached uncanceled all
  exact ⟨file, output, ready.fileSize ▸ reached.sameJob.fileSize ▸ agrees⟩

theorem Completed.whole (uncanceled : sys.shared.history.cancelAccepted = false)
    (completed : sys.shared.engine.state = .completed)
    : sys.Whole remote info :=
  AllFinished.whole supports nonempty begun reached uncanceled
    (((SessionStart.ready supports nonempty begun).served.completesFinished reached).state
      completed)

/-- A download at rest that lacks a byte can be taken up again. -/
theorem Resting.advances (resting : sys.Resting) (threads : 0 < sys.shared.maxThreads)
    (lacks : ∃ chunk ∈ sys.shared.engine.chunksInfo, chunk.isFinished = false)
    : ∃ resumed,
        ReachableWhile PausesAndResumes sys resumed
        ∧ resumed.Advancing
        ∧ resumed.shared.history.cancelAccepted = sys.shared.history.cancelAccepted := by
  have built := (SessionStart.ready supports nonempty begun).served.built
  obtain ⟨paused, toPaused, restingPaused, admitted, chunks, cancels⟩ :=
    resting.pauses
  have reachedPaused : ReachableWhile (RemoteRun remote) start paused :=
    reached.trans toPaused.remoteRun
  obtain ⟨resumed, toResumed, advancing, stillCancels⟩ :=
    restingPaused.resumes (reachedPaused.counted built)
      (reachedPaused.staffable begun.staffable) (toPaused.maxThreads ▸ threads) admitted
      (chunks ▸ lacks)
  exact ⟨resumed, toPaused.trans toResumed, advancing, stillCancels.trans cancels⟩

/-- A download at rest that is neither completed nor canceled is completable where a chunk
lacks bytes. Where none does, the output file is the remote file, and nothing that can
happen completes the download.
-/
theorem Resting.completable (resting : sys.Resting) (threads : 0 < sys.shared.maxThreads)
    (uncanceled : sys.shared.history.cancelAccepted = false)
    : (sys.Completable remote info
        ∧ ∃ chunk ∈ sys.shared.engine.chunksInfo, chunk.isFinished = false)
      ∨ (sys.Whole remote info
        ∧ sys.shared.engine.AllFinished
        ∧ ∀ after, Reachable sys after → after.shared.engine.state ≠ .completed) := by
  have ready := SessionStart.ready supports nonempty begun
  have served := ready.served
  by_cases all : sys.shared.engine.AllFinished
  · refine Or.inr ⟨AllFinished.whole supports nonempty begun reached uncanceled all, all, ?_⟩
    intro after later
    have stranded := resting.quiescent.stranded (reached.counted served.built)
      (reached.generation served.built served.alone) resting.uncompleted all
    exact (stranded.forever served.built reached later).uncompleted
  · have lacks : ∃ chunk ∈ sys.shared.engine.chunksInfo, chunk.isFinished = false := by
      simpa [DownloadEngine.AllFinished] using all
    refine Or.inl ⟨?_, lacks⟩
    obtain ⟨resumed, toResumed, advancing, cancels⟩ :=
      Resting.advances supports nonempty begun reached resting threads lacks
    have reachedResumed : ReachableWhile (RemoteRun remote) start resumed :=
      reached.trans toResumed.remoteRun
    refine ⟨resumed, resumed.effort + 1, toResumed, ?_⟩
    intro actions after ran
    obtain ⟨later, kept, ends, short⟩ :=
      Advancing.attends served ready.ranged reachedResumed advancing ran
    refine ⟨short, ?_⟩
    rcases ends with completed | still
    · exact Or.inl ⟨completed, Completed.whole supports nonempty begun later
        ((kept.trans cancels).trans uncanceled) completed⟩
    · exact Or.inr (Advancing.goes_on served ready.ranged later still)

end Sessions

open Muld.Action in
/-- The job loaded from eight bytes is completable. A fresh one is not any more once a `Pause`
and a `Resume` are accepted between the last bytes and the compare-and-swap of their worker.
-/
theorem completable_eight_bytes
    : eightBytesJob.Completable UInt8.ofNat twentyBytesRanged
      ∧ ∃ sys : Sys,
          sys.Whole UInt8.ofNat twentyBytesRanged
          ∧ ∀ after, Reachable sys after → after.shared.engine.state ≠ .completed := by
  constructor
  · rcases Resting.completable rfl (by decide) eightBytesJob_starts .start
        ⟨by decide, rfl, rfl, by decide⟩ (by decide) rfl with
      ⟨completable, _⟩ | ⟨_, all, _⟩
    · exact completable
    · exact absurd all (by decide)
  · obtain ⟨sys, reached, holds⟩ :=
      exists_reachable (RemoteRun UInt8.ofNat) twentyBytesJob
        (.invoke .start :: callRuns 0 14 ++ workerRuns 0 6
          ++ fetch 0 206 (slice UInt8.ofNat 0 20) ++ workerRuns 0 1
          ++ .invoke .pause :: callRuns 1 2 ++ .invoke .resume :: callRuns 2 1
          ++ workerRuns 0 2 ++ .worker 0 (.isDone true) :: workerRuns 0 5
          ++ workerRuns 1 9 ++ workerRuns 0 1 ++ callRuns 2 13
          ++ workerRuns 2 7 ++ workerRuns 3 8 ++ workerRuns 2 1)
        (fun sys =>
          decide sys.Quiescent
            && !sys.shared.nullWriter
            && sys.shared.engine.writer
            && decide (sys.shared.engine.state ≠ .completed)
            && decide (0 < sys.shared.maxThreads)
            && !sys.shared.history.cancelAccepted
            && decide sys.shared.engine.AllFinished)
        (by decide +kernel)
    simp only [Bool.and_eq_true, Bool.not_eq_true', decide_eq_true_iff] at holds
    obtain ⟨⟨⟨⟨⟨⟨quiescent, running⟩, writer⟩, uncompleted⟩, threads⟩, uncanceled⟩, all⟩ := holds
    rcases Resting.completable rfl (by decide) twentyBytesJob_starts reached
        ⟨quiescent, running, writer, uncompleted⟩ threads uncanceled with
      ⟨_, chunk, member, unfinished⟩ | ⟨whole, _, never⟩
    · simp [all chunk member] at unfinished
    · exact ⟨sys, whole, never⟩

/-- From wherever a download is, once the calls have returned, it can get to the remote file,
as long as nobody cancels it. It is completed then, or all its chunks are finished and
nothing that can happen completes it.
-/
theorem gets_whole (supports : info.supportsRange = true) (nonempty : 0 < info.totalSize)
    (begun : SessionStart remote info start)
    (reached : ReachableWhile (RemoteRun remote) start sys)
    (returned : ∀ call ∈ sys.calls, call = .returned true ∨ call = .returned false)
    (running : sys.shared.nullWriter = false) (threads : 0 < sys.shared.maxThreads)
    (uncanceled : sys.shared.history.cancelAccepted = false)
    : ∃ after,
        ReachableWhile (RemoteRun remote) sys after
        ∧ after.Whole remote info
        ∧ (after.shared.engine.state = .completed
          ∨ after.shared.engine.AllFinished
            ∧ ∀ later, Reachable after later → later.shared.engine.state ≠ .completed) := by
  have ready := SessionStart.ready supports nonempty begun
  have served := ready.served
  -- A `Pause` stops the workers of an active download.
  have halts : ∃ halted,
      ReachableWhile (RemoteRun remote) sys halted ∧ halted.Halting := by
    by_cases active : DownloadEngine.admits .paused sys.shared.engine.state = true
    · have paused := ReachableWhile.pauses returned running active
      refine ⟨_, paused.remoteRun, ⟨⟨?_, rfl⟩, running, uncanceled⟩⟩
      intro call member
      rcases mem_snoc_cases member with old | rfl
      · exact returned call old
      · exact Or.inl rfl
    · refine ⟨sys, .start, ⟨⟨returned, ?_⟩, running, uncanceled⟩⟩
      cases state : sys.shared.engine.state <;>
        simp_all [DownloadEngine.admits, DownloadEngine.active]
  obtain ⟨halted, toHalted, halting⟩ := halts
  have reachedHalted : ReachableWhile (RemoteRun remote) start halted := reached.trans toHalted
  obtain ⟨rested, toRested, stillUncanceled, ends⟩ :=
    halting.rests served ready.resumable.output reachedHalted
  have reachedRested : ReachableWhile (RemoteRun remote) start rested :=
    reachedHalted.trans toRested
  have toRested := toHalted.trans toRested
  rcases ends with completed | resting
  · exact ⟨rested, toRested,
      Completed.whole supports nonempty begun reachedRested stillUncanceled completed,
      Or.inl completed⟩
  · have stillThreads : 0 < rested.shared.maxThreads :=
      (ReachableWhile.maxThreads toRested).symm ▸ threads
    rcases Resting.completable supports nonempty begun reachedRested resting stillThreads
        stillUncanceled with ⟨_, lacks⟩ | ⟨whole, all, never⟩
    · obtain ⟨resumed, toPlanned, advancing, cancels⟩ :=
        Resting.advances supports nonempty begun reachedRested resting stillThreads lacks
      have toResumed := @ReachableWhile.remoteRun remote _ _ toPlanned
      have reachedResumed : ReachableWhile (RemoteRun remote) start resumed :=
        reachedRested.trans toResumed
      obtain ⟨after, toAfter, completed, kept⟩ :=
        Advancing.completes served ready.ranged reachedResumed advancing
      have toAfter : ReachableWhile (RemoteRun remote) sys after :=
        (toRested.trans toResumed).trans toAfter
      exact ⟨after, toAfter,
        Completed.whole supports nonempty begun (reached.trans toAfter)
          ((kept.trans cancels).trans stillUncanceled) completed,
        Or.inl completed⟩
    · exact ⟨rested, toRested, whole, Or.inr ⟨all, never⟩⟩

/-- The job loaded from eight bytes gets to the twenty of the remote file. -/
theorem gets_whole_eight_bytes
    : ∃ after,
        ReachableWhile (RemoteRun UInt8.ofNat) eightBytesJob after
        ∧ after.Whole UInt8.ofNat twentyBytesRanged := by
  obtain ⟨after, later, whole, _⟩ :=
    gets_whole rfl (by decide) eightBytesJob_starts .start (by decide)
      rfl (by decide) rfl
  exact ⟨after, later, whole⟩

end Sys

end Muld
