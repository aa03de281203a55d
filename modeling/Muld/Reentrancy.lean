import Muld.Scheduling

/-! Calls made from inside a callback. A client callback runs on the thread that reported,
in the middle of the method that reports: the method goes on when the callback has
returned, and the callback returns when the calls it made have.
-/

namespace Muld

open Threads

/-- A method in the middle of which a client callback can run. -/
inductive Frame
  | worker (index : Nat)
  | call (index : Nat)
deriving DecidableEq, Repr

/-- The steps of a worker that invoke a callback of the engine. -/
def WorkerPc.invokesCallback : WorkerPc → Bool
  | .openReport | .notifyEventReport | .notifyProgressReport | .finishReport | .failReport
  | .failErrorReport => true
  | _ => false

/-- The steps of a call that invoke a callback of the engine. -/
def Call.invokesCallback : Call → Bool
  | .startReport | .pauseReport | .cancelReport => true
  | _ => false

/-- The step of a call that invokes a callback of the handler itself. -/
def Call.invokesDirectly : Call → Bool
  | .failBeforeEngineStart _ => true
  | _ => false

/-- A worker counts as scheduled during all its callbacks. -/
theorem WorkerPc.scheduled_of_invokesCallback {pc : WorkerPc}
    (invokes : pc.invokesCallback = true)
    : pc.scheduled = true := by
  cases pc <;> simp_all [WorkerPc.invokesCallback, scheduled]

/-- A call gets into a start where `SetState` accepts it. -/
theorem Call.Step.entersStart {index : Nat} {shared shared' : Shared} {call next : Call}
    {label : CallLabel} {spawned : List Worker}
    (taken : Call.Step index shared call label shared' next spawned)
    (after : next.starting = true)
    : call.starting = true
      ∨ (call = .startSet ∧ DownloadEngine.admits .queued shared.engine.state = true) := by
  cases taken
  case start admitted => exact Or.inr ⟨rfl, admitted⟩
  all_goals first | exact Or.inl rfl | grind [Call.starting]

/-- A call that takes a step has not returned. -/
theorem Call.Step.running {index : Nat} {shared shared' : Shared} {call next : Call}
    {label : CallLabel} {spawned : List Worker}
    (taken : Call.Step index shared call label shared' next spawned) (result : Bool)
    : call ≠ .returned result := by
  rintro rfl
  cases taken <;> simp_all

/-- A worker stays scheduled into its callback. -/
theorem Worker.Step.scheduled_of_invokesCallback {shared shared' : Shared}
    {worker next : Worker} {label : WorkerLabel}
    (taken : Worker.Step shared worker label shared' next)
    (invokes : worker.pc.invokesCallback = true)
    : next.pc.scheduled = true := by
  rcases taken.scheduledConnections with ⟨_, same⟩ | ⟨at_pc, _⟩
  · rw [same]
    exact WorkerPc.scheduled_of_invokesCallback invokes
  · rw [at_pc] at invokes
    cases invokes

/-- The method that takes a step. -/
def Action.frame : Action → Option Frame
  | .worker index _ => some (.worker index)
  | .call index _ => some (.call index)
  | .invoke _ => none

/-- The method whose client callback begins with the action, if one does. -/
def Sys.entersCallback (sys : Sys) : Action → Option Frame
  | .worker index _ =>
      match sys.workers[index]? with
      | some worker =>
          if worker.pc.invokesCallback && sys.shared.engine.callbacksAttached then
            some (.worker index)
          else none
      | none => none
  | .call index _ =>
      match sys.calls[index]? with
      | some call =>
          if call.invokesCallback && sys.shared.engine.callbacksAttached
              || call.invokesDirectly then
            some (.call index)
          else none
      | none => none
  | .invoke _ => none

/-- A download job whose callbacks run on the threads that report. -/
structure Threaded where
  sys : Sys
  /-- For each call the method whose callback made it, if a callback made it. -/
  callers : List (Option Frame)
  /-- For each call the worker on whose thread it runs, if it runs on one. -/
  hosts : List (Option Nat)
  /-- The methods that are inside a client callback. -/
  inside : List Frame

inductive ThreadAction
  /-- A method takes a step, or a thread of the client makes a call. -/
  | act (action : Action)
  /-- The callback of a method makes a call. -/
  | nest (frame : Frame) (api : Api)
  /-- The callback of a method returns. -/
  | leave (frame : Frame)
deriving DecidableEq, Repr

namespace Threaded

/-- A job on which no call was made. -/
def ofSys (sys : Sys) : Threaded := { sys, callers := [], hosts := [], inside := [] }

/-- A call has returned and so has its last callback. -/
def finished (threaded : Threaded) (index : Nat) : Bool :=
  (threaded.sys.calls[index]?).any (fun call => call == .returned true || call == .returned false)
    && !threaded.inside.contains (.call index)

/-- The calls that the callback of a method has made are finished. -/
def idle (threaded : Threaded) (frame : Frame) : Bool :=
  (List.range threaded.callers.length).all fun index =>
    threaded.callers[index]? != some (some frame) || threaded.finished index

/-- The worker on whose thread a method runs. -/
def host (threaded : Threaded) : Frame → Option Nat
  | .worker index => some index
  | .call index => threaded.hosts[index]?.join

def step (threaded : Threaded) : ThreadAction → Option Threaded
  | .act action =>
      -- a method does not go on while its callback runs
      if (action.frame).any threaded.inside.contains then none
      else
        match threaded.sys.step action with
        | none => none
        | some sys =>
            match action with
            | .invoke _ =>
                some { threaded with
                  sys
                  callers := threaded.callers ++ [none]
                  hosts := threaded.hosts ++ [none] }
            | _ =>
                some { threaded with
                  sys
                  inside := (threaded.sys.entersCallback action).toList ++ threaded.inside }
  | .nest frame api =>
      if threaded.inside.contains frame && threaded.idle frame then
        match threaded.sys.step (.invoke api) with
        | none => none
        | some sys =>
            some { threaded with
              sys
              callers := threaded.callers ++ [some frame]
              hosts := threaded.hosts ++ [threaded.host frame] }
      else none
  | .leave frame =>
      if threaded.inside.contains frame && threaded.idle frame then
        some { threaded with inside := threaded.inside.erase frame }
      else none

-----------------------------------------------------------------------------------------
-- Steps
-----------------------------------------------------------------------------------------

variable {threaded after : Threaded}

/-- A step moves a method, enters a call or ends a callback. -/
inductive Step (threaded : Threaded) : ThreadAction → Threaded → Prop
  | move (action : Action) (frame : Frame) (sys : Sys) (moves : action.frame = some frame)
      (outside : frame ∉ threaded.inside) (taken : threaded.sys.step action = some sys)
    : Step threaded (.act action)
        { threaded with
          sys
          inside := (threaded.sys.entersCallback action).toList ++ threaded.inside }
  | invoke (api : Api) (sys : Sys) (taken : threaded.sys.step (.invoke api) = some sys)
    : Step threaded (.act (.invoke api))
        { threaded with
          sys
          callers := threaded.callers ++ [none]
          hosts := threaded.hosts ++ [none] }
  | nest (frame : Frame) (api : Api) (sys : Sys) (within : frame ∈ threaded.inside)
      (idle : threaded.idle frame = true)
      (taken : threaded.sys.step (.invoke api) = some sys)
    : Step threaded (.nest frame api)
        { threaded with
          sys
          callers := threaded.callers ++ [some frame]
          hosts := threaded.hosts ++ [threaded.host frame] }
  | leave (frame : Frame) (within : frame ∈ threaded.inside)
      (idle : threaded.idle frame = true)
    : Step threaded (.leave frame) { threaded with inside := threaded.inside.erase frame }

/-- Every step of the threads is one of the listed ones, by cases on the action. -/
theorem step_cases {action : ThreadAction} (taken : threaded.step action = some after)
    : threaded.Step action after := by
  cases action with
  | act action =>
      simp only [step] at taken
      split at taken
      · contradiction
      · rename_i free
        split at taken
        · contradiction
        · rename_i sys moved
          cases action with
          | invoke api =>
              obtain rfl := Option.some.inj taken
              exact .invoke api sys moved
          | worker index label =>
              obtain rfl := Option.some.inj taken
              exact .move _ (.worker index) sys rfl (by simpa [Action.frame] using free) moved
          | call index label =>
              obtain rfl := Option.some.inj taken
              exact .move _ (.call index) sys rfl (by simpa [Action.frame] using free) moved
  | nest frame api =>
      simp only [step, Bool.and_eq_true, List.contains_iff_mem] at taken
      split at taken
      · rename_i guard
        split at taken
        · contradiction
        · rename_i sys moved
          obtain rfl := Option.some.inj taken
          exact .nest frame api sys guard.1 guard.2 moved
      · contradiction
  | leave frame =>
      simp only [step, Bool.and_eq_true, List.contains_iff_mem] at taken
      split at taken
      · rename_i guard
        obtain rfl := Option.some.inj taken
        exact .leave frame guard.1 guard.2
      · contradiction

/-- The states of the runs from `start` whose steps all meet a condition. -/
abbrev ReachableWhile (meets : Threaded → ThreadAction → Threaded → Prop) (start : Sys)
    : Threaded → Prop :=
  Transition.Reachable step meets (ofSys start)

/-- The states of all runs from `start`. -/
abbrev Reachable (start : Sys) : Threaded → Prop :=
  ReachableWhile Transition.anyStep start

variable {meets : Threaded → ThreadAction → Threaded → Prop} {start : Sys}

/-- Threads with callbacks take steps of the job only. -/
theorem ReachableWhile.sys (reached : ReachableWhile meets start threaded)
    : Sys.Reachable start threaded.sys := by
  induction reached with
  | start => exact .start
  | next _ taken _ ih =>
      cases step_cases taken with
      | move action frame sys moves outside moved => exact ih.next moved trivial
      | invoke api sys moved => exact ih.next moved trivial
      | nest frame api sys within idle moved => exact ih.next moved trivial
      | leave frame within idle => exact ih

-----------------------------------------------------------------------------------------
-- A refused start does not drain
-----------------------------------------------------------------------------------------

/-- No thread waits in the drain loop of `Start` or `Resume` for a worker that runs on it.
-/
def NoSelfWait (threaded : Threaded) : Prop :=
  ∀ (index host : Nat) (worker : Worker),
    threaded.sys.calls[index]? = some .drain
    → threaded.host (.call index) = some host
    → threaded.sys.workers[host]? = some worker
    → worker.pc.scheduled = false

/-- A `Start` or `Resume` on the thread of a worker finds a state from which it is refused.
-/
def RefusesOwnStart (before : Threaded) (action : ThreadAction) (_ : Threaded) : Prop :=
  match action with
  | .act (.call index _) =>
      before.sys.calls[index]? = some .startSet
      → (before.host (.call index)).isSome
      → DownloadEngine.admits .queued before.sys.shared.engine.state = false
  | _ => True

instance (before : Threaded) (action : ThreadAction) (after : Threaded)
    : Decidable (RefusesOwnStart before action after) :=
  match action with
  | .act (.call ..) | .act (.worker ..) | .act (.invoke ..) | .nest .. | .leave .. => by
      unfold RefusesOwnStart
      infer_instance

/-- Every call has an entry in the books of the threads. -/
structure Aligned (threaded : Threaded) : Prop where
  callers : threaded.callers.length = threaded.sys.calls.length
  hosts : threaded.hosts.length = threaded.sys.calls.length

/-- No call on the thread of a worker has got past the first step of a start. -/
def KeepsOut (threaded : Threaded) : Prop :=
  ∀ (index : Nat) (call : Call),
    threaded.sys.calls[index]? = some call
    → (threaded.host (.call index)).isSome
    → call.starting = false

theorem aligned_ofSys (built : start.Built) : (ofSys start).Aligned where
  callers := by simp [ofSys, built.calls]
  hosts := by simp [ofSys, built.calls]

theorem Aligned.step (aligned : threaded.Aligned) {action : ThreadAction}
    (taken : threaded.Step action after)
    : after.Aligned := by
  have entered : ∀ {api : Api} {sys : Sys}, threaded.sys.step (.invoke api) = some sys →
      sys.calls.length = threaded.sys.calls.length + 1 := by
    intro api sys moved
    cases Sys.step_cases moved
    simp
  cases taken with
  | move action frame sys moves outside moved =>
      have same : sys.calls.length = threaded.sys.calls.length := by
        cases Sys.step_cases moved with
        | worker => rfl
        | call => exact List.length_set
        | invoke => cases moves
      exact ⟨aligned.callers.trans same.symm, aligned.hosts.trans same.symm⟩
  | invoke api sys moved =>
      constructor <;> simp [entered moved, aligned.callers, aligned.hosts]
  | nest frame api sys within idle moved =>
      constructor <;> simp [entered moved, aligned.callers, aligned.hosts]
  | leave frame within idle => exact ⟨aligned.callers, aligned.hosts⟩

theorem ReachableWhile.aligned (built : start.Built)
    (reached : ReachableWhile meets start threaded)
    : threaded.Aligned :=
  reached.invariant (aligned_ofSys built)
    (fun _ _ _ _ aligned taken _ => aligned.step (step_cases taken))

/-- A new call leaves the hosts of the calls before it. -/
theorem Aligned.host_snoc (aligned : threaded.Aligned) {index : Nat} {call : Call}
    (found : threaded.sys.calls[index]? = some call) (new : Option Nat)
    : (threaded.hosts ++ [new])[index]? = threaded.hosts[index]? := by
  have bound := (List.getElem?_eq_some_iff.mp found).1
  exact List.getElem?_append_left (by rw [aligned.hosts]; exact bound)

theorem KeepsOut.step (out : threaded.KeepsOut) (aligned : threaded.Aligned)
    {action : ThreadAction} (taken : threaded.Step action after)
    (refuses : RefusesOwnStart threaded action after)
    : after.KeepsOut := by
  -- a new call is outside, whichever thread it runs on
  have entered : ∀ {api : Api} {sys : Sys} (host : Option Nat),
      threaded.sys.step (.invoke api) = some sys →
      ∀ (index : Nat) (call : Call), sys.calls[index]? = some call →
        ((threaded.hosts ++ [host])[index]?.join).isSome → call.starting = false := by
    intro api sys host moved index call found hosted
    cases Sys.step_cases moved
    rcases getElem?_snoc_cases found with before | ⟨_, rfl⟩
    · rw [aligned.host_snoc before] at hosted
      exact out index call before hosted
    · cases api <;> rfl
  cases taken with
  | move action frame sys moves outside moved =>
      cases Sys.step_cases moved with
      | worker => exact out
      | call position call next label shared spawned found stepped =>
          intro index other atIndex hosted
          rcases getElem?_set_cases atIndex with ⟨rfl, rfl⟩ | ⟨_, before⟩
          · cases inside : other.starting with
            | false => rfl
            | true =>
                rcases stepped.entersStart inside with earlier | ⟨rfl, admitted⟩
                · simp [out index call found hosted] at earlier
                · simp [refuses found hosted] at admitted
          · exact out index other before hosted
      | invoke => cases moves
  | invoke api sys moved => exact entered none moved
  | nest frame api sys within idle moved => exact entered (threaded.host frame) moved
  | leave frame within idle => exact out

/-- Where every `Start` and `Resume` from a callback on the thread of a worker is refused,
no thread waits for itself. Witness: such a call never gets past its first step.
-/
theorem no_self_wait (built : start.Built)
    (reached : ReachableWhile RefusesOwnStart start threaded)
    : threaded.NoSelfWait := by
  have out : threaded.KeepsOut := by
    refine reached.invariant ?_ ?_
    · intro index call found
      simp [ofSys, built.calls] at found
    · intro before action after earlier out taken refuses
      exact out.step (ReachableWhile.aligned built earlier) (step_cases taken) refuses
  intro index host worker drains hosted _
  have starting := out index .drain drains (by rw [hosted]; rfl)
  cases starting

/-- The steps of a job with an engine that starts, up to the callback in which its first
worker reports that it is downloading.
-/
def opening : List ThreadAction :=
  (.invoke .handlerResume :: Action.callRuns 0 1
      ++ .invoke .attachEngine :: Action.callRuns 1 7).map .act
    ++ .leave (.call 1) :: (Action.callRuns 1 12 ++ Action.workerRuns 0 3).map .act

/-- A `Resume` from the callback that reports the downloading state is refused. -/
theorem no_self_wait_refused
    : ∃ threaded : Threaded,
        threaded.NoSelfWait
        ∧ threaded.host (.call 2) = some 0
        ∧ threaded.sys.calls[2]? = some (.returned false) := by
  obtain ⟨threaded, reached, holds⟩ :=
    @Transition.exists_of_runWhile _ _ step RefusesOwnStart (ofSys Sys.twoChunks) _
      (opening ++ .nest (.worker 0) .handlerResume :: (Action.callRuns 2 2).map .act)
      (fun threaded : Threaded =>
        decide (threaded.host (.call 2) = some 0)
          && decide (threaded.sys.calls[2]? = some (Call.returned false)))
      (by decide +kernel)
  simp only [Bool.and_eq_true, decide_eq_true_iff] at holds
  exact ⟨threaded, no_self_wait Sys.twoChunks_built reached, holds.1, holds.2⟩

/-- A client that retries from `on_error` waits for the worker that has just failed, which
is itself.
-/
theorem retry_waits_for_itself
    : ¬ ∀ (start : Sys) (threaded : Threaded),
        start.Built → Reachable start threaded → threaded.NoSelfWait := by
  intro never
  obtain ⟨threaded, reached, holds⟩ :=
    @Transition.exists_of_runWhile _ _ step Transition.anyStep (ofSys Sys.twoChunks) _
      (opening
        ++ .leave (.worker 0)
          :: (.worker 0 (.setupFails (networkError "refused")) :: Action.workerRuns 0 2).map .act
        ++ .leave (.worker 0)
          :: (Action.workerRuns 0 4 ++ .worker 0 (.stored .written) :: Action.workerRuns 0 2).map
            .act
        ++ .nest (.worker 0) .handlerResume :: (Action.callRuns 2 3).map .act)
      (fun threaded : Threaded =>
        decide (threaded.sys.calls[2]? = some Call.drain)
          && decide (threaded.host (.call 2) = some 0)
          && decide (threaded.sys.workers[0]?.map Worker.pc = some WorkerPc.closeScheduled))
      (by decide +kernel)
  simp only [Bool.and_eq_true, decide_eq_true_iff, Option.map_eq_some_iff] at holds
  obtain ⟨⟨drains, hosted⟩, worker, found, at_pc⟩ := holds
  have left := never _ _ Sys.twoChunks_built reached 2 0 worker drains hosted found
  rw [at_pc] at left
  cases left

-----------------------------------------------------------------------------------------
-- A thread that waits for itself waits for ever
-----------------------------------------------------------------------------------------

/-- How the calls that callbacks make hang together. -/
structure Nested (threaded : Threaded) : Prop where
  caller
    : ∀ (index : Nat) (frame : Frame),
        threaded.callers[index]? = some (some frame)
        → threaded.host (.call index) = threaded.host frame
          ∧ ∀ position, frame = .call position → position < index
  root : ∀ index, threaded.callers[index]? = some none → threaded.host (.call index) = none
  /-- A callback runs as long as a call that it made. -/
  waits
    : ∀ (index : Nat) (frame : Frame),
        threaded.callers[index]? = some (some frame)
        → threaded.finished index = false
        → frame ∈ threaded.inside
  within
    : ∀ index,
        .worker index ∈ threaded.inside
        → ∃ worker, threaded.sys.workers[index]? = some worker ∧ worker.pc.scheduled = true

  called : ∀ index, .call index ∈ threaded.inside → index < threaded.sys.calls.length

theorem nested_ofSys (start : Sys) : (ofSys start).Nested := by
  constructor <;> simp [ofSys]

/-- A method outside its callback that has not returned is not finished. -/
theorem not_finished_of_inside {index : Nat} (inside : .call index ∈ threaded.inside)
    : threaded.finished index = false := by
  simp [finished, inside]

theorem not_finished_of_running {index : Nat} {call : Call}
    (found : threaded.sys.calls[index]? = some call)
    (running : ∀ result, call ≠ .returned result)
    : threaded.finished index = false := by
  simp [finished, found, running]

/-- A call that takes a step is not finished. -/
theorem not_finished_of_moves {action : Action} {index : Nat} {sys : Sys}
    (moves : action.frame = some (.call index)) (taken : threaded.sys.step action = some sys)
    : threaded.finished index = false := by
  cases Sys.step_cases taken with
  | worker => cases moves
  | invoke => cases moves
  | call position call next label shared spawned found stepped =>
      obtain rfl : position = index := by simpa [Action.frame] using moves
      exact not_finished_of_running found stepped.running

/-- What decides whether a call is finished. -/
theorem finished_congr {index : Nat}
    (calls : after.sys.calls[index]? = threaded.sys.calls[index]?)
    (inside : .call index ∈ after.inside ↔ .call index ∈ threaded.inside)
    : after.finished index = threaded.finished index := by
  simp [finished, calls, inside]

theorem finished_of_idle {frame : Frame} (idle : threaded.idle frame = true) {index : Nat}
    (called : threaded.callers[index]? = some (some frame))
    : threaded.finished index = true := by
  have bound := (List.getElem?_eq_some_iff.mp called).1
  have each := List.all_eq_true.mp idle index (List.mem_range.mpr bound)
  simpa [called] using each

/-- A callback begins in the method that takes the step. -/
theorem frame_of_entersCallback {sys : Sys} {action : Action} {frame : Frame}
    (enters : sys.entersCallback action = some frame)
    : action.frame = some frame := by
  cases action with
  | invoke api => cases enters
  | worker index label =>
      simp only [Sys.entersCallback] at enters
      split at enters
      · split at enters
        · exact enters
        · cases enters
      · cases enters
  | call index label =>
      simp only [Sys.entersCallback] at enters
      split at enters
      · split at enters
        · exact enters
        · cases enters
      · cases enters

/-- A method is inside a callback after a step if it was before or took the step. -/
theorem inside_of_move {action : Action} {frame other : Frame}
    (moves : action.frame = some frame) (different : other ≠ frame)
    : other ∈ (threaded.sys.entersCallback action).toList ++ threaded.inside
      ↔ other ∈ threaded.inside := by
  rw [List.mem_append, Option.mem_toList, or_iff_right]
  intro enters
  rw [frame_of_entersCallback (Option.mem_def.mp enters)] at moves
  exact different (Option.some.inj moves)

/-- A step of a method keeps the books, since a method that moves is in no callback. -/
theorem Nested.move (nested : threaded.Nested) {action : Action} {frame : Frame} {sys : Sys}
    (moves : action.frame = some frame) (outside : frame ∉ threaded.inside)
    (taken : threaded.sys.step action = some sys)
    : Nested { threaded with
        sys
        inside := (threaded.sys.entersCallback action).toList ++ threaded.inside } where
  caller := nested.caller
  root := nested.root
  waits := by
    intro index caller called unfinished
    refine List.mem_append_right _ (nested.waits index caller called ?_)
    by_cases own : frame = .call index
    · subst own
      exact not_finished_of_moves moves taken
    · rw [← unfinished]
      refine (finished_congr ?_ (inside_of_move moves (Ne.symm own))).symm
      cases Sys.step_cases taken with
      | worker => rfl
      | invoke => cases moves
      | call position call next label shared spawned found stepped =>
          refine List.getElem?_set_ne ?_
          rintro rfl
          exact own (Option.some.inj moves.symm)
  within := by
    intro index inside
    by_cases own : frame = .worker index
    · subst own
      cases Sys.step_cases taken with
      | call => cases moves
      | invoke => cases moves
      | worker position worker next label shared found stepped =>
          obtain rfl : position = index := by simpa [Action.frame] using moves
          refine ⟨next, ?_, stepped.scheduled_of_invokesCallback ?_⟩
          · exact List.getElem?_set_self (List.getElem?_eq_some_iff.mp found).1
          · rcases List.mem_append.mp inside with enters | before
            · by_contra silent
              simp [Sys.entersCallback, found, silent] at enters
            · exact absurd before outside
    · obtain ⟨worker, found, scheduled⟩ :=
        nested.within index ((inside_of_move moves (Ne.symm own)).mp inside)
      refine ⟨worker, ?_, scheduled⟩
      cases Sys.step_cases taken with
      | invoke => cases moves
      | call position call next label shared spawned =>
          exact (List.getElem?_append_left (List.getElem?_eq_some_iff.mp found).1).trans found
      | worker position other next label shared =>
          refine (List.getElem?_set_ne ?_).trans found
          rintro rfl
          exact own (Option.some.inj moves.symm)
  called := by
    intro index inside
    have same : sys.calls.length = threaded.sys.calls.length := by
      cases Sys.step_cases taken with
      | worker => rfl
      | call => exact List.length_set
      | invoke => cases moves
    by_cases own : frame = .call index
    · subst own
      cases Sys.step_cases taken with
      | worker => cases moves
      | invoke => cases moves
      | call position call next label shared spawned found stepped =>
          obtain rfl : position = index := by simpa [Action.frame] using moves
          exact same ▸ (List.getElem?_eq_some_iff.mp found).1
    · exact same ▸ nested.called index ((inside_of_move moves (Ne.symm own)).mp inside)

/-- A new call keeps the books, on a thread of its own or inside a running callback. -/
theorem Nested.enter (nested : threaded.Nested) (aligned : threaded.Aligned) {api : Api}
    {sys : Sys} (caller : Option Frame) (taken : threaded.sys.step (.invoke api) = some sys)
    (within : ∀ frame ∈ caller, frame ∈ threaded.inside)
    : Nested { threaded with
        sys
        callers := threaded.callers ++ [caller]
        hosts := threaded.hosts ++ [caller.bind threaded.host] } := by
  obtain rfl : sys = { threaded.sys with
      calls := threaded.sys.calls ++ [api.entry]
      dispatched := threaded.sys.dispatched || api.dispatches } := by
    cases Sys.step_cases taken
    rfl
  have old : ∀ index, index < threaded.sys.calls.length →
      (threaded.hosts ++ [caller.bind threaded.host])[index]? = threaded.hosts[index]? :=
    fun index bound => List.getElem?_append_left (by rw [aligned.hosts]; exact bound)
  have new : (threaded.hosts ++ [caller.bind threaded.host])[threaded.callers.length]?
      = some (caller.bind threaded.host) := by
    rw [aligned.callers, ← aligned.hosts, List.getElem?_concat_length]
  have bound : ∀ {index : Nat} {entry : Option Frame},
      threaded.callers[index]? = some entry → index < threaded.sys.calls.length :=
    fun found => aligned.callers ▸ (List.getElem?_eq_some_iff.mp found).1
  constructor
  case caller =>
    intro index frame called
    rcases getElem?_snoc_cases called with before | ⟨rfl, rfl⟩
    · obtain ⟨same, earlier⟩ := nested.caller index frame before
      refine ⟨?_, earlier⟩
      cases frame with
      | worker => simpa [host, old index (bound before)] using same
      | call position =>
          have inner : position < threaded.sys.calls.length :=
            Nat.lt_trans (earlier position rfl) (bound before)
          simpa [host, old index (bound before), old position inner] using same
    · have inside := within frame rfl
      refine ⟨?_, ?_⟩
      · cases frame with
        | worker => exact congrArg Option.join new
        | call position =>
            refine (congrArg Option.join new).trans ?_
            exact (congrArg Option.join (old position (nested.called position inside))).symm
      · rintro position rfl
        exact aligned.callers ▸ nested.called position inside
  case root =>
    intro index called
    rcases getElem?_snoc_cases called with before | ⟨rfl, rfl⟩
    · have same := nested.root index before
      simpa [host, old index (bound before)] using same
    · exact congrArg Option.join new
  case waits =>
    intro index frame called unfinished
    rcases getElem?_snoc_cases called with before | ⟨rfl, rfl⟩
    · refine nested.waits index frame before ?_
      rw [← unfinished]
      have same : (threaded.sys.calls ++ [api.entry])[index]? = threaded.sys.calls[index]? :=
        List.getElem?_append_left (bound before)
      simp only [finished, same]
    · exact within frame rfl
  case within => exact nested.within
  case called =>
    intro index inside
    have before := nested.called index inside
    simp only [List.length_append, List.length_singleton]
    omega

/-- The end of a callback keeps the books, since the calls that it made are finished. -/
theorem Nested.leave (nested : threaded.Nested) {frame : Frame}
    (idle : threaded.idle frame = true)
    : Nested { threaded with inside := threaded.inside.erase frame } where
  caller := nested.caller
  root := nested.root
  waits := by
    intro index caller called unfinished
    have before : threaded.finished index = false := by
      by_contra finished
      have inside : .call index ∉ threaded.inside := by
        intro inside
        exact finished (not_finished_of_inside inside)
      have still : .call index ∉ threaded.inside.erase frame :=
        fun member => inside (List.mem_of_mem_erase member)
      rw [← unfinished] at finished
      exact finished (finished_congr rfl (iff_of_false inside still))
    refine (List.mem_erase_of_ne ?_).mpr (nested.waits index caller called before)
    rintro rfl
    rw [finished_of_idle idle called] at before
    contradiction
  within := fun index inside => nested.within index (List.mem_of_mem_erase inside)
  called := fun index inside => nested.called index (List.mem_of_mem_erase inside)

/-- Every step keeps the books. -/
theorem Nested.step (nested : threaded.Nested) (aligned : threaded.Aligned)
    {action : ThreadAction} (taken : threaded.Step action after)
    : after.Nested := by
  cases taken with
  | move action frame sys moves outside moved => exact nested.move moves outside moved
  | invoke api sys moved => exact nested.enter aligned none moved (by simp)
  | nest frame api sys within idle moved =>
      refine nested.enter aligned (some frame) moved ?_
      intro other member
      obtain rfl : frame = other := Option.some.inj member
      exact within
  | leave frame within idle => exact nested.leave idle

theorem ReachableWhile.nested (built : start.Built)
    (reached : ReachableWhile meets start threaded)
    : threaded.Nested :=
  reached.invariant (nested_ofSys start)
    (fun _ _ _ earlier nested taken _ =>
      nested.step (ReachableWhile.aligned built earlier) (step_cases taken))

/-- A call on the thread of a worker runs inside a callback of the worker, by induction on
the callbacks around it.
-/
theorem Nested.host_inside (nested : threaded.Nested) (aligned : threaded.Aligned)
    {index worker : Nat} (hosted : threaded.host (.call index) = some worker)
    (running : threaded.finished index = false)
    : .worker worker ∈ threaded.inside := by
  induction index using Nat.strong_induction_on with
  | _ index ih =>
      have bound : index < threaded.callers.length := by
        rw [aligned.callers, ← aligned.hosts]
        by_contra beyond
        simp [host, List.getElem?_eq_none (Nat.le_of_not_lt beyond)] at hosted
      cases called : threaded.callers[index] with
      | none =>
          have alone := nested.root index (by rw [List.getElem?_eq_getElem bound, called])
          simp [alone] at hosted
      | some frame =>
          have caller : threaded.callers[index]? = some (some frame) := by
            rw [List.getElem?_eq_getElem bound, called]
          obtain ⟨same, earlier⟩ := nested.caller index frame caller
          have inside := nested.waits index frame caller running
          cases frame with
          | worker position =>
              obtain rfl : position = worker := by
                rw [hosted] at same
                exact (Option.some.inj same).symm
              exact inside
          | call position =>
              exact ih position (earlier position rfl) (same ▸ hosted)
                (not_finished_of_inside inside)

/-- A thread that waits for itself waits for ever. Witness: the drain finds its own worker,
and the worker is inside the callback that drains.
-/
theorem self_wait_stays (built : start.Built) (reached : Reachable start threaded)
    (stuck : ¬ threaded.NoSelfWait) {action : ThreadAction}
    (taken : threaded.step action = some after)
    : ¬ after.NoSelfWait := by
  simp only [NoSelfWait, not_forall] at stuck
  obtain ⟨index, host, worker, drains, hosted, found, unscheduled⟩ := stuck
  have scheduled : worker.pc.scheduled = true := eq_true_of_ne_false unscheduled
  have counted := Sys.ReachableWhile.counted built (ReachableWhile.sys reached)
  have positive := counted.scheduled_pos (List.mem_of_getElem? found) scheduled
  have aligned := ReachableWhile.aligned built reached
  have inside := (ReachableWhile.nested built reached).host_inside aligned hosted
    (not_finished_of_running drains (by simp))
  have stays : after.sys.calls[index]? = some .drain
      ∧ after.host (.call index) = some host
      ∧ after.sys.workers[host]? = some worker := by
    have entered : ∀ {api : Api} {sys : Sys} (new : Option Nat),
        threaded.sys.step (.invoke api) = some sys →
        sys.calls[index]? = some .drain
          ∧ (threaded.hosts ++ [new])[index]?.join = some host
          ∧ sys.workers[host]? = some worker := by
      intro api sys new moved
      cases Sys.step_cases moved
      refine ⟨?_, ?_, found⟩
      · exact (List.getElem?_append_left (List.getElem?_eq_some_iff.mp drains).1).trans drains
      · rw [aligned.host_snoc drains]
        exact hosted
    cases step_cases taken with
    | invoke api sys moved => exact entered none moved
    | nest frame api sys within idle moved => exact entered (threaded.host frame) moved
    | leave frame within idle => exact ⟨drains, hosted, found⟩
    | move action frame sys moves outside moved =>
        cases Sys.step_cases moved with
        | invoke => cases moves
        | worker position other next label shared present stepped =>
            refine ⟨drains, hosted, (List.getElem?_set_ne ?_).trans found⟩
            rintro rfl
            exact outside (Option.some.inj moves ▸ inside)
        | call position call next label shared spawned present stepped =>
            refine ⟨(List.getElem?_set_ne ?_).trans drains, hosted, ?_⟩
            · rintro rfl
              obtain rfl : call = .drain := Option.some.inj (present.symm.trans drains)
              cases stepped
              case drained idle => omega
              all_goals simp_all
            · exact (List.getElem?_append_left (List.getElem?_eq_some_iff.mp found).1).trans
                found
  intro free
  have left := free index host worker stays.1 stays.2.1 stays.2.2
  rw [scheduled] at left
  cases left

end Threaded

end Muld
