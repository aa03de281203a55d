import Muld.Mirroring
import Muld.Reentrancy

/-! The threads in `WaitUntilFinished` of a handler. A waiter blocks on the condition variable
of the handler until there is an engine or a terminal state, and then on the one of the
engine. A method that changes what a waiter waits for notifies afterwards, in a step of its
own, and does not go on before that.
-/

namespace Muld

open Threads

-----------------------------------------------------------------------------------------
-- Waiters
-----------------------------------------------------------------------------------------

/-- The condition variables that `WaitUntilFinished` waits on. -/
inductive WaitCv
  /-- `wait_cv` of the state behind the handler. -/
  | handler
  /-- `wait_cv_` of the engine, with `wait_mtx_`. -/
  | engine
deriving DecidableEq, Repr

/-- Program points of `WaitUntilFinished` of the handler, and of the engine inside it. -/
inductive Waiter
  | handlerCheck
  | handlerSleep
  -- DownloadEngine::WaitUntilFinished
  | engineLock
  -- IsFinished, under wait_mtx_
  | engineCount
  | engineState (states : List DownloadState)
  | engineSleep
  | returned
deriving DecidableEq, Repr

/-- `IsTerminalState`. -/
def isTerminalState (state : DownloadState) : Bool :=
  state == .completed || state == .failed || state == .canceled || state == .paused

/-- `IsFinished` of the engine reads the state for the terminal ones. -/
theorem mem_finishedStates (state : DownloadState)
    : state ∈ finishedStates ↔ isTerminalState state = true := by
  cases state <;> decide

/-- A handler that shows a terminal state has an engine in one. -/
def ShowsFinished (shown actual : DownloadState) : Prop :=
  isTerminalState shown = true → isTerminalState actual = true

instance : DecidableRel ShowsFinished := fun shown actual =>
  inferInstanceAs (Decidable (isTerminalState shown = true → isTerminalState actual = true))

namespace Waiter

/-- The thread sleeps until it is notified. -/
def blocked : Waiter → Bool
  | .handlerSleep | .engineSleep => true
  | _ => false

/-- The thread holds `wait_mtx_`. -/
def locks : Waiter → Bool
  | .engineCount | .engineState _ => true
  | _ => false

/-- The thread waits for the engine. -/
def atEngine : Waiter → Bool
  | .engineLock | .engineCount | .engineState _ | .engineSleep => true
  | _ => false

/-- The thread does not see any more that the engine is in a terminal state. -/
def misses (state : DownloadState) : Waiter → Bool
  | .engineState states => isTerminalState state && !states.contains state
  | .engineSleep => isTerminalState state
  | _ => false

/-- The thread after a notification of a condition variable. -/
def notified : WaitCv → Waiter → Waiter
  | .handler, .handlerSleep => .handlerCheck
  | .engine, .engineSleep => .engineLock
  | _, waiter => waiter

/-- One atomic step of a waiter; `unlocked` says that nobody holds `wait_mtx_`. -/
def step (shared : Shared) (unlocked : Bool) : Waiter → Option Waiter
  | .handlerCheck =>
      some (if shared.handler.engine then .engineLock
        else if isTerminalState shared.handler.state then .returned
        else .handlerSleep)
  | .engineLock => if unlocked then some .engineCount else none
  | .engineCount =>
      some (if shared.engine.nDownloadedChunks = shared.engine.nChunks then .returned
        else .engineState finishedStates)
  | .engineState [] => some .engineSleep
  | .engineState (state :: states) =>
      some (if shared.engine.state = state then .returned else .engineState states)
  | .handlerSleep | .engineSleep | .returned => none

variable {shared : Shared} {unlocked : Bool} {waiter next : Waiter}

/-- A waiter goes to sleep on the handler while its state is not terminal. -/
theorem step_handlerSleep (taken : waiter.step shared unlocked = some next)
    (sleeps : next = .handlerSleep)
    : isTerminalState shared.handler.state = false := by
  subst sleeps
  cases waiter with
  | handlerCheck =>
      simp only [step, Option.some.injEq] at taken
      split at taken
      · contradiction
      · split at taken
        · contradiction
        · rename_i live
          exact eq_false_of_ne_true live
  | engineState states => cases states <;> simp [step] at taken; split at taken <;> contradiction
  | engineCount => simp only [step, Option.some.injEq] at taken; split at taken <;> contradiction
  | engineLock => simp [step] at taken
  | handlerSleep => simp [step] at taken
  | engineSleep => simp [step] at taken
  | returned => simp [step] at taken

/-- A waiter turns to the engine that the handler has. -/
theorem step_atEngine (taken : waiter.step shared unlocked = some next)
    (entered : next.atEngine = true)
    : waiter.atEngine = true ∨ shared.handler.engine = true := by
  cases waiter with
  | handlerCheck =>
      simp only [step, Option.some.injEq] at taken
      split at taken
      · exact Or.inr ‹_›
      · split at taken <;> (subst taken; cases entered)
  | engineState states => exact Or.inl rfl
  | engineCount => exact Or.inl rfl
  | engineLock => exact Or.inl rfl
  | handlerSleep => simp [step] at taken
  | engineSleep => simp [step] at taken
  | returned => simp [step] at taken

/-- A waiter reads the state it finds, so it misses only what it had missed. -/
theorem step_misses (taken : waiter.step shared unlocked = some next)
    (misses : next.misses shared.engine.state = true)
    : waiter.misses shared.engine.state = true := by
  cases waiter with
  | handlerCheck =>
      simp only [step, Option.some.injEq] at taken
      split at taken
      · subst taken
        cases misses
      · split at taken <;> (subst taken; cases misses)
  | engineLock =>
      simp only [step] at taken
      split at taken
      · obtain rfl := Option.some.inj taken
        cases misses
      · contradiction
  | engineCount =>
      simp only [step, Option.some.injEq] at taken
      split at taken
      · subst taken
        cases misses
      · subst taken
        simp only [Waiter.misses, Bool.and_eq_true, Bool.not_eq_true', List.contains_eq_mem,
          decide_eq_false_iff_not, mem_finishedStates] at misses
        exact absurd misses.1 misses.2
  | engineState states =>
      cases states with
      | nil =>
          simp only [step, Option.some.injEq] at taken
          subst taken
          simpa [Waiter.misses] using misses
      | cons state states =>
          simp only [step, Option.some.injEq] at taken
          split at taken
          · subst taken
            cases misses
          · rename_i other
            subst taken
            simpa [Waiter.misses, other] using misses
  | handlerSleep => simp [step] at taken
  | engineSleep => simp [step] at taken
  | returned => simp [step] at taken

end Waiter

-----------------------------------------------------------------------------------------
-- Notifications that a step brings with it
-----------------------------------------------------------------------------------------

/-- What a worker notifies after the step from a program point; the callbacks of the handler
notify when a state is terminal.
-/
def WorkerPc.wakes (callbacksAttached : Bool) : WorkerPc → List WaitCv
  | .failReport | .failErrorReport => if callbacksAttached then [.handler] else []
  | .finishReport => (if callbacksAttached then [.handler] else []) ++ [.engine]
  | .failError | .closeCleanup => [.engine]
  | _ => []

/-- A worker has changed the state and still has to notify the engine's waiters. -/
def WorkerPc.owesWake : WorkerPc → Bool
  | .failReport | .storeLock .fail | .storeScan .fail | .storeWrite .fail | .failError
  | .storeLock .complete | .storeScan .complete | .storeWrite .complete | .completeCleanup
  | .finishReport => true
  | _ => false

/-- What a call notifies after the step from a program point. -/
def Call.wakes (shared : Shared) : Call → List WaitCv
  | .pauseReport => (if shared.engine.callbacksAttached then [.handler] else []) ++ [.engine]
  | .cancelReport => if shared.engine.callbacksAttached then [.handler] else []
  | .cancelCheck => if shared.engine.nConnections = 0 then [] else [.engine]
  | .cancelCleanup => [.engine]
  | .failBeforeEngineStart _ => [.handler]
  | _ => []

/-- `Cancel` of a handler without an engine notifies inside its critical section. -/
def Call.wakesAtOnce (shared : Shared) : Call → Bool
  | .handlerCancel => !shared.handler.engine
  | _ => false

/-- A call has changed the state and still has to notify the engine's waiters. -/
def Call.owesWake : Call → Bool
  | .pauseReport | .cancelReport | .cancelCheck | .cancelCleanup => true
  | _ => false

/-- `Pause` records the state of a handler without an engine, and notifies nobody. -/
def Call.pausesSilently (shared : Shared) (call : Call) : Bool :=
  call == .handlerPause && !shared.handler.engine

theorem WorkerPc.owesReport_of_owesWake {pc : WorkerPc} (owes : pc.owesWake = true)
    : pc.owesReport.isSome := by
  cases pc
  case storeLock site => cases site <;> first | rfl | cases owes
  case storeScan site => cases site <;> first | rfl | cases owes
  case storeWrite site => cases site <;> first | rfl | cases owes
  all_goals first | rfl | cases owes

namespace Worker

variable {shared shared' : Shared} {worker next : Worker} {label : WorkerLabel}

/-- A worker makes the handler show a terminal state where it notifies its waiters. -/
theorem Step.rousesHandler (taken : Step shared worker label shared' next)
    : shared'.handler.state = shared.handler.state
      ∨ isTerminalState shared'.handler.state = false
      ∨ .handler ∈ worker.pc.wakes shared.engine.callbacksAttached := by
  cases taken
  case openReport =>
    cases attached : shared.engine.callbacksAttached
    · exact Or.inl (by simp [Shared.reportState, Shared.callback, attached])
    · refine Or.inr (Or.inl ?_)
      simp [Shared.reportState, Shared.callback, attached, isTerminalState]
  case failReport at_pc =>
    cases attached : shared.engine.callbacksAttached
    · exact Or.inl (by simp [Shared.reportState, Shared.callback, attached])
    · exact Or.inr (Or.inr (by simp [at_pc, WorkerPc.wakes]))
  case failErrorReport at_pc =>
    cases attached : shared.engine.callbacksAttached
    · exact Or.inl (by simp [Shared.reportError, Shared.callback, attached])
    · exact Or.inr (Or.inr (by simp [at_pc, WorkerPc.wakes]))
  case finishReport at_pc =>
    cases attached : shared.engine.callbacksAttached
    · exact Or.inl (by simp [Shared.reportFinish, Shared.callback, Shared.onHistory, attached])
    · exact Or.inr (Or.inr (by simp [at_pc, WorkerPc.wakes]))
  case eventReport => exact Or.inl (Shared.callback_keeps SharedState.state fun _ => rfl)
  case eventReportOnly => exact Or.inl (Shared.callback_keeps SharedState.state fun _ => rfl)
  case progressReport => exact Or.inl (Shared.callback_keeps SharedState.state fun _ => rfl)
  all_goals exact Or.inl (by first | rfl | simp)

/-- A worker that enters a terminal state owes a notification to the engine's waiters. -/
theorem Step.entersTerminal (taken : Step shared worker label shared' next)
    : shared'.engine.state = shared.engine.state
      ∨ isTerminalState shared'.engine.state = false
      ∨ next.pc.owesWake = true := by
  rcases taken.state with same | ⟨_, _, _, state⟩ | ⟨_, pc, _⟩ | ⟨_, pc, _⟩
  · exact Or.inl same
  · exact Or.inr (Or.inl (by rw [state]; rfl))
  · exact Or.inr (Or.inr (by rw [pc]; rfl))
  · exact Or.inr (Or.inr (by rw [pc]; rfl))

/-- A worker owes a notification until it has come to it. -/
theorem Step.owesWake (taken : Step shared worker label shared' next)
    (owes : worker.pc.owesWake = true)
    : next.pc.owesWake = true
      ∨ .engine ∈ worker.pc.wakes shared.engine.callbacksAttached := by
  cases taken
  case finishReport at_pc => exact Or.inr (by simp [at_pc, WorkerPc.wakes])
  case failError at_pc => exact Or.inr (by simp [at_pc, WorkerPc.wakes])
  case lock site at_pc _ => cases site <;> simp_all [WorkerPc.owesWake]
  case scan => exact Or.inl owes
  case scanned site at_pc _ => cases site <;> simp_all [WorkerPc.owesWake]
  case store site _ at_pc _ => cases site <;> simp_all [WorkerPc.owesWake, afterStore]
  case nullWriter => exact Or.inl owes
  case failReport => exact Or.inl rfl
  case cleanup => exact Or.inl rfl
  case throw at_pc _ _ =>
    cases pc : worker.pc <;> simp_all [WorkerPc.throws, WorkerPc.owesWake]
  case release at_pc _ =>
    rcases at_pc with at_pc | at_pc <;> simp [at_pc, WorkerPc.owesWake] at owes
  case streamStop at_pc _ =>
    rcases at_pc with at_pc | at_pc <;> simp [at_pc, WorkerPc.owesWake] at owes
  case allow at_pc _ _ =>
    rcases at_pc with at_pc | at_pc <;> simp [at_pc, WorkerPc.owesWake] at owes
  all_goals simp [‹worker.pc = _›, WorkerPc.owesWake] at owes

end Worker

namespace Call

variable {index : Nat} {shared shared' : Shared} {call next : Call} {label : CallLabel}
  {spawned : List Worker}

/-- A call makes the handler show a terminal state where it notifies its waiters, or by a
`Pause` without an engine.
-/
theorem Step.rousesHandler (taken : Step index shared call label shared' next spawned)
    : shared'.handler.state = shared.handler.state
      ∨ isTerminalState shared'.handler.state = false
      ∨ .handler ∈ call.wakes shared
      ∨ call.wakesAtOnce shared = true
      ∨ call.pausesSilently shared = true := by
  cases taken
  case startReport =>
    cases attached : shared.engine.callbacksAttached
    · exact Or.inl (by simp [Shared.reportState, Shared.callback, attached])
    · refine Or.inr (Or.inl ?_)
      simp [Shared.reportState, Shared.callback, attached, isTerminalState]
  case pauseReport =>
    cases attached : shared.engine.callbacksAttached
    · exact Or.inl (by simp [Shared.reportState, Shared.callback, attached])
    · exact Or.inr (Or.inr (Or.inl (by simp [wakes, attached])))
  case cancelReport =>
    cases attached : shared.engine.callbacksAttached
    · exact Or.inl (by simp [Shared.reportState, Shared.callback, attached])
    · exact Or.inr (Or.inr (Or.inl (by simp [wakes, attached])))
  case failBeforeEngineStart => exact Or.inr (Or.inr (Or.inl (by simp [wakes])))
  case wish wanted detached at_pc =>
    rcases at_pc with ⟨rfl, rfl⟩ | ⟨rfl, rfl⟩ | ⟨rfl, rfl⟩
    · exact Or.inr (Or.inr (Or.inr (Or.inr (by simp [pausesSilently, detached]))))
    · exact Or.inr (Or.inl (by simp [isTerminalState, Call.wish, detached]))
    · exact Or.inr (Or.inr (Or.inr (Or.inl (by simp [wakesAtOnce, detached]))))
  case cancelCleanup => exact Or.inl (by simp)
  all_goals exact Or.inl rfl

/-- A call that enters a terminal state owes a notification to the engine's waiters. -/
theorem Step.entersTerminal (taken : Step index shared call label shared' next spawned)
    : shared'.engine.state = shared.engine.state
      ∨ isTerminalState shared'.engine.state = false
      ∨ next.owesWake = true := by
  rcases taken.accepts with ⟨same, _⟩ | ⟨_, _, _, rfl⟩ | ⟨_, rfl, _⟩ | ⟨_, rfl, _⟩
  · exact Or.inl same
  · exact Or.inr (Or.inl rfl)
  · exact Or.inr (Or.inr rfl)
  · exact Or.inr (Or.inr rfl)

/-- A call owes a notification until it has come to it. -/
theorem Step.owesWake (taken : Step index shared call label shared' next spawned)
    (owes : call.owesWake = true)
    : next.owesWake = true ∨ .engine ∈ call.wakes shared := by
  cases taken
  case pauseReport => exact Or.inr (by simp [wakes])
  case cancelReport => exact Or.inl rfl
  case cancelIdle => exact Or.inl rfl
  case cancelBusy busy => exact Or.inr (by simp [wakes, busy])
  case cancelCleanup => exact Or.inr (by simp [wakes])
  all_goals first | cases owes | grind [Call.owesWake]

/-- The handler keeps its engine. -/
theorem Step.keepsEngine (taken : Step index shared call label shared' next spawned)
    (engine : shared.handler.engine = true)
    : shared'.handler.engine = true := by
  rcases taken.dispatches with ⟨_, same⟩ | ⟨_, _, _, _, rfl⟩
  · exact same ▸ engine
  · rfl

end Call

/-- The notifications that an action brings with it. -/
def Sys.wakes (sys : Sys) : Action → List (Frame × WaitCv)
  | .worker index _ =>
      match sys.workers[index]? with
      | some worker =>
          (worker.pc.wakes sys.shared.engine.callbacksAttached).map (Frame.worker index, ·)
      | none => []
  | .call index _ =>
      match sys.calls[index]? with
      | some call => (call.wakes sys.shared).map (Frame.call index, ·)
      | none => []
  | .invoke _ => []

/-- The action notifies the handler's waiters without leaving its critical section. -/
def Sys.wakesAtOnce (sys : Sys) : Action → Bool
  | .call index _ => (sys.calls[index]?).any (Call.wakesAtOnce sys.shared)
  | _ => false

/-- A thread has changed the state and still has to notify the engine's waiters. -/
def Sys.OwesWake (sys : Sys) : Prop :=
  (∃ worker ∈ sys.workers, worker.pc.owesWake = true)
  ∨ ∃ call ∈ sys.calls, call.owesWake = true

-----------------------------------------------------------------------------------------
-- A job and the threads that wait for it
-----------------------------------------------------------------------------------------

structure Waiting where
  sys : Sys
  waiters : List Waiter
  /-- The notifications that methods make before they go on. -/
  due : List (Frame × WaitCv)

inductive WaitAction
  /-- A method takes a step or is called. -/
  | act (action : Action)
  /-- A method makes its next notification. -/
  | notify (frame : Frame) (cv : WaitCv)
  /-- A thread calls `WaitUntilFinished`. -/
  | enter
  | wait (index : Nat)
  /-- A waiter wakes up without a notification. -/
  | wake (index : Nat) (cv : WaitCv)
deriving DecidableEq, Repr

namespace Waiting

def ofSys (sys : Sys) : Waiting := { sys, waiters := [], due := [] }

/-- Nobody holds `wait_mtx_`. -/
def unlocked (waiting : Waiting) : Bool := waiting.waiters.all fun waiter => !waiter.locks

def step (waiting : Waiting) : WaitAction → Option Waiting
  | .act action =>
      if (action.frame).any fun frame => waiting.due.any fun entry => entry.1 == frame then none
      else
        match waiting.sys.step action with
        | none => none
        | some sys =>
            some {
              sys
              waiters :=
                if waiting.sys.wakesAtOnce action then
                  waiting.waiters.map (Waiter.notified .handler)
                else waiting.waiters
              due := waiting.due ++ waiting.sys.wakes action
            }
  | .notify frame cv =>
      -- wait_cv_ is notified under wait_mtx_, the handler's without its mutex
      if waiting.due.find? (fun entry => entry.1 == frame) = some (frame, cv)
          ∧ (cv = .engine → waiting.unlocked = true) then
        some { waiting with
          waiters := waiting.waiters.map (Waiter.notified cv)
          due := waiting.due.erase (frame, cv) }
      else none
  | .enter => some { waiting with waiters := waiting.waiters ++ [.handlerCheck] }
  | .wait index =>
      match waiting.waiters[index]? with
      | none => none
      | some waiter =>
          match waiter.step waiting.sys.shared waiting.unlocked with
          | none => none
          | some next => some { waiting with waiters := waiting.waiters.set index next }
  | .wake index cv =>
      match waiting.waiters[index]? with
      | none => none
      | some waiter =>
          some { waiting with waiters := waiting.waiters.set index (waiter.notified cv) }

variable {waiting after : Waiting}

/-- What a step does, by the kind of its action. -/
inductive Step (waiting : Waiting) : WaitAction → Waiting → Prop
  | act (action : Action) (sys : Sys) (taken : waiting.sys.step action = some sys)
    : Step waiting (.act action) {
        sys
        waiters :=
          if waiting.sys.wakesAtOnce action then
            waiting.waiters.map (Waiter.notified .handler)
          else waiting.waiters
        due := waiting.due ++ waiting.sys.wakes action
      }
  | notify (frame : Frame) (cv : WaitCv) (first : (frame, cv) ∈ waiting.due)
      (free : cv = .engine → waiting.unlocked = true)
    : Step waiting (.notify frame cv)
        { waiting with
          waiters := waiting.waiters.map (Waiter.notified cv)
          due := waiting.due.erase (frame, cv) }
  | enter
    : Step waiting .enter { waiting with waiters := waiting.waiters ++ [.handlerCheck] }
  | wait (index : Nat) (waiter next : Waiter) (found : waiting.waiters[index]? = some waiter)
      (taken : waiter.step waiting.sys.shared waiting.unlocked = some next)
    : Step waiting (.wait index) { waiting with waiters := waiting.waiters.set index next }
  | wake (index : Nat) (cv : WaitCv) (waiter : Waiter)
      (found : waiting.waiters[index]? = some waiter)
    : Step waiting (.wake index cv)
        { waiting with waiters := waiting.waiters.set index (waiter.notified cv) }

/-- Every step is one of the listed ones, by cases on the action. -/
theorem step_cases {action : WaitAction} (taken : waiting.step action = some after)
    : waiting.Step action after := by
  cases action with
  | act action =>
      simp only [step] at taken
      split at taken
      · contradiction
      · split at taken
        · contradiction
        · rename_i sys moved
          obtain rfl := Option.some.inj taken
          exact .act action sys moved
  | notify frame cv =>
      simp only [step] at taken
      split at taken
      · rename_i guard
        obtain rfl := Option.some.inj taken
        exact .notify frame cv (List.mem_of_find?_eq_some guard.1) guard.2
      · contradiction
  | enter =>
      obtain rfl := Option.some.inj taken
      exact .enter
  | wait index =>
      simp only [step] at taken
      split at taken
      · contradiction
      · rename_i waiter found
        split at taken
        · contradiction
        · rename_i next moved
          obtain rfl := Option.some.inj taken
          exact .wait index waiter next found moved
  | wake index cv =>
      simp only [step] at taken
      split at taken
      · contradiction
      · rename_i waiter found
        obtain rfl := Option.some.inj taken
        exact .wake index cv waiter found

/-- The states of the runs from `start` whose steps all meet a condition. -/
abbrev ReachableWhile (meets : Waiting → WaitAction → Waiting → Prop) (start : Sys)
    : Waiting → Prop :=
  Transition.Reachable step meets (ofSys start)

/-- The states of all runs from `start`. -/
abbrev Reachable (start : Sys) : Waiting → Prop :=
  ReachableWhile Transition.anyStep start

-----------------------------------------------------------------------------------------
-- Every waiter that should go on is notified
-----------------------------------------------------------------------------------------

/-- The call of an action pauses a handler without an engine. -/
def PausesSilently (sys : Sys) : Action → Prop
  | .call index _ => (sys.calls[index]?).any (Call.pausesSilently sys.shared) = true
  | _ => False

instance (sys : Sys) (action : Action) : Decidable (PausesSilently sys action) := by
  unfold PausesSilently
  split <;> infer_instance

/-- Sleeping waiters will be notified of a terminal state. -/
structure Roused (waiting : Waiting) : Prop where
  handler
    : .handlerSleep ∈ waiting.waiters
      → isTerminalState waiting.sys.shared.handler.state = true
      → ∃ frame, (frame, WaitCv.handler) ∈ waiting.due
  engine
    : ∀ waiter ∈ waiting.waiters,
        waiter.misses waiting.sys.shared.engine.state = true
        → waiting.sys.OwesWake ∨ ∃ frame, (frame, WaitCv.engine) ∈ waiting.due
  attached
    : ∀ waiter ∈ waiting.waiters,
        waiter.atEngine = true → waiting.sys.shared.handler.engine = true

theorem roused_ofSys (start : Sys) : (ofSys start).Roused := by
  constructor <;> simp [ofSys]

/-- A notification leaves the handler's sleepers that it does not wake, and wakes the others.
-/
theorem handlerSleep_of_notified {cv : WaitCv}
    (member : .handlerSleep ∈ waiting.waiters.map (Waiter.notified cv))
    : cv ≠ .handler ∧ .handlerSleep ∈ waiting.waiters := by
  obtain ⟨waiter, present, notified⟩ := List.mem_map.mp member
  cases cv <;> cases waiter <;> simp_all [Waiter.notified]

theorem misses_of_notified {cv : WaitCv} {state : DownloadState} {waiter : Waiter}
    (misses : (waiter.notified cv).misses state = true)
    : waiter.notified cv = waiter := by
  cases cv <;> cases waiter <;> simp_all [Waiter.notified, Waiter.misses]

/-- Nobody misses anything after a notification of the engine's waiters, since it is made
under their mutex.
-/
theorem no_misses_after_notify (free : waiting.unlocked = true) {waiter : Waiter}
    (member : waiter ∈ waiting.waiters) (state : DownloadState)
    : (waiter.notified .engine).misses state = false := by
  have unlocked := List.all_eq_true.mp free waiter member
  cases waiter <;> simp_all [Waiter.notified, Waiter.misses, Waiter.locks]

/-- What an action of a method does to the promises that the waiters rely on. -/
structure Promises (before : Sys) (action : Action) (after : Sys) : Prop where
  handler
    : isTerminalState after.shared.handler.state = true
      → (isTerminalState before.shared.handler.state = true
          ∧ after.shared.handler.state = before.shared.handler.state)
        ∨ (∃ frame, (frame, WaitCv.handler) ∈ before.wakes action)
        ∨ before.wakesAtOnce action = true
        ∨ PausesSilently before action
  engine
    : isTerminalState after.shared.engine.state = true
      → after.shared.engine.state = before.shared.engine.state ∨ after.OwesWake
  owed
    : before.OwesWake
      → after.OwesWake ∨ ∃ frame, (frame, WaitCv.engine) ∈ before.wakes action
  attached : before.shared.handler.engine = true → after.shared.handler.engine = true

theorem promises_of_worker {sys : Sys} {index : Nat} {worker next : Worker}
    {label : WorkerLabel} {shared : Shared} (found : sys.workers[index]? = some worker)
    (taken : worker.Step sys.shared label shared next)
    : Promises sys (.worker index label)
        { sys with shared, workers := sys.workers.set index next } where
  handler := by
    intro terminal
    rcases taken.rousesHandler with same | live | wakes
    · exact Or.inl ⟨same ▸ terminal, same⟩
    · simp only [live] at terminal
      contradiction
    · exact Or.inr (Or.inl ⟨.worker index, by simpa [Sys.wakes, found] using wakes⟩)
  engine := by
    intro terminal
    rcases taken.entersTerminal with same | live | owes
    · exact Or.inl same
    · simp only [live] at terminal
      contradiction
    · exact Or.inr (Or.inl ⟨next, mem_set_self found, owes⟩)
  owed := by
    rintro (owing | calling)
    · rcases exists_set found owing taken.owesWake with still | wakes
      · exact Or.inl (Or.inl still)
      · exact Or.inr ⟨.worker index, by simpa [Sys.wakes, found] using wakes⟩
    · exact Or.inl (Or.inr calling)
  attached := by
    intro engine
    rw [taken.attached.1]
    exact engine

theorem promises_of_call {sys : Sys} {index : Nat} {call next : Call} {label : CallLabel}
    {shared : Shared} {spawned : List Worker} (found : sys.calls[index]? = some call)
    (taken : Call.Step index sys.shared call label shared next spawned)
    : Promises sys (.call index label)
        { sys with
          shared
          workers := sys.workers ++ spawned
          calls := sys.calls.set index next } where
  handler := by
    intro terminal
    rcases taken.rousesHandler with same | live | wakes | atOnce | silent
    · exact Or.inl ⟨same ▸ terminal, same⟩
    · simp only [live] at terminal
      contradiction
    · exact Or.inr (Or.inl ⟨.call index, by simpa [Sys.wakes, found] using wakes⟩)
    · exact Or.inr (Or.inr (Or.inl (by simp [Sys.wakesAtOnce, found, atOnce])))
    · exact Or.inr (Or.inr (Or.inr (by simp [PausesSilently, found, silent])))
  engine := by
    intro terminal
    rcases taken.entersTerminal with same | live | owes
    · exact Or.inl same
    · simp only [live] at terminal
      contradiction
    · exact Or.inr (Or.inr ⟨next, mem_set_self found, owes⟩)
  owed := by
    rintro (⟨worker, member, owes⟩ | calling)
    · exact Or.inl (Or.inl ⟨worker, List.mem_append_left _ member, owes⟩)
    · rcases exists_set found calling taken.owesWake with still | wakes
      · exact Or.inl (Or.inr still)
      · exact Or.inr ⟨.call index, by simpa [Sys.wakes, found] using wakes⟩
  attached := taken.keepsEngine

theorem promises_of_step {sys after : Sys} {action : Action}
    (taken : sys.step action = some after)
    : Promises sys action after := by
  cases Sys.step_cases taken with
  | worker index worker next label shared found moved => exact promises_of_worker found moved
  | call index call next label shared spawned found moved => exact promises_of_call found moved
  | invoke api allowed =>
      constructor
      case handler => exact fun terminal => Or.inl ⟨terminal, rfl⟩
      case engine => exact fun _ => Or.inl rfl
      case attached => exact id
      case owed =>
        rintro (owing | ⟨call, member, owes⟩)
        · exact Or.inl (Or.inl owing)
        · exact Or.inl (Or.inr ⟨call, List.mem_append_left _ member, owes⟩)

/-- An action of a method keeps the waiters roused, unless it pauses a handler without an
engine on which one of them sleeps.
-/
theorem Roused.act (roused : waiting.Roused) {action : Action} {sys : Sys}
    (taken : waiting.sys.step action = some sys)
    (heard : PausesSilently waiting.sys action → .handlerSleep ∉ waiting.waiters)
    : Roused {
        sys
        waiters :=
          if waiting.sys.wakesAtOnce action then
            waiting.waiters.map (Waiter.notified .handler)
          else waiting.waiters
        due := waiting.due ++ waiting.sys.wakes action
      } := by
  have promises := promises_of_step taken
  -- a waiter that the step has not woken is an old one
  have old : ∀ waiter ∈
      (if waiting.sys.wakesAtOnce action then waiting.waiters.map (Waiter.notified .handler)
        else waiting.waiters),
      waiter ∈ waiting.waiters
        ∨ (waiter.blocked = false ∧ waiter.locks = false ∧ waiter.atEngine = false) := by
    intro waiter member
    split at member
    · obtain ⟨before, present, rfl⟩ := List.mem_map.mp member
      cases before
      case handlerSleep => exact Or.inr ⟨rfl, rfl, rfl⟩
      all_goals exact Or.inl present
    · exact Or.inl member
  constructor
  case handler =>
    intro sleeps terminal
    have asleep : .handlerSleep ∈ waiting.waiters := by
      rcases old _ sleeps with present | ⟨awake, _⟩
      · exact present
      · cases awake
    rcases promises.handler terminal with ⟨before, _⟩ | ⟨frame, wakes⟩ | atOnce | silent
    · obtain ⟨frame, owed⟩ := roused.handler asleep before
      exact ⟨frame, List.mem_append_left _ owed⟩
    · exact ⟨frame, List.mem_append_right _ wakes⟩
    · simp only [atOnce, if_true] at sleeps
      exact absurd rfl (handlerSleep_of_notified sleeps).1
    · exact absurd asleep (heard silent)
  case engine =>
    intro waiter member misses
    have terminal : isTerminalState sys.shared.engine.state = true := by
      cases waiter <;> simp_all [Waiter.misses]
    rcases promises.engine terminal with same | owes
    · rw [same] at misses
      have present : waiter ∈ waiting.waiters := by
        rcases old _ member with present | ⟨awake, free, _⟩
        · exact present
        · cases waiter <;> simp_all [Waiter.misses, Waiter.blocked, Waiter.locks]
      rcases roused.engine waiter present misses with owed | ⟨frame, due⟩
      · refine (promises.owed owed).imp_right ?_
        rintro ⟨frame, wakes⟩
        exact ⟨frame, List.mem_append_right _ wakes⟩
      · exact Or.inr ⟨frame, List.mem_append_left _ due⟩
    · exact Or.inl owes
  case attached =>
    intro waiter member atEngine
    rcases old _ member with present | ⟨_, _, elsewhere⟩
    · exact promises.attached (roused.attached waiter present atEngine)
    · simp [elsewhere] at atEngine

theorem Roused.notify (roused : waiting.Roused) {frame : Frame} {cv : WaitCv}
    (free : cv = .engine → waiting.unlocked = true)
    : Roused { waiting with
        waiters := waiting.waiters.map (Waiter.notified cv)
        due := waiting.due.erase (frame, cv) } where
  handler := by
    intro sleeps terminal
    obtain ⟨other, asleep⟩ := handlerSleep_of_notified sleeps
    obtain ⟨owner, due⟩ := roused.handler asleep terminal
    refine ⟨owner, (List.mem_erase_of_ne ?_).mpr due⟩
    exact fun same => other (congrArg Prod.snd same).symm
  engine := by
    intro waiter member misses
    obtain ⟨before, present, rfl⟩ := List.mem_map.mp member
    cases cv with
    | engine =>
        rw [no_misses_after_notify (free rfl) present] at misses
        contradiction
    | handler =>
        rw [misses_of_notified misses] at misses
        refine (roused.engine before present misses).imp_right ?_
        rintro ⟨owner, due⟩
        exact ⟨owner, (List.mem_erase_of_ne (by simp)).mpr due⟩
  attached := by
    intro waiter member atEngine
    obtain ⟨before, present, rfl⟩ := List.mem_map.mp member
    refine roused.attached before present ?_
    cases cv <;> cases before <;> first | rfl | cases atEngine

/-- A step of one waiter keeps the waiters roused if it misses and enters nothing new. -/
theorem Roused.set (roused : waiting.Roused) {index : Nat} {next : Waiter}
    (handler
      : next = .handlerSleep
        → isTerminalState waiting.sys.shared.handler.state = true
        → .handlerSleep ∈ waiting.waiters)
    (engine
      : next.misses waiting.sys.shared.engine.state = true
        → ∃ waiter ∈ waiting.waiters,
            waiter.misses waiting.sys.shared.engine.state = true)
    (attached : next.atEngine = true → waiting.sys.shared.handler.engine = true)
    : Roused { waiting with waiters := waiting.waiters.set index next } where
  handler := by
    intro sleeps terminal
    rcases List.mem_or_eq_of_mem_set sleeps with old | same
    · exact roused.handler old terminal
    · exact roused.handler (handler same.symm terminal) terminal
  engine := by
    refine forall_set roused.engine ?_
    intro misses
    obtain ⟨waiter, member, before⟩ := engine misses
    exact roused.engine waiter member before
  attached := forall_set roused.attached attached

/-- What the steps of a run are asked for: reports of terminal states arrive in order, and no
handler without an engine is paused while a thread sleeps on it.
-/
def RousesWaiters (before : Waiting) (action : WaitAction) (_ : Waiting) : Prop :=
  match action with
  | .act action =>
      Sys.ShowsInOrder ShowsFinished before.sys action
      ∧ (PausesSilently before.sys action → .handlerSleep ∉ before.waiters)
  | _ => True

instance (before : Waiting) (action : WaitAction) (after : Waiting)
    : Decidable (RousesWaiters before action after) :=
  match action with
  | .act .. | .notify .. | .enter | .wait .. | .wake .. => by
      unfold RousesWaiters
      infer_instance

theorem Roused.step (roused : waiting.Roused) {action : WaitAction}
    (taken : waiting.Step action after) (met : RousesWaiters waiting action after)
    : after.Roused := by
  cases taken with
  | act action sys moved => exact roused.act moved met.2
  | notify frame cv first free => exact roused.notify free
  | enter =>
      constructor
      case handler =>
        intro sleeps
        rcases mem_snoc_cases sleeps with old | same
        · exact roused.handler old
        · cases same
      case engine =>
        intro waiter member misses
        rcases mem_snoc_cases member with old | rfl
        · exact roused.engine waiter old misses
        · cases misses
      case attached =>
        intro waiter member atEngine
        rcases mem_snoc_cases member with old | rfl
        · exact roused.attached waiter old atEngine
        · cases atEngine
  | wait index waiter next found moved =>
      have member := List.mem_of_getElem? found
      refine roused.set ?_ ?_ ?_
      · intro sleeps terminal
        rw [Waiter.step_handlerSleep moved sleeps] at terminal
        contradiction
      · exact fun misses => ⟨waiter, member, Waiter.step_misses moved misses⟩
      · intro atEngine
        exact (Waiter.step_atEngine moved atEngine).elim (roused.attached waiter member) id
  | wake index cv waiter found =>
      have member := List.mem_of_getElem? found
      refine roused.set ?_ ?_ ?_
      · intro sleeps _
        cases waiter <;> cases cv <;> simp_all [Waiter.notified]
      · intro misses
        rw [misses_of_notified misses] at misses
        exact ⟨waiter, member, misses⟩
      · intro atEngine
        refine roused.attached waiter member ?_
        cases cv <;> cases waiter <;> first | rfl | cases atEngine

-----------------------------------------------------------------------------------------
-- Waiting ends
-----------------------------------------------------------------------------------------

variable {start : Sys}

/-- Methods take steps of the job, with the reports in order. -/
theorem ReachableWhile.sys (reached : ReachableWhile RousesWaiters start waiting)
    : Sys.ReachableWhile
        (fun before action _ => Sys.ShowsInOrder ShowsFinished before action) start
        waiting.sys := by
  induction reached with
  | start => exact .start
  | next _ taken met ih =>
      cases step_cases taken with
      | act action sys moved => exact ih.next moved met.1
      | notify frame cv first free => exact ih
      | enter => exact ih
      | wait index waiter next found moved => exact ih
      | wake index cv waiter found => exact ih

/-- No call, no callback and no notification is in progress. -/
def Quiescent (waiting : Waiting) : Prop := waiting.sys.Settled ∧ waiting.due = []

/-- At rest, a handler that says that it is finished leaves nobody waiting. -/
def WaitEnds (waiting : Waiting) : Prop :=
  waiting.Quiescent
  → isTerminalState waiting.sys.shared.handler.state = true
  → ∀ waiter ∈ waiting.waiters, waiter.blocked = false

instance (waiting : Waiting) : Decidable waiting.Quiescent := by
  unfold Quiescent
  infer_instance

instance (waiting : Waiting) : Decidable waiting.WaitEnds := by
  unfold WaitEnds
  infer_instance

/-- Where reports of terminal states arrive in order and no handler without an engine is
paused under a sleeping waiter, waiting ends with the handler. Witness: a sleeping waiter
has a notification coming, and at rest nothing is.
-/
theorem wait_ends (built : start.Built)
    (reached : ReachableWhile RousesWaiters start waiting)
    : waiting.WaitEnds := by
  intro quiescent terminal waiter member
  have roused : waiting.Roused :=
    reached.invariant (roused_ofSys start)
      (fun _ _ _ _ roused taken met => roused.step (step_cases taken) met)
  obtain ⟨settled, none_due⟩ := quiescent
  cases waiter with
  | handlerSleep =>
      obtain ⟨frame, due⟩ := roused.handler member terminal
      simp [none_due] at due
  | engineSleep =>
      have engine := roused.attached .engineSleep member rfl
      have follows : waiting.sys.Follows ShowsFinished :=
        Sys.ReachableWhile.follows (fun _ => id) built (fun _ _ _ ordered => ordered)
          (ReachableWhile.sys reached)
      have finished := follows.at_rest settled engine terminal
      rcases roused.engine .engineSleep member finished with
        (⟨worker, present, owes⟩ | ⟨call, present, owes⟩) | ⟨frame, due⟩
      · have reports := WorkerPc.owesReport_of_owesWake owes
        simp [settled.2 worker present] at reports
      · rcases settled.1 call present with rfl | rfl <;> cases owes
      · simp [none_due] at due
  | handlerCheck => rfl
  | engineLock => rfl
  | engineCount => rfl
  | engineState states => rfl
  | returned => rfl

/-- A thread sleeps on the engine until the download is paused. -/
theorem wait_ends_paused
    : ∃ waiting : Waiting,
        waiting.WaitEnds
        ∧ waiting.Quiescent
        ∧ waiting.sys.shared.handler.state = .paused
        ∧ waiting.waiters = [.returned] := by
  obtain ⟨waiting, reached, holds⟩ :=
    @Transition.exists_of_runWhile _ _ step RousesWaiters (ofSys Sys.twoChunks) _
      ((.invoke .handlerResume :: Action.callRuns 0 1
          ++ .invoke .attachEngine :: Action.callRuns 1 19).map .act
        ++ .enter :: List.replicate 8 (.wait 0)
        ++ (.invoke .handlerPause :: Action.callRuns 2 3).map .act
        ++ [.notify (.call 2) .handler, .notify (.call 2) .engine]
        ++ List.replicate 4 (.wait 0))
      (fun waiting : Waiting =>
        decide waiting.Quiescent
          && decide (waiting.sys.shared.handler.state = DownloadState.paused)
          && decide (waiting.waiters = [Waiter.returned]))
      (by decide +kernel)
  simp only [Bool.and_eq_true, decide_eq_true_iff] at holds
  obtain ⟨⟨quiescent, paused⟩, returned⟩ := holds
  exact ⟨waiting, wait_ends Sys.twoChunks_built reached, quiescent, paused, returned⟩

/-- A `Pause` before the engine is attached finishes the handler and leaves the thread that
waits for it asleep.
-/
theorem paused_waiter_sleeps
    : ¬ ∀ (start : Sys) (waiting : Waiting),
        start.Built → Reachable start waiting → waiting.WaitEnds := by
  intro ends
  obtain ⟨waiting, reached, holds⟩ :=
    @Transition.exists_of_runWhile _ _ step Transition.anyStep (ofSys Sys.twoChunks) _
      ([.enter, .wait 0] ++ (.invoke .handlerPause :: Action.callRuns 0 1).map .act)
      (fun waiting : Waiting => !decide waiting.WaitEnds)
      (by decide +kernel)
  have sleeps : ¬ waiting.WaitEnds := by simpa using holds
  exact sleeps (ends _ _ Sys.twoChunks_built reached)

end Waiting

end Muld
