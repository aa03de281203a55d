import Muld.Dispatcher
import Muld.Reentrancy

/-! The mutexes of the methods of one job: what each atomic step locks and unlocks, and where
it invokes functions of the client. A thread holds a mutex from one step to the next only
inside a store, and there is no callback in a store.
-/

namespace Muld

open LockTraces Threads

/-- A callback of an engine copies the function of the handler in one section, and that one
copies the function of the client in another; the client may have set none.
-/
def Shared.report (shared : Shared) (function : ClientFunction) : List Event :=
  guarded .callbacks
    ++ if shared.engine.callbacksAttached then
        guarded .handler ++ [.act (.callback function)]
      else []

/-- What a worker holds between two steps. -/
def WorkerPc.held : WorkerPc → List Mutex
  | .storeScan _ | .storeWrite _ => [.disk]
  | _ => []

/-- What a call holds between two steps. -/
def Call.held : Call → List Mutex
  | .storeScan _ _ | .storeWrite _ _ => [.disk]
  | _ => []

/-- What a step of a worker does with the mutexes. A look at the clock that finds half a
second passed takes `speed_mtx_`; the wait for tokens gives `rate_mtx_` back while it sleeps.
-/
def Worker.lockTrace (shared : Shared) (worker : Worker) (label : WorkerLabel) : List Event :=
  match worker.pc with
  | .queued => guarded .pool
  | .openReport | .failReport => shared.report .onStateChange
  | .awaitBudget => guarded .rate
  | .notifyTotal => if label = .clock true then guarded .speed else []
  | .notifyEventReport => shared.report .onChunkProgress
  | .notifyProgressReport => shared.report .onProgress
  | .notifyCount | .completeCleanup => guarded .disk
  | .finishReport => shared.report .onFinish ++ guarded .wait
  | .storeLock _ => [.lock .disk]
  | .storeWrite _ => if shared.engine.writer then [.unlock .disk] else []
  | .failError => guarded .error ++ guarded .wait
  | .failErrorReport => shared.report .onError
  | .closeCleanup => guarded .disk ++ guarded .wait
  | _ => []

/-- What a step of a call does with the mutexes. -/
def Call.lockTrace (shared : Shared) : Call → List Event
  | .startReport | .cancelReport => shared.report .onStateChange
  | .enqueue (_ + 1) => guarded .pool
  | .pauseReport => shared.report .onStateChange ++ guarded .wait
  | .cancelCheck => if shared.engine.nConnections = 0 then [] else guarded .wait
  | .cancelCleanup => guarded .disk ++ guarded .wait
  | .storeLock _ => [.lock .disk]
  | .storeWrite _ _ => if shared.engine.writer then [.unlock .disk] else []
  | .speedLimit _ => guarded .rate
  | .handlerPause | .handlerResume | .handlerCancel | .handlerSpeedLimit _ => guarded .handler
  | .attachCallbacks => guarded .callbacks
  | .attachPublish _ _ => [.lock .handler] ++ guarded .rate ++ [.unlock .handler]
  | .failBeforeEngineStart _ => guarded .handler ++ [.act (.callback .onError)]
  | _ => []

-----------------------------------------------------------------------------------------
-- Steps
-----------------------------------------------------------------------------------------

theorem Shared.disciplined_report (shared : Shared) (function : ClientFunction)
    : Disciplined Deed.exposed [] (shared.report function) [] := by
  refine (disciplined_guarded (by simp)).append ?_
  split
  · exact (disciplined_guarded (by simp)).append (disciplined_act _)
  · exact disciplined_nil []

variable {shared shared' : Shared}

/-- A step of a worker is disciplined: it does nothing, reports, or enters one section after
the other; a store keeps the disk mutex from its first step to its last.
-/
theorem Worker.Step.disciplined {worker next : Worker} {label : WorkerLabel}
    (taken : Worker.Step shared worker label shared' next)
    : Disciplined Deed.exposed worker.pc.held (worker.lockTrace shared label) next.pc.held := by
  cases taken
  case throw error at_pc _ _ =>
    cases pc : worker.pc <;> simp only [pc, WorkerPc.throws, Bool.false_eq_true] at at_pc <;>
      simp only [lockTrace, pc] <;> exact disciplined_nil []
  case release at_pc _ =>
    rcases at_pc with at_pc | at_pc <;> simp only [lockTrace, at_pc] <;> exact disciplined_nil []
  case streamStop at_pc _ =>
    rcases at_pc with at_pc | at_pc <;> simp only [lockTrace, at_pc]
    · exact disciplined_nil []
    · exact disciplined_guarded (by simp [WorkerPc.held])
  case allow at_pc _ _ =>
    rcases at_pc with at_pc | at_pc <;> simp only [lockTrace, at_pc]
    · exact disciplined_nil []
    · exact disciplined_guarded (by simp [WorkerPc.held])
  case nullWriter at_pc closed =>
    rcases at_pc with at_pc | ⟨site, at_pc⟩ <;> simp only [lockTrace, at_pc, closed] <;>
      exact disciplined_nil _
  case total elapsed at_pc =>
    simp only [lockTrace, at_pc]
    split
    · exact disciplined_guarded (by simp [WorkerPc.held])
    · exact disciplined_nil []
  case lock site at_pc _ =>
    simp only [lockTrace, at_pc]
    exact disciplined_lock (by simp [WorkerPc.held])
  case store site outcome at_pc open_ =>
    simp only [lockTrace, at_pc, open_, if_pos]
    cases site <;> exact disciplined_unlock _ _
  all_goals
    simp only [lockTrace, ‹worker.pc = _›]
    first
    | exact disciplined_nil _
    | exact shared.disciplined_report _
    | exact disciplined_guarded (by simp [WorkerPc.held])
    | exact (shared.disciplined_report _).append (disciplined_guarded (by simp))
    | exact (disciplined_guarded (by simp [WorkerPc.held])).append
        (disciplined_guarded (by simp [WorkerPc.held]))

/-- A step of a call is disciplined. -/
theorem Call.Step.disciplined {index : Nat} {call next : Call} {label : CallLabel}
    {spawned : List Worker} (taken : Call.Step index shared call label shared' next spawned)
    : Disciplined Deed.exposed call.held (call.lockTrace shared) next.held := by
  cases taken
  case cancelIdle idle =>
    simp only [lockTrace, if_pos idle]
    exact disciplined_nil _
  case cancelBusy busy =>
    simp only [lockTrace, if_neg busy]
    exact disciplined_guarded (by simp [held])
  case refused next _ at_pc =>
    rcases at_pc with ⟨rfl, _⟩ | ⟨rfl, _⟩ | ⟨rfl, _⟩ <;> exact disciplined_nil _
  case lock terminate _ => exact disciplined_lock (by simp [held])
  case store scan outcome open_ =>
    simp only [lockTrace, open_, if_pos]
    exact disciplined_unlock _ _
  case storeTerminate scan outcome open_ =>
    simp only [lockTrace, open_, if_pos]
    exact disciplined_unlock _ _
  case nullWriter terminate scan outcome closed =>
    simp only [lockTrace, closed]
    exact disciplined_nil _
  case terminateFinished at_pc =>
    rcases at_pc with rfl | ⟨states, rfl⟩ <;> exact disciplined_nil _
  case wish wanted _ at_pc =>
    rcases at_pc with ⟨rfl, _⟩ | ⟨rfl, _⟩ | ⟨rfl, _⟩ <;>
      exact disciplined_guarded (by simp [held])
  case forward wanted _ at_pc =>
    rcases at_pc with ⟨rfl, _, rfl⟩ | ⟨rfl, _, rfl⟩ | ⟨rfl, _, rfl⟩ <;>
      exact disciplined_guarded (by simp [held])
  case handlerSpeedLimit bps entered =>
    rcases entered with rfl | rfl <;> exact disciplined_guarded (by simp [held])
  case attachPublish desired bps =>
    have rate : Disciplined Deed.exposed [Mutex.handler] (guarded .rate) [.handler] :=
      disciplined_guarded (by simp)
    exact ((disciplined_lock (by simp)).append rate).append (disciplined_unlock _ _)
  case attachDispatch desired entered =>
    rcases entered with ⟨_, rfl⟩ | ⟨_, rfl⟩ | ⟨_, rfl⟩ | ⟨_, rfl⟩ <;> exact disciplined_nil _
  case failBeforeEngineStart error =>
    exact (disciplined_guarded (by simp [held])).append (disciplined_act _)
  all_goals
    first
    | exact disciplined_nil _
    | exact shared.disciplined_report _
    | exact disciplined_guarded (by simp [held])
    | exact (shared.disciplined_report _).append (disciplined_guarded (by simp))
    | exact (disciplined_guarded (by simp [held])).append (disciplined_guarded (by simp [held]))

/-- A method is outside every store when it invokes a callback, and after it. -/
theorem Worker.Step.held_of_invokesCallback {worker next : Worker} {label : WorkerLabel}
    (taken : Worker.Step shared worker label shared' next)
    (invokes : worker.pc.invokesCallback = true)
    : next.pc.held = [] := by
  cases at_pc : worker.pc <;> simp [at_pc, WorkerPc.invokesCallback] at invokes <;>
    cases taken <;> simp_all [WorkerPc.held, WorkerPc.throws]

theorem Call.Step.held_of_invokesCallback {index : Nat} {call next : Call}
    {label : CallLabel} {spawned : List Worker}
    (taken : Call.Step index shared call label shared' next spawned)
    (invokes : call.invokesCallback = true ∨ call.invokesDirectly = true)
    : next.held = [] := by
  cases call <;> simp [Call.invokesCallback, Call.invokesDirectly] at invokes <;>
    cases taken <;> simp_all [Call.held]

end Muld
