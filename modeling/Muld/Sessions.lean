import Muld.Attachment
import Muld.Finishing

/-! The commands of a client on its handler while the engine is attached. The client makes
one call after another; `AttachEngine` reads the wishes recorded so far, gives the engine to
the handler and passes the wish it has read on, each in a step of its own.
-/

namespace Muld

open Threads

/-- The state a command asks for. -/
def Api.wants : Api → Option DownloadState
  | .handlerPause => some .paused
  | .handlerResume => some .queued
  | .handlerCancel => some .canceled
  | _ => none

/-- The argument of `SetSpeedLimit`. -/
def Api.limit : Api → Option Nat
  | .handlerSpeedLimit bps => some bps
  | _ => none

/-- The calls that the client makes one after another. -/
def Api.ofClient (api : Api) : Bool := api.wants.isSome || api.limit.isSome

/-- The engine is started and resumed through its handler only, and the request does not
fail.
-/
def Api.attaches : Api → Bool
  | .start | .resume | .failBeforeEngineStart _ => false
  | _ => true

/-- The state that a command asks for until its critical section has recorded it. -/
def Call.wants : Call → Option DownloadState
  | .handlerPause => some .paused
  | .handlerResume => some .queued
  | .handlerCancel => some .canceled
  | _ => none

/-- The limit that a call of `SetSpeedLimit` has to record. -/
def Call.limitWish : Call → Option Nat
  | .handlerSpeedLimit bps => some bps
  | _ => none

/-- The limit that a call of `SetSpeedLimit` has to record or to pass to the engine. -/
def Call.limit : Call → Option Nat
  | .handlerSpeedLimit bps | .speedLimit bps => some bps
  | _ => none

/-- The state that a call is about to ask the engine for. -/
def Call.engineCommand : Call → Option DownloadState
  | .startSet => some .queued
  | .pauseSet => some .paused
  | .cancelSet => some .canceled
  | _ => none

/-- The program points that a call of the client reaches. -/
def Call.ofClient : Call → Bool
  | .handlerPause | .handlerResume | .handlerCancel | .handlerSpeedLimit _ | .speedLimit _
  | .startSet | .startReport | .drain | .resetBudget | .rebuild | .resetNext _ | .resetCount _
  | .planState | .planScheduled | .planDesired _ | .planCas _ _ | .enqueue _
  | .pauseSet | .pauseReport | .cancelSet | .cancelReport | .cancelCheck | .cancelCleanup
  | .returned _ => true
  | _ => false

/-- The engine was started and neither paused nor canceled since. -/
def DownloadEngine.started (engine : DownloadEngine) : Bool :=
  engine.active || engine.state == .completed || engine.state == .failed

namespace Worker

variable {shared shared' : Shared} {worker next : Worker} {label : WorkerLabel}

/-- Workers neither start nor stop the engine. -/
theorem Step.started (taken : Step shared worker label shared' next)
    : (shared.engine.started = true → shared'.engine.started = true)
      ∧ (shared.engine.active = false → shared'.engine.active = false) := by
  rcases taken.state with
    same | ⟨_, _, before, after⟩ | ⟨_, _, after⟩ | ⟨_, _, before, after⟩
  · simp [DownloadEngine.started, DownloadEngine.active, same]
  · simp [DownloadEngine.started, DownloadEngine.active, before, after]
  · simp [DownloadEngine.started, DownloadEngine.active, after]
  · simp [DownloadEngine.started, DownloadEngine.active, after]

/-- Workers leave the wishes and the limits alone. -/
theorem Step.wishes (taken : Step shared worker label shared' next)
    : shared'.handler.desiredState = shared.handler.desiredState
      ∧ shared'.handler.desiredSpeedLimitBps = shared.handler.desiredSpeedLimitBps
      ∧ shared'.engine.speedLimitBps = shared.engine.speedLimitBps := by
  have reports : ∀ {run : SharedState → SharedState},
      (∀ handler, (run handler).desiredState = handler.desiredState)
      → (∀ handler, (run handler).desiredSpeedLimitBps = handler.desiredSpeedLimitBps)
      → (shared.callback run).handler.desiredState = shared.handler.desiredState
        ∧ (shared.callback run).handler.desiredSpeedLimitBps
            = shared.handler.desiredSpeedLimitBps
        ∧ (shared.callback run).engine.speedLimitBps = shared.engine.speedLimitBps :=
    fun state limit => ⟨Shared.callback_keeps SharedState.desiredState state,
      Shared.callback_keeps SharedState.desiredSpeedLimitBps limit, rfl⟩
  cases taken
  case openReport => exact reports (fun _ => rfl) fun _ => rfl
  case eventReport => exact reports (fun _ => rfl) fun _ => rfl
  case eventReportOnly => exact reports (fun _ => rfl) fun _ => rfl
  case progressReport => exact reports (fun _ => rfl) fun _ => rfl
  case finishReport =>
    simp only [Shared.reportFinish, Shared.onHistory]
    exact reports (fun _ => rfl) fun _ => rfl
  case failReport => exact reports (fun _ => rfl) fun _ => rfl
  case failErrorReport => exact reports (fun _ => rfl) fun _ => rfl
  case cleanup => simp
  case closeCleanup => simp
  all_goals exact ⟨rfl, rfl, rfl⟩

end Worker

namespace Call

variable {index : Nat} {shared shared' : Shared} {call next : Call} {label : CallLabel}
  {spawned : List Worker}

/-- A call of the client stays one. -/
theorem Step.ofClient (taken : Step index shared call label shared' next spawned)
    (own : call.ofClient = true)
    : next.ofClient = true := by
  cases taken
  case handlerSpeedLimit entered => rcases entered with rfl | rfl <;> rfl
  all_goals first | rfl | cases own | grind [Call.ofClient]

/-- No step leads back to the critical section of a command. -/
theorem Step.wants (taken : Step index shared call label shared' next spawned)
    : next.wants = none ∧ next.limitWish = none := by
  cases taken <;> first | exact ⟨rfl, rfl⟩ | grind [Call.wants, Call.limitWish]

/-- A command is recorded in its critical section. -/
theorem Step.desired (taken : Step index shared call label shared' next spawned)
    (unfailing : ∀ error, call ≠ .failBeforeEngineStart error)
    : (call.wants = none ∧ shared'.handler.desiredState = shared.handler.desiredState)
      ∨ ∃ wanted, call.wants = some wanted ∧ shared'.handler.desiredState = wanted := by
  cases taken
  case failBeforeEngineStart error => exact absurd rfl (unfailing error)
  case startReport =>
    exact Or.inl ⟨rfl, Shared.callback_keeps SharedState.desiredState fun _ => rfl⟩
  case pauseReport =>
    exact Or.inl ⟨rfl, Shared.callback_keeps SharedState.desiredState fun _ => rfl⟩
  case cancelReport =>
    exact Or.inl ⟨rfl, Shared.callback_keeps SharedState.desiredState fun _ => rfl⟩
  case cancelCleanup => exact Or.inl ⟨rfl, by simp⟩
  case wish at_pc =>
    rcases at_pc with ⟨rfl, rfl⟩ | ⟨rfl, rfl⟩ | ⟨rfl, rfl⟩ <;> exact Or.inr ⟨_, rfl, rfl⟩
  case forward at_pc =>
    rcases at_pc with ⟨rfl, rfl, rfl⟩ | ⟨rfl, rfl, rfl⟩ | ⟨rfl, rfl, rfl⟩ <;>
      exact Or.inr ⟨_, rfl, rfl⟩
  case refused at_pc =>
    rcases at_pc with ⟨rfl, _⟩ | ⟨rfl, _⟩ | ⟨rfl, _⟩ <;> exact Or.inl ⟨rfl, rfl⟩
  case terminateFinished at_pc =>
    rcases at_pc with rfl | ⟨_, rfl⟩ <;> exact Or.inl ⟨rfl, rfl⟩
  all_goals exact Or.inl ⟨rfl, rfl⟩

/-- What a call asks the engine for, the client has just recorded or another thread asks. -/
theorem Step.commands (taken : Step index shared call label shared' next spawned)
    {wanted : DownloadState} (asks : next.engineCommand = some wanted)
    : (call.wants = some wanted ∧ shared'.handler.desiredState = wanted)
      ∨ call.ofClient = false := by
  cases taken
  case forward at_pc =>
    rcases at_pc with ⟨rfl, rfl, rfl⟩ | ⟨rfl, rfl, rfl⟩ | ⟨rfl, rfl, rfl⟩ <;> cases asks <;>
      exact Or.inl ⟨rfl, rfl⟩
  case handlerSpeedLimit entered => rcases entered with rfl | rfl <;> cases asks
  all_goals first | exact Or.inr rfl | cases asks

/-- With an engine, a command goes on to ask it for what it has recorded. -/
theorem Step.forwards (taken : Step index shared call label shared' next spawned)
    {wanted : DownloadState} (wants : call.wants = some wanted)
    (engine : shared.handler.engine = true)
    : next.engineCommand = some wanted := by
  cases taken
  case wish detached _ => simp [detached] at engine
  case forward at_pc =>
    rcases at_pc with ⟨rfl, rfl, rfl⟩ | ⟨rfl, rfl, rfl⟩ | ⟨rfl, rfl, rfl⟩ <;> exact wants
  all_goals first | cases wants | grind [Call.wants]

/-- A promised start is made, or the engine runs or has run to its end. -/
theorem Step.makesStart (taken : Step index shared call label shared' next spawned)
    (starts : call.startsEngine = true)
    : next.startsEngine = true ∨ shared'.engine.started = true := by
  cases taken
  case start => exact Or.inr rfl
  case refused wanted refused at_pc =>
    rcases at_pc with ⟨rfl, rfl⟩ | ⟨rfl, _⟩ | ⟨rfl, _⟩
    · right
      cases state : shared.engine.state <;>
        simp_all [DownloadEngine.admits, DownloadEngine.started, DownloadEngine.active]
    · cases starts
    · cases starts
  case attachDispatch desired entered =>
    rcases entered with ⟨rfl, _⟩ | ⟨rfl, _⟩ | ⟨_, rfl⟩ | ⟨other, _⟩
    · cases starts
    · cases starts
    · exact Or.inl rfl
    · cases desired <;> simp_all [startsEngine]
  all_goals first | cases starts | grind [startsEngine]

/-- A `Pause` or `Cancel` that has reached the engine leaves it inactive. -/
theorem Step.stops (taken : Step index shared call label shared' next spawned)
    (asks : call = .pauseSet ∨ call = .cancelSet)
    : shared'.engine.active = false := by
  cases taken
  case pause => rfl
  case cancel => rfl
  case refused wanted refused at_pc =>
    rcases at_pc with ⟨rfl, _⟩ | ⟨rfl, rfl⟩ | ⟨rfl, rfl⟩
    · simp at asks
    all_goals
      cases state : shared.engine.state <;>
        simp_all [DownloadEngine.admits, DownloadEngine.active]
  all_goals grind

/-- A limit is recorded in the critical section of `SetSpeedLimit`. -/
theorem Step.desiredLimit (taken : Step index shared call label shared' next spawned)
    : (call.limitWish = none
        ∧ shared'.handler.desiredSpeedLimitBps = shared.handler.desiredSpeedLimitBps)
      ∨ ∃ bps, call = .handlerSpeedLimit bps ∧ shared'.handler.desiredSpeedLimitBps = bps := by
  cases taken
  case handlerSpeedLimit => exact Or.inr ⟨_, rfl, rfl⟩
  case wish => exact Or.inl ⟨by grind [Call.limitWish], rfl⟩
  case startReport =>
    exact Or.inl ⟨rfl, Shared.callback_keeps SharedState.desiredSpeedLimitBps fun _ => rfl⟩
  case pauseReport =>
    exact Or.inl ⟨rfl, Shared.callback_keeps SharedState.desiredSpeedLimitBps fun _ => rfl⟩
  case cancelReport =>
    exact Or.inl ⟨rfl, Shared.callback_keeps SharedState.desiredSpeedLimitBps fun _ => rfl⟩
  case cancelCleanup => exact Or.inl ⟨rfl, by simp⟩
  all_goals first | exact Or.inl ⟨rfl, rfl⟩ | grind [Call.limitWish]

/-- The limit of the engine is set by `SetSpeedLimit` and when the handler gets the engine. -/
theorem Step.engineLimit (taken : Step index shared call label shared' next spawned)
    : ((∀ bps, call ≠ .speedLimit bps)
        ∧ shared'.engine.speedLimitBps = shared.engine.speedLimitBps
        ∧ shared'.handler.engine = shared.handler.engine)
      ∨ (∃ bps,
          call = .speedLimit bps
          ∧ next = .returned true
          ∧ shared'.engine.speedLimitBps = bps)
      ∨ ∃ desired bps,
          call = .attachPublish desired bps
          ∧ next = .attachDispatch desired
          ∧ shared' = publish shared bps := by
  cases taken
  case speedLimit bps => exact Or.inr (Or.inl ⟨bps, rfl, rfl, rfl⟩)
  case attachPublish desired bps => exact Or.inr (Or.inr ⟨desired, bps, rfl, rfl, rfl⟩)
  case startReport =>
    exact Or.inl ⟨by simp, rfl, Shared.callback_keeps SharedState.engine fun _ => rfl⟩
  case pauseReport =>
    exact Or.inl ⟨by simp, rfl, Shared.callback_keeps SharedState.engine fun _ => rfl⟩
  case cancelReport =>
    exact Or.inl ⟨by simp, rfl, Shared.callback_keeps SharedState.engine fun _ => rfl⟩
  case cancelCleanup => exact Or.inl ⟨by simp, by simp, by simp⟩
  all_goals
    refine Or.inl ⟨?_, rfl, rfl⟩
    first | (simp; done) | grind

/-- A call of `SetSpeedLimit` passes on the limit it was made with. -/
theorem Step.limit (taken : Step index shared call label shared' next spawned) {bps : Nat}
    (passes : next.limit = some bps)
    : call.limit = some bps := by
  cases taken
  case handlerSpeedLimit entered =>
    rcases entered with rfl | rfl
    · exact passes
    · cases passes
  all_goals first | cases passes | grind [Call.limit]

/-- A dispatched request keeps a call that will give the handler its engine. -/
theorem Step.attaches (taken : Step index shared call label shared' next spawned)
    (unfailing : ∀ error, call ≠ .failBeforeEngineStart error)
    (dispatches : call.dispatchShare = 1)
    : next.dispatchShare = 1 ∨ shared'.handler.engine = true := by
  cases taken
  case attachPublish => exact Or.inr rfl
  case failBeforeEngineStart error => exact absurd rfl (unfailing error)
  all_goals first | exact Or.inl rfl | cases dispatches | grind [dispatchShare]

/-- No step leads to `FailBeforeEngineStart`. -/
theorem Step.unfailing (taken : Step index shared call label shared' next spawned)
    (error : MuldError)
    : next ≠ .failBeforeEngineStart error := by
  cases taken <;> first | (simp; done) | grind

end Call

/-- With an engine, `SetSpeedLimit` goes on to pass its argument to it. -/
theorem Sys.calls_handlerSpeedLimit {sys after : Sys} {index bps : Nat} {label : CallLabel}
    (found : sys.calls[index]? = some (.handlerSpeedLimit bps))
    (engine : sys.shared.handler.engine = true)
    (moved : sys.step (.call index label) = some after)
    : after.calls = sys.calls.set index (.speedLimit bps) := by
  cases label with
  | stored outcome => simp [step, found, Call.step] at moved
  | run =>
      simp only [step, found, Call.step, engine, if_true] at moved
      split at moved
      · cases moved
      · cases moved
        rfl

/-- A system with the record of a client. -/
structure Session where
  sys : Sys
  /-- The call the client has made last. -/
  command : Option Nat := none
  /-- What the last of its `Pause`, `Resume` and `Cancel` calls asked for. -/
  last : Option DownloadState := none
  /-- The argument of its last `SetSpeedLimit`. -/
  limit : Option Nat := none

namespace Session

/-- The last call of the client. -/
def own (session : Session) : Option Call :=
  session.command.bind fun index => session.sys.calls[index]?

/-- The last call of the client has returned. -/
def idle (session : Session) : Bool :=
  session.own.all fun call => call == .returned true || call == .returned false

/-- The record after a call entered. -/
def note (session : Session) (api : Api) : Session :=
  if api.ofClient then
    { session with
      command := some session.sys.calls.length
      last := api.wants.or session.last
      limit := api.limit.or session.limit }
  else session

/-- The client waits for its last call to return; all other threads run freely. -/
def step (session : Session) (action : Action) : Option Session :=
  match session.sys.step action with
  | none => none
  | some sys =>
      match action with
      | .invoke api =>
          if api.attaches ∧ (api.ofClient → session.idle) then
            some { session.note api with sys }
          else none
      | _ => some { session with sys }

/-- What a call of another thread does to the engine is still what the client has asked for,
or the client's own call has yet to reach the engine; and the handler gets the engine with
the recorded wishes.
-/
def Heeds (session : Session) : Call → Prop
  | .attachPublish desired bps =>
      (session.sys.shared.handler.desiredState = .queued → desired = .queued)
      ∧ bps = session.sys.shared.handler.desiredSpeedLimitBps
  | .startSet =>
      DownloadEngine.admits .queued session.sys.shared.engine.state = true
      → session.sys.shared.handler.desiredState = .queued
        ∨ session.own = some .pauseSet
        ∨ session.own = some .cancelSet
  | .pauseSet =>
      DownloadEngine.admits .paused session.sys.shared.engine.state = true
      → session.sys.shared.handler.desiredState ≠ .queued ∨ session.own = some .startSet
  | .cancelSet =>
      DownloadEngine.admits .canceled session.sys.shared.engine.state = true
      → session.sys.shared.handler.desiredState ≠ .queued ∨ session.own = some .startSet
  | _ => True

instance (session : Session) (call : Call) : Decidable (session.Heeds call) :=
  match call with
  | .attachPublish .. => inferInstanceAs (Decidable (_ ∧ _))
  | .startSet | .pauseSet | .cancelSet => inferInstanceAs (Decidable (_ → _))
  | .startReport | .drain | .resetBudget | .rebuild | .resetNext _ | .resetCount _
  | .planState | .planScheduled | .planDesired _ | .planCas _ _ | .enqueue _ | .pauseReport
  | .cancelReport | .cancelCheck | .cancelCleanup | .storeLock _ | .storeScan _ _
  | .storeWrite _ _ | .terminateCount | .terminateState _ | .bounds _ _ | .desire _
  | .addBudget _ | .speedLimit _ | .handlerPause | .handlerResume | .handlerCancel
  | .handlerSpeedLimit _ | .attachCallbacks | .attachDesired | .attachSpeed _
  | .attachDispatch _ | .failBeforeEngineStart _ | .returned _ => .isTrue trivial

/-- The steps of other threads heed the client. -/
def HeedsClient (before : Session) (action : Action) (_ : Session) : Prop :=
  match action with
  | .call index _ =>
      before.command ≠ some index → ∀ call ∈ before.sys.calls[index]?, before.Heeds call
  | _ => True

instance (before : Session) (action : Action) (after : Session)
    : Decidable (HeedsClient before action after) :=
  match action with
  | .call .. | .worker .. | .invoke .. => by unfold HeedsClient; infer_instance

-----------------------------------------------------------------------------------------
-- Runs of a session
-----------------------------------------------------------------------------------------

variable {meets : Session → Action → Session → Prop} {start : Sys} {session : Session}

/-- A step of a session is a step of its system, which the record follows. -/
theorem step_cases {action : Action} {after : Session}
    (taken : session.step action = some after)
    : session.sys.step action = some after.sys
      ∧ ((∀ api, action ≠ .invoke api) ∧ after = { session with sys := after.sys }
        ∨ ∃ api,
            action = .invoke api
            ∧ api.attaches = true
            ∧ (api.ofClient = true → session.idle = true)
            ∧ after = { session.note api with sys := after.sys }) := by
  rw [step] at taken
  split at taken
  · cases taken
  · rename_i sys moved
    split at taken
    · rename_i api
      split at taken
      · rename_i allowed
        cases taken
        exact ⟨moved, Or.inr ⟨api, rfl, allowed.1, allowed.2, rfl⟩⟩
      · cases taken
    · rename_i other
      cases taken
      exact ⟨moved, Or.inl ⟨other, rfl⟩⟩

/-- The states of the runs of a client with a system. -/
abbrev ReachableWhile (meets : Session → Action → Session → Prop) (start : Sys)
    : Session → Prop :=
  Transition.Reachable step meets { sys := start }

/-- The system of a session runs behind its handler, by induction on the run. -/
theorem ReachableWhile.reached (reached : ReachableWhile meets start session)
    : Sys.ReachableWhile HandlerRun start session.sys := by
  induction reached with
  | start => exact .start
  | next _ taken _ earlier =>
      obtain ⟨moved, entered⟩ := step_cases taken
      refine earlier.next moved ?_
      rcases entered with ⟨other, _⟩ | ⟨api, rfl, attaches, _⟩
      · exact ⟨other _, other _⟩
      · constructor <;> intro same <;> cases same <;> cases attaches

/-- A property of the runs of a session holds if it holds at the start and every worker step,
call step and new call keeps it.
-/
theorem invariant_of_steps {inv : Session → Prop}
    (reached : ReachableWhile meets start session) (base : inv { sys := start })
    (workers
      : ∀ (session : Session) (index : Nat) (worker next : Worker) (label : WorkerLabel)
          (shared : Shared),
          ReachableWhile meets start session
          → inv session
          → session.sys.workers[index]? = some worker
          → worker.Step session.sys.shared label shared next
          → inv { session with sys := { session.sys with
              shared, workers := session.sys.workers.set index next } })
    (calls
      : ∀ (session : Session) (index : Nat) (call next : Call) (label : CallLabel)
          (shared : Shared) (spawned : List Worker) (after : Sys),
          ReachableWhile meets start session
          → inv session
          → session.sys.calls[index]? = some call
          → Call.Step index session.sys.shared call label shared next spawned
          → session.sys.step (.call index label) = some after
          → meets session (.call index label) { session with sys := after }
          → after = { session.sys with
              shared
              workers := session.sys.workers ++ spawned
              calls := session.sys.calls.set index next }
          → inv { session with sys := after })
    (invokes
      : ∀ (session : Session) (api : Api),
          ReachableWhile meets start session
          → inv session
          → api.attaches = true
          → (api.ofClient = true → session.idle = true)
          → inv { session.note api with sys := { session.sys with
              calls := session.sys.calls ++ [api.entry]
              dispatched := session.sys.dispatched || api.dispatches } })
    : inv session := by
  refine reached.invariant base ?_
  intro before action after earlier holds taken met
  obtain ⟨moved, entered⟩ := step_cases taken
  generalize same : after.sys = sys at moved entered
  cases Sys.step_cases moved with
  | worker index worker next label shared found stepped =>
      rcases entered with ⟨_, rfl⟩ | ⟨_, other, _⟩
      · exact workers before index worker next label shared earlier holds found stepped
      · cases other
  | call index call next label shared spawned found stepped =>
      rcases entered with ⟨_, rfl⟩ | ⟨_, other, _⟩
      · exact calls before index call next label shared spawned _ earlier holds found stepped
          moved met rfl
      · cases other
  | invoke api allowed =>
      rcases entered with ⟨other, _⟩ | ⟨_, ⟨⟩, attaches, idle, rfl⟩
      · exact absurd rfl (other api)
      · exact invokes before api earlier holds attaches idle

end Session

end Muld
