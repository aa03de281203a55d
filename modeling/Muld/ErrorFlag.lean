import Muld.Attachment

/-! What `HasError` says about a download. The state `Failed` and the error reach the
handler through two callbacks with a store between them, and nothing takes an error back,
so the flag is right as long as no failure of the engine is reported.
-/

namespace Muld

open Threads

/-- `HasError`. -/
def SharedState.hasError (handler : SharedState) : Bool := handler.error.code != .ok

/-- The program points between the report of a failed state and the report of its error. -/
def WorkerPc.failing : WorkerPc → Bool
  | .storeLock .fail | .storeScan .fail | .storeWrite .fail | .failError
  | .failErrorReport => true
  | _ => false

/-- A callback that reports another state than `Failed` does not bring a failure. -/
theorem Shared.callback_state_ne {shared : Shared} {run : SharedState → SharedState}
    (sound : ∀ handler, handler.state ≠ .failed → (run handler).state ≠ .failed)
    (before : shared.handler.state ≠ .failed)
    : (shared.callback run).handler.state ≠ .failed := by
  simp only [callback]
  split
  · exact sound _ before
  · exact before

/-- A handler without an error, without the state `Failed` and without the wish for it. -/
structure SharedState.Unfailed (handler : SharedState) : Prop where
  code : handler.error.code = .ok
  state : handler.state ≠ .failed
  desired : handler.desiredState ≠ .failed

/-- A handler whose request has failed. -/
structure SharedState.Failed (handler : SharedState) : Prop where
  code : handler.error.code ≠ .ok
  state : handler.state = .failed
  desired : handler.desiredState = .failed

/-- A callback that keeps the error and the wish and does not report a failure. -/
theorem SharedState.Unfailed.callback {shared : Shared} {run : SharedState → SharedState}
    (unfailed : shared.handler.Unfailed)
    (error : ∀ handler, (run handler).error = handler.error)
    (desired : ∀ handler, (run handler).desiredState = handler.desiredState)
    (state : ∀ handler, handler.state ≠ .failed → (run handler).state ≠ .failed)
    : (shared.callback run).handler.Unfailed where
  code := by rw [Shared.callback_keeps SharedState.error error, unfailed.code]
  state := Shared.callback_state_ne state unfailed.state
  desired := by
    rw [Shared.callback_keeps SharedState.desiredState desired]
    exact unfailed.desired

namespace Worker

variable {shared shared' : Shared} {worker next : Worker} {label : WorkerLabel}

/-- A worker that does not report a failure is not in the middle of one after its step. -/
theorem Step.failing (taken : Step shared worker label shared' next)
    (unreported : worker.pc ≠ .failReport) (calm : worker.pc.failing = false)
    : next.pc.failing = false := by
  cases taken
  case failReport at_pc => exact absurd at_pc unreported
  case nullWriter => exact calm
  case writePart => exact calm
  case scan => exact calm
  case lock site at_pc _ => cases site <;> simp_all [WorkerPc.failing]
  case scanned site at_pc _ => cases site <;> simp_all [WorkerPc.failing]
  case store site _ at_pc _ => cases site <;> simp_all [WorkerPc.failing, afterStore]
  case failError at_pc => simp [at_pc, WorkerPc.failing] at calm
  all_goals rfl

/-- A worker that does not report a failure leaves the handler without one. -/
theorem Step.unfailed (taken : Step shared worker label shared' next)
    (unreported : worker.pc ≠ .failReport) (calm : worker.pc.failing = false)
    (unfailed : shared.handler.Unfailed)
    : shared'.handler.Unfailed := by
  cases taken
  case failReport at_pc => exact absurd at_pc unreported
  case failErrorReport at_pc => simp [at_pc, WorkerPc.failing] at calm
  case openReport => exact unfailed.callback (fun _ => rfl) (fun _ => rfl) (by simp)
  case finishReport =>
    simp only [Shared.reportFinish, Shared.onHistory]
    exact unfailed.callback (fun _ => rfl) (fun _ => rfl) (by simp)
  case eventReport => exact unfailed.callback (fun _ => rfl) (fun _ => rfl) (fun _ => id)
  case eventReportOnly => exact unfailed.callback (fun _ => rfl) (fun _ => rfl) (fun _ => id)
  case progressReport => exact unfailed.callback (fun _ => rfl) (fun _ => rfl) (fun _ => id)
  case cleanup => simpa using unfailed
  case closeCleanup => simpa using unfailed
  all_goals exact unfailed

end Worker

namespace Call

variable {index : Nat} {shared shared' : Shared} {call next : Call} {label : CallLabel}
  {spawned : List Worker}

/-- A command without an engine does not follow a failure, and a failure has an error. -/
def keepsFlag (handler : SharedState) : Call → Bool
  | .handlerPause | .handlerResume | .handlerCancel =>
      handler.engine || handler.desiredState != .failed
  | .failBeforeEngineStart error => error.code != .ok
  | _ => true

theorem keepsFlag_of_unfailed {handler : SharedState} (unfailed : handler.Unfailed)
    (other : ∀ error, call ≠ .failBeforeEngineStart error)
    : call.keepsFlag handler = true := by
  cases call
  case failBeforeEngineStart error => exact absurd rfl (other error)
  all_goals first | rfl | simp [keepsFlag, unfailed.desired]

/-- Only `FailBeforeEngineStart` makes a handler fail. -/
theorem Step.unfailed (taken : Step index shared call label shared' next spawned)
    (other : ∀ error, call ≠ .failBeforeEngineStart error)
    (unfailed : shared.handler.Unfailed)
    : shared'.handler.Unfailed := by
  cases taken
  case failBeforeEngineStart error => exact absurd rfl (other error)
  case startReport => exact unfailed.callback (fun _ => rfl) (fun _ => rfl) (by simp)
  case pauseReport => exact unfailed.callback (fun _ => rfl) (fun _ => rfl) (by simp)
  case cancelReport => exact unfailed.callback (fun _ => rfl) (fun _ => rfl) (by simp)
  case cancelCleanup => simpa using unfailed
  case wish detached at_pc =>
    rcases at_pc with ⟨rfl, rfl⟩ | ⟨rfl, rfl⟩ | ⟨rfl, rfl⟩ <;>
      exact ⟨unfailed.code, by simp [Call.wish, detached], by simp [Call.wish]⟩
  case forward attached at_pc =>
    rcases at_pc with ⟨rfl, rfl, rfl⟩ | ⟨rfl, rfl, rfl⟩ | ⟨rfl, rfl, rfl⟩ <;>
      exact ⟨unfailed.code, unfailed.state, by simp⟩
  case attachPublish => exact ⟨unfailed.code, unfailed.state, unfailed.desired⟩
  case handlerSpeedLimit => exact ⟨unfailed.code, unfailed.state, unfailed.desired⟩
  all_goals exact unfailed

theorem Step.failsRequest {error : MuldError}
    (taken : Step index shared (.failBeforeEngineStart error) label shared' next spawned)
    : next = .returned true
      ∧ shared' = { shared with handler := { shared.handler with
          error, state := .failed, desiredState := .failed } } := by
  cases taken
  case failBeforeEngineStart => exact ⟨rfl, rfl⟩
  all_goals simp_all

/-- Once the request has failed, the handler shows it until a command arrives. -/
theorem Step.failed (taken : Step index shared call label shared' next spawned)
    (closed : call.openingShare = 0) (unattached : shared.engine.callbacksAttached = false)
    (detached : shared.handler.engine = false) (failed : shared.handler.Failed)
    : (call.keepsFlag shared.handler = true ∧ shared'.handler.Failed)
      ∨ (call.keepsFlag shared.handler = false
        ∧ shared'.handler.error = shared.handler.error
        ∧ shared'.handler.state ≠ .failed) := by
  cases taken
  case failBeforeEngineStart => cases closed
  case wish at_pc =>
    right
    rcases at_pc with ⟨rfl, rfl⟩ | ⟨rfl, rfl⟩ | ⟨rfl, rfl⟩ <;>
      exact ⟨by simp [keepsFlag, detached, failed.desired], rfl, by simp [Call.wish, detached]⟩
  case forward attached _ => simp [detached] at attached
  all_goals left
  case startReport => exact ⟨rfl, by simpa [Shared.reportState, Shared.callback, unattached]⟩
  case pauseReport => exact ⟨rfl, by simpa [Shared.reportState, Shared.callback, unattached]⟩
  case cancelReport => exact ⟨rfl, by simpa [Shared.reportState, Shared.callback, unattached]⟩
  case cancelCleanup => exact ⟨rfl, by simpa using failed⟩
  case attachPublish => exact ⟨rfl, failed.code, failed.state, failed.desired⟩
  case handlerSpeedLimit => exact ⟨rfl, failed.code, failed.state, failed.desired⟩
  case refused at_pc =>
    rcases at_pc with ⟨rfl, _⟩ | ⟨rfl, _⟩ | ⟨rfl, _⟩ <;> exact ⟨rfl, failed⟩
  case terminateFinished at_pc =>
    rcases at_pc with rfl | ⟨_, rfl⟩ <;> exact ⟨rfl, failed⟩
  all_goals exact ⟨rfl, failed⟩

end Call

namespace Sys

variable {start sys : Sys}

/-- `HasError` is true exactly when the handler has failed. -/
def FlagTrue (sys : Sys) : Prop :=
  sys.shared.handler.hasError = true ↔ sys.shared.handler.state = .failed

instance (sys : Sys) : Decidable sys.FlagTrue := by
  unfold FlagTrue
  infer_instance

/-- No worker reports a failure, no command without an engine follows one, and a failure of
the request has an error.
-/
def KeepsFlag (before : Sys) : Action → Prop
  | .worker index _ => ∀ worker ∈ before.workers[index]?, worker.pc ≠ .failReport
  | .call index _ =>
      ∀ call ∈ before.calls[index]?, call.keepsFlag before.shared.handler = true
  | .invoke _ => True

instance (before : Sys) (action : Action) : Decidable (before.KeepsFlag action) :=
  match action with
  | .worker .. | .call .. | .invoke .. => by unfold KeepsFlag; infer_instance

def FlagRun (before : Sys) (action : Action) (_ : Sys) : Prop :=
  action.ThroughHandler ∧ before.KeepsFlag action

instance (before : Sys) (action : Action) (after : Sys)
    : Decidable (FlagRun before action after) := by
  unfold FlagRun
  infer_instance

/-- No worker is in the middle of a failure, and the handler has none or shows the failure
of a request that has no engine.
-/
structure FlagSafe (sys : Sys) : Prop where
  calm : ∀ worker ∈ sys.workers, worker.pc.failing = false
  handler
    : sys.shared.handler.Unfailed
      ∨ (sys.shared.handler.Failed
        ∧ sys.shared.engine.callbacksAttached = false
        ∧ total Call.openingShare sys.calls = 0
        ∧ sys.dispatched = true)

theorem FlagSafe.flagTrue (safe : sys.FlagSafe) : sys.FlagTrue := by
  rcases safe.handler with unfailed | ⟨failed, _⟩
  · simp [FlagTrue, SharedState.hasError, unfailed.code, unfailed.state]
  · simp [FlagTrue, SharedState.hasError, failed.code, failed.state]

/-- Where a worker runs, the request has an engine and the handler has no failure. -/
theorem FlagSafe.unfailed (safe : sys.FlagSafe) (opens : sys.OpensUnattached)
    (attaching : sys.Attaching) {worker : Worker} (member : worker ∈ sys.workers)
    : sys.shared.engine.callbacksAttached = true ∧ sys.shared.handler.Unfailed := by
  cases engine : sys.shared.handler.engine with
  | false => simp [(opens engine).workers] at member
  | true =>
      have attached := attaching.attached engine
      refine ⟨attached, safe.handler.resolve_right ?_⟩
      rintro ⟨_, unattached, _⟩
      simp [attached] at unattached

/-- A worker keeps the flag right unless it reports a failure, and makes it wrong then. -/
theorem FlagSafe.worker_step (safe : sys.FlagSafe) (opens : sys.OpensUnattached)
    (attaching : sys.Attaching) {index : Nat} {worker next : Worker} {label : WorkerLabel}
    {shared : Shared}
    (found : sys.workers[index]? = some worker)
    (taken : worker.Step sys.shared label shared next)
    : (worker.pc ≠ .failReport
        ∧ FlagSafe { sys with shared, workers := sys.workers.set index next })
      ∨ (worker.pc = .failReport
        ∧ ¬ FlagTrue { sys with shared, workers := sys.workers.set index next }) := by
  have member := List.mem_of_getElem? found
  obtain ⟨attached, unfailed⟩ := safe.unfailed opens attaching member
  by_cases reports : worker.pc = .failReport
  · right
    cases taken
    case failReport =>
      refine ⟨reports, ?_⟩
      simp [FlagTrue, SharedState.hasError, Shared.reportState, Shared.callback, attached,
        unfailed.code]
    all_goals simp_all [WorkerPc.throws]
  · have calm := safe.calm worker member
    exact Or.inl ⟨reports, forall_set safe.calm (taken.failing reports calm),
      Or.inl (taken.unfailed reports calm unfailed)⟩

/-- A call keeps the flag right under its condition, and makes it wrong without it. -/
theorem FlagSafe.call_step (safe : sys.FlagSafe) (once : sys.OpensOnce)
    (attaching : sys.Attaching) {index : Nat} {call next : Call} {label : CallLabel}
    {shared : Shared} {spawned : List Worker}
    (found : sys.calls[index]? = some call)
    (taken : Call.Step index sys.shared call label shared next spawned)
    : (call.keepsFlag sys.shared.handler = true
        ∧ FlagSafe { sys with
            shared
            workers := sys.workers ++ spawned
            calls := sys.calls.set index next })
      ∨ (call.keepsFlag sys.shared.handler = false
        ∧ ¬ FlagTrue { sys with
            shared
            workers := sys.workers ++ spawned
            calls := sys.calls.set index next }) := by
  have member := List.mem_of_getElem? found
  have calm : ∀ worker ∈ sys.workers ++ spawned, worker.pc.failing = false := by
    intro worker inside
    rcases taken.mem_workers inside with old | rfl
    · exact safe.calm worker old
    · rfl
  rcases safe.handler with unfailed | ⟨failed, unattached, closed, dispatched⟩
  · by_cases fails : ∃ error, call = .failBeforeEngineStart error
    · obtain ⟨error, rfl⟩ := fails
      obtain ⟨unattached, dispatched, one⟩ := once.detached member
      obtain ⟨rfl, rfl⟩ := taken.failsRequest
      by_cases code : error.code = .ok
      · exact Or.inr ⟨by simp [Call.keepsFlag, code],
          by simp [FlagTrue, SharedState.hasError, code]⟩
      · refine Or.inl ⟨by simp [Call.keepsFlag, code], calm,
          Or.inr ⟨⟨code, rfl, rfl⟩, unattached, ?_, dispatched⟩⟩
        rw [total_set _ found, one]
        rfl
    · have other : ∀ error, call ≠ .failBeforeEngineStart error :=
        fun error same => fails ⟨error, same⟩
      exact Or.inl ⟨Call.keepsFlag_of_unfailed unfailed other, calm,
        Or.inl (taken.unfailed other unfailed)⟩
  · have own := share_le_total Call.openingShare_nonneg member
    have none_open : call.openingShare = 0 := by
      have := call.openingShare_nonneg
      omega
    have detached : sys.shared.handler.engine = false := by
      cases engine : sys.shared.handler.engine with
      | false => rfl
      | true => simp [attaching.attached engine] at unattached
    rcases taken.failed none_open unattached detached failed with
      ⟨keeps, still⟩ | ⟨breaks, error, moved⟩
    · refine Or.inl ⟨keeps, calm, Or.inr ?_⟩
      rcases taken.opening with ⟨fewer, same⟩ | ⟨rfl, _, _⟩
      · have none_after := next.openingShare_nonneg
        refine ⟨still, same.trans unattached, ?_, dispatched⟩
        rw [total_set _ found]
        omega
      · cases none_open
    · refine Or.inr ⟨breaks, ?_⟩
      simp [FlagTrue, SharedState.hasError, error, moved, failed.code]

theorem FlagSafe.invoke (safe : sys.FlagSafe) {api : Api}
    (allowed : api.dispatches = true → sys.dispatched = false)
    : FlagSafe { sys with
        calls := sys.calls ++ [api.entry]
        dispatched := sys.dispatched || api.dispatches } := by
  refine ⟨safe.calm, safe.handler.imp id ?_⟩
  rintro ⟨failed, unattached, closed, dispatched⟩
  have kept : api.dispatches = false := by
    cases dispatches : api.dispatches with
    | false => rfl
    | true => simp [allowed dispatches] at dispatched
  refine ⟨failed, unattached, ?_, by simp [dispatched]⟩
  simp [total_append, total_singleton, closed, Api.entry_openingShare, kept]

theorem ReachableWhile.flagSafe (built : start.Built)
    (reached : ReachableWhile FlagRun start sys)
    : sys.FlagSafe := by
  have through : ∀ before action after, FlagRun before action after → action.ThroughHandler :=
    fun _ _ _ met => met.1
  refine invariant_of_steps reached ?_ ?_ ?_ ?_
  · refine ⟨by simp [built.workers], Or.inl ?_⟩
    rw [built.handler]
    exact ⟨rfl, by decide, by decide⟩
  · intro sys index worker next label shared earlier _ safe found taken met
    have opens := ReachableWhile.opensUnattached built earlier through
    rcases safe.worker_step opens (earlier.attaching built) found taken with
      ⟨_, still⟩ | ⟨reports, _⟩
    · exact still
    · exact absurd reports (met.2 worker found)
  · intro sys index call next label shared spawned earlier _ safe found taken met
    rcases safe.call_step (earlier.opensOnce built) (earlier.attaching built) found taken with
      ⟨_, still⟩ | ⟨breaks, _⟩
    · exact still
    · simp [met.2 call found] at breaks
  · intro sys api _ safe allowed _
    exact safe.invoke allowed

/-- In every run in which no failure of the engine is reported, no command follows a failure
of the request and such a failure has an error, the flag is right in every state; and the
next step keeps it right exactly if it is one of these.
-/
theorem error_flag (built : start.Built) (reached : ReachableWhile FlagRun start sys)
    : sys.FlagTrue
      ∧ ∀ action after,
          sys.step action = some after
          → action.ThroughHandler
          → (after.FlagTrue ↔ sys.KeepsFlag action) := by
  have safe := reached.flagSafe built
  have opens := ReachableWhile.opensUnattached built reached fun _ _ _ met => met.1
  refine ⟨safe.flagTrue, ?_⟩
  intro action after taken _
  cases step_cases taken with
  | worker index worker next label shared found moved =>
      rcases safe.worker_step opens (reached.attaching built) found moved with
        ⟨silent, still⟩ | ⟨reports, wrong⟩
      · exact ⟨fun _ other same => Option.some.inj (found.symm.trans same) ▸ silent,
          fun _ => still.flagTrue⟩
      · exact ⟨fun right => absurd right wrong, fun keeps => absurd reports (keeps worker found)⟩
  | call index call next label shared spawned found moved =>
      rcases safe.call_step (reached.opensOnce built) (reached.attaching built) found moved with
        ⟨keeps, still⟩ | ⟨breaks, wrong⟩
      · exact ⟨fun _ other same => Option.some.inj (found.symm.trans same) ▸ keeps,
          fun _ => still.flagTrue⟩
      · refine ⟨fun right => absurd right wrong, fun keeps => ?_⟩
        simp [keeps call found] at breaks
  | invoke api allowed => exact ⟨fun _ => trivial, fun _ => (safe.invoke allowed).flagTrue⟩

open Muld.Action in
/-- The flag of a started download is right until its worker reports a failed name
resolution, and wrong then.
-/
theorem error_flag_one_chunk
    : ∃ sys after : Sys,
        sys.step (.worker 0 .run) = some after ∧ sys.FlagTrue ∧ ¬ after.FlagTrue := by
  obtain ⟨sys, reached, holds⟩ :=
    exists_reachable FlagRun oneChunk
      (.invoke .handlerResume :: callRuns 0 1 ++ .invoke .attachEngine :: callRuns 1 18
        ++ workerRuns 0 3 ++ [.worker 0 (.setupFails { code := .networkError })]
        ++ workerRuns 0 1)
      (fun sys =>
        !decide (sys.KeepsFlag (.worker 0 .run)) && (sys.step (.worker 0 .run)).isSome)
      (by decide +kernel)
  simp only [Bool.and_eq_true, Bool.not_eq_true', decide_eq_false_iff_not,
    Option.isSome_iff_exists] at holds
  obtain ⟨breaks, after, taken⟩ := holds
  obtain ⟨flag, next⟩ := error_flag oneChunk_built reached
  exact ⟨sys, after, taken, flag,
    fun right => breaks ((next _ after taken (by decide)).mp right)⟩

open Muld.Action in
/-- A download whose first connection failed is resumed and completes: the error of the
first attempt stays, and `HasError` reports it for the completed download.
-/
theorem error_flag_stale
    : ¬ ∀ start sys : Sys, start.Built → ReachableWhile HandlerRun start sys → sys.FlagTrue := by
  intro right
  obtain ⟨sys, reached, holds⟩ :=
    exists_reachable HandlerRun oneChunk
      (.invoke .handlerResume :: callRuns 0 1 ++ .invoke .attachEngine :: callRuns 1 18
        ++ workerRuns 0 3 ++ [.worker 0 (.setupFails { code := .networkError })]
        ++ workerRuns 0 5 ++ [.worker 0 (.stored .written)] ++ workerRuns 0 5
        ++ .invoke .handlerResume :: callRuns 2 14 ++ workerRuns 1 6
        ++ fetch 1 200 (List.replicate 20 0) ++ workerRuns 1 5
        ++ [.worker 1 (.stored .written)] ++ workerRuns 1 2)
      (fun sys => sys.shared.handler.hasError && sys.shared.handler.state == .completed)
      (by decide +kernel)
  obtain ⟨hasError, completed⟩ := Bool.and_eq_true_iff.mp holds
  have failed := (right _ sys oneChunk_built reached).mp hasError
  rw [eq_of_beq completed] at failed
  cases failed

end Sys

end Muld
