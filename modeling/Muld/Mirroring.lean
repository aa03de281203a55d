import Muld.Artifacts

/-! The state a handler shows against the state of its engine. A change of the engine's
state and the callback that reports it are separate steps of one thread, so the handler
follows the engine as long as the last report to arrive is about the last change.
-/

namespace Muld

open Threads

-----------------------------------------------------------------------------------------
-- Reports on their way
-----------------------------------------------------------------------------------------

/-- The state a worker has entered and still reports to the handler. -/
def WorkerPc.owesReport : WorkerPc → Option DownloadState
  | .openReport => some .downloading
  | .failReport | .storeLock .fail | .storeScan .fail | .storeWrite .fail | .failError
  | .failErrorReport => some .failed
  | .storeLock .complete | .storeScan .complete | .storeWrite .complete | .completeCleanup
  | .finishReport => some .completed
  | _ => none

/-- The program points at which a worker invokes a callback that reports a state. -/
def WorkerPc.reports : WorkerPc → Bool
  | .openReport | .failReport | .failErrorReport | .finishReport => true
  | _ => false

/-- The state a call has entered and is about to report. -/
def Call.owesReport : Call → Option DownloadState
  | .startReport => some .queued
  | .pauseReport => some .paused
  | .cancelReport => some .canceled
  | _ => none

/-- A call on its way to a `Start` or `Resume` of the engine. -/
def Call.startsEngine : Call → Bool
  | .attachDispatch .queued | .startSet => true
  | _ => false

/-- `AttachEngine` has installed the callbacks and not yet set the engine of the handler. -/
def Call.attaching : Call → Bool
  | .attachDesired | .attachSpeed _ | .attachPublish _ _ => true
  | _ => false

/-- One if the call will set the engine of the handler or has to fail without one. -/
def Call.dispatchShare : Call → Int
  | .attachCallbacks | .attachDesired | .attachSpeed _ | .attachPublish _ _
  | .failBeforeEngineStart _ => 1
  | _ => 0

theorem Call.dispatchShare_nonneg (call : Call) : 0 ≤ call.dispatchShare := by
  unfold dispatchShare
  split <;> decide

/-- A method counts as a dispatch from its first program point on. -/
theorem Api.entry_dispatchShare (api : Api)
    : api.entry.dispatchShare = if api.dispatches then 1 else 0 := by
  cases api <;> rfl

namespace Worker

variable {shared shared' : Shared} {worker next : Worker} {label : WorkerLabel}

/-- A worker leaves both states alone, changes the engine's and owes a report about it, or
reports.
-/
theorem Step.reports (taken : Step shared worker label shared' next)
    : (shared'.engine.state = shared.engine.state
        ∧ shared'.handler.state = shared.handler.state
        ∧ next.pc.owesReport = worker.pc.owesReport)
      ∨ next.pc.owesReport = some shared'.engine.state
      ∨ ∃ state,
          worker.pc.reports = true
          ∧ worker.pc.owesReport = some state
          ∧ shared'.engine.state = shared.engine.state
          ∧ (shared.engine.callbacksAttached = true → shared'.handler.state = state) := by
  cases taken
  case openWon => exact Or.inr (Or.inl rfl)
  case complete => exact Or.inr (Or.inl rfl)
  case force => exact Or.inr (Or.inl rfl)
  case fail => exact Or.inr (Or.inl rfl)
  case openReport at_pc =>
    refine Or.inr (Or.inr ⟨.downloading, by rw [at_pc]; rfl, by rw [at_pc]; rfl, rfl, ?_⟩)
    intro attached
    simp [Shared.reportState, Shared.callback, attached]
  case finishReport at_pc =>
    refine Or.inr (Or.inr ⟨.completed, by rw [at_pc]; rfl, by rw [at_pc]; rfl, rfl, ?_⟩)
    intro attached
    simp [Shared.reportFinish, Shared.callback, Shared.onHistory, attached]
  case failReport at_pc =>
    refine Or.inr (Or.inr ⟨.failed, by rw [at_pc]; rfl, by rw [at_pc]; rfl, rfl, ?_⟩)
    intro attached
    simp [Shared.reportState, Shared.callback, attached]
  case failErrorReport at_pc =>
    refine Or.inr (Or.inr ⟨.failed, by rw [at_pc]; rfl, by rw [at_pc]; rfl, rfl, ?_⟩)
    intro attached
    simp [Shared.reportError, Shared.callback, attached]
  all_goals left
  case throw at_pc _ _ =>
    refine ⟨rfl, rfl, ?_⟩
    cases pc : worker.pc <;> simp_all [WorkerPc.throws, WorkerPc.owesReport]
  case release at_pc _ =>
    rcases at_pc with at_pc | at_pc <;> exact ⟨rfl, rfl, by rw [at_pc]; rfl⟩
  case streamStop at_pc _ =>
    rcases at_pc with at_pc | at_pc <;> exact ⟨rfl, rfl, by rw [at_pc]; rfl⟩
  case allow at_pc _ _ =>
    rcases at_pc with at_pc | at_pc <;> exact ⟨rfl, rfl, by rw [at_pc]; rfl⟩
  case nullWriter => exact ⟨rfl, rfl, rfl⟩
  case writePart => exact ⟨rfl, rfl, rfl⟩
  case lock site at_pc _ => cases site <;> exact ⟨rfl, rfl, by rw [at_pc]; rfl⟩
  case scan => exact ⟨rfl, rfl, rfl⟩
  case scanned site at_pc _ => cases site <;> exact ⟨rfl, rfl, by rw [at_pc]; rfl⟩
  case store site _ at_pc _ => cases site <;> exact ⟨rfl, rfl, by rw [at_pc]; rfl⟩
  case cleanup at_pc _ => exact ⟨by simp, by simp, by rw [at_pc]; rfl⟩
  case closeCleanup at_pc _ => exact ⟨by simp, by simp, by rw [at_pc]; rfl⟩
  case eventReport at_pc _ _ =>
    refine ⟨rfl, ?_, by rw [at_pc]; rfl⟩
    simp only [Shared.reportChunk, Shared.callback]
    split <;> rfl
  case eventReportOnly at_pc _ _ =>
    refine ⟨rfl, ?_, by rw [at_pc]; rfl⟩
    simp only [Shared.reportChunk, Shared.callback]
    split <;> rfl
  case progressReport at_pc =>
    refine ⟨rfl, ?_, by rw [at_pc]; rfl⟩
    simp only [Shared.reportProgress, Shared.callback]
    split <;> rfl
  all_goals exact ⟨rfl, rfl, by rw [‹worker.pc = _›]; rfl⟩

/-- The handler keeps its engine, and the engine its callbacks. -/
theorem Step.attached (taken : Step shared worker label shared' next)
    : shared'.handler.engine = shared.handler.engine
      ∧ shared'.engine.callbacksAttached = shared.engine.callbacksAttached := by
  cases taken
  case cleanup => simp
  case closeCleanup => simp
  case openReport => exact ⟨Shared.callback_keeps SharedState.engine fun _ => rfl, rfl⟩
  case failReport => exact ⟨Shared.callback_keeps SharedState.engine fun _ => rfl, rfl⟩
  case failErrorReport => exact ⟨Shared.callback_keeps SharedState.engine fun _ => rfl, rfl⟩
  case finishReport =>
    refine ⟨?_, rfl⟩
    simp only [Shared.reportFinish, Shared.onHistory]
    exact Shared.callback_keeps SharedState.engine fun _ => rfl
  case eventReport => exact ⟨Shared.callback_keeps SharedState.engine fun _ => rfl, rfl⟩
  case eventReportOnly => exact ⟨Shared.callback_keeps SharedState.engine fun _ => rfl, rfl⟩
  case progressReport => exact ⟨Shared.callback_keeps SharedState.engine fun _ => rfl, rfl⟩
  all_goals exact ⟨rfl, rfl⟩

end Worker

namespace Call

variable {index : Nat} {shared shared' : Shared} {call next : Call} {label : CallLabel}
  {spawned : List Worker}

/-- A call leaves both states alone, changes the engine's and owes a report about it,
reports, sets the engine of the handler, or acts on a handler without an engine.
-/
theorem Step.reports (taken : Step index shared call label shared' next spawned)
    : (shared'.engine.state = shared.engine.state
        ∧ shared'.handler.state = shared.handler.state
        ∧ shared'.handler.engine = shared.handler.engine
        ∧ next.owesReport = call.owesReport)
      ∨ (next.owesReport = some shared'.engine.state
        ∧ shared'.handler.engine = shared.handler.engine)
      ∨ (∃ state,
          call.owesReport = some state
          ∧ shared'.engine.state = shared.engine.state
          ∧ shared'.handler.engine = shared.handler.engine
          ∧ (shared.engine.callbacksAttached = true → shared'.handler.state = state))
      ∨ (∃ desired bps,
          call = .attachPublish desired bps
          ∧ next = .attachDispatch desired
          ∧ spawned = []
          ∧ shared' = publish shared bps)
      ∨ (call.dispatchShare = 1 ∨ shared.handler.engine = false)
        ∧ shared'.handler.engine = shared.handler.engine := by
  cases taken
  case start => exact Or.inr (Or.inl ⟨rfl, rfl⟩)
  case pause => exact Or.inr (Or.inl ⟨rfl, rfl⟩)
  case cancel => exact Or.inr (Or.inl ⟨rfl, rfl⟩)
  case attachPublish desired bps =>
    exact Or.inr (Or.inr (Or.inr (Or.inl ⟨desired, bps, rfl, rfl, rfl, rfl⟩)))
  case startReport =>
    refine Or.inr (Or.inr (Or.inl
      ⟨.queued, rfl, rfl, Shared.callback_keeps SharedState.engine fun _ => rfl, ?_⟩))
    intro attached
    simp [Shared.reportState, Shared.callback, attached]
  case pauseReport =>
    refine Or.inr (Or.inr (Or.inl
      ⟨.paused, rfl, rfl, Shared.callback_keeps SharedState.engine fun _ => rfl, ?_⟩))
    intro attached
    simp [Shared.reportState, Shared.callback, attached]
  case cancelReport =>
    refine Or.inr (Or.inr (Or.inl
      ⟨.canceled, rfl, rfl, Shared.callback_keeps SharedState.engine fun _ => rfl, ?_⟩))
    intro attached
    simp [Shared.reportState, Shared.callback, attached]
  case wish detached _ => exact Or.inr (Or.inr (Or.inr (Or.inr ⟨Or.inr detached, rfl⟩)))
  case failBeforeEngineStart => exact Or.inr (Or.inr (Or.inr (Or.inr ⟨Or.inl rfl, rfl⟩)))
  case cancelCleanup => exact Or.inl ⟨by simp, by simp, by simp, rfl⟩
  all_goals
    refine Or.inl ⟨rfl, rfl, rfl, ?_⟩
    first | rfl | grind [owesReport]

/-- A promised start stays promised until the state of the engine has changed. -/
theorem Step.promises (taken : Step index shared call label shared' next spawned)
    (promised : call.startsEngine = true) (found : shared.engine.state = .initialized)
    : next.startsEngine = true ∨ next.owesReport = some shared'.engine.state := by
  cases taken
  case start => exact Or.inr rfl
  case refused next refused at_pc =>
    rcases at_pc with ⟨rfl, rfl⟩ | ⟨rfl, _⟩ | ⟨rfl, _⟩
    · simp [found, DownloadEngine.admits] at refused
    · cases promised
    · cases promised
  case attachDispatch desired entered =>
    rcases entered with ⟨rfl, _⟩ | ⟨rfl, _⟩ | ⟨_, rfl⟩ | ⟨other, _⟩
    · cases promised
    · cases promised
    · exact Or.inl rfl
    · cases desired <;> simp_all [startsEngine]
  all_goals first | cases promised | grind [startsEngine]

/-- The dispatch of a request is counted until the handler has its engine. -/
theorem Step.dispatches (taken : Step index shared call label shared' next spawned)
    : (next.dispatchShare ≤ call.dispatchShare
        ∧ shared'.handler.engine = shared.handler.engine)
      ∨ ∃ desired bps,
          call = .attachPublish desired bps
          ∧ next = .attachDispatch desired
          ∧ shared' = publish shared bps := by
  cases taken
  case attachPublish desired bps => exact Or.inr ⟨desired, bps, rfl, rfl, rfl⟩
  case startReport =>
    exact Or.inl ⟨by decide, Shared.callback_keeps SharedState.engine fun _ => rfl⟩
  case pauseReport =>
    exact Or.inl ⟨by decide, Shared.callback_keeps SharedState.engine fun _ => rfl⟩
  case cancelReport =>
    exact Or.inl ⟨by decide, Shared.callback_keeps SharedState.engine fun _ => rfl⟩
  case cancelCleanup => exact Or.inl ⟨by decide, by simp⟩
  all_goals
    refine Or.inl ⟨?_, rfl⟩
    first | decide | exact Int.le_refl _ | grind [dispatchShare]

/-- The callbacks stay installed, and are before the handler gets its engine. -/
theorem Step.attaching (taken : Step index shared call label shared' next spawned)
    : (shared.engine.callbacksAttached = true → shared'.engine.callbacksAttached = true)
      ∧ (next.attaching = true
        → call.attaching = true ∨ shared'.engine.callbacksAttached = true) := by
  cases taken
  case attachCallbacks => exact ⟨fun _ => rfl, fun _ => Or.inr rfl⟩
  case attachDesired => exact ⟨id, fun _ => Or.inl rfl⟩
  case attachSpeed => exact ⟨id, fun _ => Or.inl rfl⟩
  case cancelCleanup => exact ⟨by simp, fun starts => by cases starts⟩
  all_goals
    refine ⟨id, ?_⟩
    first | (intro after; cases after) | grind [Call.attaching]

end Call

namespace Sys

variable {meets : Sys → Action → Sys → Prop} {start sys : Sys}

-----------------------------------------------------------------------------------------
-- Attaching the engine
-----------------------------------------------------------------------------------------

/-- A request is dispatched once, and the callbacks are installed before the handler gets
its engine.
-/
structure Attaching (sys : Sys) : Prop where
  attached
    : sys.shared.handler.engine = true → sys.shared.engine.callbacksAttached = true
  attaching
    : ∀ call ∈ sys.calls,
        call.attaching = true → sys.shared.engine.callbacksAttached = true
  once
    : total Call.dispatchShare sys.calls + (if sys.shared.handler.engine then 1 else 0)
        ≤ if sys.dispatched then 1 else 0

/-- While the dispatch of the request is in progress, the handler has no engine. -/
theorem Attaching.detached (attaching : sys.Attaching) {call : Call}
    (member : call ∈ sys.calls) (dispatches : call.dispatchShare = 1)
    : sys.shared.handler.engine = false := by
  have own := share_le_total Call.dispatchShare_nonneg member
  have once := attaching.once
  rw [dispatches] at own
  cases engine : sys.shared.handler.engine with
  | false => rfl
  | true =>
      rw [engine, if_pos rfl] at once
      split at once <;> omega

theorem ReachableWhile.attaching (built : start.Built)
    (reached : ReachableWhile meets start sys)
    : sys.Attaching := by
  refine invariant_of_steps reached ?_ ?_ ?_ ?_
  · constructor
    case once =>
      rw [built.calls, built.handler]
      cases start.dispatched <;> decide
    all_goals simp [built.handler, built.calls]
  · intro sys index worker next label shared _ _ attaching _ taken _
    obtain ⟨engine, callbacks⟩ := taken.attached
    constructor <;> simp only [engine, callbacks]
    case attached => exact attaching.attached
    case attaching => exact attaching.attaching
    case once => exact attaching.once
  · intro sys index call next label shared spawned _ _ attaching found taken _
    have member := List.mem_of_getElem? found
    obtain ⟨kept, enters⟩ := taken.attaching
    constructor
    case attached =>
      intro engine
      rcases taken.dispatches with ⟨_, same⟩ | ⟨_, _, rfl, _⟩
      · exact kept (attaching.attached (same ▸ engine))
      · exact kept (attaching.attaching _ member rfl)
    case attaching =>
      refine forall_set
        (fun other old inside => kept (attaching.attaching other old inside)) ?_
      intro inside
      exact (enters inside).elim
        (fun before => kept (attaching.attaching call member before)) id
    case once =>
      have before := attaching.once
      rw [total_set _ found]
      rcases taken.dispatches with ⟨fewer, same⟩ | ⟨_, _, rfl, rfl, rfl⟩
      · simp only [same]
        omega
      · have unattached := attaching.detached member rfl
        simp only [unattached, Bool.false_eq_true, if_false] at before
        simp only [Call.dispatchShare, Call.publish, if_true]
        omega
  · intro sys api _ attaching allowed _
    refine ⟨attaching.attached, ?_, ?_⟩
    · intro call member inside
      rcases mem_snoc_cases member with old | rfl
      · exact attaching.attaching call old inside
      · cases api <;> cases inside
    · have once := attaching.once
      rw [total_append, total_singleton, Api.entry_dispatchShare]
      cases dispatches : api.dispatches with
      | false =>
          rw [Bool.or_false]
          simpa using once
      | true =>
          rw [allowed dispatches] at once
          simp only [Bool.or_true, if_true, Bool.false_eq_true, if_false] at once ⊢
          omega

-----------------------------------------------------------------------------------------
-- The two states over whole runs
-----------------------------------------------------------------------------------------

/-- No call and no callback is in progress. -/
def Settled (sys : Sys) : Prop :=
  (∀ call ∈ sys.calls, call = .returned true ∨ call = .returned false)
  ∧ ∀ worker ∈ sys.workers, worker.pc.owesReport = none

instance (sys : Sys) : Decidable sys.Settled := by
  unfold Settled
  infer_instance

/-- A settled handler with an engine shows the state of the engine. -/
def HandlerAgrees (sys : Sys) : Prop :=
  sys.Settled
  → sys.shared.handler.engine = true
  → sys.shared.handler.state = sys.shared.engine.state

instance (sys : Sys) : Decidable sys.HandlerAgrees := by
  unfold HandlerAgrees
  infer_instance

-----------------------------------------------------------------------------------------
-- What a handler may show of an engine
-----------------------------------------------------------------------------------------

section Follows

variable {shows : DownloadState → DownloadState → Prop}

/-- A report that the handler may show in the engine's state is on its way. -/
def Reports (shows : DownloadState → DownloadState → Prop) (sys : Sys) : Prop :=
  (∃ worker ∈ sys.workers,
    ∃ state ∈ worker.pc.owesReport, shows state sys.shared.engine.state)
  ∨ ∃ call ∈ sys.calls, ∃ state ∈ call.owesReport, shows state sys.shared.engine.state

instance [DecidableRel shows] (sys : Sys) : Decidable (sys.Reports shows) := by
  unfold Reports
  infer_instance

/-- A call that gives the handler its engine finds a state that the handler may show, a
report on its way, or is about to make a start that will be accepted.
-/
def AttachesShowing (shows : DownloadState → DownloadState → Prop) (sys : Sys) : Call → Prop
  | .attachPublish desired _ =>
      shows sys.shared.handler.state sys.shared.engine.state
      ∨ sys.Reports shows
      ∨ (desired = .queued ∧ sys.shared.engine.state = .initialized)
  | _ => True

instance [DecidableRel shows] (sys : Sys) (call : Call)
    : Decidable (sys.AttachesShowing shows call) := by
  unfold AttachesShowing
  cases call <;> infer_instance

/-- A report that the handler may not show does not come last, and a handler gets its engine
in a state that it may show.
-/
def ShowsInOrder (shows : DownloadState → DownloadState → Prop) (before : Sys)
    (action : Action)
    : Prop :=
  match action with
  | .worker index _ =>
      ∀ worker ∈ before.workers[index]?,
        worker.pc.reports = true
        → ∀ state ∈ worker.pc.owesReport,
            ¬ shows state before.shared.engine.state → before.Reports shows
  | .call index _ =>
      ∀ call ∈ before.calls[index]?,
        (∀ state ∈ call.owesReport,
          ¬ shows state before.shared.engine.state → before.Reports shows)
        ∧ before.AttachesShowing shows call
  | .invoke _ => True

instance [DecidableRel shows] (before : Sys) (action : Action)
    : Decidable (ShowsInOrder shows before action) :=
  match action with
  | .worker .. | .call .. | .invoke .. => by unfold ShowsInOrder; infer_instance

/-- The handler of an engine shows what it may, or will. -/
def Follows (shows : DownloadState → DownloadState → Prop) (sys : Sys) : Prop :=
  sys.shared.handler.engine = true
  → shows sys.shared.handler.state sys.shared.engine.state
    ∨ sys.Reports shows
    ∨ (sys.shared.engine.state = .initialized
      ∧ ∃ call ∈ sys.calls, call.startsEngine = true)

/-- Reports on their way stay on their way past a step of a worker that does not make one of
them.
-/
theorem Reports.worker_step (reports : sys.Reports shows) {index : Nat}
    {worker next : Worker} {shared : Shared} (found : sys.workers[index]? = some worker)
    (same : shared.engine.state = sys.shared.engine.state)
    (keeps
      : ∀ state ∈ worker.pc.owesReport,
          shows state sys.shared.engine.state → next.pc.owesReport = worker.pc.owesReport)
    : Reports shows { sys with shared, workers := sys.workers.set index next } := by
  rw [Reports]
  simp only [same]
  refine reports.imp_left fun owing => exists_set_of_keeps found owing ?_
  rintro ⟨state, owes, allowed⟩
  exact ⟨state, by rw [keeps state owes allowed]; exact owes, allowed⟩

theorem Reports.call_step (reports : sys.Reports shows) {index : Nat} {call next : Call}
    {shared : Shared} {spawned : List Worker} (found : sys.calls[index]? = some call)
    (same : shared.engine.state = sys.shared.engine.state)
    (keeps
      : ∀ state ∈ call.owesReport,
          shows state sys.shared.engine.state → next.owesReport = call.owesReport)
    : Reports shows { sys with
        shared
        workers := sys.workers ++ spawned
        calls := sys.calls.set index next } := by
  rw [Reports]
  simp only [same]
  refine reports.imp ?_ fun owing => exists_set_of_keeps found owing ?_
  · rintro ⟨worker, member, owes⟩
    exact ⟨worker, List.mem_append_left _ member, owes⟩
  · rintro ⟨state, owes, allowed⟩
    exact ⟨state, by rw [keeps state owes allowed]; exact owes, allowed⟩

theorem Follows.worker_step (refl : ∀ state, shows state state) (follows : sys.Follows shows)
    (attaching : sys.Attaching) {index : Nat} {worker next : Worker} {label : WorkerLabel}
    {shared : Shared} (found : sys.workers[index]? = some worker)
    (taken : worker.Step sys.shared label shared next)
    (ordered
      : worker.pc.reports = true
        → ∀ state ∈ worker.pc.owesReport,
            ¬ shows state sys.shared.engine.state → sys.Reports shows)
    : Follows shows { sys with shared, workers := sys.workers.set index next } := by
  intro engine
  simp only [taken.attached.1] at engine
  rcases taken.reports with
    ⟨same, handler, owes⟩ | owes | ⟨state, reports, owes, same, shown⟩
  · simp only [same, handler]
    rcases follows engine with allowed | reporting | promised
    · exact Or.inl allowed
    · exact Or.inr (Or.inl (reporting.worker_step found same fun _ _ _ => owes))
    · exact Or.inr (Or.inr promised)
  · exact Or.inr (Or.inl (Or.inl ⟨next, mem_set_self found, _, owes, refl _⟩))
  · have now := shown (attaching.attached engine)
    by_cases allowed : shows state sys.shared.engine.state
    · exact Or.inl (by simpa only [now, same] using allowed)
    · refine Or.inr (Or.inl ((ordered reports state owes allowed).worker_step found same ?_))
      intro other owed also
      obtain rfl : state = other := Option.some.inj (owes.symm.trans owed)
      exact absurd also allowed

theorem Follows.call_step (refl : ∀ state, shows state state) (follows : sys.Follows shows)
    (attaching : sys.Attaching) {index : Nat} {call next : Call} {label : CallLabel}
    {shared : Shared} {spawned : List Worker} (found : sys.calls[index]? = some call)
    (taken : Call.Step index sys.shared call label shared next spawned)
    (ordered
      : ∀ state ∈ call.owesReport,
          ¬ shows state sys.shared.engine.state → sys.Reports shows)
    (attaches : sys.AttachesShowing shows call)
    : Follows shows { sys with
        shared
        workers := sys.workers ++ spawned
        calls := sys.calls.set index next } := by
  have member := List.mem_of_getElem? found
  intro engine
  simp only at engine
  rcases taken.reports with
    ⟨same, handler, attached, owes⟩ | ⟨owes, attached⟩ | ⟨state, owes, same, attached, shown⟩
      | ⟨desired, bps, rfl, rfl, rfl, rfl⟩ | ⟨fails | detached, attached⟩
  · simp only [same, handler]
    rcases follows (attached ▸ engine) with allowed | reporting | ⟨initialized, promised⟩
    · exact Or.inl allowed
    · exact Or.inr (Or.inl (reporting.call_step found same fun _ _ _ => owes))
    · rcases exists_set found promised (fun starts => taken.promises starts initialized) with
        still | owed
      · exact Or.inr (Or.inr ⟨initialized, still⟩)
      · rw [same] at owed
        refine Or.inr (Or.inl (Or.inr ⟨next, mem_set_self found, _, owed, ?_⟩))
        simpa only [same] using refl sys.shared.engine.state
  · exact Or.inr (Or.inl (Or.inr ⟨next, mem_set_self found, _, owes, refl _⟩))
  · have now := shown (attaching.attached (attached ▸ engine))
    by_cases allowed : shows state sys.shared.engine.state
    · exact Or.inl (by simpa only [now, same] using allowed)
    · refine Or.inr (Or.inl ((ordered state owes allowed).call_step found same ?_))
      intro other owed also
      obtain rfl : state = other := Option.some.inj (owes.symm.trans owed)
      exact absurd also allowed
  · rcases attaches with allowed | reporting | ⟨rfl, initialized⟩
    · exact Or.inl allowed
    · refine Or.inr (Or.inl (reporting.call_step found rfl ?_))
      intro state owes
      cases owes
    · exact Or.inr (Or.inr ⟨initialized, _, mem_set_self found, rfl⟩)
  · simp [attached, attaching.detached member fails] at engine
  · simp [attached, detached] at engine

/-- By induction on the run. -/
theorem ReachableWhile.follows (refl : ∀ state, shows state state) (built : start.Built)
    (ordered
      : ∀ before action after, meets before action after → ShowsInOrder shows before action)
    (reached : ReachableWhile meets start sys)
    : sys.Follows shows := by
  refine invariant reached ?_ ?_ ?_ ?_
  · simp [Follows, built.handler]
  · intro sys index worker next label shared earlier _ follows found taken met
    exact follows.worker_step refl (earlier.attaching built) found taken
      (ordered _ _ _ met worker found)
  · intro sys index call next label shared spawned earlier _ follows found taken met
    obtain ⟨inOrder, attaches⟩ := ordered _ _ _ met call found
    exact follows.call_step refl (earlier.attaching built) found taken inOrder attaches
  · intro sys api dispatched _ follows engine
    rcases follows engine with allowed | owing | ⟨initialized, call, member, starts⟩
    · exact Or.inl allowed
    · refine Or.inr (Or.inl (owing.imp id ?_))
      rintro ⟨call, member, owes⟩
      exact ⟨call, List.mem_append_left _ member, owes⟩
    · exact Or.inr (Or.inr ⟨initialized, call, List.mem_append_left _ member, starts⟩)

/-- At rest nothing is on its way, so the handler shows what it may. -/
theorem Follows.at_rest (follows : sys.Follows shows) (settled : sys.Settled)
    (engine : sys.shared.handler.engine = true)
    : shows sys.shared.handler.state sys.shared.engine.state := by
  refine (follows engine).resolve_right ?_
  rintro ((⟨worker, member, _, owes, _⟩ | ⟨call, member, _, owes, _⟩)
    | ⟨_, call, member, starts⟩)
  · simp [settled.2 worker member] at owes
  · rcases settled.1 call member with rfl | rfl <;> cases owes
  · rcases settled.1 call member with rfl | rfl <;> cases starts

end Follows

-----------------------------------------------------------------------------------------
-- A handler that shows the state itself
-----------------------------------------------------------------------------------------

/-- The state shown last is the engine's: a report of another one does not come last, and a
handler gets its engine with equal states.
-/
def ReportsInOrder (before : Sys) (action : Action) (_ : Sys) : Prop :=
  ShowsInOrder (· = ·) before action

instance (before : Sys) (action : Action) (after : Sys)
    : Decidable (ReportsInOrder before action after) :=
  inferInstanceAs (Decidable (ShowsInOrder (· = ·) before action))

/-- Where reports arrive in order and the engine is attached with equal states, a settled
handler agrees with its engine.
-/
theorem handler_agrees (built : start.Built)
    (reached : ReachableWhile ReportsInOrder start sys)
    : sys.HandlerAgrees := by
  intro settled engine
  have follows : sys.Follows (· = ·) :=
    reached.follows (fun _ => rfl) built (fun _ _ _ ordered => ordered)
  exact follows.at_rest settled engine

open Muld.Action in
/-- A `Resume` before the engine is attached starts the download, and a worker reports it. -/
theorem handler_agrees_two_chunks
    : ∃ sys : Sys,
        sys.shared.engine.state = .downloading ∧ sys.shared.handler.state = .downloading := by
  obtain ⟨sys, reached, holds⟩ :=
    exists_reachable ReportsInOrder twoChunks
      ([.invoke .handlerResume] ++ callRuns 0 1 ++ [.invoke .attachEngine] ++ callRuns 1 19
        ++ workerRuns 0 4)
      (fun sys =>
        decide sys.Settled
          && sys.shared.handler.engine
          && decide (sys.shared.engine.state = .downloading))
      (by decide +kernel)
  simp only [Bool.and_eq_true, decide_eq_true_iff] at holds
  obtain ⟨⟨settled, engine⟩, downloading⟩ := holds
  exact ⟨sys, downloading,
    (handler_agrees twoChunks_built reached settled engine).trans downloading⟩

open Muld.Action in
/-- A `Pause` before the engine is attached is shown by the handler, and the engine refuses it
when it is attached: it stays initialized.
-/
theorem handler_disagrees
    : ¬ ∀ start sys : Sys, start.Built → Reachable start sys → sys.HandlerAgrees := by
  intro agrees
  obtain ⟨sys, reached, differs⟩ :=
    exists_reachable Transition.anyStep twoChunks
      ([.invoke .handlerPause] ++ callRuns 0 1 ++ [.invoke .attachEngine] ++ callRuns 1 6)
      (fun sys => !decide sys.HandlerAgrees)
      (by decide +kernel)
  have disagrees : ¬ sys.HandlerAgrees := by simpa using differs
  exact disagrees (agrees _ _ twoChunks_built reached)

end Sys

end Muld
