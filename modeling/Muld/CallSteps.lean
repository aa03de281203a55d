import Muld.Calls

/-! Everything a call can do in one step, said once. -/

namespace Muld

namespace Call

/-- The steps of a call, one constructor for each branch of the source. -/
inductive Step (index : Nat) (shared : Shared)
    : Call → CallLabel → Shared → Call → List Worker → Prop
  | start (admitted : DownloadEngine.admits .queued shared.engine.state = true)
    : Step index shared .startSet .run
        { shared with
          engine := { shared.engine with state := .queued }
          history := { shared.history with
            startAccepted := true, lastCancel := none, undisturbed := false } }
        .startReport []
  | startReport
    : Step index shared .startReport .run (shared.reportState .queued) .drain []
  | drained (idle : shared.engine.scheduledConnections = 0)
    : Step index shared .drain .run shared .resetBudget []
  | resetBudget
    : Step index shared .resetBudget .run
        (shared.onEngine fun engine => { engine with releaseBudget := 0 }) .rebuild []
  | rebuild
    : Step index shared .rebuild .run
        ((shared.onEngine .rebuildPending).onHistory
          fun history => { history with undisturbed := false })
        (.resetNext (finishedCount shared.engine.chunksInfo)) []
  | resetNext (finished : Nat)
    : Step index shared (.resetNext finished) .run (shared.onEngine .resetNext)
        (.resetCount finished) []
  | resetCount (finished : Nat)
    : Step index shared (.resetCount finished) .run
        ((shared.onEngine (.resetCount finished)).onHistory
          fun history => { history with built := true, undisturbed := true })
        .planState []
  | planActive (positive : 0 < shared.maxThreads) (active : shared.engine.active = true)
    : Step index shared .planState .run shared .planScheduled []
  | planInactive
    : Step index shared .planState .run shared (.returned true) []
  | planScheduled
    : Step index shared .planScheduled .run shared
        (.planDesired shared.engine.scheduledConnections) []
  | planDesired (scheduled toAdd : Int) (positive : 0 < toAdd)
      (below : scheduled + toAdd ≤ shared.engine.desiredConnections)
    : Step index shared (.planDesired scheduled) .run shared (.planCas scheduled toAdd) []
  | planEnough (scheduled : Int)
    : Step index shared (.planDesired scheduled) .run shared (.returned true) []
  | plan (scheduled toAdd : Int) (found : shared.engine.scheduledConnections = scheduled)
    : Step index shared (.planCas scheduled toAdd) .run
        (shared.onEngine fun engine =>
          { engine with scheduledConnections := scheduled + toAdd })
        (.enqueue toAdd.toNat) []
  | planLost (scheduled toAdd : Int)
      (found : shared.engine.scheduledConnections ≠ scheduled)
    : Step index shared (.planCas scheduled toAdd) .run shared .planScheduled []
  | enqueued : Step index shared (.enqueue 0) .run shared (.returned true) []
  | enqueue (count : Nat)
    : Step index shared (.enqueue (count + 1)) .run shared (.enqueue count) [{}]
  | pause (admitted : DownloadEngine.admits .paused shared.engine.state = true)
    : Step index shared .pauseSet .run
        { shared with
          engine := { shared.engine with state := .paused }
          history := { shared.history with undisturbed := false } }
        .pauseReport []
  | pauseReport
    : Step index shared .pauseReport .run (shared.reportState .paused) (.returned true) []
  | cancel (admitted : DownloadEngine.admits .canceled shared.engine.state = true)
    : Step index shared .cancelSet .run
        { shared with
          engine := { shared.engine with state := .canceled }
          history := { shared.history with
            cancelAccepted := true, lastCancel := some index, undisturbed := false } }
        .cancelReport []
  | cancelReport
    : Step index shared .cancelReport .run (shared.reportState .canceled) .cancelCheck []
  | cancelIdle (idle : shared.engine.nConnections = 0)
    : Step index shared .cancelCheck .run shared .cancelCleanup []
  | cancelBusy (busy : shared.engine.nConnections ≠ 0)
    : Step index shared .cancelCheck .run shared (.returned true) []
  | cancelCleanup (unlocked : shared.engine.diskLocked = false)
    : Step index shared .cancelCleanup .run (shared.cleanupArtifacts true)
        (.returned true) []
  | refused (call : Call) (next : DownloadState)
      (at_pc
        : call = .startSet ∧ next = .queued
          ∨ call = .pauseSet ∧ next = .paused
          ∨ call = .cancelSet ∧ next = .canceled)
      (refused : DownloadEngine.admits next shared.engine.state = false)
    : Step index shared call .run shared (.returned false) []
  | lock (terminate : Bool) (unlocked : shared.engine.diskLocked = false)
    : Step index shared (.storeLock terminate) .run shared.lockDisk
        (.storeScan terminate []) []
  | scan (terminate : Bool) (scan : List ChunkState) (chunk : ChunkInfo)
      (found : shared.engine.chunksInfo[scan.length]? = some chunk)
    : Step index shared (.storeScan terminate scan) .run shared
        (.storeScan terminate (scan ++ [chunk.toState])) []
  | scanned (terminate : Bool) (scan : List ChunkState)
      (found : shared.engine.chunksInfo[scan.length]? = none)
    : Step index shared (.storeScan terminate scan) .run shared
        (.storeWrite terminate scan) []
  | store (scan : List ChunkState) (outcome : StoreOutcome)
      (open_ : shared.engine.writer = true)
    : Step index shared (.storeWrite false scan) (.stored outcome)
        (shared.storeImage scan outcome) (.returned true) []
  | storeTerminate (scan : List ChunkState) (outcome : StoreOutcome)
      (open_ : shared.engine.writer = true)
    : Step index shared (.storeWrite true scan) (.stored outcome)
        (shared.storeImage scan outcome) .pauseSet []
  | nullWriter (terminate : Bool) (scan : List ChunkState) (outcome : StoreOutcome)
      (closed : shared.engine.writer = false)
    : Step index shared (.storeWrite terminate scan) (.stored outcome)
        { shared with nullWriter := true } (.storeWrite terminate scan) []
  | terminateOpen (open_ : shared.engine.nDownloadedChunks ≠ shared.engine.nChunks)
    : Step index shared .terminateCount .run shared (.terminateState finishedStates) []
  | terminateNext (finished : DownloadState) (rest : List DownloadState)
      (found : shared.engine.state ≠ finished)
    : Step index shared (.terminateState (finished :: rest)) .run shared
        (.terminateState rest) []
  | terminateStore
    : Step index shared (.terminateState []) .run shared (.storeLock true) []
  | terminateFinished (call : Call)
      (at_pc : call = .terminateCount ∨ ∃ states, call = .terminateState states)
    : Step index shared call .run shared (.returned true) []
  | bounds (minConnections maxConnections : Int)
    : Step index shared (.bounds minConnections maxConnections) .run
        (shared.onEngine (.setBounds minConnections maxConnections))
        (.desire shared.engine.desiredConnections) []
  | desireDown (desired : Int) (lowered : 0 < (shared.engine.exchangeDesired desired).1)
    : Step index shared (.desire desired) .run
        { shared with engine := (shared.engine.exchangeDesired desired).2 }
        (.addBudget (shared.engine.exchangeDesired desired).1) []
  | desireUp (desired : Int) (kept : ¬ 0 < (shared.engine.exchangeDesired desired).1)
    : Step index shared (.desire desired) .run
        { shared with engine := (shared.engine.exchangeDesired desired).2 }
        (.returned true) []
  | addBudget (lowered : Int)
    : Step index shared (.addBudget lowered) .run
        (shared.onEngine fun engine =>
          { engine with releaseBudget := wrapInt (engine.releaseBudget + lowered) })
        (.returned true) []
  | speedLimit (bps : Nat)
    : Step index shared (.speedLimit bps) .run
        (shared.onEngine fun engine => { engine with speedLimitBps := bps })
        (.returned true) []
  /-- A handler command without an engine is only recorded. -/
  | wish (call : Call) (wanted : DownloadState)
      (at_pc
        : call = .handlerPause ∧ wanted = .paused
          ∨ call = .handlerResume ∧ wanted = .queued
          ∨ call = .handlerCancel ∧ wanted = .canceled)
      (detached : shared.handler.engine = false)
    : Step index shared call .run (wish shared wanted) (.returned true) []
  | forward (call engineCall : Call) (wanted : DownloadState)
      (at_pc
        : call = .handlerPause ∧ wanted = .paused ∧ engineCall = .pauseSet
          ∨ call = .handlerResume ∧ wanted = .queued ∧ engineCall = .startSet
          ∨ call = .handlerCancel ∧ wanted = .canceled ∧ engineCall = .cancelSet)
      (attached : shared.handler.engine = true)
    : Step index shared call .run
        { shared with handler := { shared.handler with desiredState := wanted } }
        engineCall []
  | handlerSpeedLimit (bps : Nat) (next : Call)
      (entered : next = .speedLimit bps ∨ next = .returned true)
    : Step index shared (.handlerSpeedLimit bps) .run
        { shared with handler := { shared.handler with desiredSpeedLimitBps := bps } }
        next []
  | attachCallbacks
    : Step index shared .attachCallbacks .run
        (shared.onEngine fun engine => { engine with callbacksAttached := true })
        .attachDesired []
  | attachDesired
    : Step index shared .attachDesired .run shared
        (.attachSpeed shared.handler.desiredState) []
  | attachSpeed (desired : DownloadState)
    : Step index shared (.attachSpeed desired) .run shared
        (.attachPublish desired shared.handler.desiredSpeedLimitBps) []
  | attachPublish (desired : DownloadState) (bps : Nat)
    : Step index shared (.attachPublish desired bps) .run (publish shared bps)
        (.attachDispatch desired) []
  | attachDispatch (desired : DownloadState) (next : Call)
      (entered
        : desired = .canceled ∧ next = .cancelSet
          ∨ desired = .paused ∧ next = .pauseSet
          ∨ desired = .queued ∧ next = .startSet
          ∨ desired ≠ .queued ∧ next = .returned true)
    : Step index shared (.attachDispatch desired) .run shared next []
  | failBeforeEngineStart (error : MuldError)
    : Step index shared (.failBeforeEngineStart error) .run
        { shared with handler := { shared.handler with
            error, state := .failed, desiredState := .failed } }
        (.returned true) []

/-- Without an engine a command also sets the state of the handler. -/
theorem wish_attached {shared : Shared} (wanted : DownloadState)
    (attached : shared.handler.engine = true)
    : wish shared wanted
        = { shared with handler := { shared.handler with desiredState := wanted } } := by
  simp [wish, attached]

/-- Every step of a call is one of the listed ones, by cases on the program point. -/
theorem step_cases {index : Nat} {shared shared' : Shared} {call call' : Call}
    {label : CallLabel} {spawned : List Worker}
    (taken : call.step index shared label = some (shared', call', spawned))
    : Step index shared call label shared' call' spawned := by
  cases label with
  | stored outcome =>
      cases call <;> simp only [step] at taken
      case storeWrite terminate scan =>
        split at taken
        · cases terminate <;> cases taken
          · exact .store scan outcome ‹_›
          · exact .storeTerminate scan outcome ‹_›
        · cases taken
          exact .nullWriter terminate scan outcome (eq_false_of_ne_true ‹_›)
      all_goals cases taken
  | run =>
      cases call <;> simp only [step] at taken
      case startSet =>
        split at taken
        · rename_i found
          obtain ⟨admitted, rfl⟩ := DownloadEngine.setState_eq_some_iff.mp found
          cases taken
          exact .start admitted
        · rename_i found
          cases taken
          exact .refused _ .queued (.inl ⟨rfl, rfl⟩)
            (DownloadEngine.setState_eq_none_iff.mp found)
      case startReport => cases taken; exact .startReport
      case drain =>
        split at taken <;> cases taken
        exact .drained ‹_›
      case resetBudget => cases taken; exact .resetBudget
      case rebuild => cases taken; exact .rebuild
      case resetNext finished => cases taken; exact .resetNext finished
      case resetCount finished => cases taken; exact .resetCount finished
      case planState =>
        split at taken
        · rename_i both
          cases taken
          exact .planActive both.1 both.2
        · cases taken
          exact .planInactive
      case planScheduled => cases taken; exact .planScheduled
      case planDesired scheduled =>
        split at taken
        · rename_i both
          cases taken
          exact .planDesired scheduled _ both.2 (by omega)
        · cases taken
          exact .planEnough scheduled
      case planCas scheduled toAdd =>
        split at taken <;> cases taken
        · exact .plan scheduled toAdd ‹_›
        · exact .planLost scheduled toAdd ‹_›
      case enqueue count =>
        cases count <;> cases taken
        · exact .enqueued
        · exact .enqueue _
      case pauseSet =>
        split at taken
        · rename_i found
          obtain ⟨admitted, rfl⟩ := DownloadEngine.setState_eq_some_iff.mp found
          cases taken
          exact .pause admitted
        · rename_i found
          cases taken
          exact .refused _ .paused (.inr (.inl ⟨rfl, rfl⟩))
            (DownloadEngine.setState_eq_none_iff.mp found)
      case pauseReport => cases taken; exact .pauseReport
      case cancelSet =>
        split at taken
        · rename_i found
          obtain ⟨admitted, rfl⟩ := DownloadEngine.setState_eq_some_iff.mp found
          cases taken
          exact .cancel admitted
        · rename_i found
          cases taken
          exact .refused _ .canceled (.inr (.inr ⟨rfl, rfl⟩))
            (DownloadEngine.setState_eq_none_iff.mp found)
      case cancelReport => cases taken; exact .cancelReport
      case cancelCheck =>
        split at taken <;> cases taken
        · exact .cancelIdle ‹_›
        · exact .cancelBusy ‹_›
      case cancelCleanup =>
        split at taken <;> cases taken
        exact .cancelCleanup (eq_false_of_ne_true ‹_›)
      case storeLock terminate =>
        split at taken <;> cases taken
        exact .lock terminate (eq_false_of_ne_true ‹_›)
      case storeScan terminate scan =>
        split at taken <;> cases taken
        · exact .scan terminate scan _ ‹_›
        · exact .scanned terminate scan ‹_›
      case terminateCount =>
        split at taken <;> cases taken
        · exact .terminateFinished _ (.inl rfl)
        · exact .terminateOpen ‹_›
      case terminateState states =>
        cases states with
        | nil => cases taken; exact .terminateStore
        | cons finished rest =>
            simp only at taken
            split at taken <;> cases taken
            · exact .terminateFinished _ (.inr ⟨_, rfl⟩)
            · exact .terminateNext finished rest ‹_›
      case bounds minConnections maxConnections =>
        cases taken
        exact .bounds minConnections maxConnections
      case desire desired =>
        by_cases lowered : 0 < (shared.engine.exchangeDesired desired).1
        · rw [if_pos lowered] at taken
          cases taken
          exact .desireDown desired lowered
        · rw [if_neg lowered] at taken
          cases taken
          exact .desireUp desired lowered
      case addBudget lowered => cases taken; exact .addBudget lowered
      case speedLimit bps => cases taken; exact .speedLimit bps
      case handlerPause =>
        cases attached : shared.handler.engine <;> simp only [attached] at taken <;>
          cases taken
        · exact .wish _ .paused (.inl ⟨rfl, rfl⟩) attached
        · rw [wish_attached _ attached]
          exact .forward _ _ .paused (.inl ⟨rfl, rfl, rfl⟩) attached
      case handlerResume =>
        cases attached : shared.handler.engine <;> simp only [attached] at taken <;>
          cases taken
        · exact .wish _ .queued (.inr (.inl ⟨rfl, rfl⟩)) attached
        · rw [wish_attached _ attached]
          exact .forward _ _ .queued (.inr (.inl ⟨rfl, rfl, rfl⟩)) attached
      case handlerCancel =>
        cases attached : shared.handler.engine <;> simp only [attached] at taken <;>
          cases taken
        · exact .wish _ .canceled (.inr (.inr ⟨rfl, rfl⟩)) attached
        · rw [wish_attached _ attached]
          exact .forward _ _ .canceled (.inr (.inr ⟨rfl, rfl, rfl⟩)) attached
      case handlerSpeedLimit bps =>
        cases taken
        exact .handlerSpeedLimit bps _ (by split <;> simp)
      case attachCallbacks => cases taken; exact .attachCallbacks
      case attachDesired => cases taken; exact .attachDesired
      case attachSpeed desired => cases taken; exact .attachSpeed desired
      case attachPublish desired bps => cases taken; exact .attachPublish desired bps
      case attachDispatch desired =>
        cases taken
        cases desired
        case canceled => exact .attachDispatch _ _ (.inl ⟨rfl, rfl⟩)
        case paused => exact .attachDispatch _ _ (.inr (.inl ⟨rfl, rfl⟩))
        case queued => exact .attachDispatch _ _ (.inr (.inr (.inl ⟨rfl, rfl⟩)))
        all_goals exact .attachDispatch _ _ (.inr (.inr (.inr ⟨by decide, rfl⟩)))
      case failBeforeEngineStart error => cases taken; exact .failBeforeEngineStart error
      all_goals cases taken

end Call

end Muld
