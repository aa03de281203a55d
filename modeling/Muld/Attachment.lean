import Muld.Mirroring

/-! The engine before the handler has it. The handler is the only owner of the engine that
starts it, so up to that point no worker exists and the engine is `Initialized`.
-/

namespace Muld

open Threads

/-- The engine is started and resumed through its handler only. -/
def Action.ThroughHandler (action : Action) : Prop :=
  action ≠ .invoke .start ∧ action ≠ .invoke .resume

instance (action : Action) : Decidable action.ThroughHandler := by
  unfold Action.ThroughHandler
  infer_instance

/-- Every step keeps the engine behind its handler. -/
def HandlerRun (_ : Sys) (action : Action) (_ : Sys) : Prop := action.ThroughHandler

instance (before : Sys) (action : Action) (after : Sys)
    : Decidable (HandlerRun before action after) := by
  unfold HandlerRun
  infer_instance

/-- The program points that only a call on an attached engine reaches. -/
def Call.attached : Call → Bool
  | .startSet | .startReport | .drain | .resetBudget | .rebuild | .resetNext _ | .resetCount _
  | .planScheduled | .planDesired _ | .planCas _ _ | .enqueue _ | .attachDispatch _ => true
  | _ => false

/-- One if the call ends the request: it will install the callbacks or fail. -/
def Call.openingShare : Call → Int
  | .attachCallbacks | .failBeforeEngineStart _ => 1
  | _ => 0

theorem Call.openingShare_nonneg (call : Call) : 0 ≤ call.openingShare := by
  unfold openingShare
  split <;> decide

/-- A method counts as the end of the request from its first program point on. -/
theorem Api.entry_openingShare (api : Api)
    : api.entry.openingShare = if api.dispatches then 1 else 0 := by
  cases api <;> rfl

/-- Through the handler no method enters where it needs an attached engine. -/
theorem Api.entry_attached {api : Api} (through : (Action.invoke api).ThroughHandler)
    : api.entry.attached = false := by
  cases api
  case start => exact absurd rfl through.1
  case resume => exact absurd rfl through.2
  all_goals rfl

namespace Call

variable {index : Nat} {shared shared' : Shared} {call next : Call} {label : CallLabel}
  {spawned : List Worker}

/-- A call that finds the engine initialized and without a handler leaves it so, unless it
gives it to the handler.
-/
theorem Step.unattached (taken : Step index shared call label shared' next spawned)
    (outside : call.attached = false) (initialized : shared.engine.state = .initialized)
    (detached : shared.handler.engine = false) (after : shared'.handler.engine = false)
    : next.attached = false ∧ shared'.engine.state = .initialized ∧ spawned = [] := by
  cases taken
  case planActive active => simp [DownloadEngine.active, initialized] at active
  case pause admitted => simp [DownloadEngine.admits, initialized] at admitted
  case cancel admitted => simp [DownloadEngine.admits, initialized] at admitted
  case forward attached _ => simp [detached] at attached
  case attachPublish => cases after
  case handlerSpeedLimit entered =>
    rcases entered with rfl | rfl <;> exact ⟨rfl, initialized, rfl⟩
  case cancelCleanup => exact ⟨rfl, by simpa using initialized, rfl⟩
  all_goals first | exact ⟨rfl, initialized, rfl⟩ | cases outside

/-- The callbacks are installed by the call that ends the request. -/
theorem Step.opening (taken : Step index shared call label shared' next spawned)
    : (next.openingShare ≤ call.openingShare
        ∧ shared'.engine.callbacksAttached = shared.engine.callbacksAttached)
      ∨ (call = .attachCallbacks
        ∧ next = .attachDesired
        ∧ shared'.engine.callbacksAttached = true) := by
  cases taken
  case attachCallbacks => exact Or.inr ⟨rfl, rfl, rfl⟩
  case cancelCleanup => exact Or.inl ⟨by decide, by simp⟩
  all_goals
    refine Or.inl ⟨?_, rfl⟩
    first | decide | exact Int.le_refl _ | grind [openingShare]

end Call

namespace Sys

variable {meets : Sys → Action → Sys → Prop} {start sys : Sys}

/-- Nothing has happened to the engine. -/
structure Unattached (sys : Sys) : Prop where
  state : sys.shared.engine.state = .initialized
  workers : sys.workers = []
  outside : ∀ call ∈ sys.calls, call.attached = false

/-- Nothing happens to the engine before the handler has it. -/
def OpensUnattached (sys : Sys) : Prop :=
  sys.shared.handler.engine = false → sys.Unattached

/-- By induction on the run. -/
theorem ReachableWhile.opensUnattached (built : start.Built)
    (reached : ReachableWhile meets start sys)
    (through : ∀ before action after, meets before action after → action.ThroughHandler)
    : sys.OpensUnattached := by
  refine invariant_of_steps reached ?_ ?_ ?_ ?_
  · intro _
    exact ⟨built.state, built.workers, by simp [built.calls]⟩
  · intro sys index worker next label shared _ _ opens found taken _ detached
    simp only [taken.attached.1] at detached
    simp [(opens detached).workers] at found
  · intro sys index call next label shared spawned _ _ opens found taken _ detached
    have before : sys.shared.handler.engine = false := by
      rcases taken.dispatches with ⟨_, same⟩ | ⟨_, _, _, _, rfl⟩
      · exact same ▸ detached
      · cases detached
    obtain ⟨state, workers, outside⟩ := opens before
    obtain ⟨after, initialized, rfl⟩ :=
      taken.unattached (outside call (List.mem_of_getElem? found)) state before detached
    exact ⟨initialized, by simp [workers], forall_set outside after⟩
  · intro sys api _ opens _ met detached
    obtain ⟨state, workers, outside⟩ := opens detached
    refine ⟨state, workers, ?_⟩
    intro call member
    rcases mem_snoc_cases member with old | rfl
    · exact outside call old
    · exact Api.entry_attached (through _ _ _ met)

/-- A request ends once: in installed callbacks, or in a failure without them. -/
def OpensOnce (sys : Sys) : Prop :=
  total Call.openingShare sys.calls + (if sys.shared.engine.callbacksAttached then 1 else 0)
    ≤ if sys.dispatched then 1 else 0

theorem ReachableWhile.opensOnce (built : start.Built)
    (reached : ReachableWhile meets start sys)
    : sys.OpensOnce := by
  refine invariant_of_steps reached ?_ ?_ ?_ ?_
  · rw [OpensOnce, built.calls, built.callbacksAttached]
    cases start.dispatched <;> decide
  · intro sys index worker next label shared _ _ once _ taken _
    simpa only [OpensOnce, taken.attached.2] using once
  · intro sys index call next label shared spawned _ _ once found taken _
    rw [OpensOnce] at once ⊢
    rw [total_set _ found]
    rcases taken.opening with ⟨fewer, same⟩ | ⟨rfl, rfl, attached⟩
    · simp only [same]
      omega
    · have own := share_le_total Call.openingShare_nonneg (List.mem_of_getElem? found)
      simp only [attached, Call.openingShare, if_true] at own ⊢
      split at once <;> omega
  · intro sys api _ once allowed _
    rw [OpensOnce] at once ⊢
    rw [total_append, total_singleton, Api.entry_openingShare]
    cases dispatches : api.dispatches with
    | false =>
        rw [Bool.or_false]
        simpa using once
    | true =>
        rw [allowed dispatches] at once
        simp only [Bool.or_true, if_true, Bool.false_eq_true, if_false] at once ⊢
        omega

/-- While a failure of the request is in progress, the callbacks are not installed. -/
theorem OpensOnce.detached (once : sys.OpensOnce) {error : MuldError}
    (member : .failBeforeEngineStart error ∈ sys.calls)
    : sys.shared.engine.callbacksAttached = false
      ∧ sys.dispatched = true
      ∧ total Call.openingShare sys.calls = 1 := by
  have own := share_le_total Call.openingShare_nonneg member
  have positive : (Call.failBeforeEngineStart error).openingShare = 1 := rfl
  rw [OpensOnce] at once
  cases dispatched : sys.dispatched <;> cases attached : sys.shared.engine.callbacksAttached <;>
    simp only [dispatched, attached, if_true, Bool.false_eq_true, if_false] at once
  case true.false => exact ⟨rfl, rfl, by omega⟩
  all_goals omega

end Sys

end Muld
