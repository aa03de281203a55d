import Muld.Artifacts

/-! A `Cancel` that was accepted is carried out: by the call itself when no worker is
connected, and by the last worker to close otherwise.
-/

namespace Muld

open Threads

namespace Worker

variable {shared shared' : Shared} {worker next : Worker} {label : WorkerLabel}

/-- A worker is about to overwrite a paused or failed state only. -/
theorem Step.forces (taken : Step shared worker label shared' next)
    (next_pc : next.pc = .completeForce)
    : shared.engine.state = .paused ∨ shared.engine.state = .failed := by
  cases taken
  case completeStopped found => exact found
  case store site _ _ _ => cases site <;> cases next_pc
  case nullWriter at_pc _ => rcases at_pc with at_pc | ⟨_, at_pc⟩ <;> simp [at_pc] at next_pc
  all_goals simp_all

/-- `Canceled` is final for a worker that is not about to overwrite it. -/
theorem Step.stays_canceled (taken : Step shared worker label shared' next)
    (canceled : shared.engine.state = .canceled) (unforced : worker.pc ≠ .completeForce)
    : shared'.engine.state = .canceled := by
  rcases taken.state with same | ⟨_, _, found, _⟩ | ⟨⟨_, found⟩ | forced, _⟩ | ⟨_, _, found, _⟩
  · rw [same, canceled]
  · simp [canceled] at found
  · simp [canceled] at found
  · exact absurd forced unforced
  · simp [canceled] at found

theorem Step.stays_cleaned (taken : Step shared worker label shared' next)
    (cleaned : shared.engine.artifactsCleaned = true)
    : shared'.engine.artifactsCleaned = true := by
  rcases taken.artifacts with ⟨same, _⟩ | ⟨_, _, _, _, rfl⟩ | ⟨_, _, _, rfl⟩
  · rw [same, cleaned]
  · exact cleaned
  · simp

/-- The worker that closed last cleans up a canceled download. -/
theorem Step.closing (taken : Step shared worker label shared' next)
    (canceled : shared.engine.state = .canceled)
    (at_pc : worker.pc = .closeCheck ∨ worker.pc = .closeCleanup)
    : (next.pc = .closeCheck ∨ next.pc = .closeCleanup)
      ∨ shared'.engine.artifactsCleaned = true := by
  rcases at_pc with at_pc | at_pc <;> cases taken
  case inl.closeCanceled => exact Or.inl (Or.inr rfl)
  case inl.closeOther other => exact absurd canceled other
  case inr.closeCleanup => exact Or.inr (by simp)
  all_goals simp_all [WorkerPc.throws]

end Worker

namespace Call

variable {index : Nat} {shared shared' : Shared} {call next : Call} {label : CallLabel}
  {spawned : List Worker}

theorem Step.stays_cleaned (taken : Step index shared call label shared' next spawned)
    (cleaned : shared.engine.artifactsCleaned = true)
    : shared'.engine.artifactsCleaned = true := by
  rcases taken.artifacts with ⟨same, _⟩ | ⟨_, _, _, _, _, rfl⟩ | ⟨_, _, rfl⟩
  · rw [same, cleaned]
  · exact cleaned
  · simp

/-- An accepted `Cancel` goes on, cleans up, or leaves the cleanup to a connected worker. -/
theorem Step.canceling (taken : Step index shared call label shared' next spawned)
    (at_pc : call.canceling = true)
    : next.canceling = true
      ∨ shared'.engine.artifactsCleaned = true
      ∨ shared.engine.nConnections ≠ 0 := by
  cases taken
  case cancelReport => exact Or.inl rfl
  case cancelIdle => exact Or.inl rfl
  case cancelBusy busy => exact Or.inr (Or.inr busy)
  case cancelCleanup => exact Or.inr (Or.inl (by simp))
  all_goals first | cases at_pc | grind [Call.canceling]

end Call

namespace Sys

variable {meets : Sys → Action → Sys → Prop} {start sys : Sys}

/-- After an accepted `Cancel` has returned, and while no `Start` or `Resume` is accepted, the
download is canceled; once every opened connection is closed the files are gone.
-/
def CancelWins (sys : Sys) : Prop :=
  ∀ index ∈ sys.shared.history.lastCancel,
    sys.calls[index]? = some (.returned true)
    → sys.shared.engine.state = .canceled
      ∧ ((∀ worker ∈ sys.workers, worker.pc = .queued ∨ worker.pc = .closed)
        → sys.shared.output = none ∧ sys.shared.image = .absent)

instance (sys : Sys) : Decidable sys.CancelWins := by
  unfold CancelWins
  infer_instance

/-- A `Cancel` is accepted only while no worker has seen a paused or failed state that it is
about to overwrite.
-/
def CancelsUnforced (before : Sys) (action : Action) (_ : Sys) : Prop :=
  match action with
  | .call index _ =>
      before.calls[index]? = some .cancelSet
      → DownloadEngine.admits .canceled before.shared.engine.state = true
      → ∀ worker ∈ before.workers, worker.pc ≠ .completeForce
  | _ => True

instance (before : Sys) (action : Action) (after : Sys)
    : Decidable (CancelsUnforced before action after) :=
  match action with
  | .worker .. | .call .. | .invoke .. => by unfold CancelsUnforced; infer_instance

/-- The cleanup of a `Cancel` is done, or somebody is left who will do it. -/
def Cleaning (index : Nat) (sys : Sys) : Prop :=
  sys.shared.engine.artifactsCleaned = true
  ∨ (∃ call, sys.calls[index]? = some call ∧ call.canceling = true)
  ∨ 0 < sys.shared.engine.nConnections
  ∨ ∃ worker ∈ sys.workers, worker.pc = .closeCheck ∨ worker.pc = .closeCleanup

/-- The `Cancel` of a call is in force. -/
structure Canceled (index : Nat) (sys : Sys) : Prop where
  state : sys.shared.engine.state = .canceled
  unforced : ∀ worker ∈ sys.workers, worker.pc ≠ .completeForce
  cleaning : sys.Cleaning index

theorem Canceled.worker_step {canceler : Nat}
    (canceled : sys.Canceled canceler) {index : Nat} {worker next : Worker}
    {label : WorkerLabel} {shared : Shared} (found : sys.workers[index]? = some worker)
    (taken : worker.Step sys.shared label shared next)
    : Canceled canceler { sys with shared, workers := sys.workers.set index next } where
  state :=
    taken.stays_canceled canceled.state
      (canceled.unforced worker (List.mem_of_getElem? found))
  unforced := by
    refine forall_set canceled.unforced fun forces => ?_
    rcases taken.forces forces with other | other <;> simp [canceled.state] at other
  cleaning := by
    rcases canceled.cleaning with cleaned | calling | connected | closing
    · exact Or.inl (taken.stays_cleaned cleaned)
    · exact Or.inr (Or.inl calling)
    · rcases taken.nConnections with ⟨same, _⟩ | ⟨_, _, raised⟩ | ⟨_, lowered, closes⟩
      · exact Or.inr (Or.inr (Or.inl (same ▸ connected)))
      · refine Or.inr (Or.inr (Or.inl ?_))
        simp only [raised]
        omega
      · rcases closes with ⟨_, others⟩ | last
        · refine Or.inr (Or.inr (Or.inl ?_))
          simp only [lowered] at others ⊢
          omega
        · exact Or.inr (Or.inr (Or.inr ⟨next, mem_set_self found, Or.inl last⟩))
    · rcases exists_set found closing (taken.closing canceled.state) with still | cleaned
      · exact Or.inr (Or.inr (Or.inr still))
      · exact Or.inl cleaned

/-- A call keeps a `Cancel` in force unless it is a `Start` or `Resume` that is accepted. -/
theorem Canceled.call_step (counted : sys.Counted) {canceler : Nat}
    (canceled : sys.Canceled canceler) {index : Nat} {call next : Call}
    {label : CallLabel} {shared : Shared} {spawned : List Worker}
    (found : sys.calls[index]? = some call)
    (taken : Call.Step index sys.shared call label shared next spawned)
    (same : shared.engine.state = sys.shared.engine.state)
    : Canceled canceler { sys with
        shared
        workers := sys.workers ++ spawned
        calls := sys.calls.set index next } where
  state := by simp only [same, canceled.state]
  unforced := by
    intro worker member
    rcases taken.mem_workers member with old | rfl
    · exact canceled.unforced worker old
    · simp
  cleaning := by
    rcases canceled.cleaning with cleaned | ⟨own, at_canceler, canceling⟩ | connected | closing
    · exact Or.inl (taken.stays_cleaned cleaned)
    · by_cases moved : canceler = index
      · subst moved
        obtain rfl : call = own := Option.some.inj (found.symm.trans at_canceler)
        rcases taken.canceling canceling with still | cleaned | busy
        · refine Or.inr (Or.inl ⟨next, ?_, still⟩)
          simp [(List.getElem?_eq_some_iff.mp found).1]
        · exact Or.inl cleaned
        · refine Or.inr (Or.inr (Or.inl ?_))
          have nonneg : 0 ≤ sys.shared.engine.nConnections := by
            rw [counted.connected]
            exact total_nonneg Worker.connectedShare_nonneg
          simp only [taken.nConnections]
          omega
      · refine Or.inr (Or.inl ⟨own, ?_, canceling⟩)
        simpa [List.getElem?_set_ne (Ne.symm moved)] using at_canceler
    · exact Or.inr (Or.inr (Or.inl (by simpa only [taken.nConnections] using connected)))
    · obtain ⟨worker, member, at_pc⟩ := closing
      exact Or.inr (Or.inr (Or.inr ⟨worker, List.mem_append_left _ member, at_pc⟩))

/-- The last accepted `Cancel`, with no `Start` or `Resume` accepted since, is in force. -/
def CancelInForce (sys : Sys) : Prop :=
  ∀ index, sys.shared.history.lastCancel = some index → sys.Canceled index

theorem ReachableWhile.cancelInForce (built : start.Built)
    (reached : ReachableWhile CancelsUnforced start sys)
    : sys.CancelInForce := by
  refine invariant reached ?_ ?_ ?_ ?_
  · simp [CancelInForce, built.history]
  · intro sys index worker next label shared _ _ holds found taken _ canceler last
    exact (holds canceler (taken.lastCancel ▸ last)).worker_step found taken
  · intro sys index call next label shared spawned earlier _ holds found taken met canceler last
    rcases taken.accepts with
      ⟨same, _, _, kept, _⟩ | ⟨_, _, _, rfl⟩ | ⟨_, _, admitted, rfl⟩
        | ⟨rfl, rfl, admitted, rfl⟩
    · exact (holds canceler (kept ▸ last)).call_step (earlier.counted built) found taken same
    · cases last
    · have before := holds canceler last
      simp [before.state, DownloadEngine.admits] at admitted
    · obtain rfl : index = canceler := Option.some.inj last
      have unforced := met found admitted
      have inside := (List.getElem?_eq_some_iff.mp found).1
      refine ⟨rfl, ?_, Or.inr (Or.inl ⟨.cancelReport, by simp [inside], rfl⟩)⟩
      intro worker member
      rcases taken.mem_workers member with old | rfl
      · exact unforced worker old
      · simp
  · intro sys api dispatched _ holds canceler last
    have canceled := holds canceler last
    refine ⟨canceled.state, canceled.unforced, ?_⟩
    rcases canceled.cleaning with cleaned | ⟨own, at_canceler, canceling⟩ | other
    · exact Or.inl cleaned
    · refine Or.inr (Or.inl ⟨own, ?_, canceling⟩)
      exact (List.getElem?_append_left (List.getElem?_eq_some_iff.mp at_canceler).1).trans
        at_canceler
    · exact Or.inr (Or.inr other)

/-- Where no `Cancel` meets a worker that is about to overwrite the state, an accepted
`Cancel` wins. Witness: with every connection closed nobody is left to clean up, so the
cleanup is done.
-/
theorem cancel_wins (built : start.Built)
    (reached : ReachableWhile CancelsUnforced start sys)
    : sys.CancelWins := by
  intro index last returned
  have canceled := reached.cancelInForce built index last
  refine ⟨canceled.state, ?_⟩
  intro closed
  have idle : sys.shared.engine.nConnections = 0 := by
    rw [(reached.counted built).connected]
    refine total_eq_zero fun worker member => ?_
    rcases closed worker member with at_pc | at_pc <;>
      simp [Worker.connectedShare, at_pc, WorkerPc.connected]
  have cleaned : sys.shared.engine.artifactsCleaned = true := by
    rcases canceled.cleaning with cleaned | ⟨call, found, canceling⟩ | connected
      | ⟨worker, member, closing⟩
    · exact cleaned
    · obtain rfl : .returned true = call := Option.some.inj (returned.symm.trans found)
      cases canceling
    · omega
    · rcases closed worker member with at_pc | at_pc <;> simp [at_pc] at closing
  have tidy := (reached.artifacts built).tidy
  exact ⟨(tidy.output cleaned).resolve_left (by simp [canceled.state]), tidy.image cleaned⟩

open Muld.Action in
/-- A `Cancel` during the download leaves the cleanup to the worker, which closes last. -/
theorem cancel_wins_two_chunks
    : ∃ sys : Sys,
        sys.shared.history.lastCancel = some 1
        ∧ sys.shared.engine.state = .canceled
        ∧ sys.shared.output = none := by
  obtain ⟨sys, reached, holds⟩ :=
    exists_reachable CancelsUnforced twoChunks
      (.invoke .start :: callRuns 0 14 ++ workerRuns 0 6 ++ [.invoke .cancel] ++ callRuns 1 3
        ++ workerRuns 0 6)
      (fun sys =>
        decide (sys.shared.history.lastCancel = some 1)
          && decide (sys.calls[1]? = some (Call.returned true))
          && decide (∀ worker ∈ sys.workers, worker.pc = .queued ∨ worker.pc = .closed))
      (by decide +kernel)
  simp only [Bool.and_eq_true, decide_eq_true_iff] at holds
  obtain ⟨⟨last, returned⟩, closed⟩ := holds
  obtain ⟨canceled, removed⟩ := cancel_wins twoChunks_built reached 1 last returned
  exact ⟨sys, last, canceled, (removed closed).1⟩

open Muld.Action in
/-- The worker that finished the last chunk finds a paused download, a `Cancel` is accepted
and returns, and then the worker overwrites the canceled state.
-/
theorem cancel_overwritten
    : ¬ ∀ start sys : Sys, start.Built → Reachable start sys → sys.CancelWins := by
  intro wins
  obtain ⟨sys, reached, lost⟩ :=
    exists_reachable Transition.anyStep twoChunks
      (.invoke .start :: callRuns 0 14 ++ workerRuns 0 6
        ++ fetch 0 206 (List.replicate 10 0)
        ++ workerRuns 0 2 ++ [.worker 0 (.isDone true)] ++ workerRuns 0 3
        ++ fetch 0 206 (List.replicate 10 0) ++ workerRuns 0 1
        ++ [.invoke .pause] ++ callRuns 1 2 ++ workerRuns 0 1
        ++ [.invoke .cancel] ++ callRuns 2 3 ++ workerRuns 0 1)
      (fun sys => !decide sys.CancelWins)
      (by decide +kernel)
  have overwritten : ¬ sys.CancelWins := by simpa using lost
  exact overwritten (wins _ _ twoChunks_built reached)

end Sys

end Muld
