import Muld.Generations

/-! Completion happens once. A worker goes for `on_finish` after the one bump of its
generation that fills the counter, and the state it sets on the way keeps every later
generation from downloading anything.
-/

namespace Muld

open Threads

/-- The program points between the state check of an attempt and the end of the attempt. -/
def WorkerPc.attempting : WorkerPc → Bool
  | .request | .streamHead | .streamState | .budget | .awaitBudget | .read | .write
  | .readEnd | .streamed _ | .notifyUpdate | .notifyTotal | .notifyEvent
  | .notifyEventReport | .notifyProgress | .notifyProgressReport | .notifyCount
  | .notifyFinished | .notifyBump | .completeCas | .completeForce | .completeCleanup
  | .finishReport => true
  | .storeLock site | .storeScan site | .storeWrite site => site.mayHold
  | _ => false

theorem WorkerPc.scheduled_of_attempting {pc : WorkerPc} (inside : pc.attempting = true)
    : pc.scheduled = true := by
  cases pc <;> simp_all [attempting, scheduled]

/-- The worker took the last bump and has not come back from it. -/
def WorkerPc.claiming (pc : WorkerPc) : Bool := pc.completing || pc.finishing

theorem WorkerPc.attempting_of_claiming {pc : WorkerPc} (claims : pc.claiming = true)
    : pc.attempting = true := by
  unfold claiming at claims
  cases pc
  case storeLock site =>
    cases site <;> simp_all [completing, finishing]
    rfl
  case storeScan site =>
    cases site <;> simp_all [completing, finishing]
    rfl
  case storeWrite site =>
    cases site <;> simp_all [completing, finishing]
    rfl
  all_goals simp_all [completing, finishing, attempting]

-----------------------------------------------------------------------------------------
-- Steps of a worker
-----------------------------------------------------------------------------------------

namespace Worker

variable {shared shared' : Shared} {worker next : Worker} {label : WorkerLabel}

/-- What a worker contributes to the invocations of `on_finish` that are on their way. -/
def claimShare (worker : Worker) : Int := if worker.pc.claiming then 1 else 0

theorem claimShare_nonneg (worker : Worker) : 0 ≤ worker.claimShare := by
  unfold claimShare
  split <;> decide

theorem claimShare_eq_one {worker : Worker} (claims : worker.pc.claiming = true)
    : worker.claimShare = 1 := by
  simp [claimShare, claims]

theorem claimShare_eq_zero {worker : Worker} (idle : worker.pc.claiming = false)
    : worker.claimShare = 0 := by
  simp [claimShare, idle]

/-- `on_finish` is invoked at one place, which the worker leaves. -/
theorem Step.finishes_cases (taken : Step shared worker label shared' next)
    : shared'.history.finishes = shared.history.finishes
      ∨ (worker.pc = .finishReport
        ∧ next.pc = .readEnd
        ∧ shared'.history.finishes = shared.history.finishes + 1
        ∧ shared'.engine.state = shared.engine.state) := by
  cases taken
  case finishReport at_pc => exact Or.inr ⟨at_pc, rfl, rfl, rfl⟩
  all_goals exact Or.inl (by first | rfl | simp)

/-- A claim is taken by the last bump, kept, given up or turned into an invocation. -/
theorem Step.claims (taken : Step shared worker label shared' next)
    (claims : next.pc.claiming = true)
    : worker.pc.claiming = true
      ∨ (worker.pc = .notifyBump
        ∧ shared.engine.lastChunk = true
        ∧ shared'.engine.nDownloadedChunks = shared.engine.nDownloadedChunks + 1) := by
  cases taken
  case bumpLast at_pc last => exact Or.inr ⟨at_pc, last, rfl⟩
  case store site outcome at_pc open_ =>
    cases site <;>
      simp_all [WorkerPc.claiming, WorkerPc.completing, WorkerPc.finishing, afterStore]
  case lock site at_pc _ =>
    cases site <;> simp_all [WorkerPc.claiming, WorkerPc.completing, WorkerPc.finishing]
  case scanned site at_pc _ =>
    cases site <;> simp_all [WorkerPc.claiming, WorkerPc.completing, WorkerPc.finishing]
  case nullWriter => exact Or.inl claims
  case scan => exact Or.inl claims
  all_goals simp_all [WorkerPc.claiming, WorkerPc.completing, WorkerPc.finishing]

/-- Claims and invocations together grow by the last bump only. -/
theorem Step.claimShare (taken : Step shared worker label shared' next)
    : (next.claimShare + shared'.history.finishes ≤ worker.claimShare + shared.history.finishes)
      ∨ (worker.pc = .notifyBump
        ∧ shared.engine.lastChunk = true
        ∧ shared'.engine.nDownloadedChunks = shared.engine.nDownloadedChunks + 1
        ∧ shared'.history.finishes = shared.history.finishes
        ∧ next.claimShare ≤ 1) := by
  rcases taken.finishes_cases with same | ⟨fromPc, toPc, raised, _⟩
  · cases claims : next.pc.claiming with
    | false =>
        have nonneg := worker.claimShare_nonneg
        refine Or.inl ?_
        rw [claimShare_eq_zero claims, same]
        omega
    | true =>
        have one := claimShare_eq_one claims
        rcases taken.claims claims with before | ⟨at_pc, last, bumped⟩
        · refine Or.inl (Int.le_of_eq ?_)
          rw [one, claimShare_eq_one before, same]
        · exact Or.inr ⟨at_pc, last, bumped, same, Int.le_of_eq one⟩
  · refine Or.inl (Int.le_of_eq ?_)
    have left : worker.claimShare = 1 := claimShare_eq_one (by rw [fromPc]; rfl)
    have right : next.claimShare = 0 := claimShare_eq_zero (by rw [toPc]; rfl)
    rw [left, right, raised]
    omega

/-- An attempt begins in the downloading state. -/
theorem Step.attempts (taken : Step shared worker label shared' next)
    (inside : next.pc.attempting = true)
    : worker.pc.attempting = true
      ∨ (worker.pc = .checkState ∧ shared.engine.state = .downloading) := by
  cases taken
  case proceed at_pc found => exact Or.inr ⟨at_pc, found⟩
  case store site outcome at_pc open_ =>
    cases site <;> simp_all [WorkerPc.attempting, StoreSite.mayHold, afterStore]
  case lock site at_pc _ => simp_all [WorkerPc.attempting]
  case scanned site at_pc _ => simp_all [WorkerPc.attempting]
  case nullWriter => exact Or.inl inside
  case scan => exact Or.inl inside
  case streamStop at_pc _ =>
    rcases at_pc with at_pc | at_pc <;> exact Or.inl (by rw [at_pc]; rfl)
  case allow at_pc _ _ =>
    rcases at_pc with at_pc | at_pc <;> exact Or.inl (by rw [at_pc]; rfl)
  all_goals simp_all [WorkerPc.attempting, StoreSite.mayHold]

end Worker

-----------------------------------------------------------------------------------------
-- One claim over the whole run
-----------------------------------------------------------------------------------------

namespace Sys

variable {meets : Sys → Action → Sys → Prop} {start sys : Sys}

/-- How often `on_finish` was invoked or is going to be. -/
def claims (sys : Sys) : Int :=
  total Worker.claimShare sys.workers + sys.shared.history.finishes

/-- The bump of the last chunk lies behind this generation. -/
def CountedOut (sys : Sys) : Prop :=
  wrapSub sys.shared.engine.nChunks 1 < sys.shared.engine.nDownloadedChunks

/-- The download is completed and nobody is in the middle of an attempt. -/
def Concluded (sys : Sys) : Prop :=
  sys.shared.engine.state = .completed
  ∧ ∀ worker ∈ sys.workers, worker.pc.attempting = false

/-- At most one claim is ever made, and it is only made once more when there was none. -/
structure ClaimsOnce (sys : Sys) : Prop where
  single : sys.claims ≤ 1
  spent : 0 < sys.claims → sys.CountedOut ∨ sys.Concluded
  invoked : 0 < sys.shared.history.finishes → sys.shared.engine.state = .completed
  finishing
    : ∀ worker ∈ sys.workers,
        worker.pc.finishing = true → sys.shared.engine.state = .completed

theorem Built.claimsOnce (built : start.Built) : start.ClaimsOnce where
  single := by simp [claims, built.workers, built.history]
  spent := by simp [claims, built.workers, built.history]
  invoked := by simp [built.history]
  finishing := by simp [built.workers]

/-- Only a worker in an attempt bumps, so the last bump finds no claim. -/
theorem ClaimsOnce.none_before_last (once : sys.ClaimsOnce) {worker : Worker}
    (member : worker ∈ sys.workers) (at_pc : worker.pc = .notifyBump)
    (last : sys.shared.engine.lastChunk = true)
    : sys.claims ≤ 0 := by
  by_contra claimed
  rcases once.spent (by omega) with counted | ⟨_, idle⟩
  · have counter : sys.shared.engine.nDownloadedChunks = wrapSub sys.shared.engine.nChunks 1 :=
      eq_of_beq last
    rw [CountedOut, counter] at counted
    exact Nat.lt_irrefl _ counted
  · have inside := idle worker member
    rw [at_pc] at inside
    cases inside

theorem CountedOut.worker_step (counted : sys.CountedOut) {index : Nat}
    {worker next : Worker} {label : WorkerLabel} {shared : Shared}
    (taken : worker.Step sys.shared label shared next)
    : CountedOut { sys with shared, workers := sys.workers.set index next } := by
  simp only [CountedOut, taken.nChunks] at counted ⊢
  rcases taken.nDownloadedChunks with same | ⟨_, bumped, _⟩ <;> omega

theorem Concluded.worker_step (concluded : sys.Concluded) {index : Nat} {worker next : Worker}
    {label : WorkerLabel} {shared : Shared} (found : sys.workers[index]? = some worker)
    (taken : worker.Step sys.shared label shared next)
    : Concluded { sys with shared, workers := sys.workers.set index next } := by
  obtain ⟨completed, idle⟩ := concluded
  refine ⟨taken.stays_completed completed, forall_set idle ?_⟩
  by_contra inside
  rcases taken.attempts (eq_true_of_ne_false inside) with before | ⟨_, downloading⟩
  · rw [idle worker (List.mem_of_getElem? found)] at before
    contradiction
  · simp [completed] at downloading

theorem ClaimsOnce.worker_step (once : sys.ClaimsOnce) {index : Nat} {worker next : Worker}
    {label : WorkerLabel} {shared : Shared} (found : sys.workers[index]? = some worker)
    (taken : worker.Step sys.shared label shared next)
    : ClaimsOnce { sys with shared, workers := sys.workers.set index next } := by
  have member := List.mem_of_getElem? found
  have moved : claims { sys with shared, workers := sys.workers.set index next }
      = sys.claims
        + (next.claimShare + shared.history.finishes)
        - (worker.claimShare + sys.shared.history.finishes) := by
    simp only [claims, total_set _ found]
    omega
  have single := once.single
  constructor
  case single =>
    rcases taken.claimShare with kept | ⟨at_pc, last, _, same, most⟩
    · omega
    · have none_before := once.none_before_last member at_pc last
      have nonneg := worker.claimShare_nonneg
      omega
  case spent =>
    intro claimed
    rcases taken.claimShare with kept | ⟨_, last, bumped, _⟩
    · rcases once.spent (by omega) with counted | concluded
      · exact Or.inl (counted.worker_step taken)
      · exact Or.inr (concluded.worker_step found taken)
    · have counter : sys.shared.engine.nDownloadedChunks = wrapSub sys.shared.engine.nChunks 1 :=
        eq_of_beq last
      refine Or.inl ?_
      simp only [CountedOut, taken.nChunks]
      omega
  case invoked =>
    intro invoked
    rcases taken.finishes_cases with same | ⟨at_pc, _, _, kept⟩
    · exact taken.stays_completed (once.invoked (same ▸ invoked))
    · rw [kept]
      exact once.finishing worker member (by rw [at_pc]; rfl)
  case finishing =>
    refine forall_set ?_ ?_
    · intro other present inside
      exact taken.stays_completed (once.finishing other present inside)
    · intro inside
      rcases taken.entersFinishing inside with before | completed
      · exact taken.stays_completed (once.finishing worker member before)
      · exact completed

/-- A reset finds every worker outside its attempt. -/
theorem Counted.not_attempting (counted : sys.Counted)
    (idle : sys.shared.engine.scheduledConnections = 0) {worker : Worker}
    (member : worker ∈ sys.workers)
    : worker.pc.attempting = false := by
  cases inside : worker.pc.attempting with
  | false => rfl
  | true =>
      have positive :=
        counted.scheduled_pos member (WorkerPc.scheduled_of_attempting inside)
      omega

theorem ClaimsOnce.call_step (once : sys.ClaimsOnce) (counted : sys.Counted)
    (alone : sys.BuildAlone) {index : Nat} {call next : Call} {label : CallLabel}
    {shared : Shared} {spawned : List Worker} (found : sys.calls[index]? = some call)
    (taken : Call.Step index sys.shared call label shared next spawned)
    : ClaimsOnce { sys with
        shared
        workers := sys.workers ++ spawned
        calls := sys.calls.set index next } := by
  have fresh : total Worker.claimShare spawned = 0 := by
    rcases taken.spawned_cases with rfl | rfl
    · rfl
    · simp [Worker.claimShare, WorkerPc.claiming, WorkerPc.completing, WorkerPc.finishing]
  have same : claims { sys with
        shared
        workers := sys.workers ++ spawned
        calls := sys.calls.set index next } = sys.claims := by
    simp only [claims, total_append, fresh, taken.finishes, add_zero]
  have concluded : sys.Concluded → Concluded { sys with
        shared
        workers := sys.workers ++ spawned
        calls := sys.calls.set index next } := by
    rintro ⟨completed, idle⟩
    refine ⟨taken.stays_completed completed, ?_⟩
    intro worker member
    rcases taken.mem_workers member with old | rfl
    · exact idle worker old
    · rfl
  constructor
  case single => exact same ▸ once.single
  case spent =>
    intro claimed
    rw [same] at claimed
    rcases taken.nDownloadedChunks with ⟨kept, _⟩ | ⟨_, rfl, _⟩
    · refine (once.spent claimed).imp ?_ concluded
      intro before
      simpa only [CountedOut, DownloadEngine.nChunks, taken.chunksInfo, kept] using before
    · -- the counter starts again, with every worker of the last generation gone
      have idle : ∀ worker ∈ sys.workers, worker.pc.attempting = false :=
        fun worker => counted.not_attempting (alone _ (List.mem_of_getElem? found) rfl)
      have silent : total Worker.claimShare sys.workers = 0 := by
        refine total_eq_zero fun worker member => Worker.claimShare_eq_zero ?_
        by_contra claims
        have inside := WorkerPc.attempting_of_claiming (eq_true_of_ne_false claims)
        rw [idle worker member] at inside
        contradiction
      have invoked : 0 < sys.shared.history.finishes := by
        rw [claims, silent] at claimed
        omega
      exact Or.inr (concluded ⟨once.invoked invoked, idle⟩)
  case invoked =>
    intro invoked
    rw [taken.finishes] at invoked
    exact taken.stays_completed (once.invoked invoked)
  case finishing =>
    intro worker member inside
    rcases taken.mem_workers member with old | rfl
    · exact taken.stays_completed (once.finishing worker old inside)
    · cases inside

theorem ReachableWhile.claimsOnce (built : start.Built)
    (alone : ∀ sys, ReachableWhile meets start sys → sys.BuildAlone)
    (reached : ReachableWhile meets start sys)
    : sys.ClaimsOnce := by
  refine invariant reached built.claimsOnce ?_ ?_ ?_
  · intro sys index worker next label shared _ _ once found taken _
    exact once.worker_step found taken
  · intro sys index call next label shared spawned earlier _ once found taken _
    exact once.call_step (earlier.counted built) (alone sys earlier) found taken
  · intro sys api dispatched _ once
    exact { once with }

-----------------------------------------------------------------------------------------
-- Completion happens once and for ever
-----------------------------------------------------------------------------------------

/-- `BuildPendingWork` runs only while no worker is scheduled, in the state after a step. -/
def RebuildsAlone (_ : Sys) (_ : Action) (after : Sys) : Prop := after.BuildAlone

instance (before : Sys) (action : Action) (after : Sys)
    : Decidable (RebuildsAlone before action after) :=
  inferInstanceAs (Decidable after.BuildAlone)

/-- Completion is final, and `on_finish` is invoked once at most and only in it. -/
structure CompletesOnce (sys : Sys) : Prop where
  for_ever
    : sys.shared.engine.state = .completed
      → ∀ action after,
          sys.step action = some after
          → after.shared.engine.state = .completed
  at_most_once : sys.shared.history.finishes ≤ 1
  while_completed
    : ∀ action after,
        sys.step action = some after
        → after.shared.history.finishes ≠ sys.shared.history.finishes
        → sys.shared.engine.state = .completed

/-- No step of any thread leaves the completed state. -/
theorem step_stays_completed {action : Action} {after : Sys}
    (completed : sys.shared.engine.state = .completed)
    (taken : sys.step action = some after)
    : after.shared.engine.state = .completed := by
  cases step_cases taken with
  | worker index worker next label shared found moved => exact moved.stays_completed completed
  | call index call next label shared spawned found moved =>
      exact moved.stays_completed completed
  | invoke api allowed => exact completed

/-- Where rebuilds run alone, completion happens once and for ever. Witness: the claim to
invoke `on_finish`, of which there is one over the whole run.
-/
theorem completes_once (built : start.Built)
    (reached : ReachableWhile RebuildsAlone start sys)
    : sys.CompletesOnce := by
  have alone : ∀ sys, ReachableWhile RebuildsAlone start sys → sys.BuildAlone :=
    fun _ earlier =>
      earlier.holds_after (by simp [BuildAlone, built.calls]) (fun _ _ _ met => met)
  have once := reached.claimsOnce built alone
  constructor
  case for_ever => exact fun completed _ _ taken => step_stays_completed completed taken
  case at_most_once =>
    have single := once.single
    have nonneg := @total_nonneg _ sys.workers _ Worker.claimShare_nonneg
    rw [claims] at single
    omega
  case while_completed =>
    intro action after taken raised
    cases step_cases taken with
    | worker index worker next label shared found moved =>
        rcases moved.finishes_cases with same | ⟨at_pc, _⟩
        · exact absurd same raised
        · exact once.finishing worker (List.mem_of_getElem? found) (by rw [at_pc]; rfl)
    | call index call next label shared spawned found moved =>
        exact absurd moved.finishes raised
    | invoke api allowed => exact absurd rfl raised

open Muld.Action in
/-- A worker completes both chunks and invokes `on_finish` while a second one is still
connected.
-/
theorem completes_once_two_chunks
    : ∃ sys : Sys,
        sys.CompletesOnce
        ∧ sys.shared.engine.state = .completed
        ∧ sys.shared.history.finishes = 1 := by
  obtain ⟨sys, reached, holds⟩ :=
    exists_reachable RebuildsAlone twoChunks
      (.invoke .start :: callRuns 0 14 ++ workerRuns 0 6
        ++ fetch 0 206 (List.replicate 10 0)
        ++ workerRuns 0 2 ++ [.worker 0 (.isDone true)] ++ workerRuns 0 3
        ++ fetch 0 206 (List.replicate 10 0) ++ workerRuns 0 6
        ++ [.worker 0 (.stored .written)] ++ workerRuns 0 3)
      (fun sys =>
        decide (sys.shared.engine.state = .completed)
          && decide (sys.shared.history.finishes = 1))
      (by decide +kernel)
  simp only [Bool.and_eq_true, decide_eq_true_iff] at holds
  exact ⟨sys, completes_once twoChunks_built reached, holds.1, holds.2⟩

end Sys

end Muld
