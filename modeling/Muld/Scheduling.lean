import Muld.SystemSteps
import Muld.WorkerEffects
import Muld.CallEffects
import Muld.Library.Threads

/-! The two connection counters are what they are read for: `scheduledConnections_` is the
number of workers that are planned or have not closed, and `nConnections_` the number of
workers between opening and closing. Both hold in every run.
-/

namespace Muld

open Threads

/-- What a worker contributes to `scheduledConnections_`. -/
def Worker.scheduledShare (worker : Worker) : Int := if worker.pc.scheduled then 1 else 0

/-- What a worker contributes to `nConnections_`. -/
def Worker.connectedShare (worker : Worker) : Int := if worker.pc.connected then 1 else 0

theorem Worker.scheduledShare_nonneg (worker : Worker) : 0 ≤ worker.scheduledShare := by
  unfold scheduledShare
  split <;> decide

theorem Worker.connectedShare_nonneg (worker : Worker) : 0 ≤ worker.connectedShare := by
  unfold connectedShare
  split <;> decide

theorem Call.planned_nonneg (call : Call) : 0 ≤ call.planned := by
  unfold planned
  split <;> omega

namespace Sys

variable {meets : Sys → Action → Sys → Prop} {start sys : Sys}

/-- The counters of connections agree with the threads. -/
structure Counted (sys : Sys) : Prop where
  placed : ∀ worker ∈ sys.workers, worker.Placed
  holding : ∀ worker ∈ sys.workers, worker.Holding
  plans : ∀ call ∈ sys.calls, call.PlansSome
  scheduled
    : sys.shared.engine.scheduledConnections
        = total Worker.scheduledShare sys.workers + total Call.planned sys.calls
  connected : sys.shared.engine.nConnections = total Worker.connectedShare sys.workers

theorem Built.counted (built : start.Built) : start.Counted where
  placed := by simp [built.workers]
  holding := by simp [built.workers]
  plans := by simp [built.calls]
  scheduled := by simp [built.workers, built.calls, built.scheduledConnections]
  connected := by simp [built.workers, built.nConnections]

/-- A worker that counts as scheduled keeps the counter positive. -/
theorem Counted.scheduled_pos (counted : sys.Counted) {worker : Worker}
    (member : worker ∈ sys.workers) (scheduled : worker.pc.scheduled = true)
    : 0 < sys.shared.engine.scheduledConnections := by
  have own := share_le_total Worker.scheduledShare_nonneg member
  have planned : 0 ≤ total Call.planned sys.calls := total_nonneg Call.planned_nonneg
  rw [Worker.scheduledShare, if_pos scheduled] at own
  rw [counted.scheduled]
  omega

/-- While no connection is scheduled, no worker holds an item. -/
theorem Counted.item_none (counted : sys.Counted)
    (idle : sys.shared.engine.scheduledConnections = 0) {worker : Worker}
    (member : worker ∈ sys.workers)
    : worker.item = none := by
  cases held : worker.item with
  | none => rfl
  | some item =>
      have holds := counted.placed worker member (by simp [held])
      have positive := counted.scheduled_pos member (WorkerPc.scheduled_of_mayHold holds)
      omega

theorem Counted.worker_step (counted : sys.Counted) {index : Nat} {worker next : Worker}
    {label : WorkerLabel} {shared : Shared} (found : sys.workers[index]? = some worker)
    (taken : worker.Step sys.shared label shared next)
    : Counted { sys with shared, workers := sys.workers.set index next } where
  placed :=
    forall_set counted.placed
      (taken.placed (counted.placed worker (List.mem_of_getElem? found)))
  holding :=
    forall_set counted.holding
      (taken.holding (counted.holding worker (List.mem_of_getElem? found)))
  plans := counted.plans
  scheduled := by
    have member := List.mem_of_getElem? found
    rw [total_set _ found]
    rcases taken.scheduledConnections with ⟨same, region⟩ | ⟨fromPc, toPc, lowered⟩
    · simp only [same, counted.scheduled, Worker.scheduledShare, region]
      omega
    · have positive := counted.scheduled_pos member (by rw [fromPc]; rfl)
      have left : worker.scheduledShare = 1 := by
        simp [Worker.scheduledShare, fromPc, WorkerPc.scheduled]
      have right : next.scheduledShare = 0 := by
        simp [Worker.scheduledShare, toPc, WorkerPc.scheduled]
      have total := counted.scheduled
      simp only [lowered, left, right]
      omega
  connected := by
    rw [total_set _ found]
    have total := counted.connected
    rcases taken.nConnections with
      ⟨same, region⟩ | ⟨fromPc, toPc, raised⟩ | ⟨fromPc, lowered, toPc⟩
    · simp only [same, total, Worker.connectedShare, region]
      omega
    · have left : worker.connectedShare = 0 := by
        simp [Worker.connectedShare, fromPc, WorkerPc.connected]
      have right : next.connectedShare = 1 := by
        simp [Worker.connectedShare, toPc, WorkerPc.connected]
      simp only [raised, left, right]
      omega
    · have left : worker.connectedShare = 1 := by
        simp [Worker.connectedShare, fromPc, WorkerPc.connected]
      have right : next.connectedShare = 0 := by
        rcases toPc with ⟨toPc, _⟩ | toPc <;> simp [Worker.connectedShare, toPc, WorkerPc.connected]
      simp only [lowered, left, right]
      omega

theorem Counted.call_step (counted : sys.Counted) {index : Nat} {call next : Call}
    {label : CallLabel} {shared : Shared} {spawned : List Worker}
    (found : sys.calls[index]? = some call)
    (taken : Call.Step index sys.shared call label shared next spawned)
    : Counted { sys with
        shared
        workers := sys.workers ++ spawned
        calls := sys.calls.set index next } where
  placed := by
    intro worker member
    rcases taken.mem_workers member with old | rfl
    · exact counted.placed worker old
    · simp [Worker.Placed]
  holding := by
    intro worker member
    rcases taken.mem_workers member with old | rfl
    · exact counted.holding worker old
    · simp [Worker.Holding, WorkerPc.mayHold]
  plans := forall_set counted.plans taken.plansSome
  scheduled := by
    have fresh : total Worker.scheduledShare spawned = spawned.length := by
      rcases taken.spawned_cases with rfl | rfl <;>
        simp [Worker.scheduledShare, WorkerPc.scheduled]
    have before := counted.scheduled
    rw [total_set _ found, total_append, fresh]
    rcases taken.scheduledConnections with
      ⟨same, planned⟩ | ⟨scheduled, toAdd, rfl, rfl, rfl, read, raised⟩
    · simp only [same]
      omega
    · have positive : 0 < toAdd := counted.plans _ (List.mem_of_getElem? found)
      simp only [raised, Call.planned, List.length_nil]
      omega
  connected := by
    have fresh : total Worker.connectedShare spawned = 0 := by
      rcases taken.spawned_cases with rfl | rfl <;>
        simp [Worker.connectedShare, WorkerPc.connected]
    rw [total_append, fresh, taken.nConnections, counted.connected, add_zero]

/-- The counters agree with the threads in every reachable state. -/
theorem ReachableWhile.counted (built : start.Built) (reached : ReachableWhile meets start sys)
    : sys.Counted := by
  refine invariant reached built.counted ?_ ?_ ?_
  · intro sys index worker next label shared _ _ counted found taken _
    exact counted.worker_step found taken
  · intro sys index call next label shared spawned _ _ counted found taken _
    exact counted.call_step found taken
  · intro sys api dispatched _ counted
    have entry : api.entry.PlansSome ∧ api.entry.planned = 0 := by
      cases api <;> simp [Api.entry, Call.PlansSome, Call.planned]
    refine { counted with plans := ?_, scheduled := ?_ }
    · intro call member
      rcases mem_snoc_cases member with old | rfl
      · exact counted.plans call old
      · exact entry.1
    · simp only [total_append, total_singleton, entry.2, add_zero]
      exact counted.scheduled

end Sys

end Muld
