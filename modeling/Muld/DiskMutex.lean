import Muld.DiskEvents
import Muld.Scheduling

/-! The disk mutex is held by one store at a time. The threads inside a store are counted
by the lock: one while it is taken, and none while it is free.
-/

namespace Muld

open Threads

/-- What a worker contributes to the holders of the disk mutex. -/
def Worker.storeShare (worker : Worker) : Int := if worker.pc.scanning then 1 else 0

/-- What a call contributes to the holders of the disk mutex. -/
def Call.storeShare (call : Call) : Int := if call.scan?.isSome then 1 else 0

/-- How many stores the lock says there are. -/
def DownloadEngine.lockShare (engine : DownloadEngine) : Int :=
  if engine.diskLocked then 1 else 0

theorem Worker.storeShare_nonneg (worker : Worker) : 0 ≤ worker.storeShare := by
  unfold storeShare
  split <;> decide

theorem Call.storeShare_nonneg (call : Call) : 0 ≤ call.storeShare := by
  unfold storeShare
  split <;> decide

/-- What a step does to the disk mutex: nothing, or it takes the free mutex or gives back
the one that its thread has. The Booleans say whether the thread is inside a store.
-/
inductive Mutexed (shared shared' : Shared) : Bool → Bool → Prop
  | keeps (inside : Bool)
      (same : shared'.engine.diskLocked = shared.engine.diskLocked)
    : Mutexed shared shared' inside inside
  | locks (unlocked : shared.engine.diskLocked = false)
      (locked : shared'.engine.diskLocked = true)
    : Mutexed shared shared' false true
  | unlocks (unlocked : shared'.engine.diskLocked = false)
    : Mutexed shared shared' true false

/-- A thread inside a store is one that the lock counts. -/
theorem Mutexed.lockShare {shared shared' : Shared} {before after : Bool}
    (mutexed : Mutexed shared shared' before after)
    (counted : before = true → shared.engine.diskLocked = true)
    : shared'.engine.lockShare
        = shared.engine.lockShare - (if before then 1 else 0) + if after then 1 else 0 := by
  cases mutexed with
  | keeps _ same =>
      rw [DownloadEngine.lockShare, same, DownloadEngine.lockShare]
      omega
  | locks unlocked locked => simp [DownloadEngine.lockShare, unlocked, locked]
  | unlocks unlocked => simp [DownloadEngine.lockShare, unlocked, counted rfl]

theorem Worker.Step.mutexed {shared shared' : Shared} {worker next : Worker}
    {label : WorkerLabel} (taken : Worker.Step shared worker label shared' next)
    : Mutexed shared shared' worker.pc.scanning next.pc.scanning := by
  have keeps (same : shared'.engine.diskLocked = shared.engine.diskLocked)
      (inside : next.pc.scanning = worker.pc.scanning)
      : Mutexed shared shared' worker.pc.scanning next.pc.scanning := by
    rw [inside]
    exact .keeps _ same
  cases taken
  case lock at_pc unlocked =>
    rw [at_pc]
    exact .locks unlocked rfl
  case store site _ at_pc _ =>
    have outside : (worker.goto (afterStore site)).pc.scanning = false := by cases site <;> rfl
    rw [outside, at_pc]
    exact .unlocks rfl
  case nullWriter => exact keeps rfl rfl
  case writePart => exact keeps rfl rfl
  case scan => exact keeps rfl rfl
  case throw error at_pc _ _ =>
    have outside : worker.pc.scanning = false := by
      cases pc : worker.pc <;> simp_all [WorkerPc.throws, WorkerPc.scanning]
    exact keeps rfl outside.symm
  case release at_pc _ =>
    rcases at_pc with at_pc | at_pc <;> exact keeps rfl (by rw [at_pc]; rfl)
  case streamStop at_pc _ =>
    rcases at_pc with at_pc | at_pc <;> exact keeps rfl (by rw [at_pc]; rfl)
  case allow at_pc _ _ =>
    rcases at_pc with at_pc | at_pc <;> exact keeps rfl (by rw [at_pc]; rfl)
  all_goals exact keeps (by first | rfl | simp) (by rw [‹worker.pc = _›]; rfl)

theorem Call.Step.mutexed {index : Nat} {shared shared' : Shared} {call next : Call}
    {label : CallLabel} {spawned : List Worker}
    (taken : Call.Step index shared call label shared' next spawned)
    : Mutexed shared shared' call.scan?.isSome next.scan?.isSome := by
  cases taken
  case lock unlocked => exact .locks unlocked rfl
  case store => exact .unlocks rfl
  case storeTerminate => exact .unlocks rfl
  case cancelCleanup => exact .keeps false (by simp)
  case refused at_pc =>
    rcases at_pc with ⟨rfl, _⟩ | ⟨rfl, _⟩ | ⟨rfl, _⟩ <;> exact .keeps false rfl
  case terminateFinished at_pc =>
    rcases at_pc with rfl | ⟨_, rfl⟩ <;> exact .keeps false rfl
  case wish at_pc =>
    rcases at_pc with ⟨rfl, _⟩ | ⟨rfl, _⟩ | ⟨rfl, _⟩ <;> exact .keeps false rfl
  case forward at_pc =>
    rcases at_pc with ⟨rfl, _, rfl⟩ | ⟨rfl, _, rfl⟩ | ⟨rfl, _, rfl⟩ <;> exact .keeps false rfl
  case handlerSpeedLimit entered => rcases entered with rfl | rfl <;> exact .keeps false rfl
  case attachDispatch entered =>
    rcases entered with ⟨_, rfl⟩ | ⟨_, rfl⟩ | ⟨_, rfl⟩ | ⟨_, rfl⟩ <;> exact .keeps false rfl
  all_goals exact .keeps _ rfl

namespace Sys

variable {meets : Sys → Action → Sys → Prop} {start sys : Sys}

/-- The lock counts the threads inside a store. -/
def OneStore (sys : Sys) : Prop :=
  total Worker.storeShare sys.workers + total Call.storeShare sys.calls
    = sys.shared.engine.lockShare

/-- A worker inside a store has the mutex. -/
theorem OneStore.worker_locked (one : sys.OneStore) {worker : Worker}
    (member : worker ∈ sys.workers) (scans : worker.pc.scanning = true)
    : sys.shared.engine.diskLocked = true := by
  have own := share_le_total Worker.storeShare_nonneg member
  have calls := @total_nonneg _ sys.calls _ Call.storeShare_nonneg
  rw [Worker.storeShare, if_pos scans] at own
  by_contra unlocked
  rw [OneStore, DownloadEngine.lockShare, if_neg unlocked] at one
  omega

/-- A call inside a store has the mutex. -/
theorem OneStore.call_locked (one : sys.OneStore) {call : Call}
    (member : call ∈ sys.calls) (scans : call.scan?.isSome = true)
    : sys.shared.engine.diskLocked = true := by
  have own := share_le_total Call.storeShare_nonneg member
  have workers := @total_nonneg _ sys.workers _ Worker.storeShare_nonneg
  rw [Call.storeShare, if_pos scans] at own
  by_contra unlocked
  rw [OneStore, DownloadEngine.lockShare, if_neg unlocked] at one
  omega

theorem OneStore.worker_step (one : sys.OneStore) {index : Nat} {worker next : Worker}
    {label : WorkerLabel} {shared : Shared} (found : sys.workers[index]? = some worker)
    (taken : worker.Step sys.shared label shared next)
    : OneStore { sys with shared, workers := sys.workers.set index next } := by
  have locked := taken.mutexed.lockShare (one.worker_locked (List.mem_of_getElem? found))
  calc total Worker.storeShare (sys.workers.set index next)
          + total Call.storeShare sys.calls
      = total Worker.storeShare sys.workers + total Call.storeShare sys.calls
          - worker.storeShare + next.storeShare := by
        rw [total_set _ found]
        ring
    _ = sys.shared.engine.lockShare - worker.storeShare + next.storeShare := by rw [one]
    _ = shared.engine.lockShare := locked.symm

theorem OneStore.call_step (one : sys.OneStore) {index : Nat} {call next : Call}
    {label : CallLabel} {shared : Shared} {spawned : List Worker}
    (found : sys.calls[index]? = some call)
    (taken : Call.Step index sys.shared call label shared next spawned)
    : OneStore { sys with
        shared
        workers := sys.workers ++ spawned
        calls := sys.calls.set index next } := by
  have locked := taken.mutexed.lockShare (one.call_locked (List.mem_of_getElem? found))
  have fresh : total Worker.storeShare spawned = 0 := by
    rcases taken.spawned_cases with rfl | rfl <;> rfl
  calc total Worker.storeShare (sys.workers ++ spawned)
          + total Call.storeShare (sys.calls.set index next)
      = total Worker.storeShare sys.workers + total Call.storeShare sys.calls
          - call.storeShare + next.storeShare := by
        rw [total_append, fresh, total_set _ found]
        ring
    _ = sys.shared.engine.lockShare - call.storeShare + next.storeShare := by rw [one]
    _ = shared.engine.lockShare := locked.symm

/-- In every run, one store at a time has the disk mutex. -/
theorem ReachableWhile.oneStore (built : start.Built)
    (reached : ReachableWhile meets start sys)
    : sys.OneStore := by
  refine invariant reached ?_ ?_ ?_ ?_
  · simp [OneStore, built.workers, built.calls, built.diskLocked, DownloadEngine.lockShare]
  · intro sys index worker next label shared _ _ one found taken _
    exact one.worker_step found taken
  · intro sys index call next label shared spawned _ _ one found taken _
    exact one.call_step found taken
  · intro sys api dispatched _ one
    have outside : total Call.storeShare [api.entry] = 0 := by cases api <;> rfl
    rw [OneStore, total_append, outside, add_zero]
    exact one

end Sys

end Muld
