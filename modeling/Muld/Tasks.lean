import Muld.JobRuns

/-! The workers of all jobs share the threads of one pool. A worker waits in the queue of the
pool, is run by one thread or has closed; so the threads bound the open connections of all
jobs together, and no thread idles while a worker waits.
-/

namespace Muld

open Threads WorkQueues

/-- Elsewhere than in a worker a job may get a fresh worker. -/
theorem Threaded.Step.workers_cases {threaded after : Threaded} {action : ThreadAction}
    (taken : threaded.Step action after) (elsewhere : action.isWork = false)
    : after.sys.workers = threaded.sys.workers
      ∨ after.sys.workers = threaded.sys.workers ++ [({} : Worker)] := by
  have entered : ∀ {api : Api} {sys : Sys}, threaded.sys.step (.invoke api) = some sys →
      sys.workers = threaded.sys.workers := by
    intro api sys moved
    cases Sys.step_cases moved
    rfl
  cases taken with
  | move action frame sys moves outside moved =>
      cases Sys.step_cases moved with
      | worker => cases elsewhere
      | call index call next label shared spawned found stepped =>
          rcases stepped.spawned_cases with rfl | rfl
          · exact Or.inl (List.append_nil _)
          · exact Or.inr rfl
      | invoke => exact Or.inl rfl
  | invoke api sys moved => exact Or.inl (entered moved)
  | nest frame api sys within idle moved => exact Or.inl (entered moved)
  | leave => exact Or.inl rfl

namespace MuldDownloadManager

variable {manager after : MuldDownloadManager} {job : Job} {position : Nat} {task : Task}

/-- The connections that the workers of all jobs have open. -/
def connections (manager : MuldDownloadManager) : Int :=
  total (fun job => total Worker.connectedShare job.threads.sys.workers) manager.jobs

-----------------------------------------------------------------------------------------
-- The workers after a step of the manager
-----------------------------------------------------------------------------------------

theorem setThreads_jobs (found : manager.jobs[position]? = some job) (threads : Threaded)
    : (manager.setThreads position threads).jobs
        = manager.jobs.set position { job with threads } := by
  obtain ⟨inside, rfl⟩ := List.getElem?_eq_some_iff.mp found
  exact List.modify_eq_set_get _ inside

theorem worker?_setThreads (found : manager.jobs[position]? = some job) (threads : Threaded)
    (task : Task)
    : (manager.setThreads position threads).worker? task
        = if task.job = position then threads.sys.workers[task.worker]?
          else manager.worker? task := by
  have inside := (List.getElem?_eq_some_iff.mp found).1
  rw [worker?, setThreads_jobs found]
  split
  · rename_i own
    rw [own, List.getElem?_set_self inside]
    rfl
  · rename_i other
    rw [List.getElem?_set_ne (Ne.symm other)]
    rfl

theorem connections_setThreads (found : manager.jobs[position]? = some job)
    (threads : Threaded)
    : (manager.setThreads position threads).connections
        = manager.connections - total Worker.connectedShare job.threads.sys.workers
          + total Worker.connectedShare threads.sys.workers := by
  rw [connections, setThreads_jobs found, total_set _ found]
  rfl

/-- A round of the dispatcher leaves all workers as they are. -/
theorem worker?_request {conditions : RequestConditions} {request : PendingDownloadRequest}
    (taken : manager.step (.request conditions request) = some after)
    : after.worker? = manager.worker? ∧ after.connections = manager.connections := by
  rcases step_request_jobs taken with same | ⟨new, ⟨shared, _, _, threads⟩, added⟩
  · constructor
    · funext task
      rw [worker?, same]
      rfl
    · rw [connections, same]
      rfl
  · have empty : new.threads.sys.workers = [] := by rw [threads]; rfl
    constructor
    · funext task
      rw [worker?, worker?, added, List.getElem?_append]
      split
      · rfl
      · rename_i beyond
        have missing : manager.jobs[task.job]? = none :=
          List.getElem?_eq_none (Nat.le_of_not_lt beyond)
        rw [missing, List.getElem?_singleton]
        split
        · simp [empty]
        · rfl
    · rw [connections, added, total_append, total_singleton, empty, total_nil, add_zero]
      rfl

/-- A step of a worker moves this worker only. -/
theorem work_cases {label : WorkerLabel}
    (taken : manager.step (.job task.job (.act (.worker task.worker label))) = some after)
    : ∃ worker next shared shared',
        manager.worker? task = some worker
        ∧ worker.Step shared label shared' next
        ∧ after.worker? = Function.update manager.worker? task (some next)
        ∧ after.connections
            = manager.connections - worker.connectedShare + next.connectedShare := by
  cases step_cases taken with
  | job found moved =>
      rename_i job threads
      cases moved with
      | move action frame sys moves outside moved =>
          cases Sys.step_cases moved with
          | worker index worker next label shared present stepped =>
              have inside := (List.getElem?_eq_some_iff.mp present).1
              refine ⟨worker, next, _, shared, ?_, stepped, ?_, ?_⟩
              · rw [worker?, found]
                exact present
              · funext other
                rw [worker?_setThreads found]
                by_cases same : other = task
                · subst same
                  rw [if_pos rfl, Function.update_self]
                  exact List.getElem?_set_self inside
                · rw [Function.update_of_ne same]
                  split
                  · rename_i own
                    have apart : other.worker ≠ task.worker := by
                      intro equal
                      apply same
                      cases other
                      cases task
                      simp_all
                    rw [worker?, own, found]
                    exact List.getElem?_set_ne (Ne.symm apart)
                  · rfl
              · rw [connections_setThreads found, total_set _ present]
                omega

/-- A step elsewhere in a job leaves the workers and may add a fresh one to the job. -/
theorem elsewhere_cases {action : ThreadAction} (elsewhere : action.isWork = false)
    (taken : manager.step (.job position action) = some after)
    : after.connections = manager.connections
      ∧ ((after.worker? = manager.worker?
          ∧ after.workerCount position = manager.workerCount position)
        ∨ (after.worker?
            = Function.update manager.worker?
                { job := position, worker := manager.workerCount position }
                (some ({} : Worker))
          ∧ after.workerCount position = manager.workerCount position + 1)) := by
  cases step_cases taken with
  | job found moved =>
      rename_i job threads
      have inside := (List.getElem?_eq_some_iff.mp found).1
      have count : manager.workerCount position = job.threads.sys.workers.length := by
        simp [workerCount, found]
      have count' : (manager.setThreads position threads).workerCount position
          = threads.sys.workers.length := by
        simp [workerCount, setThreads_jobs found, inside]
      rw [connections_setThreads found, count, count']
      rcases moved.workers_cases elsewhere with same | new
      · rw [same]
        refine ⟨by omega, Or.inl ⟨?_, rfl⟩⟩
        funext task
        rw [worker?_setThreads found, same]
        split
        · rename_i own
          rw [worker?, own, found]
          rfl
        · rfl
      · rw [new, total_append]
        have fresh : total Worker.connectedShare [({} : Worker)] = 0 := rfl
        refine ⟨by omega, Or.inr ⟨?_, by simp⟩⟩
        funext task
        rw [worker?_setThreads found, new]
        by_cases same
            : task = { job := position, worker := job.threads.sys.workers.length }
        · subst same
          simp
        · rw [Function.update_of_ne same]
          split
          · rename_i own
            have apart : task.worker ≠ job.threads.sys.workers.length := by
              intro equal
              apply same
              cases task
              simp_all
            rw [worker?, own, found, Option.bind_some, List.getElem?_append]
            split
            · rfl
            · rename_i beyond
              rw [List.getElem?_eq_none (Nat.le_of_not_lt beyond)]
              exact List.getElem?_eq_none (by simp only [List.length_singleton]; omega)
          · rfl

/-- The next worker of a job is not there yet. -/
theorem worker?_workerCount (manager : MuldDownloadManager) (position : Nat)
    : manager.worker? { job := position, worker := manager.workerCount position } = none := by
  rw [worker?, workerCount]
  cases manager.jobs[position]? with
  | none => rfl
  | some job => exact List.getElem?_eq_none (Nat.le_refl _)

/-- What the worker that a pool thread runs contributes to the open connections. -/
def engaged (manager : MuldDownloadManager) : Consumer Task → Int
  | .running task => (manager.worker? task).elim 0 Worker.connectedShare
  | _ => 0

theorem engaged_idle (manager : MuldDownloadManager) (consumer : Consumer Task)
    (idle : consumer.item? = none)
    : manager.engaged consumer = 0 := by
  cases consumer with
  | running task => cases idle
  | ready | asleep | returned => rfl

/-- A thread contributes one connection at most. -/
theorem engaged_le (manager : MuldDownloadManager) (consumer : Consumer Task)
    : manager.engaged consumer ≤ 1 := by
  cases consumer with
  | running task =>
      simp only [engaged]
      cases manager.worker? task with
      | none => decide
      | some worker =>
          simp only [Option.elim, Worker.connectedShare]
          split <;> decide
  | ready | asleep | returned => exact Int.zero_le_ofNat 1

theorem engaged_congr (same : after.worker? = manager.worker?)
    : after.engaged = manager.engaged := by
  funext consumer
  cases consumer <;> simp [engaged, same]

end MuldDownloadManager

namespace Runtime

variable {runtime after : Runtime} {meets : Runtime → RuntimeAction → Runtime → Prop}
  {maxThreads : Int} {logger : Bool} {task : Task} {worker : Worker}

-----------------------------------------------------------------------------------------
-- Tasks and workers
-----------------------------------------------------------------------------------------

/-- Every worker has one task; it has not begun while the task waits, and has closed when the
task is finished.
-/
structure Assigned (runtime : Runtime) : Prop where
  once : runtime.pool.added.Nodup
  known
    : ∀ task, task ∈ runtime.pool.added ↔ (runtime.manager.worker? task).isSome = true
  waiting
    : ∀ task ∈ runtime.pool.items, ∀ worker,
        runtime.manager.worker? task = some worker → worker.pc = .queued
  finished
    : ∀ task ∈ runtime.pool.finished, ∀ worker,
        runtime.manager.worker? task = some worker → worker.pc = .closed

/-- The threads of the pool have open the connections that the jobs have open. -/
def Engaged (runtime : Runtime) : Prop :=
  runtime.manager.connections
    = total runtime.manager.engaged runtime.pool.consumers

theorem Assigned.of_worker? (assigned : runtime.Assigned) {manager : MuldDownloadManager}
    (same : manager.worker? = runtime.manager.worker?)
    : Assigned { runtime with manager } where
  once := assigned.once
  known := same ▸ assigned.known
  waiting := same ▸ assigned.waiting
  finished := same ▸ assigned.finished

/-- A worker that takes a step is the one of a task that neither waits nor is finished. -/
theorem Assigned.work (assigned : runtime.Assigned) (ordered : runtime.pool.Ordered)
    {thread : Nat} (runs : runtime.pool.consumers[thread]? = some (.running task))
    {manager : MuldDownloadManager} {next : Worker}
    (found : runtime.manager.worker? task = some worker)
    (moved : manager.worker? = Function.update runtime.manager.worker? task (some next))
    : Assigned { runtime with manager } := by
  obtain ⟨unwaiting, unfinished⟩ := ordered.apart assigned.once runs
  have others : ∀ other, other ≠ task → manager.worker? other = runtime.manager.worker? other :=
    fun other different => by rw [moved, Function.update_of_ne different]
  refine ⟨assigned.once, ?_, ?_, ?_⟩
  · intro other
    by_cases same : other = task
    · subst same
      rw [assigned.known, moved, Function.update_self, found]
      exact Iff.rfl
    · rw [assigned.known, others other same]
  · intro other waits
    have different : other ≠ task := fun same => unwaiting (same ▸ waits)
    exact others other different ▸ assigned.waiting other waits
  · intro other done
    have different : other ≠ task := fun same => unfinished (same ▸ done)
    exact others other different ▸ assigned.finished other done

/-- A worker that is new comes with a task of its own, behind the others. -/
theorem Assigned.enqueue (assigned : runtime.Assigned) (ordered : runtime.pool.Ordered)
    {manager : MuldDownloadManager}
    (unknown : runtime.manager.worker? task = none)
    (moved
      : manager.worker? = Function.update runtime.manager.worker? task (some ({} : Worker)))
    : Assigned { runtime with manager, pool := runtime.pool.add task } := by
  have new : task ∉ runtime.pool.added := by
    rw [assigned.known, unknown]
    exact Bool.false_ne_true
  have others : ∀ other, other ≠ task → manager.worker? other = runtime.manager.worker? other :=
    fun other different => by rw [moved, Function.update_of_ne different]
  refine ⟨?_, ?_, ?_, ?_⟩
  · exact List.nodup_append.mpr ⟨assigned.once, List.nodup_singleton _, by grind⟩
  · intro other
    by_cases same : other = task
    · subst same
      simp [WorkQueue.add, moved]
    · simp [WorkQueue.add, same, assigned.known, others other same]
  · intro other waits
    by_cases same : other = task
    · subst same
      intro worker found
      rw [moved, Function.update_self] at found
      cases found
      rfl
    · have waits : other ∈ runtime.pool.items := by
        simpa [WorkQueue.add, same] using waits
      exact others other same ▸ assigned.waiting other waits
  · intro other done
    have different : other ≠ task := by
      rintro rfl
      exact new (ordered.added_of_finished done)
    exact others other different ▸ assigned.finished other done

theorem Assigned.step (assigned : runtime.Assigned) (ordered : runtime.pool.Ordered)
    {action : RuntimeAction} (taken : runtime.Step action after)
    : after.Assigned := by
  cases taken with
  | refused invalid => exact assigned
  | push valid =>
      exact ⟨assigned.once, assigned.known, assigned.waiting, assigned.finished⟩
  | requests sync taken =>
      exact ⟨assigned.once, assigned.known, assigned.waiting, assigned.finished⟩
  | nextRequest processed attached taken =>
      exact ⟨assigned.once, assigned.known, assigned.waiting, assigned.finished⟩
  | dispatch runs unprocessed taken =>
      have moved := assigned.of_worker? (MuldDownloadManager.worker?_request taken).1
      exact ⟨moved.once, moved.known, moved.waiting, moved.finished⟩
  | pool sync taken =>
      obtain ⟨added, finished, items⟩ := (WorkQueue.step_cases taken).sync_cases sync
      exact ⟨added ▸ assigned.once, added ▸ assigned.known,
        fun task waits => assigned.waiting task (items waits), finished ▸ assigned.finished⟩
  | work runs taken =>
      obtain ⟨worker, next, _, _, found, _, moved, _⟩ := MuldDownloadManager.work_cases taken
      exact assigned.work ordered runs found moved
  | nextTask runs found closed taken =>
      rename_i thread task worker pool
      cases WorkQueue.step_cases taken with
      | finish consumer item held =>
          obtain rfl : task = item := by
            have same := runs.symm.trans held
            cases same
            rfl
          refine ⟨assigned.once, assigned.known, assigned.waiting, ?_⟩
          intro other done worker' found'
          rcases mem_snoc_cases done with before | rfl
          · exact assigned.finished other before worker' found'
          · rw [found] at found'
            exact Option.some.inj found' ▸ closed
  | job elsewhere taken =>
      rename_i position action manager
      obtain ⟨_, ⟨same, count⟩ | ⟨moved, count⟩⟩ :=
        MuldDownloadManager.elsewhere_cases elsewhere taken
      · have still := assigned.of_worker? same
        rw [enqueued, count, if_neg (Nat.lt_irrefl _)]
        exact still
      · rw [enqueued, count, if_pos (Nat.lt_succ_self _)]
        exact assigned.enqueue ordered (runtime.manager.worker?_workerCount position) moved

/-- The worker that steps is the one that its thread contributes. -/
theorem Engaged.step (engaged : runtime.Engaged) (assigned : runtime.Assigned)
    (ordered : runtime.pool.Ordered) {action : RuntimeAction}
    (taken : runtime.Step action after)
    : after.Engaged := by
  cases taken with
  | refused invalid => exact engaged
  | push valid => exact engaged
  | requests sync taken => exact engaged
  | nextRequest processed attached taken => exact engaged
  | dispatch runs unprocessed taken =>
      obtain ⟨same, open_⟩ := MuldDownloadManager.worker?_request taken
      simp only [Engaged, open_, MuldDownloadManager.engaged_congr same]
      exact engaged
  | pool sync taken =>
      have kept := (WorkQueue.step_cases taken).total_sync sync
        (MuldDownloadManager.engaged_idle runtime.manager) ?_
      · exact engaged.trans kept.symm
      · intro task waits
        simp only [MuldDownloadManager.engaged]
        cases found : runtime.manager.worker? task with
        | none => rfl
        | some worker =>
            simp [Worker.connectedShare, assigned.waiting task waits worker found,
              WorkerPc.connected]
  | work runs taken =>
      rename_i thread label task manager
      obtain ⟨worker, next, _, _, found, _, moved, open_⟩ :=
        MuldDownloadManager.work_cases taken
      have stays : runtime.pool.consumers.set thread (.running task)
          = runtime.pool.consumers := by
        obtain ⟨inside, held⟩ := List.getElem?_eq_some_iff.mp runs
        rw [← held, List.set_getElem_self]
      have others : ∀ other consumer, other ≠ thread →
          runtime.pool.consumers[other]? = some consumer →
          manager.engaged consumer = runtime.manager.engaged consumer := by
        intro other consumer different at_other
        cases consumer with
        | running item =>
            have apart : item ≠ task := by
              rintro rfl
              exact different (ordered.consumer_eq assigned.once at_other runs)
            simp only [MuldDownloadManager.engaged, moved, Function.update_of_ne apart]
        | ready | asleep | returned => rfl
      have moves := @total_set_of_agree _ _ thread _ (.running task) _ _ runs others
      rw [stays] at moves
      simp only [Engaged, open_, moves, ← show _ = _ from engaged]
      simp [MuldDownloadManager.engaged, found, moved]
  | nextTask runs found closed taken =>
      rename_i thread task worker pool
      cases WorkQueue.step_cases taken with
      | finish consumer item held =>
          obtain rfl : task = item := by
            have same := runs.symm.trans held
            cases same
            rfl
          have left : runtime.manager.engaged (.running task) = 0 := by
            simp [MuldDownloadManager.engaged, found, Worker.connectedShare, closed,
              WorkerPc.connected]
          have right : runtime.manager.engaged .ready = 0 := rfl
          simp only [Engaged, total_set _ runs, left, right, add_zero, sub_zero]
          exact engaged
  | job elsewhere taken =>
      rename_i position action manager
      obtain ⟨open_, moved⟩ := MuldDownloadManager.elsewhere_cases elsewhere taken
      have same : ∀ consumer ∈ runtime.pool.consumers,
          manager.engaged consumer = runtime.manager.engaged consumer := by
        intro consumer member
        cases consumer with
        | running task =>
            obtain ⟨index, at_index⟩ := List.mem_iff_getElem?.mp member
            have known := (assigned.known task).mp (ordered.mem_added at_index)
            simp only [MuldDownloadManager.engaged]
            rcases moved with ⟨same, _⟩ | ⟨moved, _⟩
            · rw [same]
            · rw [moved, Function.update_of_ne]
              rintro rfl
              rw [MuldDownloadManager.worker?_workerCount] at known
              cases known
        | ready | asleep | returned => rfl
      have kept : (enqueued position runtime.manager manager runtime.pool).consumers
          = runtime.pool.consumers := by
        rw [enqueued]
        split <;> rfl
      simp only [Engaged, open_, kept, total, List.map_congr_left same]
      exact engaged

theorem create_assigned (maxThreads : Int) (logger : Bool)
    : (create maxThreads logger).Assigned := by
  constructor <;> simp [create, WorkQueue.create, MuldDownloadManager.create,
    MuldDownloadManager.worker?]

theorem create_engaged (maxThreads : Int) (logger : Bool)
    : (create maxThreads logger).Engaged := by
  have idle : total (create maxThreads logger).manager.engaged
      (create maxThreads logger).pool.consumers = 0 := by
    refine total_eq_zero fun consumer member => ?_
    rw [List.eq_of_mem_replicate member]
    rfl
  exact idle.symm

theorem ReachableWhile.poolOrdered (reached : ReachableWhile meets maxThreads logger runtime)
    : runtime.pool.Ordered :=
  (ReachableWhile.pool reached).ordered (WorkQueue.create_ordered _)

theorem ReachableWhile.assigned (reached : ReachableWhile meets maxThreads logger runtime)
    : runtime.Assigned :=
  reached.invariant (create_assigned _ _) fun _ _ _ earlier assigned taken _ =>
    assigned.step (ReachableWhile.poolOrdered earlier) (step_cases taken)

theorem ReachableWhile.engaged (reached : ReachableWhile meets maxThreads logger runtime)
    : runtime.Engaged :=
  reached.invariant (create_engaged _ _) fun _ _ _ earlier engaged taken _ =>
    engaged.step (ReachableWhile.assigned earlier) (ReachableWhile.poolOrdered earlier)
      (step_cases taken)

theorem ReachableWhile.pool_length (reached : ReachableWhile meets maxThreads logger runtime)
    : (runtime.pool.consumers.length : Int) = max 1 maxThreads := by
  have length := (ReachableWhile.pool reached).consumers_length
  simp only [WorkQueue.create, List.length_replicate] at length
  omega

-----------------------------------------------------------------------------------------
-- Two downloads on one thread
-----------------------------------------------------------------------------------------

/-- The worker of the first file is connected; the one of the second file waits. -/
def busyRun : List RuntimeAction :=
  downloads 0 "f" ++ [.pool (.look 0), .work 0 .run] ++ downloads 1 "g"

/-- The only thread runs the worker of the first file, and the other worker waits. -/
structure Busy (runtime : Runtime) : Prop where
  items : runtime.pool.items = [{ job := 1, worker := 0 }]
  consumers : runtime.pool.consumers = [.running { job := 0, worker := 0 }]
  due : runtime.pool.dueOne = 0 ∧ runtime.pool.dueAll = 0
  goes_on : runtime.pool.stopped = false
  waits : runtime.manager.worker? { job := 1, worker := 0 } = some {}
  connections : runtime.manager.connections = 1

instance (runtime : Runtime) : Decidable runtime.Busy :=
  decidable_of_iff
    (runtime.pool.items = [{ job := 1, worker := 0 }]
      ∧ runtime.pool.consumers = [.running { job := 0, worker := 0 }]
      ∧ (runtime.pool.dueOne = 0 ∧ runtime.pool.dueAll = 0)
      ∧ runtime.pool.stopped = false
      ∧ runtime.manager.worker? { job := 1, worker := 0 } = some {}
      ∧ runtime.manager.connections = 1)
    ⟨fun ⟨items, consumers, due, goes_on, waits, connections⟩ =>
      ⟨items, consumers, due, goes_on, waits, connections⟩,
      fun ⟨items, consumers, due, goes_on, waits, connections⟩ =>
        ⟨items, consumers, due, goes_on, waits, connections⟩⟩

theorem exists_busy : ∃ runtime, Reachable 1 false runtime ∧ runtime.Busy := by
  obtain ⟨runtime, reached, busy⟩ :=
    @Transition.exists_of_runWhile _ _ step Transition.anyStep (create 1 false) _ busyRun
      (fun runtime => decide runtime.Busy) (by decide +kernel)
  exact ⟨runtime, reached, of_decide_eq_true busy⟩

-----------------------------------------------------------------------------------------
-- What the pool does for the jobs
-----------------------------------------------------------------------------------------

/-- However many jobs there are, together they never have more connections open than the pool
has threads.
-/
theorem connections_within_pool (reached : Reachable maxThreads logger runtime)
    : total (fun job => job.threads.sys.shared.engine.nConnections) runtime.manager.jobs
        ≤ max 1 maxThreads := by
  have counted : total (fun job => job.threads.sys.shared.engine.nConnections)
      runtime.manager.jobs = runtime.manager.connections := by
    refine congrArg List.sum (List.map_congr_left fun job member => ?_)
    exact ((ReachableWhile.runAlone reached).jobs job member).counted.connected
  have threads : total runtime.manager.engaged runtime.pool.consumers
      ≤ runtime.pool.consumers.length := by
    have bound := List.sum_le_card_nsmul (runtime.pool.consumers.map runtime.manager.engaged) 1
      (by simpa using fun consumer _ => runtime.manager.engaged_le consumer)
    simpa [total] using bound
  calc total (fun job => job.threads.sys.shared.engine.nConnections) runtime.manager.jobs
      = runtime.manager.connections := counted
    _ = total runtime.manager.engaged runtime.pool.consumers :=
        ReachableWhile.engaged reached
    _ ≤ runtime.pool.consumers.length := threads
    _ = max 1 maxThreads := ReachableWhile.pool_length reached

/-- Two downloads with two workers have one connection on one thread. -/
theorem connections_within_pool_one
    : ∃ runtime, Reachable 1 false runtime
        ∧ runtime.pool.items = [{ job := 1, worker := 0 }]
        ∧ total (fun job => job.threads.sys.shared.engine.nConnections) runtime.manager.jobs
          ≤ 1 := by
  obtain ⟨runtime, reached, busy⟩ := exists_busy
  exact ⟨runtime, reached, busy.items, connections_within_pool reached⟩

/-- The workers of all jobs are run once each, and in the order in which they were enqueued. -/
structure RunsOnce (runtime : Runtime) : Prop where
  inOrder : runtime.pool.taken <+: runtime.pool.added
  once : runtime.pool.added.Nodup
  each : ∀ task, task ∈ runtime.pool.added ↔ (runtime.manager.worker? task).isSome = true
  /-- No two threads run one worker. -/
  alone
    : ∀ (first second : Nat) (task : Task),
        runtime.pool.consumers[first]? = some (.running task)
        → runtime.pool.consumers[second]? = some (.running task)
        → first = second
  /-- A worker that has begun and has not closed is run by a thread. -/
  working
    : ∀ task worker,
        runtime.manager.worker? task = some worker
        → worker.pc ≠ .queued
        → worker.pc ≠ .closed
        → ∃ thread : Nat, runtime.pool.consumers[thread]? = some (.running task)

/-- In every run every worker of every job is enqueued once, and threads take the workers in
that order, each worker once.
-/
theorem workers_run_once (reached : Reachable maxThreads logger runtime)
    : runtime.RunsOnce := by
  have ordered := ReachableWhile.poolOrdered reached
  have assigned := ReachableWhile.assigned reached
  refine ⟨?_, assigned.once, assigned.known, ?_, ?_⟩
  · exact ⟨_, ordered.added.symm⟩
  · exact fun first second task => ordered.consumer_eq assigned.once
  · intro task worker found begun open_
    have known : task ∈ runtime.pool.added := by simp [assigned.known, found]
    rcases ordered.mem_cases known with waits | runs | done
    · exact absurd (assigned.waiting task waits worker found) begun
    · exact runs
    · exact absurd (assigned.finished task done worker found) open_

/-- The worker of the second download is enqueued behind the one of the first. -/
theorem workers_run_once_second
    : ∃ runtime, Reachable 1 false runtime
        ∧ runtime.pool.items = [{ job := 1, worker := 0 }]
        ∧ runtime.RunsOnce := by
  obtain ⟨runtime, reached, busy⟩ := exists_busy
  exact ⟨runtime, reached, busy.items, workers_run_once reached⟩

/-- With no notification on its way and no thread about to look at the queue, a worker waits
only while all threads of the pool run workers.
-/
theorem waits_for_busy_threads (reached : Reachable maxThreads logger runtime)
    (rest : runtime.pool.AtRest) (goes_on : runtime.pool.stopped = false)
    (found : runtime.manager.worker? task = some worker) (queued : worker.pc = .queued)
    (untaken : ∀ thread : Nat, runtime.pool.consumers[thread]? ≠ some (.running task))
    : (runtime.pool.consumers.length : Int) = max 1 maxThreads
      ∧ ∀ consumer ∈ runtime.pool.consumers, ∃ task, consumer = .running task := by
  have ordered := ReachableWhile.poolOrdered reached
  have assigned := ReachableWhile.assigned reached
  have roused := (ReachableWhile.pool reached).roused (WorkQueue.create_roused _)
  have known : task ∈ runtime.pool.added := by simp [assigned.known, found]
  have waits : task ∈ runtime.pool.items := by
    rcases ordered.mem_cases known with waits | ⟨thread, runs⟩ | done
    · exact waits
    · exact absurd runs (untaken thread)
    · have closed := assigned.finished task done worker found
      rw [queued] at closed
      cases closed
  refine ⟨ReachableWhile.pool_length reached, fun consumer member => ?_⟩
  rcases roused.busy rest (Or.inl (List.ne_nil_of_mem waits)) member with runs | ⟨_, stopped⟩
  · exact runs
  · rw [goes_on] at stopped
    cases stopped

/-- The second worker waits while the only thread runs the first one. -/
theorem waits_for_busy_threads_second
    : ∃ runtime, Reachable 1 false runtime
        ∧ runtime.pool.items = [{ job := 1, worker := 0 }]
        ∧ ∀ consumer ∈ runtime.pool.consumers, ∃ task, consumer = .running task := by
  obtain ⟨runtime, reached, busy⟩ := exists_busy
  refine ⟨runtime, reached, busy.items, ?_⟩
  refine (waits_for_busy_threads reached ⟨busy.due.1, busy.due.2, ?_⟩ busy.goes_on busy.waits
    rfl ?_).2
  · simp [busy.consumers]
  · rintro (_ | thread) <;> simp [busy.consumers]

/-- Nothing more is taken when the pool is stopped, and what waits then stays in the queue. The
worker is never run; its job counts it for ever, so that no `Start` or `Resume` of the job gets
past its drain.
-/
theorem stopped_pool_strands {middle : Runtime} (reached : Reachable maxThreads logger middle)
    (stopped : middle.pool.stopped = true) (waits : task ∈ middle.pool.items)
    (later : Transition.Reachable step Transition.anyStep middle runtime)
    : runtime.pool.taken = middle.pool.taken
      ∧ task ∈ runtime.pool.items
      ∧ (∃ worker, runtime.manager.worker? task = some worker ∧ worker.pc = .queued)
      ∧ ∀ (job : Job) (index : Nat) (label : CallLabel),
          runtime.manager.jobs[task.job]? = some job
          → job.threads.sys.calls[index]? = some .drain
          → job.threads.sys.step (.call index label) = none := by
  have whole : Reachable maxThreads logger runtime := reached.trans later
  have assigned := ReachableWhile.assigned whole
  have drops : WorkQueue.Reachable .drop middle.pool runtime.pool :=
    later.project Runtime.pool fun _ _ _ _ taken _ =>
      (step_cases taken).pool_cases.imp_right fun ⟨moved, taken⟩ => ⟨moved, taken, trivial⟩
  obtain ⟨_, same, kept⟩ := drops.dropped stopped
  have still : task ∈ runtime.pool.items := kept.subset waits
  have known : task ∈ runtime.pool.added := by
    rw [(ReachableWhile.poolOrdered whole).added]
    exact List.mem_append_right _ still
  obtain ⟨worker, found⟩ := Option.isSome_iff_exists.mp ((assigned.known task).mp known)
  have queued := assigned.waiting task still worker found
  refine ⟨same, still, ⟨worker, found, queued⟩, fun job index label present drains => ?_⟩
  have counted :=
    ((ReachableWhile.runAlone whole).jobs job (List.mem_of_getElem? present)).counted
  have member : worker ∈ job.threads.sys.workers := by
    rw [MuldDownloadManager.worker?, present] at found
    exact List.mem_of_getElem? found
  have positive := counted.scheduled_pos member (by rw [queued]; rfl)
  by_contra moves
  obtain ⟨after, taken⟩ := Option.ne_none_iff_exists'.mp moves
  cases Sys.step_cases taken with
  | call index call next label shared spawned present stepped =>
      obtain rfl : call = .drain := Option.some.inj (present.symm.trans drains)
      cases stepped with
      | drained idle => omega
      | refused _ _ at_pc => simp at at_pc
      | terminateFinished _ at_pc => simp at at_pc
      | wish _ _ at_pc => simp at at_pc
      | forward _ _ _ at_pc => simp at at_pc

/-- The second worker is stranded when the pool is stopped. -/
theorem stopped_pool_strands_second
    : ∃ runtime, Reachable 1 false runtime
        ∧ ∃ worker,
            runtime.manager.worker? { job := 1, worker := 0 } = some worker
            ∧ worker.pc = .queued := by
  obtain ⟨runtime, reached, busy⟩ := exists_busy
  have stops : runtime.step (.pool .stop)
      = some { runtime with
          pool := { runtime.pool with stopped := true, dueAll := runtime.pool.dueAll + 1 } } :=
    rfl
  have reached := reached.next stops trivial
  exact ⟨_, reached, (stopped_pool_strands reached rfl (by simp [busy.items]) .start).2.2.1⟩

end Runtime

end Muld
