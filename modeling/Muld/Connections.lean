import Muld.Calls
import Muld.Library.Transition
import Mathlib.Data.List.Perm.Basic

/-! The methods of the engine that plan, count and release connections, each run with no step
of another thread in between. The counters they keep are read against the tasks and workers
that exist, and against the releases that were granted and not yet carried out.
-/

namespace Muld

namespace DownloadEngine

/-- What `SetDesiredConnections` makes of its argument. -/
def clampDesired (engine : DownloadEngine) (desired : Int) : Int :=
  max engine.minConnections (min desired engine.maxConnections)

/-- `SetDesiredConnections` with no step of another thread in between. -/
def setDesiredConnections (desired : Int) (engine : DownloadEngine) : DownloadEngine :=
  let (lowered, exchanged) := engine.exchangeDesired desired
  if 0 < lowered then exchanged.addBudget lowered else exchanged

/-- `SetConnectionBounds` with no step of another thread in between. -/
def setConnectionBounds (minConnections maxConnections : Int)
    (engine : DownloadEngine) : DownloadEngine :=
  let bounded := engine.setBounds minConnections maxConnections
  let (lowered, exchanged) := bounded.exchangeDesired bounded.desiredConnections
  if 0 < lowered then exchanged.addBudget lowered else exchanged

/-- `PlanNewWorkers`: the number of workers it plans, and the engine that counts them. -/
def planNewWorkers (maxNewWorkers : Int) (engine : DownloadEngine) : Int × DownloadEngine :=
  if maxNewWorkers ≤ 0 ∨ engine.active = false then (0, engine)
  else
    let toAdd :=
      min (engine.desiredConnections - engine.scheduledConnections) maxNewWorkers
    if engine.desiredConnections ≤ engine.scheduledConnections ∨ toAdd ≤ 0 then (0, engine)
    else
      (toAdd, { engine with scheduledConnections := engine.scheduledConnections + toAdd })

/-- `NotifyConnectionOpen`. -/
def notifyConnectionOpen (engine : DownloadEngine) : DownloadEngine :=
  { engine with
    nConnections := engine.nConnections + 1
    state := if engine.state = .queued then .downloading else engine.state }

/-- The two counters of `NotifyConnectionClose`. -/
def notifyConnectionClose (engine : DownloadEngine) : DownloadEngine :=
  { engine.releaseScheduled with nConnections := engine.nConnections - 1 }

/-- The bounds are set and the target is moved into them. -/
theorem setConnectionBounds_eq_desired (minConnections maxConnections : Int)
    (engine : DownloadEngine)
    : engine.setConnectionBounds minConnections maxConnections
        = (engine.setBounds minConnections maxConnections).setDesiredConnections
            engine.desiredConnections := rfl

/-- After the bounds only the target and the release budget change. -/
theorem setConnectionBounds_eq (minConnections maxConnections : Int)
    (engine : DownloadEngine)
    : ∃ desired budget : Int,
        engine.setConnectionBounds minConnections maxConnections
          = { engine.setBounds minConnections maxConnections with
              desiredConnections := desired, releaseBudget := budget } := by
  let bounded := engine.setBounds minConnections maxConnections
  by_cases lowered : 0 < (bounded.exchangeDesired bounded.desiredConnections).1
  · exact ⟨_, _, if_pos lowered⟩
  · exact ⟨_, bounded.releaseBudget, if_neg lowered⟩

/-- A new target is clamped, and what it lost is added to the release budget. -/
theorem setDesiredConnections_eq (desired : Int) (engine : DownloadEngine)
    : engine.setDesiredConnections desired
        = { engine with
            desiredConnections := engine.clampDesired desired
            releaseBudget :=
              if engine.clampDesired desired < engine.desiredConnections then
                wrapInt
                  (engine.releaseBudget
                    + (engine.desiredConnections - engine.clampDesired desired))
              else engine.releaseBudget } := by
  by_cases lowered : engine.clampDesired desired < engine.desiredConnections
  · rw [if_pos lowered]
    exact if_pos (Int.sub_pos_of_lt lowered)
  · rw [if_neg lowered]
    exact if_neg fun positive => lowered (Int.lt_of_sub_pos positive)

/-- Planned workers fill up the target and no more. -/
theorem planNewWorkers_cases (maxNewWorkers : Int) (engine : DownloadEngine)
    : engine.planNewWorkers maxNewWorkers = (0, engine)
      ∨ ∃ toAdd,
          0 < toAdd
          ∧ engine.scheduledConnections + toAdd ≤ engine.desiredConnections
          ∧ engine.planNewWorkers maxNewWorkers
              = (toAdd,
                { engine with
                  scheduledConnections := engine.scheduledConnections + toAdd }) := by
  simp only [planNewWorkers]
  split
  · exact Or.inl rfl
  · split
    · exact Or.inl rfl
    · rename_i room
      push Not at room
      exact Or.inr ⟨_, room.2, by omega, rfl⟩

end DownloadEngine

-----------------------------------------------------------------------------------------
-- The methods as calls that no other thread interrupts
-----------------------------------------------------------------------------------------

namespace Call

variable {index : Nat} {shared : Shared}

/-- A call takes some steps in a row and enqueues some workers. -/
inductive RunsAlone (index : Nat) : Shared → Call → Shared → Call → List Worker → Prop
  | done (shared : Shared) (call : Call) : RunsAlone index shared call shared call []
  | next {shared after final : Shared} {call next last : Call} {spawned : List Worker}
      (taken : call.step index shared .run = some (after, next, []))
      (rest : RunsAlone index after next final last spawned)
    : RunsAlone index shared call final last spawned
  | enqueue {shared after final : Shared} {call next last : Call} {worker : Worker}
      {spawned : List Worker}
      (taken : call.step index shared .run = some (after, next, [worker]))
      (rest : RunsAlone index after next final last spawned)
    : RunsAlone index shared call final last (worker :: spawned)

theorem runsAlone_desire (desired : Int)
    : RunsAlone index shared (.desire desired)
        (shared.onEngine (.setDesiredConnections desired)) (.returned true) [] := by
  by_cases lowered : 0 < (shared.engine.exchangeDesired desired).1
  · have budget : shared.engine.setDesiredConnections desired = _ := if_pos lowered
    have taken : (Call.desire desired).step index shared .run
        = some ({ shared with engine := (shared.engine.exchangeDesired desired).2 },
            .addBudget (shared.engine.exchangeDesired desired).1, []) :=
      congrArg (fun next => some (_, next, [])) (if_pos lowered)
    rw [Shared.onEngine, budget]
    exact .next taken (.next rfl (.done _ _))
  · have kept : shared.engine.setDesiredConnections desired = _ := if_neg lowered
    have taken : (Call.desire desired).step index shared .run
        = some ({ shared with engine := (shared.engine.exchangeDesired desired).2 },
            .returned true, []) :=
      congrArg (fun next => some (_, next, [])) (if_neg lowered)
    rw [Shared.onEngine, kept]
    exact .next taken (.done _ _)

theorem runsAlone_bounds (minConnections maxConnections : Int)
    : RunsAlone index shared (.bounds minConnections maxConnections)
        (shared.onEngine (.setConnectionBounds minConnections maxConnections))
        (.returned true) [] :=
  .next rfl (runsAlone_desire shared.engine.desiredConnections)

/-- The tasks of a plan are enqueued one by one, by induction on their number. -/
theorem runsAlone_enqueue (planned : Nat)
    : RunsAlone index shared (.enqueue planned) shared (.returned true)
        (List.replicate planned {}) := by
  induction planned with
  | zero => exact .next rfl (.done _ _)
  | succ planned ih => exact .enqueue rfl ih

/-- `EnqueueTasks` plans workers and enqueues a task for each. -/
theorem runsAlone_planState
    : RunsAlone index shared .planState
        (shared.onEngine fun engine => (engine.planNewWorkers shared.maxThreads).2)
        (.returned true)
        (List.replicate (shared.engine.planNewWorkers shared.maxThreads).1.toNat {}) := by
  by_cases active : 0 < shared.maxThreads ∧ shared.engine.active = true
  · have goes : ¬ (shared.maxThreads ≤ 0 ∨ shared.engine.active = false) := by
      simpa using active
    let toAdd := min (shared.engine.desiredConnections - shared.engine.scheduledConnections)
      shared.maxThreads
    by_cases room
        : shared.engine.scheduledConnections < shared.engine.desiredConnections ∧ 0 < toAdd
    · have adds
          : ¬ (shared.engine.desiredConnections ≤ shared.engine.scheduledConnections
            ∨ toAdd ≤ 0) := by
        omega
      have planned : shared.engine.planNewWorkers shared.maxThreads
          = (toAdd, { shared.engine with
              scheduledConnections := shared.engine.scheduledConnections + toAdd }) := by
        simp only [DownloadEngine.planNewWorkers, if_neg goes]
        exact if_neg adds
      simp only [Shared.onEngine, planned]
      exact .next (if_pos active) (.next rfl (.next (if_pos room) (.next (if_pos rfl)
        (runsAlone_enqueue toAdd.toNat))))
    · have full
          : shared.engine.desiredConnections ≤ shared.engine.scheduledConnections
            ∨ toAdd ≤ 0 := by
        omega
      have planned : shared.engine.planNewWorkers shared.maxThreads = (0, shared.engine) := by
        simp only [DownloadEngine.planNewWorkers, if_neg goes]
        exact if_pos full
      simp only [Shared.onEngine, planned]
      exact .next (if_pos active) (.next rfl (.next (if_neg room) (.done _ _)))
  · have stays : shared.maxThreads ≤ 0 ∨ shared.engine.active = false := by
      by_contra goes
      push Not at goes
      exact active ⟨goes.1, by simpa using goes.2⟩
    have planned : shared.engine.planNewWorkers shared.maxThreads = (0, shared.engine) :=
      if_pos stays
    simp only [Shared.onEngine, planned]
    exact .next (if_neg active) (.done _ _)

end Call

-----------------------------------------------------------------------------------------
-- The connections of one engine
-----------------------------------------------------------------------------------------

/-- The engine with the tasks and workers that exist for it. -/
structure Pool where
  engine : DownloadEngine
  /-- Tasks that no thread of the pool has taken. -/
  queued : Nat
  /-- The workers that have opened and not closed, with whether a release was granted. -/
  workers : List Bool

/-- A method of the engine that a worker, the controller or a starter runs to its end. -/
inductive PoolCall
  /-- `PlanNewWorkers` and a task for each worker it plans. -/
  | enqueueTasks (maxNewWorkers : Int)
  | setConnectionBounds (minConnections maxConnections : Int32)
  | setDesiredConnections (desired : Int32)
  | shouldReleaseConnection (worker : Nat)
  | notifyConnectionOpen
  | notifyConnectionClose (worker : Nat)
  /-- `Start` or `Resume` behind its drain. -/
  | resetBudget
  /-- Any change of `state_`. -/
  | setState (next : DownloadState)
deriving DecidableEq, Repr

namespace Pool

def step (pool : Pool) : PoolCall → Option Pool
  | .enqueueTasks maxNewWorkers =>
      let (planned, engine) := pool.engine.planNewWorkers maxNewWorkers
      some { pool with engine, queued := pool.queued + planned.toNat }
  | .setConnectionBounds minConnections maxConnections =>
      some { pool with
        engine :=
          pool.engine.setConnectionBounds minConnections.toInt maxConnections.toInt }
  | .setDesiredConnections desired =>
      some { pool with engine := pool.engine.setDesiredConnections desired.toInt }
  | .shouldReleaseConnection worker =>
      -- a worker that was granted a release returns and asks no more
      if pool.workers[worker]? = some false then
        match pool.engine.shouldReleaseConnection with
        | some engine => some { pool with engine, workers := pool.workers.set worker true }
        | none => some pool
      else none
  | .notifyConnectionOpen =>
      if 0 < pool.queued then
        some {
          engine := pool.engine.notifyConnectionOpen
          queued := pool.queued - 1
          workers := pool.workers ++ [false]
        }
      else none
  | .notifyConnectionClose worker =>
      if worker < pool.workers.length then
        some { pool with
          engine := pool.engine.notifyConnectionClose
          workers := pool.workers.eraseIdx worker }
      else none
  | .resetBudget =>
      if pool.engine.scheduledConnections = 0 then
        some { pool with engine := { pool.engine with releaseBudget := 0 } }
      else none
  | .setState next => some { pool with engine := { pool.engine with state := next } }

/-- A job as one of the constructors leaves it. -/
inductive New : Pool → Prop
  | fresh (maxConnections : Int32) (fileSize : Nat) (ranged : Bool) (nChunks : Nat)
      [NeZero nChunks]
    : New ⟨.create maxConnections.toInt fileSize ranged nChunks, 0, []⟩
  | loaded (image : JobImage) (fits : image.maxConnections ≤ intMax)
    : New ⟨.ofImage image, 0, []⟩

/-- The runs whose steps all meet a condition. -/
abbrev ReachableWhile (meets : Pool → PoolCall → Pool → Prop) (start : Pool) : Pool → Prop :=
  Transition.Reachable step meets start

/-- The workers that were granted a release and have not closed. -/
def granted (pool : Pool) : Nat := pool.workers.count true

variable {pool after start : Pool} {call : PoolCall}
  {meets : Pool → PoolCall → Pool → Prop}

theorem granted_set {worker : Nat} (polls : pool.workers[worker]? = some false)
    : (pool.workers.set worker true).count true = pool.granted + 1 := by
  obtain ⟨inside, value⟩ := List.getElem?_eq_some_iff.mp polls
  have kept := (List.getElem_cons_eraseIdx_perm inside).count_eq true
  rw [(List.set_perm_cons_eraseIdx inside true).count_eq, granted, ← kept, value]
  simp

/-- Closing takes away one worker and the grant it had. -/
theorem granted_eraseIdx {worker : Nat} (inside : worker < pool.workers.length)
    : pool.granted
        = (pool.workers.eraseIdx worker).count true
          + if pool.workers[worker]? = some true then 1 else 0 := by
  have kept := (List.getElem_cons_eraseIdx_perm inside).count_eq true
  rw [granted, ← kept, List.count_cons, List.getElem?_eq_getElem inside]
  simp

/-- What the counters say about the connections, and that the bounds are `int`s. -/
structure Counts (pool : Pool) : Prop where
  lower : 1 ≤ pool.engine.minConnections
  minLe : pool.engine.minConnections ≤ pool.engine.desiredConnections
  leMax : pool.engine.desiredConnections ≤ pool.engine.maxConnections
  scheduled : pool.engine.scheduledConnections = pool.queued + pool.workers.length
  connected : pool.engine.nConnections = pool.workers.length
  upper : pool.engine.maxConnections ≤ intMax
  fits : pool.engine.scheduledConnections ≤ intMax

/-- The target, the budget and the granted releases cover the scheduled connections. -/
structure Bounded (pool : Pool) : Prop where
  budget : 0 ≤ pool.engine.releaseBudget
  bound
    : pool.engine.scheduledConnections
        ≤ pool.engine.desiredConnections + pool.engine.releaseBudget + pool.granted

theorem toInt_le_intMax (value : Int32) : value.toInt ≤ intMax := by
  have bound := value.toInt_lt
  rw [intMax]
  omega

theorem New.counts (new : start.New) : start.Counts := by
  have one : (1 : Int) ≤ intMax := by decide
  cases new with
  | fresh maxConnections fileSize ranged nChunks =>
      have fits := toInt_le_intMax maxConnections
      constructor <;>
        simp only [DownloadEngine.create, List.length_nil] <;> omega
  | loaded image fits =>
      constructor <;>
        simp only [DownloadEngine.ofImage, List.length_nil] <;> omega

theorem New.bounded (new : start.New) : start.Bounded := by
  cases new with
  | fresh maxConnections fileSize ranged nChunks =>
      constructor <;> simp only [DownloadEngine.create, granted, List.count_nil] <;> omega
  | loaded image =>
      constructor <;> simp only [DownloadEngine.ofImage, granted, List.count_nil] <;> omega

/-- What the methods do to the counters. -/
inductive Step (pool : Pool) : PoolCall → Pool → Prop
  | plan (maxNewWorkers : Int) (toAdd : Nat)
      (planned : (pool.engine.planNewWorkers maxNewWorkers).1 = toAdd)
      (room
        : toAdd = 0
          ∨ pool.engine.scheduledConnections + toAdd ≤ pool.engine.desiredConnections)
    : Step pool (.enqueueTasks maxNewWorkers) {
        engine := {
          pool.engine with
          scheduledConnections := pool.engine.scheduledConnections + toAdd
        }
        queued := pool.queued + toAdd
        workers := pool.workers
      }
  | bounds (minConnections maxConnections : Int32)
    : Step pool (.setConnectionBounds minConnections maxConnections) {
        pool with
        engine :=
          (pool.engine.setBounds minConnections.toInt maxConnections.toInt).setDesiredConnections
            pool.engine.desiredConnections
      }
  | desired (desired : Int32)
    : Step pool (.setDesiredConnections desired)
        { pool with engine := pool.engine.setDesiredConnections desired.toInt }
  | release (worker : Nat) (polls : pool.workers[worker]? = some false)
      (budget : 0 < pool.engine.releaseBudget)
    : Step pool (.shouldReleaseConnection worker) {
        engine := { pool.engine with releaseBudget := pool.engine.releaseBudget - 1 }
        queued := pool.queued
        workers := pool.workers.set worker true
      }
  | keep (worker : Nat) (spent : ¬ 0 < pool.engine.releaseBudget)
    : Step pool (.shouldReleaseConnection worker) pool
  | openOne (task : 0 < pool.queued)
    : Step pool .notifyConnectionOpen {
        engine := pool.engine.notifyConnectionOpen
        queued := pool.queued - 1
        workers := pool.workers ++ [false]
      }
  | close (worker : Nat) (inside : worker < pool.workers.length)
    : Step pool (.notifyConnectionClose worker) {
        engine := pool.engine.notifyConnectionClose
        queued := pool.queued
        workers := pool.workers.eraseIdx worker
      }
  | reset (drained : pool.engine.scheduledConnections = 0)
    : Step pool .resetBudget
        { pool with engine := { pool.engine with releaseBudget := 0 } }
  | state (next : DownloadState)
    : Step pool (.setState next) { pool with engine := { pool.engine with state := next } }

theorem step_cases (taken : pool.step call = some after) : pool.Step call after := by
  cases call with
  | enqueueTasks maxNewWorkers =>
      rw [step] at taken
      rcases pool.engine.planNewWorkers_cases maxNewWorkers with
        stays | ⟨toAdd, positive, room, planned⟩
      · simp only [stays, Option.some.injEq] at taken
        rw [← taken]
        simpa using @Step.plan pool maxNewWorkers 0 (by rw [stays]; rfl) (Or.inl rfl)
      · simp only [planned, Option.some.injEq] at taken
        obtain ⟨count, rfl⟩ := Int.eq_ofNat_of_zero_le (Int.le_of_lt positive)
        rw [← taken]
        exact .plan maxNewWorkers count (by rw [planned]) (Or.inr room)
  | setConnectionBounds minConnections maxConnections =>
      rw [step, DownloadEngine.setConnectionBounds_eq_desired, Option.some.injEq] at taken
      rw [← taken]
      exact .bounds minConnections maxConnections
  | setDesiredConnections desired =>
      rw [step, Option.some.injEq] at taken
      rw [← taken]
      exact .desired desired
  | shouldReleaseConnection worker =>
      rw [step] at taken
      split at taken
      · rename_i polls
        by_cases budget : 0 < pool.engine.releaseBudget
        · rw [DownloadEngine.shouldReleaseConnection, if_pos budget] at taken
          rw [← Option.some.inj taken]
          exact .release worker polls budget
        · rw [DownloadEngine.shouldReleaseConnection, if_neg budget] at taken
          rw [← Option.some.inj taken]
          exact .keep worker budget
      · cases taken
  | notifyConnectionOpen =>
      rw [step] at taken
      split at taken
      · rename_i task
        rw [← Option.some.inj taken]
        exact .openOne task
      · cases taken
  | notifyConnectionClose worker =>
      rw [step] at taken
      split at taken
      · rename_i inside
        rw [← Option.some.inj taken]
        exact .close worker inside
      · cases taken
  | resetBudget =>
      rw [step] at taken
      split at taken
      · rename_i drained
        rw [← Option.some.inj taken]
        exact .reset drained
      · cases taken
  | setState next =>
      rw [← Option.some.inj taken]
      exact .state next

/-- By cases on the method. -/
theorem Counts.step (counts : pool.Counts) (taken : pool.Step call after)
    : after.Counts := by
  obtain ⟨lower, minLe, leMax, scheduled, connected, upper, fits⟩ := counts
  cases taken with
  | plan maxNewWorkers toAdd planned room =>
      constructor <;> simp only <;> omega
  | bounds minConnections maxConnections =>
      have least := toInt_le_intMax minConnections
      have most := toInt_le_intMax maxConnections
      have one : (1 : Int) ≤ intMax := by decide
      rw [DownloadEngine.setDesiredConnections_eq]
      constructor <;>
        simp only [DownloadEngine.clampDesired, DownloadEngine.setBounds] <;> omega
  | desired desired =>
      rw [DownloadEngine.setDesiredConnections_eq]
      constructor <;> simp only [DownloadEngine.clampDesired] <;> omega
  | release worker polls released =>
      constructor <;> simp only [List.length_set] <;> omega
  | keep worker spent => exact ⟨lower, minLe, leMax, scheduled, connected, upper, fits⟩
  | openOne task =>
      constructor <;>
        simp only [DownloadEngine.notifyConnectionOpen, List.length_append,
          List.length_singleton] <;>
        omega
  | close worker inside =>
      constructor <;>
        simp only [DownloadEngine.notifyConnectionClose, DownloadEngine.releaseScheduled,
          List.length_eraseIdx_of_lt inside] <;>
        omega
  | reset drained => constructor <;> simp only <;> omega
  | state next => exact ⟨lower, minLe, leMax, scheduled, connected, upper, fits⟩

theorem ReachableWhile.counts (new : start.New) (reached : ReachableWhile meets start pool)
    : pool.Counts :=
  reached.invariant new.counts fun _ _ _ _ counts taken _ =>
    counts.step (step_cases taken)

/-- Moving the target leaves the budget an `int`. -/
def FitsBudget (engine : DownloadEngine) (desired : Int) : Prop :=
  engine.releaseBudget + (engine.desiredConnections - engine.clampDesired desired) ≤ intMax

/-- No method takes the budget past the largest `int`. -/
def BudgetFits (before : Pool) (call : PoolCall) (_ : Pool) : Prop :=
  match call with
  | .setConnectionBounds minConnections maxConnections =>
      FitsBudget (before.engine.setBounds minConnections.toInt maxConnections.toInt)
        before.engine.desiredConnections
  | .setDesiredConnections desired => FitsBudget before.engine desired.toInt
  | _ => True

instance (before : Pool) (call : PoolCall) (after : Pool)
    : Decidable (BudgetFits before call after) := by
  unfold BudgetFits FitsBudget
  split <;> infer_instance

/-- A lowering that fits adds what the target lost. -/
theorem Bounded.move (bounded : pool.Bounded) {engine : DownloadEngine} {desired : Int}
    (same
      : engine.releaseBudget = pool.engine.releaseBudget
        ∧ engine.desiredConnections = pool.engine.desiredConnections
        ∧ engine.scheduledConnections = pool.engine.scheduledConnections)
    (fits : FitsBudget engine desired)
    : Bounded { pool with engine := engine.setDesiredConnections desired } := by
  obtain ⟨budget, bound⟩ := bounded
  obtain ⟨sameBudget, sameDesired, sameScheduled⟩ := same
  rw [FitsBudget] at fits
  rw [granted] at bound
  rw [DownloadEngine.setDesiredConnections_eq]
  by_cases lowered : engine.clampDesired desired < engine.desiredConnections
  · rw [if_pos lowered, wrapInt_of_le (by omega) fits]
    constructor <;> simp only [granted] <;> omega
  · rw [if_neg lowered]
    constructor <;> simp only [granted] <;> omega

/-- By cases on the method. -/
theorem Bounded.step (bounded : pool.Bounded) (counts : pool.Counts)
    (taken : pool.Step call after) (fits : BudgetFits pool call after)
    : after.Bounded := by
  have ⟨budget, bound⟩ := bounded
  rw [granted] at bound
  cases taken with
  | plan maxNewWorkers toAdd planned room =>
      constructor <;> simp only [granted] <;> omega
  | bounds minConnections maxConnections => exact bounded.move ⟨rfl, rfl, rfl⟩ fits
  | desired desired => exact bounded.move ⟨rfl, rfl, rfl⟩ fits
  | release worker polls released =>
      have grants := granted_set polls
      rw [granted] at grants
      constructor <;> simp only [granted] <;> omega
  | keep worker spent => exact bounded
  | openOne task =>
      constructor <;>
        simp only [granted, DownloadEngine.notifyConnectionOpen, List.count_append] <;>
        omega
  | close worker inside =>
      have grants := granted_eraseIdx inside
      have scheduled := counts.scheduled
      rw [granted] at grants
      constructor <;>
        simp only [granted, DownloadEngine.notifyConnectionClose,
          DownloadEngine.releaseScheduled]
      case bound => split at grants <;> omega
      case budget => omega
  | reset drained =>
      have positive : 1 ≤ pool.engine.desiredConnections :=
        Int.le_trans counts.lower counts.minLe
      constructor <;> simp only [granted] <;> omega
  | state next => exact ⟨budget, bound⟩

theorem ReachableWhile.bounded (new : start.New)
    (reached : ReachableWhile BudgetFits start pool)
    : pool.Bounded :=
  reached.invariant new.bounded fun _ _ _ earlier bounded taken fits =>
    bounded.step (ReachableWhile.counts new earlier) (step_cases taken) fits

/-- In every run the target lies in its bounds and the counters are the connections that
exist; and where no lowering takes the budget past the largest `int`, there are no more of
them than the target, the budget and the granted releases.
-/
theorem connections_bounded (new : start.New)
    (reached : ReachableWhile Transition.anyStep start pool)
    : (1 ≤ pool.engine.minConnections
        ∧ pool.engine.minConnections ≤ pool.engine.desiredConnections
        ∧ pool.engine.desiredConnections ≤ pool.engine.maxConnections)
      ∧ (pool.engine.scheduledConnections = pool.queued + pool.workers.length
        ∧ 0 ≤ pool.engine.scheduledConnections)
      ∧ pool.engine.nConnections ≤ pool.engine.scheduledConnections
      ∧ (ReachableWhile BudgetFits start pool
        → pool.engine.scheduledConnections
          ≤ pool.engine.desiredConnections + pool.engine.releaseBudget + pool.granted) := by
  have counts := reached.counts new
  have scheduled := counts.scheduled
  have connected := counts.connected
  exact ⟨⟨counts.lower, counts.minLe, counts.leMax⟩, ⟨scheduled, by omega⟩, by omega,
    fun fits => (ReachableWhile.bounded new fits).bound⟩

/-- Two workers are planned and open, the target is lowered and one of them is released. -/
theorem connections_bounded_released
    : ∃ pool : Pool,
        pool.granted = 1
        ∧ pool.engine.scheduledConnections
            ≤ pool.engine.desiredConnections + pool.engine.releaseBudget + 1 := by
  obtain ⟨pool, reached, released⟩ :=
    @Transition.exists_of_runWhile _ _ step BudgetFits
      ⟨.create 8 20 true 2, 0, []⟩ _
      [.setState .queued, .enqueueTasks 8, .notifyConnectionOpen, .notifyConnectionOpen,
        .setDesiredConnections 1, .shouldReleaseConnection 0]
      (fun pool => decide (pool.granted = 1)) (by decide)
  have granted : pool.granted = 1 := by simpa using released
  have bound := (connections_bounded (.fresh 8 20 true 2) reached.any).2.2.2 reached
  exact ⟨pool, granted, by rw [granted] at bound; exact bound⟩

/-- The target goes from the largest `int` to one and back and down again, and the budget goes
over to the negative numbers.
-/
theorem budget_overflows
    : ¬ ∀ start pool : Pool,
        start.New
        → ReachableWhile Transition.anyStep start pool
        → pool.engine.scheduledConnections
          ≤ pool.engine.desiredConnections + pool.engine.releaseBudget + pool.granted := by
  intro always
  obtain ⟨pool, reached, exceeds⟩ :=
    @Transition.exists_of_runWhile _ _ step Transition.anyStep
      ⟨.create 8 20 true 2, 0, []⟩ _
      [.setState .queued, .enqueueTasks 8, .notifyConnectionOpen, .notifyConnectionOpen,
        .setConnectionBounds 1 2147483647, .setDesiredConnections 2147483647,
        .setDesiredConnections 1, .setDesiredConnections 2147483647,
        .setDesiredConnections 1]
      (fun pool =>
        decide (pool.engine.desiredConnections + pool.engine.releaseBudget + pool.granted
          < pool.engine.scheduledConnections))
      (by decide)
  have bound := always _ pool (.fresh 8 20 true 2) reached
  simp only [decide_eq_true_eq] at exceeds
  omega

-----------------------------------------------------------------------------------------
-- Releases
-----------------------------------------------------------------------------------------

/-- How many scheduled workers that were not granted a release are above the target. -/
def surplus (pool : Pool) : Int :=
  pool.engine.scheduledConnections - pool.granted - pool.engine.desiredConnections

/-- Whatever the budget grants the workers there are, the target stays covered. -/
def Covered (pool : Pool) : Prop :=
  pool.engine.scheduledConnections = 0
  ∨ pool.engine.releaseBudget = 0
  ∨ 0 ≤ pool.engine.releaseBudget ∧ pool.engine.releaseBudget ≤ pool.surplus

/-- The target may move to a value: down where the workers above it cover the budget, up
where they still do behind it, and anywhere while there is no worker.
-/
def MayMove (pool : Pool) (target : Int) : Prop :=
  pool.engine.scheduledConnections = 0
  ∨ (target < pool.engine.desiredConnections → pool.engine.releaseBudget ≤ pool.surplus)
    ∧ (pool.engine.desiredConnections < target
      → pool.engine.releaseBudget = 0
        ∨ pool.engine.releaseBudget + (target - pool.engine.desiredConnections)
            ≤ pool.surplus)

instance (pool : Pool) (target : Int) : Decidable (pool.MayMove target) := by
  unfold MayMove
  infer_instance

/-- The target moves only where it may, workers are planned where there are none only while
the budget is spent, and a worker without a grant that is not the last closes only while the
budget is spent or smaller than the surplus.
-/
def KeepsCovered (before : Pool) (call : PoolCall) (_ : Pool) : Prop :=
  match call with
  | .enqueueTasks maxNewWorkers =>
      (before.engine.planNewWorkers maxNewWorkers).1 = 0
      ∨ before.engine.scheduledConnections ≠ 0
      ∨ before.engine.releaseBudget = 0
  | .setConnectionBounds minConnections maxConnections =>
      before.MayMove
        ((before.engine.setBounds minConnections.toInt maxConnections.toInt).clampDesired
          before.engine.desiredConnections)
  | .setDesiredConnections desired =>
      before.MayMove (before.engine.clampDesired desired.toInt)
  | .notifyConnectionClose worker =>
      before.workers[worker]? = some true
      ∨ before.engine.scheduledConnections = 1
      ∨ before.engine.releaseBudget = 0
      ∨ before.engine.releaseBudget < before.surplus
  | _ => True

instance (before : Pool) (call : PoolCall) (after : Pool)
    : Decidable (KeepsCovered before call after) := by
  unfold KeepsCovered
  split <;> infer_instance

/-- Moving the target of a covered pool keeps it covered exactly where the target may move. A
budget that the surplus covers stays an `int`.
-/
theorem covered_move_iff (counts : pool.Counts) (covered : pool.Covered) {target : Int}
    {moved : DownloadEngine} (positive : 1 ≤ target)
    (desired : moved.desiredConnections = target)
    (budget
      : moved.releaseBudget
          = if target < pool.engine.desiredConnections then
              wrapInt
                (pool.engine.releaseBudget + (pool.engine.desiredConnections - target))
            else pool.engine.releaseBudget)
    (scheduled : moved.scheduledConnections = pool.engine.scheduledConnections)
    : Covered { pool with engine := moved } ↔ pool.MayMove target := by
  have upper := counts.upper
  have leMax := counts.leMax
  have fits := counts.fits
  simp only [Covered, MayMove, surplus, granted] at covered ⊢
  rw [desired, budget, scheduled]
  by_cases idle : pool.engine.scheduledConnections = 0
  · simp [idle]
  by_cases lowered : target < pool.engine.desiredConnections
  · rw [if_pos lowered, wrapInt_of_le (by omega) (by omega)]
    omega
  · rw [if_neg lowered]
    omega

/-- A method keeps the target covered exactly where it meets the condition. -/
theorem covered_iff (counts : pool.Counts) (covered : pool.Covered)
    (taken : pool.Step call after)
    : after.Covered ↔ KeepsCovered pool call after := by
  have exist := counts.scheduled
  have positive : 1 ≤ pool.engine.desiredConnections :=
    Int.le_trans counts.lower counts.minLe
  cases taken with
  | plan maxNewWorkers toAdd planned room =>
      simp only [KeepsCovered, Covered, surplus, granted, planned] at covered ⊢
      omega
  | bounds minConnections maxConnections =>
      have positive
          : 1 ≤ (pool.engine.setBounds minConnections.toInt maxConnections.toInt).clampDesired
              pool.engine.desiredConnections :=
        Int.le_trans (le_max_left _ _) (le_max_left _ _)
      refine covered_move_iff counts covered positive ?_ ?_ ?_ <;>
        rw [DownloadEngine.setDesiredConnections_eq] <;> rfl
  | desired desired =>
      have clamped : 1 ≤ pool.engine.clampDesired desired.toInt :=
        Int.le_trans counts.lower (le_max_left _ _)
      refine covered_move_iff counts covered clamped ?_ ?_ ?_ <;>
        rw [DownloadEngine.setDesiredConnections_eq]
  | release worker polls released =>
      have grants := granted_set polls
      simp only [KeepsCovered, iff_true, Covered, surplus, granted] at covered grants ⊢
      omega
  | keep worker spent => simpa only [KeepsCovered, iff_true] using covered
  | openOne task =>
      simp only [KeepsCovered, iff_true, Covered, surplus, granted,
        DownloadEngine.notifyConnectionOpen, List.count_append] at covered ⊢
      simpa using covered
  | close worker inside =>
      have grants := granted_eraseIdx inside
      simp only [KeepsCovered, Covered, surplus, granted, DownloadEngine.notifyConnectionClose,
        DownloadEngine.releaseScheduled] at covered grants ⊢
      by_cases released : pool.workers[worker]? = some true
      · rw [if_pos released] at grants
        simp only [released, true_or, iff_true]
        omega
      · rw [if_neg released] at grants
        simp only [released, false_or]
        omega
  | reset drained => simp [KeepsCovered, Covered]
  | state next =>
      simp only [KeepsCovered, iff_true]
      exact covered

theorem ReachableWhile.covered (new : start.New)
    (reached : ReachableWhile KeepsCovered start pool)
    : pool.Covered := by
  refine reached.invariant ?_ ?_
  · cases new <;> exact Or.inl rfl
  · intro before call after earlier covered taken met
    have counts := ReachableWhile.counts new earlier
    exact (covered_iff counts covered (step_cases taken)).mpr met

/-- A worker is granted a release only where there is one too many. -/
def ReleasesSurplus (before after : Pool) : Prop :=
  before.engine.desiredConnections < before.engine.scheduledConnections - before.granted
  ∧ after.engine.desiredConnections ≤ after.engine.scheduledConnections - after.granted

instance (before after : Pool) : Decidable (ReleasesSurplus before after) := by
  unfold ReleasesSurplus
  infer_instance

/-- In every run that keeps the target covered, a release is granted only to a worker above
the target.
-/
theorem releases_surplus (new : start.New) (reached : ReachableWhile KeepsCovered start pool)
    {worker : Nat} (taken : pool.step (.shouldReleaseConnection worker) = some after)
    (granted : pool.engine.shouldReleaseConnection.isSome = true)
    : ReleasesSurplus pool after := by
  have counts := reached.counts new
  have covered := reached.covered new
  have exist := counts.scheduled
  cases step_cases taken with
  | keep _ spent => simp [DownloadEngine.shouldReleaseConnection, spent] at granted
  | release _ polls budget =>
      have grants := granted_set polls
      have inside := (List.getElem?_eq_some_iff.mp polls).1
      simp only [Covered, surplus] at covered
      simp only [ReleasesSurplus, Pool.granted] at covered grants ⊢
      omega

/-- With the target lowered from two to one, one of two workers is released. -/
theorem releases_surplus_lowered
    : ∃ pool after : Pool, after.granted = 1 ∧ ReleasesSurplus pool after := by
  obtain ⟨pool, reached, polls⟩ :=
    @Transition.exists_of_runWhile _ _ step KeepsCovered ⟨.create 8 20 true 2, 0, []⟩ _
      [.setState .queued, .enqueueTasks 8, .notifyConnectionOpen, .notifyConnectionOpen,
        .setDesiredConnections 1]
      (fun pool =>
        pool.engine.shouldReleaseConnection.isSome
          && (pool.step (.shouldReleaseConnection 0)).any
            fun (after : Pool) => decide (after.granted = 1))
      (by decide)
  rw [Bool.and_eq_true, Option.any_eq_true] at polls
  obtain ⟨granted, after, taken, released⟩ := polls
  exact ⟨pool, after, by simpa using released,
    releases_surplus (.fresh 8 20 true 2) reached taken granted⟩

/-- The target goes from two to one and back before a worker asks: both workers are needed,
and the budget that the lowering left behind releases one of them.
-/
theorem release_below_target
    : ¬ ∀ start pool after : Pool,
        start.New
        → ReachableWhile Transition.anyStep start pool
        → ∀ worker,
            pool.step (.shouldReleaseConnection worker) = some after
            → pool.engine.shouldReleaseConnection.isSome = true
            → ReleasesSurplus pool after := by
  intro holds
  obtain ⟨pool, reached, polls⟩ :=
    @Transition.exists_of_runWhile _ _ step Transition.anyStep ⟨.create 8 20 true 2, 0, []⟩ _
      [.setState .queued, .enqueueTasks 8, .notifyConnectionOpen, .notifyConnectionOpen,
        .setDesiredConnections 1, .setDesiredConnections 2]
      (fun pool =>
        pool.engine.shouldReleaseConnection.isSome
          && (pool.step (.shouldReleaseConnection 0)).any
            fun (after : Pool) => !decide (ReleasesSurplus pool after))
      (by decide)
  rw [Bool.and_eq_true, Option.any_eq_true] at polls
  obtain ⟨granted, after, taken, short⟩ := polls
  have above := holds _ pool after (.fresh 8 20 true 2) reached 0 taken granted
  simp [above] at short

end Pool

end Muld
