import Muld.SystemSteps

/-! The log of a run: the bytes that were written, the counters that stores read and the
images that they write, in order.
-/

namespace Muld

inductive Thread
  | worker (index : Nat)
  | call (index : Nat)
deriving DecidableEq, Repr

inductive DiskEvent
  /-- `Writer::Write` stored bytes. -/
  | wrote (offset count : Nat)
  /-- A store has entered the disk mutex. -/
  | locked (thread : Thread)
  /-- A store has read the range and the counter of the next chunk. -/
  | read (thread : Thread) (entry : ChunkState)
  /-- A store writes its image. -/
  | stored (thread : Thread) (image : List ChunkState)
deriving DecidableEq, Repr

/-- What a step of a worker adds to the log. -/
def Worker.diskEvent (index : Nat) (shared : Shared) (worker : Worker)
    : WorkerLabel → Option DiskEvent
  | .run =>
      match worker.pc with
      | .storeLock _ => some (.locked (.worker index))
      | .storeScan _ =>
          (shared.engine.chunksInfo[worker.scan.length]?).map fun chunk =>
            .read (.worker index) chunk.toState
      | _ => none
  | .wrote count => if shared.engine.writer then some (.wrote worker.currentOffset count) else none
  | .stored _ => if shared.engine.writer then some (.stored (.worker index) worker.scan) else none
  | _ => none

/-- What a step of a call adds to the log. -/
def Call.diskEvent (index : Nat) (shared : Shared) : Call → CallLabel → Option DiskEvent
  | .storeLock _, .run => some (.locked (.call index))
  | .storeScan _ scan, .run =>
      (shared.engine.chunksInfo[scan.length]?).map fun chunk =>
        .read (.call index) chunk.toState
  | .storeWrite _ scan, .stored _ =>
      if shared.engine.writer then some (.stored (.call index) scan) else none
  | _, _ => none

def Sys.diskEvent (sys : Sys) : Action → Option DiskEvent
  | .worker index label =>
      (sys.workers[index]?).bind fun worker => worker.diskEvent index sys.shared label
  | .call index label =>
      (sys.calls[index]?).bind fun call => call.diskEvent index sys.shared label
  | .invoke _ => none

-----------------------------------------------------------------------------------------
-- What a log says
-----------------------------------------------------------------------------------------

/-- The event belongs to a store of the thread. -/
def DiskEvent.isOf (thread : Thread) : DiskEvent → Bool
  | .wrote _ _ => false
  | .locked other => other == thread
  | .read other _ => other == thread
  | .stored other _ => other == thread

/-- What a thread has read since it last entered the disk mutex, after one more event. -/
def scanStep (thread : Thread) (scan : List ChunkState) : DiskEvent → List ChunkState
  | .locked other => if other = thread then [] else scan
  | .read other entry => if other = thread then scan ++ [entry] else scan
  | _ => scan

/-- What a thread has read since it last entered the disk mutex. -/
def scanned (thread : Thread) (log : List DiskEvent) : List ChunkState :=
  log.foldl (scanStep thread) []

theorem scanned_snoc (thread : Thread) (log : List DiskEvent) (event : DiskEvent)
    : scanned thread (log ++ [event]) = scanStep thread (scanned thread log) event := by
  simp [scanned]

/-- Other threads do not change the scan of a thread. -/
theorem scanned_other {thread : Thread} {event : DiskEvent}
    (other : event.isOf thread = false) (log : List DiskEvent)
    : scanned thread (log ++ [event]) = scanned thread log := by
  rw [scanned_snoc]
  cases event <;> simp_all [scanStep, DiskEvent.isOf]

/-- Each entry of a scan was read after the lock, at its position, by induction on the log
from its end.
-/
theorem exists_read_of_scanned {thread : Thread} {log : List DiskEvent} {position : Nat}
    {entry : ChunkState} (found : (scanned thread log)[position]? = some entry)
    : ∃ early middle,
        log = early ++ .read thread entry :: middle
        ∧ .locked thread ∉ middle
        ∧ (scanned thread early).length = position := by
  induction log using List.reverseRecOn with
  | nil => simp [scanned] at found
  | append_singleton log event ih =>
      have extend : (scanned thread log)[position]? = some entry → .locked thread ≠ event →
          ∃ early middle,
            log ++ [event] = early ++ .read thread entry :: middle
            ∧ .locked thread ∉ middle
            ∧ (scanned thread early).length = position := by
        intro before differs
        obtain ⟨early, middle, rfl, unlocked, length⟩ := ih before
        refine ⟨early, middle ++ [event], by simp, ?_, length⟩
        simp [unlocked, differs]
      rw [scanned_snoc] at found
      cases event with
      | wrote offset count => exact extend found (by simp)
      | stored other image => exact extend found (by simp)
      | locked other =>
          rw [scanStep] at found
          split at found
          · simp at found
          · rename_i differs
            exact extend found (by simpa using Ne.symm differs)
      | read other read =>
          rw [scanStep] at found
          split at found
          · rename_i own
            subst own
            rw [List.getElem?_append] at found
            split at found
            · exact extend found (by simp)
            · rw [List.getElem?_singleton] at found
              split at found
              · obtain rfl := Option.some.inj found
                exact ⟨log, [], rfl, by simp, by omega⟩
              · contradiction
          · exact extend found (by simp)

/-- An event of a log that may have one more event at its end is the new one or an older
one.
-/
theorem event_split {log front back : List DiskEvent} {last : Option DiskEvent}
    {event : DiskEvent} (same : log ++ last.toList = front ++ event :: back)
    : (front = log ∧ last = some event) ∨ ∃ middle, log = front ++ event :: middle := by
  cases last with
  | none => exact Or.inr ⟨back, by simpa using same⟩
  | some last =>
      obtain rfl | ⟨middle, final, rfl⟩ := List.eq_nil_or_concat back
      · obtain ⟨fronts, lasts⟩ := List.append_inj' same rfl
        exact Or.inl ⟨fronts.symm, congrArg some (List.cons.inj lasts).1⟩
      · have same : log ++ [last] = (front ++ event :: middle) ++ [final] := by
          simpa [List.concat_eq_append] using same
        exact Or.inr ⟨middle, (List.append_inj' same rfl).1⟩

-----------------------------------------------------------------------------------------
-- The events of the steps
-----------------------------------------------------------------------------------------

/-- A store that has the disk mutex. -/
def WorkerPc.scanning : WorkerPc → Bool
  | .storeScan _ | .storeWrite _ => true
  | _ => false

/-- The entries that a store in progress has read. -/
def Call.scan? : Call → Option (List ChunkState)
  | .storeScan _ scan => some scan
  | .storeWrite _ scan => some scan
  | _ => none

/-- What a step adds to the log, by what it does to the scan of its thread. -/
inductive Logs (thread : Thread) (shared : Shared)
    : Option (List ChunkState) → Option (List ChunkState) → Option DiskEvent → Prop
  | silent (scan : Option (List ChunkState)) : Logs thread shared scan scan none
  | outside (scan : Option (List ChunkState)) : Logs thread shared scan none none
  | wrote (scan : Option (List ChunkState)) (offset count : Nat)
    : Logs thread shared scan none (some (.wrote offset count))
  | locked (scan : Option (List ChunkState))
    : Logs thread shared scan (some []) (some (.locked thread))
  | read (scan : List ChunkState) (chunk : ChunkInfo)
      (found : shared.engine.chunksInfo[scan.length]? = some chunk)
    : Logs thread shared (some scan) (some (scan ++ [chunk.toState]))
        (some (.read thread chunk.toState))
  | stored (scan : List ChunkState)
    : Logs thread shared (some scan) none (some (.stored thread scan))

variable {thread : Thread} {shared : Shared} {before after : Option (List ChunkState)}
  {event : Option DiskEvent}

/-- A thread that knows what it has read knows it after its step. -/
theorem Logs.scanned {log : List DiskEvent} (logs : Logs thread shared before after event)
    (known : ∀ scan, before = some scan → scan = Muld.scanned thread log)
    : ∀ scan, after = some scan → scan = Muld.scanned thread (log ++ event.toList) := by
  cases logs with
  | silent => simpa using known
  | outside => simp
  | wrote => simp
  | locked => simp [scanned_snoc, scanStep]
  | stored => simp
  | read scan chunk found =>
      have before := known scan rfl
      simp [scanned_snoc, scanStep, before]

/-- A step of a thread is no event of the others. -/
theorem Logs.other {log : List DiskEvent} {other : Thread}
    (logs : Logs thread shared before after event) (different : thread ≠ other)
    : Muld.scanned other (log ++ event.toList) = Muld.scanned other log := by
  cases logs with
  | silent => simp
  | outside => simp
  | wrote => exact scanned_other rfl log
  | locked => exact scanned_other (by simpa [DiskEvent.isOf] using different) log
  | read => exact scanned_other (by simpa [DiskEvent.isOf] using different) log
  | stored => exact scanned_other (by simpa [DiskEvent.isOf] using different) log

/-- A store reads the counters of the chunks. -/
theorem Logs.of_read {reader : Thread} {entry : ChunkState}
    (logs : Logs thread shared before after event) (reads : event = some (.read reader entry))
    : ∃ chunk ∈ shared.engine.chunksInfo, entry = chunk.toState := by
  cases logs <;> cases reads
  case read scan chunk found => exact ⟨chunk, List.mem_of_getElem? found, rfl⟩

/-- A store writes what it has read. -/
theorem Logs.of_stored {writer : Thread} {image : List ChunkState}
    (logs : Logs thread shared before after event)
    (stores : event = some (.stored writer image))
    : writer = thread ∧ before = some image := by
  cases logs <;> cases stores
  exact ⟨rfl, rfl⟩

/-- The entries that a worker has read for its store in progress. -/
def Worker.scan? (worker : Worker) : Option (List ChunkState) :=
  if worker.pc.scanning then some worker.scan else none

theorem Worker.scan?_of_scanning {worker : Worker} (scanning : worker.pc.scanning = true)
    : worker.scan? = some worker.scan := if_pos scanning

theorem Worker.scan?_of_not_scanning {worker : Worker}
    (elsewhere : worker.pc.scanning = false)
    : worker.scan? = none := if_neg (by simp [elsewhere])

variable {shared' : Shared} {worker next : Worker} {label : WorkerLabel}

/-- A step without an event keeps the scan or is not about one. -/
theorem Worker.logs_quiet {thread : Thread} {event : Option DiskEvent} (silent : event = none)
    (elsewhere : next.pc.scanning = false)
    : Logs thread shared worker.scan? next.scan? event := by
  rw [silent, scan?_of_not_scanning elsewhere]
  exact .outside _

theorem Worker.logs_wrote {thread : Thread} (offset count : Nat)
    (elsewhere : next.pc.scanning = false)
    : Logs thread shared worker.scan? next.scan? (some (.wrote offset count)) := by
  rw [scan?_of_not_scanning elsewhere]
  exact .wrote _ _ _

/-- Steps that need no decision of the environment, by cases on the step. -/
private theorem Worker.run_logs (index : Nat)
    (taken : Worker.Step shared worker .run shared' next)
    : Logs (.worker index) shared worker.scan? next.scan?
        (worker.diskEvent index shared .run) := by
  cases taken
  case lock site at_pc _ =>
    simp only [diskEvent, at_pc]
    exact .locked _
  case scan site chunk at_pc found =>
    have scanning : worker.pc.scanning = true := by rw [at_pc]; rfl
    simp only [diskEvent, at_pc, found]
    rw [scan?_of_scanning scanning, scan?_of_scanning (by rw [← at_pc] at *; exact scanning)]
    exact .read _ chunk found
  case scanned site at_pc found =>
    simp only [diskEvent, at_pc, found]
    rw [scan?_of_scanning (by rw [at_pc]; rfl), scan?_of_scanning rfl]
    exact .silent _
  case nullWriter at_pc _ =>
    have silent : worker.diskEvent index shared .run = none := by
      rcases at_pc with at_pc | ⟨site, at_pc⟩ <;> simp [diskEvent, at_pc]
    rw [silent]
    exact .silent _
  case throw error at_pc _ _ =>
    refine logs_quiet ?_ rfl
    cases pc : worker.pc <;> simp_all [diskEvent, WorkerPc.throws]
  case release at_pc _ =>
    exact logs_quiet (by rcases at_pc with at_pc | at_pc <;> simp [diskEvent, at_pc]) rfl
  case streamStop at_pc _ =>
    exact logs_quiet (by rcases at_pc with at_pc | at_pc <;> simp [diskEvent, at_pc]) rfl
  case allow at_pc _ _ =>
    exact logs_quiet (by rcases at_pc with at_pc | at_pc <;> simp [diskEvent, at_pc]) rfl
  all_goals exact logs_quiet (by simp [diskEvent, ‹worker.pc = _›]) rfl

/-- What a step of a worker adds to the log, by cases on the label. -/
theorem Worker.logs_of_step (index : Nat)
    (taken : worker.step shared label = some (shared', next))
    : Logs (.worker index) shared worker.scan? next.scan?
        (worker.diskEvent index shared label) := by
  cases label with
  | run => exact run_logs index (step_cases taken)
  | wrote count =>
      simp only [step] at taken
      split at taken
      · rename_i writes
        split at taken <;> cases taken
        · rename_i open_
          rw [diskEvent, if_pos open_]
          refine logs_wrote _ _ ?_
          simp only
          split <;> rfl
        · rename_i closed
          rw [diskEvent, if_neg closed]
          exact .silent _
      · contradiction
  | stored outcome =>
      simp only [step] at taken
      split at taken
      · rename_i site at_pc
        split at taken <;> cases taken
        · rename_i open_
          rw [diskEvent, if_pos open_, scan?_of_scanning (by rw [at_pc]; rfl),
            scan?_of_not_scanning (by cases site <;> rfl)]
          exact .stored _
        · rename_i closed
          rw [diskEvent, if_neg closed]
          exact .silent _
      · contradiction
  | writeFails =>
      simp only [step] at taken
      split at taken
      · split at taken <;> cases taken
        · exact logs_quiet rfl rfl
        · exact .silent _
      · contradiction
  | read bytes ending =>
      simp only [step] at taken
      split at taken
      · cases taken
        refine logs_quiet rfl ?_
        simp only
        split <;> rfl
      · contradiction
  | header status reason =>
      simp only [step] at taken
      split at taken
      · split at taken <;> cases taken <;> exact logs_quiet rfl rfl
      · contradiction
  | isDone done =>
      simp only [step] at taken
      split at taken
      · cases taken
        cases done <;> exact logs_quiet rfl rfl
      · contradiction
  | allow bytes =>
      simp only [step] at taken
      split at taken
      · split at taken
        · split at taken <;> cases taken
          exact logs_quiet rfl rfl
        · split at taken <;> cases taken
          exact logs_quiet rfl rfl
      · contradiction
  | setupFails error =>
      simp only [step] at taken
      split at taken <;> cases taken
      exact logs_quiet rfl rfl
  | networkFails what =>
      simp only [step] at taken
      split at taken <;> cases taken
      exact logs_quiet rfl rfl
  | clock elapsed =>
      simp only [step] at taken
      split at taken <;> cases taken
      exact logs_quiet rfl rfl

/-- What a step of a call adds to the log, by cases on the step. -/
theorem Call.Step.logs {index : Nat} {call next : Call} {label : CallLabel}
    {spawned : List Worker} (taken : Call.Step index shared call label shared' next spawned)
    : Logs (.call index) shared call.scan? next.scan? (call.diskEvent index shared label) := by
  cases taken
  case lock terminate _ => exact .locked _
  case scan terminate scan chunk found =>
    simp only [diskEvent, found]
    exact .read scan chunk found
  case scanned terminate scan found =>
    simp only [diskEvent, found]
    exact .silent _
  case store scan outcome open_ =>
    rw [diskEvent, if_pos open_]
    exact .stored scan
  case storeTerminate scan outcome open_ =>
    rw [diskEvent, if_pos open_]
    exact .stored scan
  case nullWriter terminate scan outcome closed =>
    rw [diskEvent, if_neg (by simp [closed])]
    exact .silent _
  case refused wanted _ at_pc =>
    rcases at_pc with ⟨rfl, _⟩ | ⟨rfl, _⟩ | ⟨rfl, _⟩ <;> exact .outside _
  case terminateFinished at_pc =>
    rcases at_pc with rfl | ⟨states, rfl⟩ <;> exact .outside _
  case wish wanted at_pc =>
    rcases at_pc with ⟨rfl, _⟩ | ⟨rfl, _⟩ | ⟨rfl, _⟩ <;> exact .outside _
  case forward wanted at_pc =>
    rcases at_pc with ⟨rfl, _, rfl⟩ | ⟨rfl, _, rfl⟩ | ⟨rfl, _, rfl⟩ <;> exact .outside _
  case handlerSpeedLimit bps entered =>
    rcases entered with rfl | rfl <;> exact .outside _
  case attachDispatch desired entered =>
    rcases entered with ⟨_, rfl⟩ | ⟨_, rfl⟩ | ⟨_, rfl⟩ | ⟨_, rfl⟩ <;> exact .outside _
  all_goals exact .outside _

-----------------------------------------------------------------------------------------
-- Runs with their logs
-----------------------------------------------------------------------------------------

namespace Sys

variable {meets : Sys → Action → Sys → Prop} {start sys : Sys} {log : List DiskEvent}

/-- The states of the runs from `start` with the logs of the runs. -/
abbrev LoggedWhile (meets : Sys → Action → Sys → Prop) (start : Sys)
    : Sys → List DiskEvent → Prop :=
  Transition.Logged step meets diskEvent start

/-- A worker step of the system is a step of the worker. -/
theorem step_worker {before after : Sys} {index : Nat} {label : WorkerLabel}
    (taken : before.step (.worker index label) = some after)
    : ∃ worker shared next,
        before.workers[index]? = some worker
        ∧ worker.step before.shared label = some (shared, next)
        ∧ after = { before with shared, workers := before.workers.set index next } := by
  unfold step at taken
  split at taken
  · contradiction
  · simp only at taken
    split at taken
    · contradiction
    · rename_i worker found
      split at taken
      · contradiction
      · rename_i shared next moved
        cases taken
        exact ⟨worker, shared, next, found, moved, rfl⟩

/-- A property of the runs and their logs holds if it holds at the start and every worker
step, call step and new call keeps it.
-/
theorem logged_invariant {inv : Sys → List DiskEvent → Prop}
    (logged : LoggedWhile meets start sys log) (base : inv start [])
    (workers
      : ∀ (sys : Sys) (log : List DiskEvent) (index : Nat) (worker next : Worker)
          (label : WorkerLabel) (shared : Shared),
          LoggedWhile meets start sys log
          → inv sys log
          → sys.workers[index]? = some worker
          → worker.Step sys.shared label shared next
          → Logs (.worker index) sys.shared worker.scan? next.scan?
              (worker.diskEvent index sys.shared label)
          → meets sys (.worker index label)
              { sys with shared, workers := sys.workers.set index next }
          → inv { sys with shared, workers := sys.workers.set index next }
              (log ++ (worker.diskEvent index sys.shared label).toList))
    (calls
      : ∀ (sys : Sys) (log : List DiskEvent) (index : Nat) (call next : Call)
          (label : CallLabel) (shared : Shared) (spawned : List Worker),
          LoggedWhile meets start sys log
          → inv sys log
          → sys.calls[index]? = some call
          → Call.Step index sys.shared call label shared next spawned
          → meets sys (.call index label)
              { sys with
                shared
                workers := sys.workers ++ spawned
                calls := sys.calls.set index next }
          → inv { sys with
              shared
              workers := sys.workers ++ spawned
              calls := sys.calls.set index next }
              (log ++ (call.diskEvent index sys.shared label).toList))
    (invokes
      : ∀ (sys : Sys) (log : List DiskEvent) (api : Api) (dispatched : Bool),
          LoggedWhile meets start sys log
          → inv sys log
          → inv { sys with calls := sys.calls ++ [api.entry], dispatched } log)
    : inv sys log := by
  refine logged.invariant base ?_
  intro before action after log earlier holds taken met
  cases action with
  | worker index label =>
      obtain ⟨worker, shared, next, found, moved, rfl⟩ := step_worker taken
      have event : before.diskEvent (.worker index label)
          = worker.diskEvent index before.shared label := by
        simp [diskEvent, found]
      rw [event]
      exact workers before log index worker next label shared earlier holds found
        (Worker.step_cases moved) (Worker.logs_of_step index moved) met
  | call index label =>
      cases step_cases taken with
      | call index call next label shared spawned found moved =>
          have event : before.diskEvent (.call index label)
              = call.diskEvent index before.shared label := by
            simp [diskEvent, found]
          rw [event]
          exact calls before log index call next label shared spawned earlier holds found moved
            met
  | invoke api =>
      cases step_cases taken with
      | invoke api allowed =>
          have event : before.diskEvent (.invoke api) = none := rfl
          rw [event, Option.toList_none, List.append_nil]
          exact invokes before log api _ earlier holds

end Sys

end Muld
