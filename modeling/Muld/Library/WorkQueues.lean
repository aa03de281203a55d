import Mathlib.Data.List.Nodup
import Muld.Library.Transition
import Muld.Library.Threads

/-! Queues that threads wait on. Producers add items under a mutex and notify a sleeper after
they have given it back; a consumer looks at the queue under the mutex and takes the item at
the front, goes to sleep or returns. Whoever stops the queue notifies all sleepers. Sleepers
may also wake up without a notification.
-/

namespace WorkQueues

open Threads

variable {τ : Type*}

/-- What a consumer does with the items that are left when the queue is stopped. -/
inductive OnStop
  | drop
  | drain
deriving DecidableEq, Repr

inductive Consumer (τ : Type*)
  /-- About to take the mutex and look at the queue. -/
  | ready
  | asleep
  | running (item : τ)
  | returned
deriving DecidableEq, Repr

/-- The item that a consumer runs. -/
def Consumer.item? : Consumer τ → Option τ
  | .running item => some item
  | _ => none

@[simp]
theorem Consumer.item?_ready : (.ready : Consumer τ).item? = none := rfl

@[simp]
theorem Consumer.item?_asleep : (.asleep : Consumer τ).item? = none := rfl

@[simp]
theorem Consumer.item?_running (item : τ) : (Consumer.running item).item? = some item := rfl

@[simp]
theorem Consumer.item?_returned : (.returned : Consumer τ).item? = none := rfl

def Consumer.isAsleep : Consumer τ → Bool
  | .asleep => true
  | _ => false

/-- One if the consumer is about to look at the queue. -/
def Consumer.readyShare : Consumer τ → Int
  | .ready => 1
  | _ => 0

/-- A consumer after a notification. -/
def Consumer.notified : Consumer τ → Consumer τ
  | .asleep => .ready
  | consumer => consumer

structure WorkQueue (τ : Type*) where
  items : List τ := []
  stopped : Bool := false
  consumers : List (Consumer τ)
  /-- How many producers still have to notify a sleeper. -/
  dueOne : Nat := 0
  /-- How many threads still have to notify all sleepers. -/
  dueAll : Nat := 0
  /-- The items that were added, taken and finished so far, each in its order. -/
  added : List τ := []
  taken : List τ := []
  finished : List τ := []

inductive QueueAction (τ : Type*)
  | add (item : τ)
  /-- A producer notifies a sleeper, or nobody if nobody sleeps. -/
  | notifyOne (woken : Option Nat)
  | stop
  | notifyAll
  /-- A sleeper wakes up without a notification. -/
  | wake (consumer : Nat)
  /-- A consumer looks at the queue with the mutex in its hands. -/
  | look (consumer : Nat)
  /-- A consumer is done with its item. -/
  | finish (consumer : Nat)

/-- Nothing is added and no consumer is done with its item. -/
def QueueAction.synchronises : QueueAction τ → Bool
  | .add _ | .finish _ => false
  | _ => true

namespace WorkQueue

variable {onStop : OnStop} {queue after start : WorkQueue τ}

/-- The items that consumers run. -/
def running (queue : WorkQueue τ) : List τ := queue.consumers.filterMap Consumer.item?

/-- A queue with this many consumers. -/
def create (consumers : Nat) : WorkQueue τ := { consumers := List.replicate consumers .ready }

/-- Add an item; a sleeper is notified later. -/
def add (item : τ) (queue : WorkQueue τ) : WorkQueue τ :=
  { queue with
    items := queue.items ++ [item]
    dueOne := queue.dueOne + 1
    added := queue.added ++ [item] }

/-- A consumer that looks at the queue returns instead of waiting or taking an item. -/
def ends (onStop : OnStop) (queue : WorkQueue τ) : Bool :=
  queue.stopped && (onStop == .drop || queue.items.isEmpty)

/-- What a consumer does when it looks at the queue. -/
def look (onStop : OnStop) (consumer : Nat) (queue : WorkQueue τ) : WorkQueue τ :=
  if queue.ends onStop then { queue with consumers := queue.consumers.set consumer .returned }
  else
    match queue.items with
    | [] => { queue with consumers := queue.consumers.set consumer .asleep }
    | item :: rest =>
        { queue with
          items := rest
          consumers := queue.consumers.set consumer (.running item)
          taken := queue.taken ++ [item] }

def step (onStop : OnStop) (queue : WorkQueue τ) : QueueAction τ → Option (WorkQueue τ)
  | .add item => some (queue.add item)
  | .notifyOne woken =>
      if 0 < queue.dueOne then
        match woken with
        | none =>
            if queue.consumers.any Consumer.isAsleep then none
            else some { queue with dueOne := queue.dueOne - 1 }
        | some consumer =>
            match queue.consumers[consumer]? with
            | some .asleep =>
                some { queue with
                  consumers := queue.consumers.set consumer .ready
                  dueOne := queue.dueOne - 1 }
            | _ => none
      else none
  | .stop => some { queue with stopped := true, dueAll := queue.dueAll + 1 }
  | .notifyAll =>
      if 0 < queue.dueAll then
        some { queue with
          consumers := queue.consumers.map Consumer.notified
          dueAll := queue.dueAll - 1 }
      else none
  | .wake consumer =>
      match queue.consumers[consumer]? with
      | some .asleep => some { queue with consumers := queue.consumers.set consumer .ready }
      | _ => none
  | .look consumer =>
      match queue.consumers[consumer]? with
      | some .ready => some (queue.look onStop consumer)
      | _ => none
  | .finish consumer =>
      match queue.consumers[consumer]? with
      | some (.running item) =>
          some { queue with
            consumers := queue.consumers.set consumer .ready
            finished := queue.finished ++ [item] }
      | _ => none

/-- The steps of a queue, one constructor for each thing that can happen. -/
inductive Step (onStop : OnStop) (queue : WorkQueue τ) : QueueAction τ → WorkQueue τ → Prop
  | add (item : τ)
    : Step onStop queue (.add item) (queue.add item)
  | notifyNobody (due : 0 < queue.dueOne)
      (awake : queue.consumers.any Consumer.isAsleep = false)
    : Step onStop queue (.notifyOne none) { queue with dueOne := queue.dueOne - 1 }
  | notifyOne (consumer : Nat) (due : 0 < queue.dueOne)
      (sleeps : queue.consumers[consumer]? = some .asleep)
    : Step onStop queue (.notifyOne (some consumer))
        { queue with
          consumers := queue.consumers.set consumer .ready
          dueOne := queue.dueOne - 1 }
  | stop
    : Step onStop queue .stop { queue with stopped := true, dueAll := queue.dueAll + 1 }
  | notifyAll (due : 0 < queue.dueAll)
    : Step onStop queue .notifyAll
        { queue with
          consumers := queue.consumers.map Consumer.notified
          dueAll := queue.dueAll - 1 }
  | wake (consumer : Nat) (sleeps : queue.consumers[consumer]? = some .asleep)
    : Step onStop queue (.wake consumer)
        { queue with consumers := queue.consumers.set consumer .ready }
  | returns (consumer : Nat) (looks : queue.consumers[consumer]? = some .ready)
      (ends : queue.ends onStop = true)
    : Step onStop queue (.look consumer)
        { queue with consumers := queue.consumers.set consumer .returned }
  | sleep (consumer : Nat) (looks : queue.consumers[consumer]? = some .ready)
      (goes_on : queue.stopped = false) (empty : queue.items = [])
    : Step onStop queue (.look consumer)
        { queue with consumers := queue.consumers.set consumer .asleep }
  | take (consumer : Nat) (item : τ) (rest : List τ)
      (looks : queue.consumers[consumer]? = some .ready)
      (goes_on : queue.ends onStop = false) (first : queue.items = item :: rest)
    : Step onStop queue (.look consumer)
        { queue with
          items := rest
          consumers := queue.consumers.set consumer (.running item)
          taken := queue.taken ++ [item] }
  | finish (consumer : Nat) (item : τ)
      (runs : queue.consumers[consumer]? = some (.running item))
    : Step onStop queue (.finish consumer)
        { queue with
          consumers := queue.consumers.set consumer .ready
          finished := queue.finished ++ [item] }

/-- Every step of a queue is one of the listed ones, by cases on the action. -/
theorem step_cases {action : QueueAction τ} (taken : queue.step onStop action = some after)
    : queue.Step onStop action after := by
  cases action with
  | add item => exact Option.some.inj taken ▸ .add item
  | notifyOne woken =>
      simp only [step] at taken
      split at taken
      · rename_i due
        cases woken with
        | none =>
            simp only at taken
            split at taken
            · cases taken
            · rename_i awake
              cases taken
              exact .notifyNobody due (eq_false_of_ne_true awake)
        | some consumer =>
            simp only at taken
            split at taken
            · cases taken
              exact .notifyOne consumer due ‹_›
            · cases taken
      · cases taken
  | stop => exact Option.some.inj taken ▸ .stop
  | notifyAll =>
      simp only [step] at taken
      split at taken <;> cases taken
      exact .notifyAll ‹_›
  | wake consumer =>
      simp only [step] at taken
      split at taken <;> cases taken
      exact .wake consumer ‹_›
  | look consumer =>
      simp only [step] at taken
      split at taken
      · rename_i looks
        obtain rfl := Option.some.inj taken
        unfold look
        split
        · exact .returns consumer looks ‹_›
        · rename_i goes_on
          have ends : queue.ends onStop = false := eq_false_of_ne_true goes_on
          split
          · rename_i empty
            refine .sleep consumer looks ?_ empty
            simpa [WorkQueue.ends, empty] using ends
          · exact .take consumer _ _ looks ends ‹_›
      · cases taken
  | finish consumer =>
      simp only [step] at taken
      split at taken <;> cases taken
      exact .finish consumer _ ‹_›

/-- The states of the runs from `start` whose steps all meet a condition. -/
abbrev ReachableWhile (onStop : OnStop)
    (meets : WorkQueue τ → QueueAction τ → WorkQueue τ → Prop) (start : WorkQueue τ)
    : WorkQueue τ → Prop :=
  Transition.Reachable (step onStop) meets start

/-- The states of all runs from `start`. -/
abbrev Reachable (onStop : OnStop) (start : WorkQueue τ) : WorkQueue τ → Prop :=
  ReachableWhile onStop Transition.anyStep start

variable {meets : WorkQueue τ → QueueAction τ → WorkQueue τ → Prop}

-----------------------------------------------------------------------------------------
-- Every item is taken once and in order
-----------------------------------------------------------------------------------------

/-- Only `add` adds an item. -/
theorem Step.added_cases {action : QueueAction τ} (taken : queue.Step onStop action after)
    : after.added = queue.added ∨ ∃ item, action = .add item := by
  cases taken with
  | add item => exact Or.inr ⟨item, rfl⟩
  | _ => exact Or.inl rfl

/-- Where the items of a queue are. -/
structure Ordered (queue : WorkQueue τ) : Prop where
  added : queue.added = queue.taken ++ queue.items
  taken : queue.taken.Perm (queue.finished ++ queue.running)

/-- A step of one consumer exchanges the item that it runs, if it runs one. Witness: the
items of the other consumers.
-/
theorem running_set {consumers : List (Consumer τ)} {consumer : Nat} {old : Consumer τ}
    (found : consumers[consumer]? = some old) (new : Consumer τ)
    : ∃ others : List τ,
        (consumers.filterMap Consumer.item?).Perm (old.item?.toList ++ others)
        ∧ ((consumers.set consumer new).filterMap Consumer.item?).Perm
            (new.item?.toList ++ others) := by
  obtain ⟨inside, rfl⟩ := List.getElem?_eq_some_iff.mp found
  refine ⟨(consumers.eraseIdx consumer).filterMap Consumer.item?, ?_, ?_⟩
  · have perm := (List.getElem_cons_eraseIdx_perm inside).filterMap Consumer.item?
    rw [List.filterMap_cons] at perm
    cases held : consumers[consumer].item? <;> simpa [held] using perm.symm
  · have perm := (List.set_perm_cons_eraseIdx inside new).filterMap Consumer.item?
    rw [List.filterMap_cons] at perm
    cases held : new.item? <;> simpa [held] using perm

/-- A consumer that neither takes nor finishes leaves the running items alone. -/
theorem running_set_idle {consumers : List (Consumer τ)} {consumer : Nat}
    {old new : Consumer τ} (found : consumers[consumer]? = some old)
    (before : old.item? = none) (after : new.item? = none)
    : ((consumers.set consumer new).filterMap Consumer.item?).Perm
        (consumers.filterMap Consumer.item?) := by
  obtain ⟨others, left, right⟩ := running_set found new
  rw [before] at left
  rw [after] at right
  exact right.trans left.symm

/-- A notification changes what no consumer runs. -/
theorem running_notified (consumers : List (Consumer τ))
    : (consumers.map Consumer.notified).filterMap Consumer.item?
        = consumers.filterMap Consumer.item? := by
  rw [List.filterMap_map]
  congr 1
  funext consumer
  cases consumer <;> rfl

theorem Ordered.step (ordered : queue.Ordered) {action : QueueAction τ}
    (taken : queue.Step onStop action after)
    : after.Ordered := by
  have idle : ∀ {consumer : Nat} {old new : Consumer τ},
      queue.consumers[consumer]? = some old →
      old.item? = none → new.item? = none →
      queue.taken.Perm
        (queue.finished ++ (queue.consumers.set consumer new).filterMap Consumer.item?) := by
    intro consumer old new found before next
    exact ordered.taken.trans ((running_set_idle found before next).symm.append_left _)
  cases taken with
  | add item => exact ⟨by simp [add, ordered.added], ordered.taken⟩
  | notifyNobody due awake => exact ⟨ordered.added, ordered.taken⟩
  | notifyOne consumer due sleeps => exact ⟨ordered.added, idle sleeps rfl rfl⟩
  | stop => exact ⟨ordered.added, ordered.taken⟩
  | notifyAll due =>
      refine ⟨ordered.added, ?_⟩
      rw [running, running_notified]
      exact ordered.taken
  | wake consumer sleeps => exact ⟨ordered.added, idle sleeps rfl rfl⟩
  | returns consumer looks ends => exact ⟨ordered.added, idle looks rfl rfl⟩
  | sleep consumer looks goes_on empty => exact ⟨ordered.added, idle looks rfl rfl⟩
  | take consumer item rest looks goes_on first =>
      obtain ⟨others, left, right⟩ := running_set looks (.running item)
      refine ⟨by simp [ordered.added, first], ?_⟩
      calc (queue.taken ++ [item]).Perm ((queue.finished ++ queue.running) ++ [item]) :=
            ordered.taken.append_right _
        _ |>.Perm (queue.finished ++ (queue.running ++ [item])) := by
            rw [List.append_assoc]
        _ |>.Perm (queue.finished ++ (others ++ [item])) :=
            (left.append_right _).append_left _
        _ |>.Perm (queue.finished ++ ([item] ++ others)) :=
            List.perm_append_comm.append_left _
        _ |>.Perm _ := right.symm.append_left _
  | finish consumer item runs =>
      obtain ⟨others, left, right⟩ := running_set runs .ready
      refine ⟨ordered.added, ?_⟩
      calc queue.taken.Perm (queue.finished ++ queue.running) := ordered.taken
        _ |>.Perm (queue.finished ++ ([item] ++ others)) := left.append_left _
        _ |>.Perm (queue.finished ++ [item] ++ others) := by rw [List.append_assoc]
        _ |>.Perm _ := right.symm.append_left _

/-- In every run the items are taken in the order in which they were added, and each taken
item was finished or is run by one consumer.
-/
theorem ReachableWhile.ordered (reached : ReachableWhile onStop meets start queue)
    (base : start.Ordered)
    : queue.Ordered :=
  reached.invariant base fun _ _ _ _ ordered taken _ => ordered.step (step_cases taken)

/-- A consumer runs an item that was taken. -/
theorem Ordered.mem_taken (ordered : queue.Ordered) {consumer : Nat} {item : τ}
    (runs : queue.consumers[consumer]? = some (.running item))
    : item ∈ queue.taken := by
  refine ordered.taken.mem_iff.mpr (List.mem_append_right _ ?_)
  exact List.mem_filterMap.mpr ⟨.running item, List.mem_of_getElem? runs, rfl⟩

theorem Ordered.mem_added (ordered : queue.Ordered) {consumer : Nat} {item : τ}
    (runs : queue.consumers[consumer]? = some (.running item))
    : item ∈ queue.added := by
  rw [ordered.added]
  exact List.mem_append_left _ (ordered.mem_taken runs)

theorem Ordered.added_of_finished (ordered : queue.Ordered) {item : τ}
    (done : item ∈ queue.finished)
    : item ∈ queue.added := by
  rw [ordered.added]
  exact List.mem_append_left _ (ordered.taken.mem_iff.mpr (List.mem_append_left _ done))

/-- Where no item was added twice, an item that a consumer runs neither waits nor was
finished.
-/
theorem Ordered.apart (ordered : queue.Ordered) (once : queue.added.Nodup) {consumer : Nat}
    {item : τ} (runs : queue.consumers[consumer]? = some (.running item))
    : item ∉ queue.items ∧ item ∉ queue.finished := by
  rw [ordered.added] at once
  obtain ⟨takenOnce, _, apart⟩ := List.nodup_append'.mp once
  have finishedOnce := ordered.taken.nodup_iff.mp takenOnce
  obtain ⟨_, _, disjoint⟩ := List.nodup_append'.mp finishedOnce
  have present : item ∈ queue.running :=
    List.mem_filterMap.mpr ⟨.running item, List.mem_of_getElem? runs, rfl⟩
  exact ⟨fun waits => apart (ordered.mem_taken runs) waits,
    fun done => disjoint done present⟩

/-- Where no item was added twice, no two consumers run the same item. -/
theorem Ordered.consumer_eq (ordered : queue.Ordered) (once : queue.added.Nodup)
    {first second : Nat} {item : τ}
    (atFirst : queue.consumers[first]? = some (.running item))
    (atSecond : queue.consumers[second]? = some (.running item))
    : first = second := by
  rw [ordered.added] at once
  have finishedOnce := ordered.taken.nodup_iff.mp (List.nodup_append'.mp once).1
  have runningOnce : queue.running.Nodup := (List.nodup_append'.mp finishedOnce).2.1
  by_contra different
  obtain ⟨inside, _⟩ := List.getElem?_eq_some_iff.mp atFirst
  -- without the second consumer, the first one still runs the item
  obtain ⟨others, whole, rest⟩ := running_set atSecond .returned
  have still : item ∈ others := by
    have kept : (queue.consumers.set second .returned)[first]? = some (.running item) :=
      (List.getElem?_set_ne (Ne.symm different)).trans atFirst
    simpa using rest.mem_iff.mp
      (List.mem_filterMap.mpr ⟨.running item, List.mem_of_getElem? kept, rfl⟩)
  have twice : (item :: others).Nodup := whole.nodup_iff.mp runningOnce
  exact (List.nodup_cons.mp twice).1 still

/-- An item that was added waits, is run by a consumer or was finished. -/
theorem Ordered.mem_cases (ordered : queue.Ordered) {item : τ} (added : item ∈ queue.added)
    : item ∈ queue.items
      ∨ (∃ consumer : Nat, queue.consumers[consumer]? = some (.running item))
      ∨ item ∈ queue.finished := by
  rw [ordered.added] at added
  rcases List.mem_append.mp added with taken | waits
  · rcases List.mem_append.mp (ordered.taken.mem_iff.mp taken) with done | runs
    · exact Or.inr (Or.inr done)
    · obtain ⟨consumer, member, held⟩ := List.mem_filterMap.mp runs
      obtain ⟨index, found⟩ := List.mem_iff_getElem?.mp member
      cases consumer <;> cases held
      exact Or.inr (Or.inl ⟨index, found⟩)
  · exact Or.inl waits

theorem create_ordered (consumers : Nat) : (create consumers : WorkQueue τ).Ordered where
  added := rfl
  taken := by
    have idle : (create consumers : WorkQueue τ).running = [] := by
      rw [running, List.filterMap_eq_nil_iff]
      intro consumer member
      rw [List.eq_of_mem_replicate member]
      rfl
    rw [idle]
    exact .nil

-----------------------------------------------------------------------------------------
-- What consumers do between two items
-----------------------------------------------------------------------------------------

/-- Between two items a consumer at most takes one that waits. -/
theorem Step.sync_cases {action : QueueAction τ} (taken : queue.Step onStop action after)
    (sync : action.synchronises = true)
    : after.added = queue.added
      ∧ after.finished = queue.finished
      ∧ after.items ⊆ queue.items := by
  cases taken with
  | add item => cases sync
  | finish consumer item runs => cases sync
  | take consumer item rest looks goes_on first =>
      exact ⟨rfl, rfl, first ▸ List.subset_cons_self item rest⟩
  | _ => exact ⟨rfl, rfl, List.Subset.refl _⟩

/-- A consumer that runs an item runs it until it is done. -/
theorem Step.still_running {action : QueueAction τ} (taken : queue.Step onStop action after)
    (sync : action.synchronises = true) {consumer : Nat} {item : τ}
    (runs : queue.consumers[consumer]? = some (.running item))
    : after.consumers[consumer]? = some (.running item) := by
  have kept : ∀ {other : Nat} {old new : Consumer τ},
      queue.consumers[other]? = some old → old.item? = none →
      (queue.consumers.set other new)[consumer]? = some (.running item) := by
    intro other old new found idle
    refine (List.getElem?_set_ne ?_).trans runs
    rintro rfl
    rw [runs] at found
    cases found
    cases idle
  cases taken with
  | add item => cases sync
  | finish consumer item runs => cases sync
  | notifyNobody due awake => exact runs
  | stop => exact runs
  | notifyOne other due sleeps => exact kept sleeps rfl
  | notifyAll due => simp [runs, Consumer.notified]
  | wake other sleeps => exact kept sleeps rfl
  | returns other looks ends => exact kept looks rfl
  | sleep other looks goes_on empty => exact kept looks rfl
  | take other item rest looks goes_on first => exact kept looks rfl

/-- A consumer that runs nothing contributes nothing, and neither does the one that takes a
waiting item; so the total stays what it is.
-/
theorem Step.total_sync {share : Consumer τ → Int} {action : QueueAction τ}
    (taken : queue.Step onStop action after) (sync : action.synchronises = true)
    (idle : ∀ consumer : Consumer τ, consumer.item? = none → share consumer = 0)
    (silent : ∀ item ∈ queue.items, share (.running item) = 0)
    : total share after.consumers = total share queue.consumers := by
  have moved : ∀ {consumer : Nat} {old new : Consumer τ},
      queue.consumers[consumer]? = some old → share old = 0 → share new = 0 →
      total share (queue.consumers.set consumer new) = total share queue.consumers := by
    intro consumer old new found before next
    rw [total_set _ found]
    omega
  cases taken with
  | add item => cases sync
  | finish consumer item runs => cases sync
  | notifyNobody due awake => rfl
  | stop => rfl
  | notifyOne consumer due sleeps => exact moved sleeps (idle _ rfl) (idle _ rfl)
  | notifyAll due =>
      simp only [total, List.map_map]
      congr 2
      funext consumer
      cases consumer with
      | asleep => exact (idle _ rfl).trans (idle _ rfl).symm
      | ready | running | returned => rfl
  | wake consumer sleeps => exact moved sleeps (idle _ rfl) (idle _ rfl)
  | returns consumer looks ends => exact moved looks (idle _ rfl) (idle _ rfl)
  | sleep consumer looks goes_on empty => exact moved looks (idle _ rfl) (idle _ rfl)
  | take consumer item rest looks goes_on first =>
      refine moved looks (idle _ rfl) (silent item ?_)
      exact first ▸ List.mem_cons_self

-----------------------------------------------------------------------------------------
-- No notification is lost
-----------------------------------------------------------------------------------------

/-- While a consumer sleeps, every waiting item has a notification coming or a consumer about
to look, and a stop has its notification coming.
-/
structure Roused (queue : WorkQueue τ) : Prop where
  items
    : queue.stopped = false
      → .asleep ∈ queue.consumers
      → (queue.items.length : Int) ≤ queue.dueOne + total Consumer.readyShare queue.consumers
  stop : queue.stopped = true → .asleep ∈ queue.consumers → 0 < queue.dueAll
  returned : .returned ∈ queue.consumers → queue.stopped = true

theorem Consumer.readyShare_nonneg (consumer : Consumer τ) : 0 ≤ consumer.readyShare := by
  cases consumer <;> simp [Consumer.readyShare]

/-- A sleeper that was not put to sleep by the step slept before it. -/
theorem asleep_of_set {consumers : List (Consumer τ)} {consumer : Nat} {new : Consumer τ}
    (sleeper : .asleep ∈ consumers.set consumer new) (awake : new ≠ .asleep)
    : .asleep ∈ consumers := by
  rcases List.mem_or_eq_of_mem_set sleeper with before | same
  · exact before
  · exact absurd same.symm awake

/-- A consumer that has returned had done so before, or returns in the step. -/
theorem returned_of_set {consumers : List (Consumer τ)} {consumer : Nat} {new : Consumer τ}
    (done : .returned ∈ consumers.set consumer new) (goes_on : new ≠ .returned)
    : .returned ∈ consumers := by
  rcases List.mem_or_eq_of_mem_set done with before | same
  · exact before
  · exact absurd same.symm goes_on

/-- After a notification of all nobody sleeps. -/
theorem not_asleep_of_notified {consumers : List (Consumer τ)}
    : .asleep ∉ consumers.map Consumer.notified := by
  intro sleeper
  obtain ⟨consumer, _, same⟩ := List.mem_map.mp sleeper
  cases consumer <;> cases same

theorem not_asleep_of_any {consumers : List (Consumer τ)}
    (awake : consumers.any Consumer.isAsleep = false)
    : .asleep ∉ consumers := by
  intro sleeper
  have some_sleeper : consumers.any Consumer.isAsleep = true :=
    List.any_eq_true.mpr ⟨.asleep, sleeper, rfl⟩
  rw [awake] at some_sleeper
  cases some_sleeper

/-- A consumer that wakes up is about to look. -/
theorem Roused.woken (roused : queue.Roused) {consumer : Nat} {due : Nat}
    (sleeps : queue.consumers[consumer]? = some .asleep) (kept : queue.dueOne ≤ due + 1)
    : Roused { queue with
        consumers := queue.consumers.set consumer .ready
        dueOne := due } where
  items := by
    intro goes_on _
    have covered := roused.items goes_on (List.mem_of_getElem? sleeps)
    rw [total_set _ sleeps]
    simp only [Consumer.readyShare]
    omega
  stop := fun stopped _ => roused.stop stopped (List.mem_of_getElem? sleeps)
  returned := fun done => roused.returned (returned_of_set done (by simp))

/-- By cases on the step: a consumer goes to sleep only where nothing waits for it. -/
theorem Roused.step (roused : queue.Roused) {action : QueueAction τ}
    (taken : queue.Step onStop action after)
    : after.Roused := by
  cases taken with
  | add item =>
      refine ⟨?_, roused.stop, roused.returned⟩
      intro goes_on sleeper
      have covered := roused.items goes_on sleeper
      simp only [add, List.length_append, List.length_singleton]
      omega
  | notifyNobody due awake =>
      have nobody := not_asleep_of_any awake
      exact ⟨fun _ sleeper => absurd sleeper nobody, fun _ sleeper => absurd sleeper nobody,
        roused.returned⟩
  | notifyOne consumer due sleeps => exact roused.woken sleeps (by omega)
  | stop => exact ⟨nofun, fun _ _ => Nat.succ_pos _, fun _ => rfl⟩
  | notifyAll due =>
      refine ⟨fun _ sleeper => absurd sleeper not_asleep_of_notified,
        fun _ sleeper => absurd sleeper not_asleep_of_notified, ?_⟩
      intro done
      obtain ⟨consumer, member, same⟩ := List.mem_map.mp done
      cases consumer <;> cases same
      exact roused.returned member
  | wake consumer sleeps => exact roused.woken sleeps (by omega)
  | returns consumer looks ends =>
      have stopped : queue.stopped = true := (Bool.and_eq_true_iff.mp ends).1
      refine ⟨?_, ?_, fun _ => stopped⟩
      · intro goes_on
        rw [stopped] at goes_on
        cases goes_on
      · exact fun _ sleeper => roused.stop stopped (asleep_of_set sleeper (by simp))
  | sleep consumer looks goes_on empty =>
      refine ⟨?_, ?_, fun done => roused.returned (returned_of_set done (by simp))⟩
      · intro _ _
        have ready : 0 ≤ total Consumer.readyShare (queue.consumers.set consumer .asleep) :=
          total_nonneg Consumer.readyShare_nonneg
        simp only [empty, List.length_nil]
        omega
      · intro stopped
        rw [goes_on] at stopped
        cases stopped
  | take consumer item rest looks goes_on first =>
      refine ⟨?_, ?_, fun done => roused.returned (returned_of_set done (by simp))⟩
      · intro running sleeper
        have covered := roused.items running (asleep_of_set sleeper (by simp))
        rw [total_set _ looks]
        simp only [first, List.length_cons, Consumer.readyShare] at covered ⊢
        omega
      · exact fun stopped sleeper => roused.stop stopped (asleep_of_set sleeper (by simp))
  | finish consumer item runs =>
      refine ⟨?_, ?_, fun done => roused.returned (returned_of_set done (by simp))⟩
      · intro goes_on sleeper
        have covered := roused.items goes_on (asleep_of_set sleeper (by simp))
        rw [total_set _ runs]
        simp only [Consumer.readyShare]
        omega
      · exact fun stopped sleeper => roused.stop stopped (asleep_of_set sleeper (by simp))

theorem ReachableWhile.roused (reached : ReachableWhile onStop meets start queue)
    (base : start.Roused)
    : queue.Roused :=
  reached.invariant base fun _ _ _ _ roused taken _ => roused.step (step_cases taken)

theorem create_roused (consumers : Nat) : (create consumers : WorkQueue τ).Roused := by
  have ready : ∀ consumer ∈ (create consumers : WorkQueue τ).consumers, consumer = .ready :=
    fun _ member => List.eq_of_mem_replicate member
  constructor
  · intro _ sleeper
    cases ready _ sleeper
  · intro _ sleeper
    cases ready _ sleeper
  · intro done
    cases ready _ done

/-- No notification is coming and no consumer is about to look. -/
structure AtRest (queue : WorkQueue τ) : Prop where
  dueOne : queue.dueOne = 0
  dueAll : queue.dueAll = 0
  looks : .ready ∉ queue.consumers

/-- At rest, a consumer sleeps only where nothing waits and nothing has been stopped. -/
theorem Roused.nothing_waits (roused : queue.Roused) (rest : queue.AtRest)
    (sleeper : .asleep ∈ queue.consumers)
    : queue.items = [] ∧ queue.stopped = false := by
  have goes_on : queue.stopped = false := by
    by_contra stopped
    have due := roused.stop (eq_true_of_ne_false stopped) sleeper
    rw [rest.dueAll] at due
    cases due
  have silent : total Consumer.readyShare queue.consumers = 0 := by
    apply total_eq_zero
    intro consumer member
    cases consumer with
    | ready => exact absurd member rest.looks
    | asleep | running | returned => rfl
  have covered := roused.items goes_on sleeper
  rw [silent, rest.dueOne] at covered
  exact ⟨List.length_eq_zero_iff.mp (by omega), goes_on⟩

/-- At rest, where an item waits or the queue was stopped, every consumer runs an item or has
returned.
-/
theorem Roused.busy (roused : queue.Roused) (rest : queue.AtRest)
    (waits : queue.items ≠ [] ∨ queue.stopped = true) {consumer : Consumer τ}
    (member : consumer ∈ queue.consumers)
    : (∃ item, consumer = .running item) ∨ (consumer = .returned ∧ queue.stopped = true) := by
  cases consumer with
  | ready => exact absurd member rest.looks
  | asleep =>
      obtain ⟨empty, goes_on⟩ := roused.nothing_waits rest member
      rcases waits with waiting | stopped
      · exact absurd empty waiting
      · rw [goes_on] at stopped
        cases stopped
  | running item => exact Or.inl ⟨item, rfl⟩
  | returned => exact Or.inr ⟨rfl, roused.returned member⟩

-----------------------------------------------------------------------------------------
-- After a stop
-----------------------------------------------------------------------------------------

/-- A stopped queue stays stopped. -/
theorem Step.stopped {action : QueueAction τ} (taken : queue.Step onStop action after)
    (stopped : queue.stopped = true)
    : after.stopped = true := by
  cases taken <;> first | exact stopped | rfl

/-- A stopped queue that drops its items hands out nothing. -/
theorem Step.takes_none {action : QueueAction τ} (taken : queue.Step .drop action after)
    (stopped : queue.stopped = true)
    : after.taken = queue.taken ∧ queue.items <+: after.items := by
  cases taken with
  | add item => exact ⟨rfl, List.prefix_append _ _⟩
  | take consumer item rest looks goes_on first =>
      simp [ends, stopped] at goes_on
  | _ => exact ⟨rfl, List.prefix_rfl⟩

/-- What waits in a stopped queue that drops its items waits for ever. -/
theorem ReachableWhile.dropped (reached : ReachableWhile .drop meets start queue)
    (stopped : start.stopped = true)
    : queue.stopped = true ∧ queue.taken = start.taken ∧ start.items <+: queue.items := by
  induction reached with
  | start => exact ⟨stopped, rfl, List.prefix_rfl⟩
  | next _ taken _ ih =>
      obtain ⟨still, same, waits⟩ := ih
      obtain ⟨none_taken, kept⟩ := (step_cases taken).takes_none still
      exact ⟨(step_cases taken).stopped still, none_taken.trans same, waits.trans kept⟩

/-- Nothing is added to a queue that was stopped. -/
def AddsBeforeStop (before : WorkQueue τ) (action : QueueAction τ) (_ : WorkQueue τ) : Prop :=
  match action with
  | .add _ => before.stopped = false
  | _ => True

/-- A consumer of a drained queue returns when nothing is left. -/
def Drained (queue : WorkQueue τ) : Prop :=
  .returned ∈ queue.consumers → queue.items = [] ∧ queue.stopped = true

theorem Drained.step (drained : queue.Drained) {action : QueueAction τ}
    (taken : queue.Step .drain action after) (early : AddsBeforeStop queue action after)
    : after.Drained := by
  cases taken with
  | add item =>
      intro done
      simp [AddsBeforeStop, (drained done).2] at early
  | notifyAll due =>
      intro done
      obtain ⟨consumer, member, same⟩ := List.mem_map.mp done
      cases consumer <;> cases same
      exact drained member
  | stop => exact fun done => ⟨(drained done).1, rfl⟩
  | returns consumer looks ends =>
      intro _
      simpa [WorkQueue.ends, and_comm] using ends
  | take consumer item rest looks goes_on first =>
      intro done
      have empty := (drained (returned_of_set done (by simp))).1
      rw [first] at empty
      cases empty
  | notifyNobody due awake => exact drained
  | notifyOne | wake | sleep | finish =>
      exact fun done => drained (returned_of_set done (by simp))

theorem ReachableWhile.drained (reached : ReachableWhile .drain AddsBeforeStop start queue)
    (base : start.Drained)
    : queue.Drained :=
  reached.invariant base fun _ _ _ _ drained taken early => drained.step (step_cases taken) early

theorem create_drained (consumers : Nat) : (create consumers : WorkQueue τ).Drained := by
  intro done
  cases List.eq_of_mem_replicate done

-----------------------------------------------------------------------------------------
-- One consumer
-----------------------------------------------------------------------------------------

/-- No step makes or ends a consumer. -/
theorem Step.consumers_length {action : QueueAction τ}
    (taken : queue.Step onStop action after)
    : after.consumers.length = queue.consumers.length := by
  cases taken with
  | add | notifyNobody | stop => rfl
  | _ => simp

theorem ReachableWhile.consumers_length (reached : ReachableWhile onStop meets start queue)
    : queue.consumers.length = start.consumers.length := by
  induction reached with
  | start => rfl
  | next _ taken _ ih => exact (step_cases taken).consumers_length.trans ih

/-- A single consumer finishes the items in the order in which it takes them. -/
def InTurn (queue : WorkQueue τ) : Prop := queue.taken = queue.finished ++ queue.running

theorem InTurn.step (inTurn : queue.InTurn) (single : queue.consumers.length = 1)
    {action : QueueAction τ} (taken : queue.Step onStop action after)
    : after.InTurn := by
  obtain ⟨consumer, only⟩ := List.length_eq_one_iff.mp single
  have first : ∀ {index : Nat} {found : Consumer τ},
      queue.consumers[index]? = some found → index = 0 ∧ consumer = found := by
    intro index found at_index
    rw [only, List.getElem?_singleton] at at_index
    split at at_index
    · exact ⟨‹_›, Option.some.inj at_index⟩
    · cases at_index
  simp only [InTurn, running, only] at inTurn ⊢
  cases taken with
  | add item => simpa [add, only, List.filterMap_cons] using inTurn
  | notifyNobody due awake => simpa [only, List.filterMap_cons] using inTurn
  | notifyOne index due sleeps =>
      obtain ⟨rfl, rfl⟩ := first sleeps
      simpa [only, List.filterMap_cons] using inTurn
  | stop => simpa [only, List.filterMap_cons] using inTurn
  | notifyAll due =>
      cases consumer <;> simpa [only, List.filterMap_cons, Consumer.notified] using inTurn
  | wake index sleeps =>
      obtain ⟨rfl, rfl⟩ := first sleeps
      simpa [only, List.filterMap_cons] using inTurn
  | returns index looks ends =>
      obtain ⟨rfl, rfl⟩ := first looks
      simpa [only, List.filterMap_cons] using inTurn
  | sleep index looks goes_on empty =>
      obtain ⟨rfl, rfl⟩ := first looks
      simpa [only, List.filterMap_cons] using inTurn
  | take index item rest looks goes_on next =>
      obtain ⟨rfl, rfl⟩ := first looks
      simpa [only, List.filterMap_cons] using inTurn
  | finish index item runs =>
      obtain ⟨rfl, rfl⟩ := first runs
      simpa [only, List.filterMap_cons] using inTurn

/-- What a single consumer runs is all that runs. -/
theorem running_single (single : queue.consumers.length = 1) {index : Nat}
    {consumer : Consumer τ} (found : queue.consumers[index]? = some consumer)
    : queue.running = consumer.item?.toList := by
  obtain ⟨only, same⟩ := List.length_eq_one_iff.mp single
  rw [same, List.getElem?_singleton] at found
  split at found
  · cases found
    rw [running, same, List.filterMap_cons]
    cases consumer.item? <;> rfl
  · cases found

/-- A single consumer finishes the items in their order. -/
theorem ReachableWhile.inTurn (reached : ReachableWhile onStop meets start queue)
    (single : start.consumers.length = 1) (base : start.InTurn)
    : queue.InTurn :=
  reached.invariant base fun _ _ _ earlier inTurn taken _ =>
    inTurn.step ((ReachableWhile.consumers_length earlier).trans single) (step_cases taken)

end WorkQueue

end WorkQueues
