import Muld.WorkerSteps
import Muld.CallSteps
import Muld.System

/-! The steps of the system and the rule that proves an invariant of its runs. -/

namespace Muld

namespace Sys

/-- A step of the system is a step of one worker, of one call, or a new call. -/
inductive Step (sys : Sys) : Action → Sys → Prop
  | worker (index : Nat) (worker next : Worker) (label : WorkerLabel) (shared : Shared)
      (found : sys.workers[index]? = some worker)
      (taken : worker.Step sys.shared label shared next)
    : Step sys (.worker index label)
        { sys with shared, workers := sys.workers.set index next }
  | call (index : Nat) (call next : Call) (label : CallLabel) (shared : Shared)
      (spawned : List Worker) (found : sys.calls[index]? = some call)
      (taken : Call.Step index sys.shared call label shared next spawned)
    : Step sys (.call index label)
        { sys with
          shared
          workers := sys.workers ++ spawned
          calls := sys.calls.set index next }
  | invoke (api : Api) (allowed : api.dispatches = true → sys.dispatched = false)
    : Step sys (.invoke api)
        { sys with
          calls := sys.calls ++ [api.entry]
          dispatched := sys.dispatched || api.dispatches }

/-- Every step of the system is one of the listed ones, by cases on the action. -/
theorem step_cases {sys after : Sys} {action : Action}
    (taken : sys.step action = some after)
    : sys.Step action after := by
  unfold step at taken
  split at taken
  · cases taken
  cases action with
  | worker index label =>
      simp only at taken
      split at taken
      · cases taken
      · rename_i worker found
        split at taken
        · cases taken
        · rename_i shared next moved
          cases taken
          exact .worker index worker next label shared found (Worker.step_cases moved)
  | call index label =>
      simp only at taken
      split at taken
      · cases taken
      · rename_i call found
        split at taken
        · cases taken
        · rename_i shared next spawned moved
          cases taken
          exact .call index call next label shared spawned found (Call.step_cases moved)
  | invoke api =>
      simp only at taken
      split at taken
      · cases taken
      · rename_i allowed
        cases taken
        exact .invoke api (fun dispatches => by simpa [dispatches] using allowed)

/-- The states of the runs from `start` whose steps all meet a condition. -/
abbrev ReachableWhile (meets : Sys → Action → Sys → Prop) (start : Sys) : Sys → Prop :=
  Transition.Reachable step meets start

/-- The states of all runs from `start`. -/
abbrev Reachable (start : Sys) : Sys → Prop :=
  Transition.Reachable step Transition.anyStep start

/-- A list of actions that runs under the condition and ends in a state that passes a test
shows that such a state is reachable.
-/
theorem exists_reachable (meets : Sys → Action → Sys → Prop)
    [∀ before action after, Decidable (meets before action after)] (start : Sys)
    (actions : List Action) (test : Sys → Bool)
    (ran : (Transition.runWhile step meets start actions).any test = true)
    : ∃ sys, ReachableWhile meets start sys ∧ test sys = true :=
  Transition.exists_of_runWhile ran

variable {meets : Sys → Action → Sys → Prop} {start sys : Sys}

/-- A property of the runs holds if it holds at the start and every worker step, call step
and new call keeps it.
-/
theorem invariant_of_steps {inv : Sys → Prop} (reached : ReachableWhile meets start sys)
    (base : inv start)
    (workers
      : ∀ (sys : Sys) (index : Nat) (worker next : Worker) (label : WorkerLabel)
          (shared : Shared),
          ReachableWhile meets start sys
          → ReachableWhile meets start
              { sys with shared, workers := sys.workers.set index next }
          → inv sys
          → sys.workers[index]? = some worker
          → worker.Step sys.shared label shared next
          → meets sys (.worker index label)
              { sys with shared, workers := sys.workers.set index next }
          → inv { sys with shared, workers := sys.workers.set index next })
    (calls
      : ∀ (sys : Sys) (index : Nat) (call next : Call) (label : CallLabel)
          (shared : Shared) (spawned : List Worker),
          ReachableWhile meets start sys
          → ReachableWhile meets start
              { sys with
                shared
                workers := sys.workers ++ spawned
                calls := sys.calls.set index next }
          → inv sys
          → sys.calls[index]? = some call
          → Call.Step index sys.shared call label shared next spawned
          → meets sys (.call index label)
              { sys with
                shared
                workers := sys.workers ++ spawned
                calls := sys.calls.set index next }
          → inv { sys with
              shared
              workers := sys.workers ++ spawned
              calls := sys.calls.set index next })
    (invokes
      : ∀ (sys : Sys) (api : Api),
          ReachableWhile meets start sys
          → inv sys
          → (api.dispatches = true → sys.dispatched = false)
          → meets sys (.invoke api)
              { sys with
                calls := sys.calls ++ [api.entry]
                dispatched := sys.dispatched || api.dispatches }
          → inv { sys with
              calls := sys.calls ++ [api.entry]
              dispatched := sys.dispatched || api.dispatches })
    : inv sys := by
  refine reached.invariant base ?_
  intro before action after earlier holds taken met
  cases step_cases taken with
  | worker index worker next label shared found moved =>
      exact workers before index worker next label shared earlier (earlier.next taken met)
        holds found moved met
  | call index call next label shared spawned found moved =>
      exact calls before index call next label shared spawned earlier
        (earlier.next taken met) holds found moved met
  | invoke api allowed => exact invokes before api earlier holds allowed met

/-- The rule for a property that does not depend on which calls may enter. -/
theorem invariant {inv : Sys → Prop} (reached : ReachableWhile meets start sys)
    (base : inv start)
    (workers
      : ∀ (sys : Sys) (index : Nat) (worker next : Worker) (label : WorkerLabel)
          (shared : Shared),
          ReachableWhile meets start sys
          → ReachableWhile meets start
              { sys with shared, workers := sys.workers.set index next }
          → inv sys
          → sys.workers[index]? = some worker
          → worker.Step sys.shared label shared next
          → meets sys (.worker index label)
              { sys with shared, workers := sys.workers.set index next }
          → inv { sys with shared, workers := sys.workers.set index next })
    (calls
      : ∀ (sys : Sys) (index : Nat) (call next : Call) (label : CallLabel)
          (shared : Shared) (spawned : List Worker),
          ReachableWhile meets start sys
          → ReachableWhile meets start
              { sys with
                shared
                workers := sys.workers ++ spawned
                calls := sys.calls.set index next }
          → inv sys
          → sys.calls[index]? = some call
          → Call.Step index sys.shared call label shared next spawned
          → meets sys (.call index label)
              { sys with
                shared
                workers := sys.workers ++ spawned
                calls := sys.calls.set index next }
          → inv { sys with
              shared
              workers := sys.workers ++ spawned
              calls := sys.calls.set index next })
    (invokes
      : ∀ (sys : Sys) (api : Api) (dispatched : Bool),
          ReachableWhile meets start sys
          → inv sys
          → inv { sys with calls := sys.calls ++ [api.entry], dispatched })
    : inv sys := by
  exact invariant_of_steps reached base workers calls
    (fun before api earlier holds _ _ => invokes before api _ earlier holds)

end Sys

end Muld
