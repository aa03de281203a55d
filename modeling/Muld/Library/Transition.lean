import Mathlib.Logic.Basic
import Mathlib.Data.Option.Basic

/-! Labelled transition systems given by a partial step function.
Reachability carries a condition on the steps taken, so one rule serves every run and
the runs that keep clear of a named branch.
-/

namespace Transition

variable {σ α : Type*}

/-- The states reached from `start` by steps that all meet `meets`, a condition on the
state before the step, the action and the state after it.
-/
inductive Reachable (step : σ → α → Option σ) (meets : σ → α → σ → Prop) (start : σ)
    : σ → Prop
  | start : Reachable step meets start start
  | next {before after : σ} {action : α} (earlier : Reachable step meets start before)
    (taken : step before action = some after) (met : meets before action after)
    : Reachable step meets start after

/-- The condition every step meets. -/
def anyStep : σ → α → σ → Prop := fun _ _ _ => True

instance (before : σ) (action : α) (after : σ) : Decidable (anyStep before action after) :=
  isTrue trivial

variable {step : σ → α → Option σ} {meets : σ → α → σ → Prop} {start state : σ}

/-- An inductive invariant holds in every reachable state, by induction on the run. -/
theorem Reachable.invariant {inv : σ → Prop} (reached : Reachable step meets start state)
    (base : inv start)
    (keeps
      : ∀ before action after,
          Reachable step meets start before
          → inv before
          → step before action = some after
          → meets before action after
          → inv after)
    : inv state := by
  induction reached with
  | start => exact base
  | next earlier taken met ih => exact keeps _ _ _ earlier ih taken met

/-- A run under a condition is a run under every weaker one. -/
theorem Reachable.mono {weaker : σ → α → σ → Prop}
    (reached : Reachable step meets start state)
    (weaken : ∀ before action after, meets before action after → weaker before action after)
    : Reachable step weaker start state := by
  induction reached with
  | start => exact .start
  | next _ taken met ih => exact .next ih taken (weaken _ _ _ met)

/-- A run goes on with a run from where it ended. -/
theorem Reachable.trans {middle : σ} (reached : Reachable step meets start middle)
    (later : Reachable step meets middle state)
    : Reachable step meets start state := by
  induction later with
  | start => exact reached
  | next _ taken met ih => exact .next ih taken met

/-- Every conditioned run is a run. -/
theorem Reachable.any (reached : Reachable step meets start state)
    : Reachable step anyStep start state :=
  reached.mono (fun _ _ _ _ => trivial)

/-- A condition every step imposes on the state after it holds in every reachable state,
if it holds at the start. Witness: the last step of the run.
-/
theorem Reachable.holds_after {constraint : σ → Prop}
    (reached : Reachable step meets start state) (base : constraint start)
    (after : ∀ before action after, meets before action after → constraint after)
    : constraint state := by
  cases reached with
  | start => exact base
  | next _ _ met => exact after _ _ _ met

/-- Where every state that has a property goes on to the goal, or to a state that has the
property and a lower measure, the goal can be reached, by induction on the measure.
-/
theorem Reachable.descends {inv goal : σ → Prop} (measure : σ → Nat)
    (goes_on
      : ∀ before,
          Reachable step meets start before
          → inv before
          → ∃ action after,
              step before action = some after
              ∧ meets before action after
              ∧ (goal after ∨ inv after ∧ measure after < measure before))
    (reached : Reachable step meets start state) (holds : inv state)
    : ∃ final, Reachable step meets state final ∧ goal final := by
  induction size : measure state using Nat.strongRecOn generalizing state with
  | ind size ih =>
      subst size
      obtain ⟨action, after, taken, met, ends | ⟨still, lower⟩⟩ := goes_on state reached holds
      · exact ⟨after, .next .start taken met, ends⟩
      · obtain ⟨final, later, ends⟩ := ih _ lower (reached.next taken met) still rfl
        exact ⟨final, Reachable.trans (.next .start taken met) later, ends⟩

-----------------------------------------------------------------------------------------
-- Parts of a system
-----------------------------------------------------------------------------------------

section Parts

variable {ρ β : Type*} {step' : ρ → β → Option ρ} {meets' : ρ → β → ρ → Prop} {start' : ρ}

/-- A part of a system that every step leaves alone or moves by a step of its own is in a
reachable state of its own.
-/
theorem Reachable.project (part : σ → ρ) (reached : Reachable step meets start state)
    (moves
      : ∀ before action after,
          Reachable step meets start before
          → step before action = some after
          → meets before action after
          → part after = part before
            ∨ ∃ action',
                step' (part before) action' = some (part after)
                ∧ meets' (part before) action' (part after))
    : Reachable step' meets' (part start) (part state) := by
  induction reached with
  | start => exact .start
  | next earlier taken met ih =>
      rcases moves _ _ _ earlier taken met with same | ⟨action', taken', met'⟩
      · exact same ▸ ih
      · exact ih.next taken' met'

end Parts

-----------------------------------------------------------------------------------------
-- Restarts
-----------------------------------------------------------------------------------------

/-- The states in which a system starts that may stop anywhere: the first ones, and those
into which it restarts from where an earlier run has stopped.
-/
inductive Restarted (step : σ → α → Option σ) (meets : σ → α → σ → Prop)
    (restarts : σ → σ → Prop) (first : σ → Prop) : σ → Prop
  | first {start : σ} (begins : first start) : Restarted step meets restarts first start
  | restart {start stopped next : σ} (earlier : Restarted step meets restarts first start)
      (reached : Reachable step meets start stopped) (restarted : restarts stopped next)
    : Restarted step meets restarts first next

/-- What the first states have and a restart passes on holds at every start, by induction on
the restarts.
-/
theorem Restarted.invariant {restarts : σ → σ → Prop} {first inv : σ → Prop}
    (restarted : Restarted step meets restarts first start)
    (base : ∀ start, first start → inv start)
    (passes
      : ∀ start stopped next,
          inv start → Reachable step meets start stopped → restarts stopped next → inv next)
    : inv start := by
  induction restarted with
  | first begins => exact base _ begins
  | restart _ reached restarted ih => exact passes _ _ _ ih reached restarted

-----------------------------------------------------------------------------------------
-- Executing a list of actions
-----------------------------------------------------------------------------------------

/-- Run a list of actions in order, checking the condition of each step. -/
def runWhile (step : σ → α → Option σ) (meets : σ → α → σ → Prop)
    [∀ before action after, Decidable (meets before action after)]
    : σ → List α → Option σ
  | state, [] => some state
  | state, action :: rest =>
      match step state action with
      | none => none
      | some after =>
          if meets state action after then runWhile step meets after rest else none

/-- A checked run extends a reachable state, by induction on the actions. -/
theorem Reachable.extend [∀ before action after, Decidable (meets before action after)]
    {middle final : σ} {actions : List α} (reached : Reachable step meets start middle)
    (ran : runWhile step meets middle actions = some final)
    : Reachable step meets start final := by
  induction actions generalizing middle with
  | nil => exact Option.some.inj ran ▸ reached
  | cons action rest ih =>
      rw [runWhile] at ran
      split at ran
      · contradiction
      · rename_i after taken
        split at ran
        · rename_i met
          exact ih (.next reached taken met) ran
        · contradiction

/-- A checked run whose final state passes a test reaches a state that passes it.
Witness: the final state of the run.
-/
theorem exists_of_runWhile [∀ before action after, Decidable (meets before action after)]
    {actions : List α} {test : σ → Bool}
    (ran : (runWhile step meets start actions).any test = true)
    : ∃ final, Reachable step meets start final ∧ test final = true := by
  cases found : runWhile step meets start actions with
  | none => simp [found] at ran
  | some final => exact ⟨final, Reachable.start.extend found, by simpa [found] using ran⟩

/-- Where every step lowers a measure, a run has at most as many steps as the measure says,
by induction on the actions.
-/
theorem length_le_of_runWhile [∀ before action after, Decidable (meets before action after)]
    (inv : σ → Prop) (measure : σ → Nat)
    (lowers
      : ∀ before action after,
          inv before
          → step before action = some after
          → meets before action after
          → inv after ∧ measure after < measure before)
    {first final : σ} {actions : List α} (holds : inv first)
    (ran : runWhile step meets first actions = some final)
    : inv final ∧ actions.length + measure final ≤ measure first := by
  induction actions generalizing first with
  | nil =>
      obtain rfl := Option.some.inj ran
      exact ⟨holds, by simp⟩
  | cons action rest ih =>
      rw [runWhile] at ran
      split at ran
      · contradiction
      · rename_i after taken
        split at ran
        · rename_i met
          obtain ⟨still, lower⟩ := lowers _ _ _ holds taken met
          obtain ⟨last, fits⟩ := ih still ran
          exact ⟨last, by rw [List.length_cons]; omega⟩
        · contradiction

-----------------------------------------------------------------------------------------
-- Runs with a log of what was observed
-----------------------------------------------------------------------------------------

variable {ε : Type*} {observe : σ → α → Option ε}

/-- The states reached from `start`, each with the log of what was observed at the steps
that led there.
-/
inductive Logged (step : σ → α → Option σ) (meets : σ → α → σ → Prop)
    (observe : σ → α → Option ε) (start : σ)
    : σ → List ε → Prop
  | start : Logged step meets observe start start []
  | next {before after : σ} {log : List ε} {action : α}
      (earlier : Logged step meets observe start before log)
      (taken : step before action = some after) (met : meets before action after)
    : Logged step meets observe start after (log ++ (observe before action).toList)

/-- A logged run is a run. -/
theorem Logged.reachable {log : List ε} (logged : Logged step meets observe start state log)
    : Reachable step meets start state := by
  induction logged with
  | start => exact .start
  | next _ taken met ih => exact .next ih taken met

/-- Every run has a log. -/
theorem Reachable.logged (observe : σ → α → Option ε)
    (reached : Reachable step meets start state)
    : ∃ log : List ε, Logged step meets observe start state log := by
  induction reached with
  | start => exact ⟨[], .start⟩
  | next _ taken met ih =>
      obtain ⟨log, logged⟩ := ih
      exact ⟨_, .next logged taken met⟩

/-- An invariant of states and logs holds in every logged run, by induction on the run. -/
theorem Logged.invariant {inv : σ → List ε → Prop} {log : List ε}
    (logged : Logged step meets observe start state log) (base : inv start [])
    (keeps
      : ∀ before action after log,
          Logged step meets observe start before log
          → inv before log
          → step before action = some after
          → meets before action after
          → inv after (log ++ (observe before action).toList))
    : inv state log := by
  induction logged with
  | start => exact base
  | next earlier taken met ih => exact keeps _ _ _ _ earlier ih taken met

/-- Run a list of actions in order, checking the condition of each step and adding to the
log.
-/
def logWhile (step : σ → α → Option σ) (meets : σ → α → σ → Prop)
    [∀ before action after, Decidable (meets before action after)]
    (observe : σ → α → Option ε)
    : σ → List ε → List α → Option (σ × List ε)
  | state, log, [] => some (state, log)
  | state, log, action :: rest =>
      match step state action with
      | none => none
      | some after =>
          if meets state action after then
            logWhile step meets observe after (log ++ (observe state action).toList) rest
          else none

/-- A checked run extends a log, by induction on the actions. -/
theorem Logged.extend [∀ before action after, Decidable (meets before action after)]
    {middle final : σ} {log whole : List ε} {actions : List α}
    (logged : Logged step meets observe start middle log)
    (ran : logWhile step meets observe middle log actions = some (final, whole))
    : Logged step meets observe start final whole := by
  induction actions generalizing middle log with
  | nil =>
      obtain ⟨rfl, rfl⟩ := Prod.mk.inj (Option.some.inj ran)
      exact logged
  | cons action rest ih =>
      rw [logWhile] at ran
      split at ran
      · contradiction
      · rename_i after taken
        split at ran
        · rename_i met
          exact ih (.next logged taken met) ran
        · contradiction

/-- A checked run with a log has that log. Witness: the final state of the run. -/
theorem exists_of_logWhile [∀ before action after, Decidable (meets before action after)]
    {actions : List α} {log : List ε}
    (ran : (logWhile step meets observe start [] actions).map Prod.snd = some log)
    : ∃ final, Logged step meets observe start final log := by
  obtain ⟨result, found, rfl⟩ := Option.map_eq_some_iff.mp ran
  exact ⟨result.1, Logged.start.extend found⟩

/-- A checked run with a log whose end passes a test reaches a state with a log that pass it.
Witness: the end of the run.
-/
theorem exists_logged [∀ before action after, Decidable (meets before action after)]
    {actions : List α} {test : σ → List ε → Bool}
    (ran : (logWhile step meets observe start [] actions).any (fun run => test run.1 run.2) = true)
    : ∃ final log, Logged step meets observe start final log ∧ test final log = true := by
  cases found : logWhile step meets observe start [] actions with
  | none => simp [found] at ran
  | some run => exact ⟨run.1, run.2, Logged.start.extend found, by simpa [found] using ran⟩

end Transition
