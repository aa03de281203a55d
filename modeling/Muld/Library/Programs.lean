import Mathlib.Logic.Basic

/-! Programs that change a state and may end before their last statement, with rules for what
they do from the states of a precondition.
-/

namespace Programs

/-- A program with a state `σ` that ends early with an `ε` or gets to its end. -/
abbrev Program (σ ε α : Type) := ExceptT ε (StateM σ) α

variable {σ ε α β : Type}

/-- How a program started in a state ends, and the state then. -/
def ending (program : Program σ ε α) (state : σ) : Except ε α × σ := program.run.run state

def update (change : σ → σ) : Program σ ε Unit := modify change

/-- Run a body between two changes, the second of them however the body ends. -/
def bracket (enter leave : σ → σ) (body : Program σ ε α) : Program σ ε α :=
  ExceptT.mk fun state =>
    let (result, after) := ending body (enter state)
    (result, leave after)

/-- A computation without a state, which may throw. -/
def throwing (result : Except ε α) : Program σ ε α :=
  match result with
  | .ok value => pure value
  | .error exit => throw exit

-----------------------------------------------------------------------------------------
-- Pre- and postconditions
-----------------------------------------------------------------------------------------

/-- The result and the state are as the postconditions say, of which the second one is for
programs that end early.
-/
def EndsIn (post : α → σ → Prop) (early : ε → σ → Prop) : Except ε α × σ → Prop
  | (.ok value, after) => post value after
  | (.error exit, after) => early exit after

/-- From every state of the precondition, the program ends as the postconditions say. -/
def Meets (pre : σ → Prop) (program : Program σ ε α) (post : α → σ → Prop)
    (early : ε → σ → Prop) : Prop :=
  ∀ state, pre state → EndsIn post early (ending program state)

variable {pre weaker : σ → Prop} {program first : Program σ ε α} {next : α → Program σ ε β}
  {middle post : α → σ → Prop} {last : β → σ → Prop} {early : ε → σ → Prop}

theorem EndsIn.weaken {result : Except ε α × σ} {post' : α → σ → Prop}
    {early' : ε → σ → Prop} (ends : EndsIn post early result)
    (value : ∀ value after, post value after → post' value after)
    (exit : ∀ exit after, early exit after → early' exit after)
    : EndsIn post' early' result := by
  obtain ⟨exited | reached, after⟩ := result
  · exact exit _ _ ends
  · exact value _ _ ends

/-- The rule of consequence. -/
theorem Meets.weaken {post' : α → σ → Prop} {early' : ε → σ → Prop}
    (meets : Meets pre program post early) (strengthen : ∀ state, weaker state → pre state)
    (value : ∀ value after, post value after → post' value after)
    (exit : ∀ exit after, early exit after → early' exit after)
    : Meets weaker program post' early' :=
  fun state holds => (meets state (strengthen state holds)).weaken value exit

/-- A fact that does not depend on the state. -/
theorem Meets.assuming {fact : Prop} (meets : fact → Meets pre program post early)
    : Meets (fun state => fact ∧ pre state) program post early :=
  fun state holds => meets holds.1 state holds.2

theorem meets_pure {value : α} (holds : ∀ state, pre state → post value state)
    : Meets pre (pure value : Program σ ε α) post early := holds

theorem meets_throw {exit : ε} (holds : ∀ state, pre state → early exit state)
    : Meets pre (throw exit : Program σ ε α) post early := holds

theorem meets_update {change : σ → σ} {done : Unit → σ → Prop}
    (holds : ∀ state, pre state → done () (change state))
    : Meets pre (update change : Program σ ε Unit) done early := holds

theorem ending_bind (state : σ)
    : ending (first >>= next) state
        = match ending first state with
          | (.ok value, after) => ending (next value) after
          | (.error exit, after) => (.error exit, after) := by
  simp only [ending, ExceptT.run_bind, StateT.run_bind]
  generalize first.run.run state = result
  obtain ⟨exited | reached, after⟩ := result <;> rfl

/-- What the first program ends with, the second one starts from. -/
theorem Meets.bind (meets : Meets pre first middle early)
    (meets_next : ∀ value, Meets (middle value) (next value) last early)
    : Meets pre (first >>= next) last early := by
  intro state holds
  have reached := meets state holds
  rw [ending_bind]
  generalize ending first state = result at reached
  obtain ⟨exited | value, after⟩ := result
  · exact reached
  · exact meets_next value after reached

theorem Meets.bracket {enter leave : σ → σ} {inside : σ → Prop}
    (enters : ∀ state, pre state → inside (enter state))
    (meets
      : Meets inside program (fun value after => post value (leave after))
          (fun exit after => early exit (leave after)))
    : Meets pre (bracket enter leave program) post early := by
  intro state holds
  have reached := meets (enter state) (enters state holds)
  change EndsIn post early ((ending program (enter state)).1,
    leave (ending program (enter state)).2)
  generalize ending program (enter state) = result at reached ⊢
  obtain ⟨exited | value, after⟩ := result
  · exact reached
  · exact reached

/-- A change of the state comes first. -/
theorem Meets.after_update {change : σ → σ} {changed : σ → Prop} {rest : Unit → Program σ ε β}
    (changes : ∀ state, pre state → changed (change state))
    (meets : Meets changed (rest ()) last early)
    : Meets pre (update change >>= rest) last early :=
  have updates : Meets pre (update change) (fun _ => changed) early := meets_update changes
  updates.bind fun _ => meets

/-- What a computation without a state throws ends the program, and its value goes on. -/
theorem Meets.throwing {result : Except ε α}
    (value : ∀ value, result = .ok value → Meets pre (next value) last early)
    (exit : ∀ exit, result = .error exit → ∀ state, pre state → early exit state)
    : Meets pre (throwing result >>= next) last early := by
  cases result with
  | ok reached =>
      have same : (Programs.throwing (.ok reached) : Program σ ε α) = pure reached := rfl
      rw [same, pure_bind]
      exact value reached rfl
  | error exited =>
      have throws
          : Meets pre (Programs.throwing (.error exited) : Program σ ε α) (fun _ _ => False)
              early :=
        meets_throw (exit exited rfl)
      exact throws.bind fun _ _ => False.elim

-----------------------------------------------------------------------------------------
-- Two programs in states that are the same as far as they can tell
-----------------------------------------------------------------------------------------

/-- From states that are the same, both programs end in the same way and in states that are the
same.
-/
def Agree (same : σ → σ → Prop) (left right : Program σ ε α) : Prop :=
  ∀ state state',
    same state state'
    → (ending left state).1 = (ending right state').1
      ∧ same (ending left state).2 (ending right state').2

variable {same : σ → σ → Prop} {left right : Program σ ε α}

theorem agree_pure (value : α) : Agree same (pure value : Program σ ε α) (pure value) :=
  fun _ _ alike => ⟨rfl, alike⟩

theorem agree_throw (exit : ε) : Agree same (throw exit : Program σ ε α) (throw exit) :=
  fun _ _ alike => ⟨rfl, alike⟩

theorem agree_update {change change' : σ → σ}
    (keeps : ∀ state state', same state state' → same (change state) (change' state'))
    : Agree same (update change : Program σ ε Unit) (update change') :=
  fun state state' alike => ⟨rfl, keeps state state' alike⟩

/-- What the first programs end with is the same, so the second ones go on with it. -/
theorem Agree.bind {next next' : α → Program σ ε β} (agree : Agree same left right)
    (agree_next : ∀ value, Agree same (next value) (next' value))
    : Agree same (left >>= next) (right >>= next') := by
  intro state state' alike
  obtain ⟨results, alike⟩ := agree state state' alike
  rw [ending_bind, ending_bind]
  generalize ending left state = reached at results alike ⊢
  generalize ending right state' = reached' at results alike ⊢
  obtain ⟨result, after⟩ := reached
  obtain ⟨result', after'⟩ := reached'
  obtain rfl : result = result' := results
  cases result with
  | error exit => exact ⟨rfl, alike⟩
  | ok value => exact agree_next value after after' alike

theorem Agree.bracket {enter leave : σ → σ}
    (enters : ∀ state state', same state state' → same (enter state) (enter state'))
    (leaves : ∀ state state', same state state' → same (leave state) (leave state'))
    (agree : Agree same left right)
    : Agree same (bracket enter leave left) (Programs.bracket enter leave right) := by
  intro state state' alike
  obtain ⟨results, alike⟩ := agree _ _ (enters state state' alike)
  exact ⟨results, leaves _ _ alike⟩

end Programs
