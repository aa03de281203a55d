import Mathlib.Data.List.Basic

/-! What one thread does with its mutexes, as a list of events, and which of them it holds at
each event.
-/

namespace LockTraces

/-- The thread takes or gives back a mutex, or does something else. -/
inductive LockEvent (μ κ : Type)
  | lock (mutex : μ)
  | unlock (mutex : μ)
  | act (deed : κ)
deriving DecidableEq, Repr

variable {μ κ : Type} [DecidableEq μ]

/-- What a thread holds after some events. -/
def heldAfter : List μ → List (LockEvent μ κ) → List μ
  | held, [] => held
  | held, .lock mutex :: rest => heldAfter (mutex :: held) rest
  | held, .unlock mutex :: rest => heldAfter (held.erase mutex) rest
  | held, .act _ :: rest => heldAfter held rest

/-- What is exposed is done with no mutex held. -/
def Unlocked (exposed : κ → Bool) : List μ → List (LockEvent μ κ) → Prop
  | _, [] => True
  | held, .lock mutex :: rest => Unlocked exposed (mutex :: held) rest
  | held, .unlock mutex :: rest => Unlocked exposed (held.erase mutex) rest
  | held, .act deed :: rest => (exposed deed = true → held = []) ∧ Unlocked exposed held rest

/-- No mutex is taken by the thread that holds it. -/
def Unblocked : List μ → List (LockEvent μ κ) → Prop
  | _, [] => True
  | held, .lock mutex :: rest => mutex ∉ held ∧ Unblocked (mutex :: held) rest
  | held, .unlock mutex :: rest => Unblocked (held.erase mutex) rest
  | held, .act _ :: rest => Unblocked held rest

/-- What was done, in order. -/
def deeds : List (LockEvent μ κ) → List κ
  | [] => []
  | .act deed :: rest => deed :: deeds rest
  | .lock _ :: rest => deeds rest
  | .unlock _ :: rest => deeds rest

variable {exposed : κ → Bool} {held : List μ} {early late : List (LockEvent μ κ)}

instance decidableUnlocked (exposed : κ → Bool)
    : ∀ (held : List μ) (trace : List (LockEvent μ κ)), Decidable (Unlocked exposed held trace)
  | _, [] => isTrue trivial
  | held, .lock mutex :: rest => decidableUnlocked exposed (mutex :: held) rest
  | held, .unlock mutex :: rest => decidableUnlocked exposed (held.erase mutex) rest
  | held, .act _ :: rest =>
      have := decidableUnlocked exposed held rest
      inferInstanceAs (Decidable (_ ∧ _))

theorem heldAfter_append
    : heldAfter held (early ++ late) = heldAfter (heldAfter held early) late := by
  induction early generalizing held with
  | nil => rfl
  | cons event rest ih => cases event <;> exact ih

theorem unlocked_append
    : Unlocked exposed held (early ++ late)
      ↔ Unlocked exposed held early ∧ Unlocked exposed (heldAfter held early) late := by
  induction early generalizing held with
  | nil => simp [Unlocked, heldAfter]
  | cons event rest ih =>
      cases event with
      | lock mutex => exact ih
      | unlock mutex => exact ih
      | act deed =>
          simp only [List.cons_append, Unlocked, heldAfter, ih]
          exact and_assoc.symm

theorem unblocked_append
    : Unblocked held (early ++ late)
      ↔ Unblocked held early ∧ Unblocked (heldAfter held early) late := by
  induction early generalizing held with
  | nil => simp [Unblocked, heldAfter]
  | cons event rest ih =>
      cases event with
      | lock mutex =>
          simp only [List.cons_append, Unblocked, heldAfter, ih]
          exact and_assoc.symm
      | unlock mutex => exact ih
      | act deed => exact ih

omit [DecidableEq μ] in
theorem deeds_append : deeds (early ++ late) = deeds early ++ deeds late := by
  induction early with
  | nil => rfl
  | cons event rest ih =>
      cases event with
      | lock mutex => exact ih
      | unlock mutex => exact ih
      | act deed => exact congrArg (deed :: ·) ih

-----------------------------------------------------------------------------------------
-- Disciplined threads
-----------------------------------------------------------------------------------------

/-- The events lead from one set of mutexes to another; what is exposed is done with nothing
held, and the thread never waits for itself.
-/
structure Disciplined (exposed : κ → Bool) (before : List μ) (trace : List (LockEvent μ κ))
    (after : List μ) : Prop where
  held : heldAfter before trace = after
  unlocked : Unlocked exposed before trace
  unblocked : Unblocked before trace

theorem disciplined_nil (held : List μ) : Disciplined exposed held [] held :=
  ⟨rfl, trivial, trivial⟩

theorem Disciplined.append {before middle after : List μ}
    (first : Disciplined exposed before early middle)
    (second : Disciplined exposed middle late after)
    : Disciplined exposed before (early ++ late) after where
  held := by rw [heldAfter_append, first.held, second.held]
  unlocked := unlocked_append.mpr ⟨first.unlocked, first.held ▸ second.unlocked⟩
  unblocked := unblocked_append.mpr ⟨first.unblocked, first.held ▸ second.unblocked⟩

theorem disciplined_lock {mutex : μ} (free : mutex ∉ held)
    : Disciplined exposed held [.lock mutex] (mutex :: held) :=
  ⟨rfl, trivial, free, trivial⟩

theorem disciplined_unlock (mutex : μ) (held : List μ)
    : Disciplined exposed (mutex :: held) [.unlock mutex] held :=
  ⟨List.erase_cons_head _ _, trivial, trivial⟩

/-- A thread that holds nothing may do what is exposed. -/
theorem disciplined_act (deed : κ) : Disciplined exposed ([] : List μ) [.act deed] [] :=
  ⟨rfl, ⟨fun _ => rfl, trivial⟩, trivial⟩

/-- A section in which nothing else is done. -/
def guarded (mutex : μ) : List (LockEvent μ κ) := [.lock mutex, .unlock mutex]

theorem disciplined_guarded {mutex : μ} (free : mutex ∉ held)
    : Disciplined exposed held (guarded mutex) held :=
  (disciplined_lock free).append (disciplined_unlock mutex held)

/-- A thread that runs further code, disciplined by itself, in what is exposed. -/
inductive Interrupted (exposed : κ → Bool)
    : List (LockEvent μ κ) → List (LockEvent μ κ) → Prop
  | nil : Interrupted exposed [] []
  | lock {mutex : μ} {trace whole : List (LockEvent μ κ)}
      (rest : Interrupted exposed trace whole)
    : Interrupted exposed (.lock mutex :: trace) (.lock mutex :: whole)
  | unlock {mutex : μ} {trace whole : List (LockEvent μ κ)}
      (rest : Interrupted exposed trace whole)
    : Interrupted exposed (.unlock mutex :: trace) (.unlock mutex :: whole)
  | act {deed : κ} {code trace whole : List (LockEvent μ κ)}
      (disciplined : Disciplined exposed [] code []) (hidden : exposed deed = false → code = [])
      (rest : Interrupted exposed trace whole)
    : Interrupted exposed (.act deed :: trace) (.act deed :: (code ++ whole))

/-- Where what is exposed is done with nothing held, the thread does not wait for itself in
the code that runs there either, by induction on the events.
-/
theorem Interrupted.unblocked {trace whole : List (LockEvent μ κ)}
    (interrupted : Interrupted exposed trace whole) (unlocked : Unlocked exposed held trace)
    (unblocked : Unblocked held trace)
    : Unblocked held whole := by
  induction interrupted generalizing held with
  | nil => exact unblocked
  | lock _ ih => exact ⟨unblocked.1, ih unlocked unblocked.2⟩
  | unlock _ ih => exact ih unlocked unblocked
  | @act deed code trace whole disciplined hidden _ ih =>
      have rest := ih unlocked.2 unblocked
      cases shown : exposed deed with
      | false =>
          rw [hidden shown]
          exact rest
      | true =>
          obtain rfl := unlocked.1 shown
          refine unblocked_append.mpr ⟨disciplined.unblocked, ?_⟩
          rw [disciplined.held]
          exact rest

/-- A thread that runs no further code. -/
theorem interrupted_self (trace : List (LockEvent μ κ)) : Interrupted exposed trace trace := by
  induction trace with
  | nil => exact .nil
  | cons event rest ih =>
      cases event with
      | lock mutex => exact .lock ih
      | unlock mutex => exact .unlock ih
      | act deed => exact .act (disciplined_nil []) (fun _ => rfl) ih

/-- What is exposed is done with nothing held, and the thread does not wait for itself,
whatever runs there.
-/
structure Reentrant (exposed : κ → Bool) (held : List μ) (trace : List (LockEvent μ κ))
    : Prop where
  unlocked : Unlocked exposed held trace
  unblocked : ∀ whole, Interrupted exposed trace whole → Unblocked held whole

theorem reentrant_iff
    : Reentrant exposed held early
      ↔ Unlocked exposed held early ∧ Unblocked held early := by
  constructor
  · exact fun reentrant =>
      ⟨reentrant.unlocked, reentrant.unblocked early (interrupted_self early)⟩
  · exact fun ⟨unlocked, unblocked⟩ =>
      ⟨unlocked, fun _ interrupted => interrupted.unblocked unlocked unblocked⟩

end LockTraces
