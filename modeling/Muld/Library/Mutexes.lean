import Muld.Library.Threads

/-! A mutex given by a flag, and the threads of a list that hold it: at most one, and none
while the flag is down.
-/

namespace Threads

variable {τ : Type*} {threads : List τ} {holds : τ → Bool} {locked locked' : Bool}
  {index other : Nat} {old new another : τ}

/-- The mutex, if the thread holds it. -/
def heldKey (holds : τ → Bool) (thread : τ) : Option Unit :=
  if holds thread then some () else none

theorem heldKey_eq_some {held : Unit} : heldKey holds old = some held ↔ holds old = true := by
  simp [heldKey]

theorem heldKey_eq_none : heldKey holds old = none ↔ holds old = false := by
  simp [heldKey]

/-- One thread at a time holds the mutex, and then the flag is up. -/
structure Guarded (holds : τ → Bool) (locked : Bool) (threads : List τ) : Prop where
  exclusive : Exclusive (heldKey holds) threads
  raised : ∀ thread ∈ threads, holds thread = true → locked = true

/-- No thread holds the mutex while the flag is down. -/
theorem Guarded.free (guarded : Guarded holds false threads) {thread : τ}
    (member : thread ∈ threads)
    : holds thread = false := by
  by_contra held
  cases guarded.raised thread member (Bool.eq_true_of_not_eq_false held)

/-- Where no thread holds the mutex, the flag may be either way. -/
theorem guarded_of_free (free : ∀ thread ∈ threads, holds thread = false)
    : Guarded holds locked threads := by
  constructor
  · intro first _ left _ held atFirst _ leftHolds _
    have outside := free left (List.mem_of_getElem? atFirst)
    rw [heldKey_eq_none.mpr outside] at leftHolds
    cases leftHolds
  · intro thread member held
    rw [free thread member] at held
    cases held

/-- While one thread holds the mutex no other does. -/
theorem Guarded.alone (guarded : Guarded holds locked threads)
    (found : threads[index]? = some old) (inside : holds old = true)
    (at_other : threads[other]? = some another) (different : other ≠ index)
    : holds another = false := by
  by_contra also
  have both : holds another = true := Bool.eq_true_of_not_eq_false also
  exact different
    (guarded.exclusive other index another old () at_other found (heldKey_eq_some.mpr both)
      (heldKey_eq_some.mpr inside))

/-- A new thread does not hold the mutex. -/
theorem Guarded.snoc (guarded : Guarded holds locked threads) (outside : holds new = false)
    : Guarded holds locked (threads ++ [new]) := by
  refine ⟨guarded.exclusive.snoc (heldKey_eq_none.mpr outside), ?_⟩
  intro thread member held
  rcases mem_snoc_cases member with old | rfl
  · exact guarded.raised thread old held
  · rw [outside] at held
    cases held

/-- A thread takes a step with the mutex or without it. -/
theorem Guarded.keep (guarded : Guarded holds locked threads)
    (found : threads[index]? = some old) (same : holds new = holds old)
    : Guarded holds locked (threads.set index new) := by
  constructor
  · apply guarded.exclusive.set
    intro held other another takes different at_other
    have inside : holds old = true := same ▸ heldKey_eq_some.mp takes
    have outside := guarded.alone found inside at_other different
    rw [heldKey_eq_none.mpr outside]
    exact nofun
  · apply forall_set guarded.raised
    intro inside
    exact guarded.raised old (List.mem_of_getElem? found) (same ▸ inside)

/-- A thread takes the mutex when the flag is down, and puts it up. -/
theorem Guarded.acquire (guarded : Guarded holds false threads)
    : Guarded holds true (threads.set index new) := by
  refine ⟨guarded.exclusive.set ?_, fun _ _ _ => rfl⟩
  intro held other another _ _ at_other
  rw [heldKey_eq_none.mpr (guarded.free (List.mem_of_getElem? at_other))]
  exact nofun

/-- The thread that holds the mutex gives it back. -/
theorem Guarded.release (guarded : Guarded holds locked threads)
    (found : threads[index]? = some old) (inside : holds old = true)
    (outside : holds new = false)
    : Guarded holds locked' (threads.set index new) := by
  apply guarded_of_free
  intro thread member
  obtain ⟨position, at_position⟩ := List.mem_iff_getElem?.mp member
  rcases getElem?_set_cases at_position with ⟨_, rfl⟩ | ⟨different, at_other⟩
  · exact outside
  · exact guarded.alone found inside at_other different

end Threads
