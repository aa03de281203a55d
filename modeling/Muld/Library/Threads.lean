import Mathlib.Algebra.BigOperators.Group.List.Basic
import Mathlib.Algebra.Order.BigOperators.Group.List
import Mathlib.Data.Int.Basic
import Mathlib.Data.Nat.Cast.Basic
import Mathlib.Tactic.Ring

/-! Sums and pairings over a list of threads of which one takes a step.
A shared counter kept by many threads is the total of what each thread contributes, and
one step moves the total by the change of one contribution.
-/

namespace Threads

variable {τ : Type*} {threads : List τ} {index : Nat} {old new : τ}

/-- What all threads contribute together. -/
def total (share : τ → Int) (threads : List τ) : Int :=
  (threads.map share).sum

@[simp]
theorem total_nil (share : τ → Int) : total share [] = 0 := rfl

@[simp]
theorem total_append (share : τ → Int) (left right : List τ)
    : total share (left ++ right) = total share left + total share right := by
  simp [total]

@[simp]
theorem total_singleton (share : τ → Int) (thread : τ)
    : total share [thread] = share thread := by
  simp [total]

/-- Replacing one thread moves the total by the change of its contribution, even when the
measure changes too, as long as it agrees on every other thread. Witness: induction on the
list, with the replaced thread at the head or in the tail.
-/
theorem total_set_of_agree {before after : τ → Int} (found : threads[index]? = some old)
    (agree
      : ∀ other thread,
          other ≠ index → threads[other]? = some thread → after thread = before thread)
    : total after (threads.set index new)
        = total before threads - before old + after new := by
  induction threads generalizing index with
  | nil => simp at found
  | cons head rest ih =>
      cases index with
      | zero =>
          obtain rfl : head = old := by simpa using found
          have same : rest.map after = rest.map before := by
            apply List.map_congr_left
            intro thread member
            obtain ⟨position, at_position⟩ := List.mem_iff_getElem?.mp member
            exact agree (position + 1) thread (by omega) (by simpa using at_position)
          simp only [total, List.set_cons_zero, List.map_cons, List.sum_cons, same]
          ring
      | succ index =>
          have head_same : after head = before head := agree 0 head (by omega) (by simp)
          have rest_moves := @ih index (by simpa using found)
            (fun other thread different at_other =>
              agree (other + 1) thread (by omega) (by simpa using at_other))
          simp only [total, List.set_cons_succ, List.map_cons, List.sum_cons, head_same]
            at rest_moves ⊢
          rw [rest_moves]
          ring

/-- Replacing one thread moves the total by the change of its contribution. -/
theorem total_set (share : τ → Int) (found : threads[index]? = some old)
    : total share (threads.set index new) = total share threads - share old + share new :=
  total_set_of_agree found (fun _ _ _ _ => rfl)

/-- The total of contributions that are never negative is not negative. -/
theorem total_nonneg {share : τ → Int} (nonneg : ∀ thread, 0 ≤ share thread)
    : 0 ≤ total share threads := by
  apply List.sum_nonneg
  intro value member
  obtain ⟨thread, _, rfl⟩ := List.mem_map.mp member
  exact nonneg thread

/-- Where no thread contributes, the total is zero. -/
theorem total_eq_zero {share : τ → Int} (silent : ∀ thread ∈ threads, share thread = 0)
    : total share threads = 0 := by
  apply List.sum_eq_zero
  intro value member
  obtain ⟨thread, present, rfl⟩ := List.mem_map.mp member
  exact silent thread present

/-- Where the contributions are natural numbers, so is the total. -/
theorem total_natCast (share : τ → Nat)
    : total (fun thread => (share thread : Int)) threads = ((threads.map share).sum : Nat) := by
  rw [← Nat.coe_castAddMonoidHom, map_list_sum, List.map_map]
  rfl

/-- One thread contributes no more than all together. -/
theorem share_le_total {share : τ → Int} (nonneg : ∀ thread, 0 ≤ share thread)
    {thread : τ} (member : thread ∈ threads)
    : share thread ≤ total share threads := by
  apply List.single_le_sum
  · intro value inside
    obtain ⟨other, _, rfl⟩ := List.mem_map.mp inside
    exact nonneg other
  · exact List.mem_map_of_mem member

/-- Where no contribution goes down, the total goes up by what one contribution does. -/
theorem total_add_le_total {before after : τ → Int}
    (below : ∀ thread ∈ threads, before thread ≤ after thread) {thread : τ}
    (member : thread ∈ threads)
    : total before threads + (after thread - before thread) ≤ total after threads := by
  have own : after thread - before thread
      ≤ total (fun thread => after thread - before thread) threads := by
    apply List.single_le_sum
    · intro value inside
      obtain ⟨other, among, rfl⟩ := List.mem_map.mp inside
      exact sub_nonneg.mpr (below other among)
    · exact List.mem_map_of_mem member
  calc total before threads + (after thread - before thread)
      ≤ total before threads + total (fun thread => after thread - before thread) threads := by
        omega
    _ = total (fun thread => before thread + (after thread - before thread)) threads :=
        List.sum_map_add.symm
    _ = total after threads := by simp only [add_sub_cancel]

-----------------------------------------------------------------------------------------
-- Statements about every thread and about pairs of threads
-----------------------------------------------------------------------------------------

/-- A statement about every thread survives a step of one thread that keeps it. -/
theorem forall_set {holds : τ → Prop} (all : ∀ thread ∈ threads, holds thread)
    (next : holds new)
    : ∀ thread ∈ threads.set index new, holds thread := by
  intro thread member
  rcases List.mem_or_eq_of_mem_set member with old | rfl
  · exact all thread old
  · exact next

/-- The replacement of a thread is one of the threads. -/
theorem mem_set_self (found : threads[index]? = some old) : new ∈ threads.set index new := by
  have inside := (List.getElem?_eq_some_iff.mp found).1
  exact List.mem_iff_getElem?.mpr ⟨index, by simp [inside]⟩

/-- Some thread still has a property after a step, unless the thread that stepped gave it
up. Witness: the thread that had it, or the replacement.
-/
theorem exists_set {holds : τ → Prop} {otherwise : Prop} (found : threads[index]? = some old)
    (present : ∃ thread ∈ threads, holds thread) (keeps : holds old → holds new ∨ otherwise)
    : (∃ thread ∈ threads.set index new, holds thread) ∨ otherwise := by
  obtain ⟨thread, member, has⟩ := present
  obtain ⟨position, at_position⟩ := List.mem_iff_getElem?.mp member
  by_cases moved : position = index
  · subst moved
    obtain rfl : thread = old := Option.some.inj (at_position.symm.trans found)
    exact (keeps has).imp_left fun still => ⟨new, mem_set_self found, still⟩
  · refine Or.inl ⟨thread, List.mem_iff_getElem?.mpr ⟨position, ?_⟩, has⟩
    simpa [Ne.symm moved] using at_position

/-- Some thread still has a property after a step that keeps it. -/
theorem exists_set_of_keeps {holds : τ → Prop} (found : threads[index]? = some old)
    (present : ∃ thread ∈ threads, holds thread) (keeps : holds old → holds new)
    : ∃ thread ∈ threads.set index new, holds thread :=
  (@exists_set _ _ _ _ new holds False found present fun has => Or.inl (keeps has)).elim id
    False.elim

/-- Looking up a list with one thread replaced finds the replacement or an old thread at
another index.
-/
theorem getElem?_set_cases {position : Nat} {thread : τ}
    (found : (threads.set index new)[position]? = some thread)
    : (position = index ∧ thread = new)
      ∨ (position ≠ index ∧ threads[position]? = some thread) := by
  rw [List.getElem?_set] at found
  split at found
  · split at found
    · exact Or.inl ⟨by omega, (Option.some.inj found).symm⟩
    · contradiction
  · exact Or.inr ⟨by omega, found⟩

/-- A thread after one was added is an old one or the new one. -/
theorem mem_snoc_cases {thread : τ} (member : thread ∈ threads ++ [new])
    : thread ∈ threads ∨ thread = new :=
  (List.mem_append.mp member).imp id List.mem_singleton.mp

/-- Looking up a list with one thread added at the end finds an old thread or the new one.
-/
theorem getElem?_snoc_cases {position : Nat} {thread : τ}
    (found : (threads ++ [new])[position]? = some thread)
    : threads[position]? = some thread ∨ (position = threads.length ∧ thread = new) := by
  rw [List.getElem?_append] at found
  split at found
  · exact Or.inl found
  · rw [List.getElem?_singleton] at found
    split at found
    · exact Or.inr ⟨by omega, (Option.some.inj found).symm⟩
    · contradiction

/-- No two threads hold the same key. -/
def Exclusive {κ : Type*} (key : τ → Option κ) (threads : List τ) : Prop :=
  ∀ (first second : Nat) (left right : τ) (held : κ),
    threads[first]? = some left
    → threads[second]? = some right
    → key left = some held
    → key right = some held
    → first = second

/-- Exclusiveness read off the list of keys. -/
theorem Exclusive.index_eq {κ : Type*} {key : τ → Option κ}
    (exclusive : Exclusive key threads) {first second : Nat} {held : κ}
    (atFirst : (threads.map key)[first]? = some (some held))
    (atSecond : (threads.map key)[second]? = some (some held))
    : first = second := by
  rw [List.getElem?_map, Option.map_eq_some_iff] at atFirst atSecond
  obtain ⟨left, leftFound, leftHolds⟩ := atFirst
  obtain ⟨right, rightFound, rightHolds⟩ := atSecond
  exact exclusive first second left right held leftFound rightFound leftHolds rightHolds

/-- Exclusiveness survives a step whose thread keeps its key, drops it, or takes one that
no other thread holds.
-/
theorem Exclusive.set {κ : Type*} {key : τ → Option κ} (exclusive : Exclusive key threads)
    (fresh
      : ∀ held other thread,
          key new = some held
          → other ≠ index
          → threads[other]? = some thread
          → key thread ≠ some held)
    : Exclusive key (threads.set index new) := by
  intro first second left right held atFirst atSecond leftHolds rightHolds
  rcases getElem?_set_cases atFirst with ⟨rfl, rfl⟩ | ⟨firstOther, firstFound⟩ <;>
    rcases getElem?_set_cases atSecond with ⟨rfl, rfl⟩ | ⟨secondOther, secondFound⟩
  · rfl
  · exact absurd rightHolds (fresh held second right leftHolds secondOther secondFound)
  · exact absurd leftHolds (fresh held first left rightHolds firstOther firstFound)
  · exact exclusive first second left right held firstFound secondFound leftHolds rightHolds

/-- A new thread that holds no key keeps exclusiveness. -/
theorem Exclusive.snoc {κ : Type*} {key : τ → Option κ} (exclusive : Exclusive key threads)
    (empty : key new = none)
    : Exclusive key (threads ++ [new]) := by
  intro first second left right held atFirst atSecond leftHolds rightHolds
  rcases getElem?_snoc_cases atFirst with firstFound | ⟨_, rfl⟩
  · rcases getElem?_snoc_cases atSecond with secondFound | ⟨_, rfl⟩
    · exact exclusive first second left right held firstFound secondFound leftHolds rightHolds
    · simp [empty] at rightHolds
  · simp [empty] at leftHolds

end Threads
