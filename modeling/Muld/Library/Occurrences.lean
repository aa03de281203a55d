import Mathlib.Data.List.Basic

/-! The first occurrence of a list in another one. -/

namespace Occurrences

variable {α : Type*} {pattern text before after : List α}

/-- The pattern stands behind `before`, and nowhere earlier. -/
structure First (pattern text before after : List α) : Prop where
  split : text = before ++ pattern ++ after
  first : ∀ earlier later, text = earlier ++ pattern ++ later → before.length ≤ earlier.length

theorem First.infix (found : First pattern text before after) : pattern <:+: text :=
  ⟨before, after, found.split.symm⟩

/-- There is one first position. -/
theorem First.length_eq {before' after' : List α} (found : First pattern text before after)
    (again : First pattern text before' after')
    : before.length = before'.length :=
  Nat.le_antisymm (found.first _ _ again.split) (again.first _ _ found.split)

/-- So it splits the list in one way. -/
theorem First.unique {before' after' : List α} (found : First pattern text before after)
    (again : First pattern text before' after')
    : before = before' ∧ after = after' := by
  have same : before ++ (pattern ++ after) = before' ++ (pattern ++ after') := by
    rw [← List.append_assoc, ← List.append_assoc, ← found.split, ← again.split]
  obtain ⟨front, back⟩ := List.append_inj same (found.length_eq again)
  exact ⟨front, List.append_cancel_left back⟩

/-- What stands behind the first occurrence has no part in it: an earlier one would lie in
front of the end of this one.
-/
theorem First.replace (found : First pattern text before after) (other : List α)
    : First pattern (before ++ pattern ++ other) before other := by
  refine ⟨rfl, ?_⟩
  intro earlier later same
  by_contra shorter
  have inside : earlier ++ pattern <+: before ++ pattern := by
    refine List.prefix_of_prefix_length_le ⟨later, same.symm⟩ (List.prefix_append _ other) ?_
    rw [List.length_append, List.length_append]
    omega
  obtain ⟨middle, split⟩ := inside
  refine shorter (found.first earlier (middle ++ after) ?_)
  rw [found.split, ← split, List.append_assoc (earlier ++ pattern)]

/-- Behind a list without the head of the pattern there is none earlier. -/
theorem first_of_notMem {head : α} {tail : List α} (absent : head ∉ before) (after : List α)
    : First (head :: tail) (before ++ (head :: tail) ++ after) before after := by
  refine ⟨rfl, ?_⟩
  intro earlier later same
  by_contra shorter
  have inside : earlier.length < before.length := Nat.not_le.mp shorter
  rw [List.append_assoc, List.append_assoc] at same
  have at_earlier := congrArg (·[earlier.length]?) same
  simp only [List.getElem?_append_left inside, List.getElem?_append_right (Nat.le_refl _),
    Nat.sub_self, List.cons_append, List.getElem?_cons_zero] at at_earlier
  exact absent (List.mem_of_getElem? at_earlier)

/-- At the start of a list. -/
theorem first_nil (pattern after : List α) : First pattern (pattern ++ after) [] after :=
  ⟨rfl, fun _ _ _ => Nat.zero_le _⟩

/-- In the rest of a list that does not begin with the pattern. -/
theorem First.cons {head : α} (found : First pattern text before after)
    (elsewhere : ¬ pattern <+: head :: text)
    : First pattern (head :: text) (head :: before) after := by
  refine ⟨by rw [found.split]; rfl, ?_⟩
  intro earlier later same
  cases earlier with
  | nil => exact absurd ⟨later, same.symm⟩ elsewhere
  | cons _ earlier =>
      have rest : text = earlier ++ pattern ++ later := (List.cons.inj same).2
      exact Nat.succ_le_succ (found.first earlier later rest)

/-- Every list that has the pattern has it first somewhere, by induction on the list. -/
theorem exists_first (occurs : pattern <:+: text)
    : ∃ before after, First pattern text before after := by
  induction text with
  | nil =>
      obtain rfl := List.infix_nil.mp occurs
      exact ⟨[], [], first_nil _ _⟩
  | cons head rest ih =>
      by_cases here : pattern <+: head :: rest
      · obtain ⟨after, split⟩ := here
        exact ⟨[], after, split ▸ first_nil _ _⟩
      · obtain ⟨before, after, found⟩ := ih ((List.infix_cons_iff.mp occurs).resolve_left here)
        exact ⟨head :: before, after, found.cons here⟩

end Occurrences
