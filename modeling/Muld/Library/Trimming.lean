import Muld.Library.Threads
import Mathlib.Data.List.Forall2
import Mathlib.Logic.Relation

/-! Lowering the levels of a list of items, one at a time and round by round, until a given
excess is gone or every level is at its floor.
-/

namespace Trimming

open Threads

variable {α : Type*}

/-- Items with a level that is lowered one by one and a floor for it. -/
structure Scale (α : Type*) where
  level : α → Int
  floor : α → Int
  lower : α → α
  level_lower : ∀ item, level (lower item) = level item - 1
  floor_lower : ∀ item, floor (lower item) = floor item

/-- One round over the items in the given order. Every item above its floor is lowered, until
the excess is gone; the result holds what is left of the excess and whether any item moved.
-/
def round (scale : Scale α) : List Nat → Int → List α → List α × Int × Bool
  | [], excess, items => (items, excess, false)
  | index :: rest, excess, items =>
      match items[index]? with
      | none => round scale rest excess items
      | some item =>
          if scale.floor item < scale.level item then
            let lowered := items.set index (scale.lower item)
            if excess - 1 = 0 then (lowered, 0, true)
            else
              let next := round scale rest (excess - 1) lowered
              (next.1, next.2.1, true)
          else round scale rest excess items

variable {scale : Scale α} {order : List Nat} {excess : Int} {items after : List α}

-----------------------------------------------------------------------------------------
-- What happens to one item
-----------------------------------------------------------------------------------------

/-- The second item is the first one lowered some times, each time from above its floor. -/
def Lowered (scale : Scale α) : α → α → Prop :=
  Relation.ReflTransGen fun item next =>
    scale.floor item < scale.level item ∧ next = scale.lower item

/-- A lowered item keeps its floor and does not rise or go below it, by induction on the
steps.
-/
theorem Lowered.level {item next : α} (lowered : Lowered scale item next)
    : scale.floor next = scale.floor item
      ∧ scale.level next ≤ scale.level item
      ∧ (scale.floor item ≤ scale.level item → scale.floor next ≤ scale.level next) := by
  induction lowered with
  | refl => exact ⟨rfl, Int.le_refl _, id⟩
  | tail _ step ih =>
      obtain ⟨above, rfl⟩ := step
      rw [scale.floor_lower, scale.level_lower]
      exact ⟨ih.1, by omega, fun _ => by omega⟩

/-- What lowering leaves alone is the same for a lowered item, by induction on the steps. -/
theorem Lowered.field {β : Type*} (field : α → β)
    (keeps : ∀ item, field (scale.lower item) = field item) {item next : α}
    (lowered : Lowered scale item next)
    : field next = field item := by
  induction lowered with
  | refl => rfl
  | tail _ step ih => rw [step.2, keeps, ih]

theorem forall₂_lowered_trans {middle : List α}
    (first : List.Forall₂ (Lowered scale) items middle)
    (second : List.Forall₂ (Lowered scale) middle after)
    : List.Forall₂ (Lowered scale) items after := by
  induction first generalizing after with
  | nil => exact second
  | cons head _ ih =>
      cases second with
      | cons next rest => exact .cons (Relation.ReflTransGen.trans head next) (ih rest)

theorem forall₂_lowered_refl (items : List α)
    : List.Forall₂ (Lowered scale) items items :=
  List.forall₂_same.mpr fun _ _ => Relation.ReflTransGen.refl

/-- Lowering one item, by induction on the list. -/
theorem forall₂_lowered_set {index : Nat} {item : α} (found : items[index]? = some item)
    (above : scale.floor item < scale.level item)
    : List.Forall₂ (Lowered scale) items (items.set index (scale.lower item)) := by
  induction items generalizing index with
  | nil => cases found
  | cons head rest ih =>
      cases index with
      | zero =>
          obtain rfl : head = item := Option.some.inj found
          exact .cons (Relation.ReflTransGen.single ⟨above, rfl⟩) (forall₂_lowered_refl rest)
      | succ index => exact .cons Relation.ReflTransGen.refl (ih found)

/-- Every lowered item was one of the items, by induction on the lists. -/
theorem exists_of_mem_lowered (lowered : List.Forall₂ (Lowered scale) items after) {next : α}
    (member : next ∈ after)
    : ∃ item ∈ items, Lowered scale item next := by
  induction lowered with
  | nil => cases member
  | @cons item _ _ _ head _ ih =>
      rcases List.mem_cons.mp member with rfl | later
      · exact ⟨item, List.mem_cons_self, head⟩
      · obtain ⟨first, among, low⟩ := ih later
        exact ⟨first, List.mem_cons_of_mem _ among, low⟩

/-- The floors of lowered items have the total they had, by induction on the lists. -/
theorem total_floor_eq (lowered : List.Forall₂ (Lowered scale) items after)
    : total scale.floor after = total scale.floor items := by
  induction lowered with
  | nil => rfl
  | cons head _ ih =>
      simp only [total, List.map_cons, List.sum_cons] at ih ⊢
      rw [head.level.1, ih]

-----------------------------------------------------------------------------------------
-- One round
-----------------------------------------------------------------------------------------

/-- What a round does to the items, to the total and to the excess. -/
structure Rounds (scale : Scale α) (order : List Nat) (excess : Int) (items : List α)
    (result : List α × Int × Bool) : Prop where
  lowered : List.Forall₂ (Lowered scale) items result.1
  total : total scale.level result.1 - result.2.1 = total scale.level items - excess
  nonneg : 0 ≤ result.2.1
  less : result.2.2 = true → result.2.1 < excess
  stuck
    : result.2.2 = false
      → result.1 = items
        ∧ result.2.1 = excess
        ∧ ∀ index ∈ order,
            ∀ item, items[index]? = some item → scale.level item ≤ scale.floor item

/-- By induction on the order. -/
theorem rounds_round (positive : 0 < excess)
    : Rounds scale order excess items (round scale order excess items) := by
  induction order generalizing excess items with
  | nil =>
      exact ⟨forall₂_lowered_refl items, rfl, Int.le_of_lt positive, by simp [round],
        fun _ => ⟨rfl, rfl, by simp⟩⟩
  | cons index rest ih =>
      have skips (low : ∀ item, items[index]? = some item → scale.level item ≤ scale.floor item)
          : Rounds scale (index :: rest) excess items (round scale rest excess items) := by
        obtain ⟨lowered, total, nonneg, less, stuck⟩ := @ih excess items positive
        refine ⟨lowered, total, nonneg, less, fun idle => ?_⟩
        obtain ⟨same, kept, floors⟩ := stuck idle
        refine ⟨same, kept, ?_⟩
        intro other member
        rcases List.mem_cons.mp member with rfl | later
        · exact low
        · exact floors other later
      rw [round]
      cases found : items[index]? with
      | none => exact skips (by simp [found])
      | some item =>
          simp only
          by_cases above : scale.floor item < scale.level item
          · rw [if_pos above]
            have one := forall₂_lowered_set found above
            have moved := @total_set _ items index item (scale.lower item) scale.level found
            rw [scale.level_lower] at moved
            split
            · refine ⟨one, ?_, Int.le_refl 0, fun _ => positive, nofun⟩
              simp only
              omega
            · rename_i more
              obtain ⟨lowered, total, nonneg, less, stuck⟩ :=
                @ih (excess - 1) (items.set index (scale.lower item)) (by omega)
              refine ⟨forall₂_lowered_trans one lowered, ?_, nonneg, fun _ => ?_, nofun⟩
              · simp only
                omega
              · cases idle : (round scale rest (excess - 1)
                    (items.set index (scale.lower item))).2.2 with
                | true => have := less idle; simp only; omega
                | false => have := (stuck idle).2.1; simp only; omega
          · rw [if_neg above]
            refine skips fun other same => ?_
            rw [found, Option.some_inj] at same
            subst same
            exact Int.not_lt.mp above

-----------------------------------------------------------------------------------------
-- All rounds
-----------------------------------------------------------------------------------------

/-- Rounds until the excess is gone or nothing moves. -/
def trim (scale : Scale α) (order : List Nat) (excess : Int) (items : List α) : List α :=
  if _positive : 0 < excess then
    if _moved : (round scale order excess items).2.2 = true then
      trim scale order (round scale order excess items).2.1 (round scale order excess items).1
    else (round scale order excess items).1
  else items
termination_by excess.toNat
decreasing_by
  have less := (rounds_round _positive).less _moved
  omega

/-- Trimming only lowers items, by induction on the rounds. -/
theorem trim_lowered (order : List Nat) (excess : Int) (items : List α)
    : List.Forall₂ (Lowered scale) items (trim scale order excess items) := by
  induction excess, items using trim.induct scale order with
  | case1 excess items positive moved ih =>
      rw [trim, dif_pos positive, dif_pos moved]
      exact forall₂_lowered_trans (rounds_round positive).lowered ih
  | case2 excess items positive stuck =>
      rw [trim, dif_pos positive, dif_neg stuck]
      exact (rounds_round positive).lowered
  | case3 excess items settled =>
      rw [trim, dif_neg settled]
      exact forall₂_lowered_refl items

theorem total_floor_le (floors : ∀ item ∈ items, scale.floor item ≤ scale.level item)
    : total scale.floor items ≤ total scale.level items :=
  List.sum_le_sum floors

/-- Items stay at or above their floors. -/
theorem floors_of_lowered (lowered : List.Forall₂ (Lowered scale) items after)
    (floors : ∀ item ∈ items, scale.floor item ≤ scale.level item)
    : ∀ item ∈ after, scale.floor item ≤ scale.level item := by
  induction lowered with
  | nil => simp
  | cons head _ ih =>
      rw [List.forall_mem_cons] at floors ⊢
      exact ⟨head.level.2.2 floors.1, ih floors.2⟩

/-- Trimming takes the excess from the total, or all that is above the floors when that is
less, by induction on the rounds.
-/
theorem trim_total (covers : ∀ index, index < items.length → index ∈ order)
    (floors : ∀ item ∈ items, scale.floor item ≤ scale.level item) (nonneg : 0 ≤ excess)
    : total scale.level (trim scale order excess items)
        = max (total scale.level items - excess) (total scale.floor items) := by
  induction excess, items using trim.induct scale order with
  | case1 excess items positive moved ih =>
      rw [trim, dif_pos positive, dif_pos moved]
      obtain ⟨lowered, taken, left, _, _⟩ := @rounds_round _ scale order excess items positive
      have length := lowered.length_eq
      rw [ih (fun index inside => covers index (by omega)) (floors_of_lowered lowered floors)
        left, taken, total_floor_eq lowered]
  | case2 excess items positive stuck =>
      rw [trim, dif_pos positive, dif_neg stuck]
      obtain ⟨same, _, low⟩ := (rounds_round positive).stuck (by simpa using stuck)
      -- nothing above its floor is left
      have floored : total scale.level items = total scale.floor items := by
        refine congrArg List.sum (List.map_congr_left fun item member => ?_)
        obtain ⟨index, found⟩ := List.mem_iff_getElem?.mp member
        have inside := (List.getElem?_eq_some_iff.mp found).1
        exact Int.le_antisymm (low index (covers index inside) item found) (floors item member)
      rw [same, floored]
      omega
  | case3 excess items settled =>
      rw [trim, dif_neg settled]
      have above := total_floor_le floors
      omega

-----------------------------------------------------------------------------------------
-- How much each item is lowered
-----------------------------------------------------------------------------------------

/-- Each item is lowered by its amount, but not below its floor. -/
structure CutBy (scale : Scale α) (amount : Nat → Int) (items after : List α) : Prop where
  floor
    : ∀ {index : Nat} {item next : α},
        items[index]? = some item
        → after[index]? = some next
        → scale.floor next = scale.floor item
  level
    : ∀ {index : Nat} {item next : α},
        items[index]? = some item
        → after[index]? = some next
        → scale.level next = max (scale.floor item) (scale.level item - amount index)
  length : after.length = items.length

variable {amount further : Nat → Int} {middle : List α}

theorem CutBy.of_floors (floors : ∀ item ∈ items, scale.floor item ≤ scale.level item)
    : CutBy scale (fun _ => 0) items items where
  floor := fun before behind => by rw [Option.some.inj (before.symm.trans behind)]
  level := fun before behind => by
    obtain rfl := Option.some.inj (before.symm.trans behind)
    have above := floors _ (List.mem_of_getElem? before)
    omega
  length := rfl

/-- Two cuts in a row are one by the sum. -/
theorem CutBy.trans (first : CutBy scale amount items middle)
    (second : CutBy scale further middle after) (nonneg : ∀ index, 0 ≤ further index)
    : CutBy scale (fun index => amount index + further index) items after := by
  have between {index : Nat} {item : α} (found : items[index]? = some item)
      : ∃ cut, middle[index]? = some cut := by
    have inside := (List.getElem?_eq_some_iff.mp found).1
    rw [← first.length] at inside
    exact ⟨_, List.getElem?_eq_getElem inside⟩
  constructor
  case floor =>
    intro index item next before behind
    obtain ⟨cut, found⟩ := between before
    rw [second.floor found behind, first.floor before found]
  case level =>
    intro index item next before behind
    obtain ⟨cut, found⟩ := between before
    have early := first.level before found
    have late := second.level found behind
    have floor := first.floor before found
    have more := nonneg index
    omega
  case length => rw [second.length, first.length]

/-- Only the amounts of items that are there matter. -/
theorem CutBy.congr (cut : CutBy scale amount items after)
    (same : ∀ index, index < items.length → amount index = further index)
    : CutBy scale further items after where
  floor := cut.floor
  level := fun before behind => by
    rw [cut.level before behind, same _ (List.getElem?_eq_some_iff.mp before).1]
  length := cut.length

/-- One for the items that are among `chosen`. -/
def once (chosen : List Nat) (index : Nat) : Int := if index ∈ chosen then 1 else 0

theorem once_nonneg (chosen : List Nat) (index : Nat) : 0 ≤ once chosen index := by
  unfold once
  split <;> omega

theorem once_le (chosen : List Nat) (index : Nat) : once chosen index ≤ 1 := by
  unfold once
  split <;> omega

/-- Only a chosen item is lowered once more than another one. -/
theorem of_once_lt {chosen : List Nat} {spared index : Nat}
    (less : once chosen spared < once chosen index)
    : index ∈ chosen ∧ spared ∉ chosen := by
  by_cases lowered : index ∈ chosen
  · have one : once chosen index = 1 := if_pos lowered
    refine ⟨lowered, fun also => ?_⟩
    have same : once chosen spared = 1 := if_pos also
    omega
  · have none_ : once chosen index = 0 := if_neg lowered
    have nonneg := once_nonneg chosen spared
    omega

/-- Lowering one item that is above its floor. -/
theorem CutBy.set {index : Nat} {item : α}
    (floors : ∀ item ∈ items, scale.floor item ≤ scale.level item)
    (found : items[index]? = some item) (above : scale.floor item < scale.level item)
    : CutBy scale (once [index]) items (items.set index (scale.lower item)) := by
  constructor
  case floor =>
    intro other before next at_before at_behind
    rcases getElem?_set_cases at_behind with ⟨rfl, rfl⟩ | ⟨_, still⟩
    · obtain rfl := Option.some.inj (found.symm.trans at_before)
      exact scale.floor_lower _
    · rw [Option.some.inj (at_before.symm.trans still)]
  case level =>
    intro other before next at_before at_behind
    rcases getElem?_set_cases at_behind with ⟨rfl, rfl⟩ | ⟨different, still⟩
    · obtain rfl := Option.some.inj (found.symm.trans at_before)
      rw [scale.level_lower, once, if_pos (List.mem_singleton_self _)]
      omega
    · obtain rfl := Option.some.inj (at_before.symm.trans still)
      have above_floor := floors _ (List.mem_of_getElem? at_before)
      rw [once, if_neg (by simpa using different)]
      omega
  case length => exact List.length_set

/-- An item at its floor is not lowered. -/
theorem CutBy.skip {index : Nat} {chosen : List Nat} (cut : CutBy scale (once chosen) items after)
    (floors : ∀ item ∈ items, scale.floor item ≤ scale.level item)
    (low : ∀ item, items[index]? = some item → scale.level item ≤ scale.floor item)
    : CutBy scale (once (index :: chosen)) items after where
  floor := cut.floor
  level := by
    intro other item next before behind
    have level := cut.level before behind
    by_cases same : other = index
    · subst same
      have floored := low item before
      have above := floors item (List.mem_of_getElem? before)
      have some_ := once_nonneg chosen other
      have more := once_nonneg (other :: chosen) other
      omega
    · rw [level]
      simp only [once, List.mem_cons, same, false_or]
  length := cut.length

/-- A round lowers the items of a first part of the order once each, and of the whole order
if some excess is left; by induction on the order.
-/
theorem round_cut (nodup : order.Nodup) (positive : 0 < excess)
    (floors : ∀ item ∈ items, scale.floor item ≤ scale.level item)
    : ∃ chosen rest,
        order = chosen ++ rest
        ∧ CutBy scale (once chosen) items (round scale order excess items).1
        ∧ (0 < (round scale order excess items).2.1 → rest = []) := by
  induction order generalizing excess items with
  | nil => exact ⟨[], [], rfl, (CutBy.of_floors floors).congr fun _ _ => rfl, fun _ => rfl⟩
  | cons index order ih =>
      obtain ⟨fresh, nodup⟩ := List.nodup_cons.mp nodup
      have skips (low : ∀ item, items[index]? = some item → scale.level item ≤ scale.floor item)
          : ∃ chosen rest,
              index :: order = chosen ++ rest
              ∧ CutBy scale (once chosen) items (round scale order excess items).1
              ∧ (0 < (round scale order excess items).2.1 → rest = []) := by
        obtain ⟨chosen, rest, rfl, cut, whole⟩ := @ih excess items nodup positive floors
        exact ⟨index :: chosen, rest, rfl, cut.skip floors low, whole⟩
      rw [round]
      cases found : items[index]? with
      | none => exact skips (by simp [found])
      | some item =>
          simp only
          by_cases above : scale.floor item < scale.level item
          · rw [if_pos above]
            have one := CutBy.set floors found above
            split
            · exact ⟨[index], order, rfl, one, fun absurd => by simp at absurd⟩
            · rename_i more
              have still := floors_of_lowered (forall₂_lowered_set found above) floors
              obtain ⟨chosen, rest, rfl, cut, whole⟩ :=
                @ih (excess - 1) (items.set index (scale.lower item)) nodup (by omega) still
              refine ⟨index :: chosen, rest, rfl, ?_, whole⟩
              refine (one.trans cut (once_nonneg chosen)).congr fun other _ => ?_
              by_cases same : other = index
              · subst same
                have absent : other ∉ chosen := fun member =>
                  fresh (List.mem_append_left rest member)
                simp [once, absent]
              · simp [once, same]
          · rw [if_neg above]
            refine skips fun other same => ?_
            obtain rfl := Option.some.inj (found.symm.trans same)
            exact Int.not_lt.mp above

/-- Trimming lowers every item by as many as there are whole rounds, and those of a first part
of the order by one more; by induction on the rounds.
-/
theorem trim_cut (nodup : order.Nodup) (covers : ∀ index, index < items.length → index ∈ order)
    (floors : ∀ item ∈ items, scale.floor item ≤ scale.level item)
    : ∃ (rounds : Int) (chosen rest : List Nat),
        0 ≤ rounds
        ∧ order = chosen ++ rest
        ∧ CutBy scale (fun index => rounds + once chosen index) items
            (trim scale order excess items) := by
  have nothing (items : List α)
      (floors : ∀ item ∈ items, scale.floor item ≤ scale.level item)
      : ∃ (rounds : Int) (chosen rest : List Nat),
          0 ≤ rounds
          ∧ order = chosen ++ rest
          ∧ CutBy scale (fun index => rounds + once chosen index) items items :=
    ⟨0, [], order, Int.le_refl 0, rfl, (CutBy.of_floors floors).congr fun _ _ => rfl⟩
  induction excess, items using trim.induct scale order with
  | case1 excess items positive moved ih =>
      rw [trim, dif_pos positive, dif_pos moved]
      have lowered := (@rounds_round _ scale order excess items positive).lowered
      have length := lowered.length_eq
      have still := floors_of_lowered lowered floors
      obtain ⟨chosen, rest, split, cut, whole⟩ :=
        @round_cut _ scale order excess items nodup positive floors
      by_cases more : 0 < (round scale order excess items).2.1
      · obtain rfl : rest = [] := whole more
        rw [List.append_nil] at split
        subst split
        obtain ⟨rounds, chosen, rest, nonneg, split, later⟩ :=
          ih (fun index inside => covers index (by omega)) still
        refine ⟨1 + rounds, chosen, rest, by omega, split, ?_⟩
        refine (cut.trans later fun index => ?_).congr fun index inside => ?_
        · have := once_nonneg chosen index
          omega
        · rw [once, if_pos (covers index inside), Int.add_assoc]
      · rw [trim, dif_neg more]
        refine ⟨0, chosen, rest, Int.le_refl 0, split, cut.congr fun _ _ => ?_⟩
        rw [Int.zero_add]
  | case2 excess items positive stuck =>
      rw [trim, dif_pos positive, dif_neg stuck,
        ((rounds_round positive).stuck (by simpa using stuck)).1]
      exact nothing items floors
  | case3 excess items settled =>
      rw [trim, dif_neg settled]
      exact nothing items floors

end Trimming
