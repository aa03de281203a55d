import Mathlib.Algebra.BigOperators.Group.List.Basic
import Mathlib.Algebra.Order.Floor.Div
import Mathlib.Algebra.Ring.Nat
import Mathlib.Data.List.Pairwise
import Mathlib.Order.Interval.Finset.Nat

/-! Lists of spans that cover the first positions of a line without overlapping. -/

namespace Tilings

/-- The positions from `start` on, `size` of them. -/
structure Span where
  start : Nat
  size : Nat
deriving DecidableEq, Repr

namespace Span

def Covers (span : Span) (position : Nat) : Prop :=
  span.start ≤ position ∧ position < span.start + span.size

instance (span : Span) (position : Nat) : Decidable (span.Covers position) := by
  unfold Covers
  infer_instance

/-- No position belongs to both. -/
def Apart (left right : Span) : Prop :=
  ∀ position, left.Covers position → ¬ right.Covers position

theorem Apart.symm {left right : Span} (apart : left.Apart right) : right.Apart left :=
  fun position inRight inLeft => apart position inLeft inRight

/-- Every position of the one belongs to the other. -/
def Within (inner outer : Span) : Prop :=
  ∀ position, inner.Covers position → outer.Covers position

/-- Parts of spans that are apart are apart. -/
theorem Apart.within {left right innerLeft innerRight : Span} (apart : left.Apart right)
    (leftWithin : innerLeft.Within left) (rightWithin : innerRight.Within right)
    : innerLeft.Apart innerRight :=
  fun position inLeft inRight =>
    apart position (leftWithin position inLeft) (rightWithin position inRight)

/-- A span without positions is apart from every span. -/
theorem not_covers_of_empty {span : Span} (empty : span.size = 0) (position : Nat)
    : ¬ span.Covers position := by
  rintro ⟨above, below⟩
  omega

/-- A span is cut into a front and a back. -/
structure Splits (span front back : Span) : Prop where
  covers
    : ∀ position, span.Covers position ↔ front.Covers position ∨ back.Covers position
  apart : front.Apart back

/-- A span is cut behind its first `count` positions. -/
theorem splits_at (span : Span) {count : Nat} (inside : count ≤ span.size)
    : span.Splits ⟨span.start, count⟩ ⟨span.start + count, span.size - count⟩ := by
  constructor
  · intro position
    simp only [Covers]
    omega
  · rintro position ⟨_, below⟩ ⟨above, _⟩
    simp only at below above
    omega

end Span

/-- The spans are pairwise apart and cover the first `total` positions exactly. -/
structure Tiles (spans : List Span) (total : Nat) : Prop where
  covers : ∀ position, position < total ↔ ∃ span ∈ spans, span.Covers position
  apart : spans.Pairwise Span.Apart

variable {spans : List Span} {total : Nat}

/-- Spans at different places of the list are apart. -/
theorem apart_of_ne (apart : spans.Pairwise Span.Apart) {first second : Nat}
    {left right : Span} (different : first ≠ second) (atFirst : spans[first]? = some left)
    (atSecond : spans[second]? = some right)
    : left.Apart right := by
  obtain ⟨low, rfl⟩ := List.getElem?_eq_some_iff.mp atFirst
  obtain ⟨high, rfl⟩ := List.getElem?_eq_some_iff.mp atSecond
  have ordered := List.pairwise_iff_getElem.mp apart
  rcases Nat.lt_or_gt_of_ne different with before | after
  · exact ordered first second low high before
  · exact (ordered second first high low after).symm

/-- A span with positions ends within the line. -/
theorem Tiles.end_le (tiles : Tiles spans total) {span : Span} (member : span ∈ spans)
    (nonempty : 0 < span.size)
    : span.start + span.size ≤ total := by
  have last : span.start + span.size - 1 < total :=
    (tiles.covers _).mpr ⟨span, member, by simp only [Span.Covers]; omega⟩
  omega

/-- The positions of spans that are pairwise apart, by induction on the list. -/
theorem exists_positions (apart : spans.Pairwise Span.Apart)
    : ∃ positions : Finset Nat,
        (∀ position, position ∈ positions ↔ ∃ span ∈ spans, span.Covers position)
        ∧ positions.card = (spans.map Span.size).sum := by
  induction spans with
  | nil => exact ⟨∅, by simp, rfl⟩
  | cons head rest ih =>
      obtain ⟨away, apart_rest⟩ := List.pairwise_cons.mp apart
      obtain ⟨positions, covered, card⟩ := ih apart_rest
      have separate : Disjoint (Finset.Ico head.start (head.start + head.size)) positions := by
        rw [Finset.disjoint_left]
        intro position inHead inRest
        obtain ⟨span, member, covers⟩ := (covered position).mp inRest
        exact away span member position (Finset.mem_Ico.mp inHead) covers
      refine ⟨Finset.Ico head.start (head.start + head.size) ∪ positions, ?_, ?_⟩
      · intro position
        rw [Finset.mem_union, Finset.mem_Ico, covered]
        simp [Span.Covers]
      · rw [Finset.card_union_of_disjoint separate, Nat.card_Ico, card, List.map_cons,
          List.sum_cons, Nat.add_sub_cancel_left]

/-- The sizes of a tiling add up to the length of the line. -/
theorem Tiles.sum_size (tiles : Tiles spans total) : (spans.map Span.size).sum = total := by
  obtain ⟨positions, covered, card⟩ := exists_positions tiles.apart
  have whole : positions = Finset.range total := by
    ext position
    rw [covered, Finset.mem_range, tiles.covers]
  rw [← card, whole, Finset.card_range]

/-- Cutting every span of a tiling gives a tiling, also without the backs that are empty. -/
theorem Tiles.split {α : Type*} {blocks : List α} {span front back : α → Span}
    (tiles : Tiles (blocks.map span) total)
    (splits : ∀ block ∈ blocks, (span block).Splits (front block) (back block))
    (kept : α → Bool)
    (empty
      : ∀ block ∈ blocks, kept block = false → ∀ position, ¬ (back block).Covers position)
    : Tiles (blocks.map front ++ (blocks.filter kept).map back) total := by
  have fronts : ∀ block ∈ blocks, (front block).Within (span block) :=
    fun block member position inFront =>
      ((splits block member).covers position).mpr (Or.inl inFront)
  have backs : ∀ block ∈ blocks, (back block).Within (span block) :=
    fun block member position inBack =>
      ((splits block member).covers position).mpr (Or.inr inBack)
  have away := List.pairwise_map.mp tiles.apart
  constructor
  · intro position
    rw [tiles.covers]
    constructor
    · rintro ⟨_, member, covers⟩
      obtain ⟨block, inside, rfl⟩ := List.mem_map.mp member
      rcases ((splits block inside).covers position).mp covers with inFront | inBack
      · exact ⟨front block, List.mem_append_left _ (List.mem_map_of_mem inside), inFront⟩
      · have keeps : kept block = true := by
          by_contra dropped
          exact empty block inside (by simpa using dropped) position inBack
        have left := List.mem_map_of_mem (f := back) (List.mem_filter.mpr ⟨inside, keeps⟩)
        exact ⟨back block, List.mem_append_right _ left, inBack⟩
    · rintro ⟨_, member, covers⟩
      rcases List.mem_append.mp member with inFront | inBack
      · obtain ⟨block, inside, rfl⟩ := List.mem_map.mp inFront
        exact ⟨span block, List.mem_map_of_mem inside, fronts block inside position covers⟩
      · obtain ⟨block, inside, rfl⟩ := List.mem_map.mp inBack
        have inside := (List.mem_filter.mp inside).1
        exact ⟨span block, List.mem_map_of_mem inside, backs block inside position covers⟩
  · rw [List.pairwise_append]
    refine ⟨?_, ?_, ?_⟩
    · rw [List.pairwise_map]
      refine away.imp_of_mem ?_
      intro left right inLeft inRight apart
      exact apart.within (fronts left inLeft) (fronts right inRight)
    · rw [List.pairwise_map]
      refine (away.filter kept).imp_of_mem ?_
      intro left right inLeft inRight apart
      exact apart.within (backs left (List.mem_filter.mp inLeft).1)
        (backs right (List.mem_filter.mp inRight).1)
    · intro _ inFronts _ inBacks
      obtain ⟨left, inLeft, rfl⟩ := List.mem_map.mp inFronts
      obtain ⟨right, inRight, rfl⟩ := List.mem_map.mp inBacks
      have inRight := (List.mem_filter.mp inRight).1
      by_cases same : left = right
      · subst same
        exact (splits left inLeft).apart
      · have symmetric : Std.Symm fun left right => (span left).Apart (span right) :=
          ⟨fun _ _ apart => apart.symm⟩
        have apart := away.forall inLeft inRight same
        exact apart.within (fronts left inLeft) (backs right inRight)

-----------------------------------------------------------------------------------------
-- Spans of one size
-----------------------------------------------------------------------------------------

/-- Spans of one size next to each other, the last one cut to the end of the line. -/
def evenSpan (count size total index : Nat) : Span :=
  ⟨index * size, if index = count - 1 then total - index * size else size⟩

/-- Spans of one size tile a line that ends in the last of them. -/
theorem tiles_evenSpan {count size : Nat} (some_span : 0 < count)
    (enters : (count - 1) * size < total) (ends : total ≤ count * size)
    : Tiles ((List.range count).map (evenSpan count size total)) total := by
  have whole : (count - 1) * size + size = count * size := by
    rw [← Nat.succ_mul, Nat.succ_eq_add_one, Nat.sub_add_cancel some_span]
  have within : ∀ index,
      index < count → (evenSpan count size total index).Within ⟨index * size, size⟩ := by
    rintro index inside position ⟨above, below⟩
    refine ⟨above, ?_⟩
    simp only [evenSpan] at below ⊢
    split at below
    · rename_i last
      subst last
      omega
    · exact below
  constructor
  · intro position
    constructor
    · intro inLine
      have positive : 0 < size := by
        by_contra zero
        rw [Nat.eq_zero_of_not_pos zero, Nat.mul_zero] at ends
        omega
      have inside : position / size < count :=
        Nat.div_lt_of_lt_mul (by rw [Nat.mul_comm]; omega)
      have above := Nat.div_mul_le_self position size
      have below := Nat.lt_div_mul_add positive (a := position)
      refine ⟨_, List.mem_map_of_mem (List.mem_range.mpr inside), above, ?_⟩
      simp only [evenSpan]
      split <;> omega
    · rintro ⟨_, member, covers⟩
      obtain ⟨index, inside, rfl⟩ := List.mem_map.mp member
      have index_lt := List.mem_range.mp inside
      obtain ⟨above, below⟩ := covers
      simp only [evenSpan] at above below
      split at below
      · omega
      · have next : (index + 1) * size ≤ (count - 1) * size :=
          Nat.mul_le_mul_right size (by omega)
        rw [Nat.succ_mul] at next
        omega
  · rw [List.pairwise_map]
    refine List.pairwise_lt_range.imp_of_mem ?_
    intro left right inLeft inRight earlier
    have left_lt := List.mem_range.mp inLeft
    have right_lt := List.mem_range.mp inRight
    have next : (left + 1) * size ≤ right * size := Nat.mul_le_mul_right size earlier
    rw [Nat.succ_mul] at next
    refine Span.Apart.within ?_ (within left left_lt) (within right right_lt)
    rintro position ⟨_, below⟩ ⟨above, _⟩
    simp only at below above
    omega

/-- Rounding up twice, from a target size to a count and from the count to a size, gives no
more than the target and leaves no span empty.
-/
theorem ceilDiv_ceilDiv {target : Nat} (nonempty : 0 < total) (positive : 0 < target)
    : 0 < total ⌈/⌉ target
      ∧ total ⌈/⌉ (total ⌈/⌉ target) ≤ target
      ∧ (total ⌈/⌉ target - 1) * (total ⌈/⌉ (total ⌈/⌉ target)) < total
      ∧ total ≤ (total ⌈/⌉ target) * (total ⌈/⌉ (total ⌈/⌉ target)) := by
  have enough : total ≤ target * (total ⌈/⌉ target) := le_smul_ceilDiv positive
  have count_pos : 0 < total ⌈/⌉ target := by
    by_contra none
    rw [Nat.eq_zero_of_not_pos none] at enough
    omega
  have size_le : total ⌈/⌉ (total ⌈/⌉ target) ≤ target := by
    rw [ceilDiv_le_iff_le_mul count_pos, Nat.mul_comm]
    exact enough
  refine ⟨count_pos, size_le, ?_, le_smul_ceilDiv count_pos⟩
  -- one span fewer of the target size would not reach the end
  have short : (total ⌈/⌉ target - 1) * target < total := by
    by_contra reaches
    have fewer : total ⌈/⌉ target ≤ total ⌈/⌉ target - 1 := by
      rw [ceilDiv_le_iff_le_mul positive, Nat.mul_comm]
      omega
    omega
  exact Nat.lt_of_le_of_lt (Nat.mul_le_mul_left _ size_le) short

end Tilings
