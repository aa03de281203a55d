import Mathlib.Data.List.Basic
import Mathlib.Data.List.GetD
import Mathlib.Data.List.Range

/-! Files as total functions from offsets to bytes, compared with a reference content on
ranges of offsets.
-/

namespace Content

variable {β : Type*} {file content : Nat → β} {low middle high offset size : Nat}

/-- Store `bytes` from `offset` on and leave every other offset alone. -/
def write (file : Nat → β) (offset : Nat) (bytes : List β) : Nat → β := fun position =>
  if offset ≤ position then bytes.getD (position - offset) (file position) else file position

/-- The `size` bytes of `content` from `start` on. -/
def slice (content : Nat → β) (start size : Nat) : List β :=
  (List.range size).map fun index => content (start + index)

/-- `file` equals `content` at every offset of `[low, high)`. -/
def Agrees (file content : Nat → β) (low high : Nat) : Prop :=
  ∀ position, low ≤ position → position < high → file position = content position

@[simp]
theorem slice_length (content : Nat → β) (start size : Nat)
    : (slice content start size).length = size := by
  simp [slice]

@[simp]
theorem slice_zero (content : Nat → β) (start : Nat) : slice content start 0 = [] := rfl

theorem slice_getD (content : Nat → β) (start size index : Nat) (other : β)
    (inside : index < size)
    : (slice content start size).getD index other = content (start + index) := by
  simp [slice, List.getD_eq_getElem?_getD, inside]

theorem slice_take (content : Nat → β) (start size count : Nat)
    : (slice content start size).take count = slice content start (min count size) := by
  rw [slice, ← List.map_take, List.take_range, slice]

theorem slice_drop (content : Nat → β) (start size count : Nat)
    : (slice content start size).drop count = slice content (start + count) (size - count) := by
  apply List.ext_getElem
  · simp
  · intro index _ _
    simp [slice, Nat.add_assoc]

/-- Nothing has to agree on an empty range. -/
theorem Agrees.empty (file content : Nat → β) (low : Nat) : Agrees file content low low := by
  intro position above below
  omega

/-- Agreement on two adjacent ranges is agreement on their union. -/
theorem Agrees.append (left : Agrees file content low middle)
    (right : Agrees file content middle high)
    : Agrees file content low high := by
  intro position above below
  by_cases first : position < middle
  · exact left position above first
  · exact right position (by omega) below

/-- Writing a slice of the content at its own offset keeps every agreement. -/
theorem Agrees.write_slice (agrees : Agrees file content low high) (offset size : Nat)
    : Agrees (write file offset (slice content offset size)) content low high := by
  intro position above below
  simp only [write]
  split
  · rename_i reached
    by_cases inside : position - offset < size
    · rw [slice_getD content offset size _ _ inside, Nat.add_sub_cancel' reached]
    · rw [List.getD_eq_default _ _ (by simpa using inside)]
      exact agrees position above below
  · exact agrees position above below

/-- A written slice agrees with the content where it was written. -/
theorem agrees_of_write_slice (file content : Nat → β) (offset size : Nat)
    : Agrees (write file offset (slice content offset size)) content offset (offset + size) := by
  intro position above below
  rw [write, if_pos above, slice_getD content offset size _ _ (by omega),
    Nat.add_sub_cancel' above]

/-- Writing the next slice extends an agreement to its right. -/
theorem Agrees.extend (agrees : Agrees file content low offset) (size : Nat)
    : Agrees (write file offset (slice content offset size)) content low (offset + size) :=
  (agrees.write_slice offset size).append (agrees_of_write_slice file content offset size)

end Content
