import Mathlib.Data.List.Basic

/-! Binary file streams: a reader that fails at the end of the file and a writer whose bytes
reach the device in order, all of them or up to a cut.
-/

namespace FileStreams

abbrev Bytes := List UInt8

/-- The bytes stored from `position` on, over what was there; a gap is filled with zeros. -/
def overwrite (content : Bytes) (position : Nat) (bytes : Bytes) : Bytes :=
  if bytes = [] then content
  else
    content.take position ++ List.replicate (position - content.length) 0 ++ bytes
      ++ content.drop (position + bytes.length)

/-- What a device takes of some bytes: all of them, or the first `room`. -/
def reach (room : Option Nat) (bytes : Bytes) : Bytes :=
  match room with
  | none => bytes
  | some room => bytes.take room

/-- The first bytes of `new`, then what `old` holds behind them. -/
def splice (cut : Nat) (new old : Bytes) : Bytes := new.take cut ++ old.drop cut

-----------------------------------------------------------------------------------------
-- Reading
-----------------------------------------------------------------------------------------

/-- A stream open for reading. -/
structure InStream where
  content : Bytes
  position : Nat
  good : Bool

namespace InStream

/-- A stream at the end of `before` with `rest` ahead. -/
def between (before rest : Bytes) : InStream where
  content := before ++ rest
  position := before.length
  good := true

/-- Read `count` bytes; a shorter read delivers what there is and fails the stream. -/
def read (count : Nat) (stream : InStream) : Bytes × InStream :=
  if stream.good then
    let bytes := (stream.content.drop stream.position).take count
    (bytes, { stream with
      position := stream.position + bytes.length
      good := bytes.length == count })
  else ([], stream)

def tellg (stream : InStream) : Int :=
  if stream.good then stream.position else -1

def seekg (position : Nat) (stream : InStream) : InStream :=
  if stream.good then { stream with position } else stream

@[simp]
theorem tellg_between (before rest : Bytes)
    : (between before rest).tellg = before.length := rfl

@[simp]
theorem between_good (before rest : Bytes) : (between before rest).good = true := rfl

/-- A read of exactly the next bytes moves past them. -/
theorem read_between (before bytes rest : Bytes)
    : (between before (bytes ++ rest)).read bytes.length
        = (bytes, between (before ++ bytes) rest) := by
  simp [read, between]

/-- A read past the end delivers what there is and fails the stream. -/
theorem read_short (before : Bytes) {rest : Bytes} {count : Nat} (short : rest.length < count)
    : ((between before rest).read count).1 = rest
      ∧ ((between before rest).read count).2.good = false := by
  have all : rest.take count = rest := List.take_of_length_le (by omega)
  have differs : ¬ rest.length = count := by omega
  simp [read, between, all, differs]

theorem read_failed {stream : InStream} (count : Nat) (failed : stream.good = false)
    : stream.read count = ([], stream) := by
  simp [read, failed]

end InStream

-----------------------------------------------------------------------------------------
-- Writing
-----------------------------------------------------------------------------------------

/-- How a device treats one opened file. -/
structure Device where
  opens : Bool := true
  /-- How many bytes it takes, if not all. -/
  room : Option Nat := none
  /-- A write it does not take whole is reported; one that waits in a buffer is not. -/
  reports : Bool := true
deriving DecidableEq, Repr

/-- A device that takes everything. -/
def Device.working : Device := {}

/-- The device takes this many bytes. -/
def Device.Takes (device : Device) (count : Nat) : Prop :=
  ∀ room ∈ device.room, count ≤ room

instance (device : Device) (count : Nat) : Decidable (device.Takes count) := by
  unfold Device.Takes
  infer_instance

/-- A stream open for writing. -/
structure OutStream where
  content : Bytes
  position : Nat
  good : Bool
  device : Device

namespace OutStream

/-- A stream at the start of a file. -/
def start (content : Bytes) (device : Device) : OutStream where
  content := content
  position := 0
  good := true
  device := device

def write (bytes : Bytes) (stream : OutStream) : OutStream :=
  if stream.good then
    let reached := reach stream.device.room bytes
    {
      content := overwrite stream.content stream.position reached
      position := stream.position + bytes.length
      good := reached.length == bytes.length || !stream.device.reports
      device :=
        { stream.device with room := stream.device.room.map fun room => room - bytes.length }
    }
  else stream

def tellp (stream : OutStream) : Int :=
  if stream.good then stream.position else -1

def seekp (position : Int) (stream : OutStream) : OutStream :=
  if stream.good then
    if 0 ≤ position then { stream with position := position.toNat }
    else { stream with good := false }
  else stream

end OutStream

-----------------------------------------------------------------------------------------
-- Overwriting
-----------------------------------------------------------------------------------------

@[simp]
theorem overwrite_nil (content : Bytes) (position : Nat)
    : overwrite content position [] = content := by
  simp [overwrite]

/-- Writing inside a file replaces a stretch of it. -/
theorem overwrite_of_le {content bytes : Bytes} {position : Nat}
    (inside : position ≤ content.length)
    : overwrite content position bytes
        = content.take position ++ bytes ++ content.drop (position + bytes.length) := by
  unfold overwrite
  split
  · rename_i empty
    simp [empty]
  · simp [Nat.sub_eq_zero_of_le inside]

/-- The stretch between two known parts of a file is replaced. -/
theorem overwrite_middle (before old after bytes : Bytes)
    (fits : bytes.length ≤ old.length)
    : overwrite (before ++ old ++ after) before.length bytes
        = before ++ (bytes ++ old.drop bytes.length) ++ after := by
  have inside : before.length ≤ (before ++ old ++ after).length := by
    simp only [List.length_append]
    omega
  rw [overwrite_of_le inside, List.append_assoc before, List.take_left, List.drop_append,
    List.drop_eq_nil_of_le (Nat.le_add_right _ _), List.nil_append, Nat.add_sub_cancel_left,
    List.drop_append_of_le_length fits]
  simp

/-- Storing some bytes and then the next ones stores them all. -/
theorem overwrite_overwrite (content left right : Bytes) (position : Nat)
    : overwrite (overwrite content position left) (position + left.length) right
        = overwrite content position (left ++ right) := by
  by_cases none_left : left = []
  · simp [none_left]
  by_cases none_right : right = []
  · simp [none_right]
  have whole : overwrite content position left
      = content.take position ++ List.replicate (position - content.length) 0 ++ left
        ++ content.drop (position + left.length) := by
    simp [overwrite, none_left]
  have front
      : position + left.length
        = (content.take position ++ List.replicate (position - content.length) 0
            ++ left).length := by
    simp only [List.length_append, List.length_take, List.length_replicate]
    omega
  have both : overwrite content position (left ++ right)
      = content.take position ++ List.replicate (position - content.length) 0
        ++ (left ++ right) ++ content.drop (position + left.length + right.length) := by
    simp [overwrite, none_left, Nat.add_assoc]
  rw [both, whole]
  generalize content.take position ++ List.replicate (position - content.length) 0 = head
    at front ⊢
  rw [front, overwrite_of_le (by simp), List.take_left, List.drop_append,
    List.drop_eq_nil_of_le (Nat.le_add_right _ _), List.nil_append, Nat.add_sub_cancel_left,
    List.drop_drop]
  simp only [List.append_assoc]

theorem splice_self (cut : Nat) (bytes : Bytes) : splice cut bytes bytes = bytes :=
  List.take_append_drop cut bytes

/-- A cut through two contents of the same layout is a cut through each part. -/
theorem splice_append {new old : Bytes} (cut : Nat) (same : new.length = old.length)
    (new_rest old_rest : Bytes)
    : splice cut (new ++ new_rest) (old ++ old_rest)
        = splice cut new old ++ splice (cut - new.length) new_rest old_rest := by
  simp only [splice, List.take_append, List.drop_append, same]
  by_cases inside : cut ≤ old.length
  · simp [Nat.sub_eq_zero_of_le inside]
  · have none_left : old.drop cut = [] := List.drop_eq_nil_of_le (by omega)
    simp [none_left]

/-- What an interrupted overwriting of equally many bytes leaves. -/
theorem reach_append_drop (room : Option Nat) {new old : Bytes} (same : new.length = old.length)
    : reach room new ++ old.drop (reach room new).length
        = splice (room.getD new.length) new old := by
  cases room with
  | none => simp [reach, splice]
  | some room =>
      by_cases inside : room ≤ new.length
      · simp [reach, splice, inside]
      · have beyond : new.length ≤ room := by omega
        have none_left : old.drop room = [] := List.drop_eq_nil_of_le (by omega)
        simp [reach, splice, List.take_of_length_le beyond, same, none_left]

theorem reach_length_le (room : Option Nat) (bytes : Bytes)
    : (reach room bytes).length ≤ bytes.length := by
  cases room with
  | none => exact Nat.le_refl _
  | some room => exact List.length_take_le' room bytes

theorem reach_length_eq_iff (room : Option Nat) (bytes : Bytes)
    : (reach room bytes).length = bytes.length ↔ ∀ enough ∈ room, bytes.length ≤ enough := by
  cases room with
  | none => simp [reach]
  | some room =>
      simp only [reach, List.length_take, Option.mem_some_iff, forall_eq']
      omega

theorem reach_prefix (room : Option Nat) (bytes : Bytes) : reach room bytes <+: bytes := by
  cases room with
  | none => exact List.prefix_rfl
  | some room => exact List.take_prefix room bytes

/-- Two writes in a row are one write of all the bytes, as far as the device takes them. -/
theorem reach_append (room : Option Nat) (left right : Bytes)
    : reach room (left ++ right)
        = reach room left ++ reach (room.map fun room => room - left.length) right := by
  cases room with
  | none => rfl
  | some room => simp [reach, List.take_append]

/-- What is not taken whole leaves no room for more. -/
theorem reach_rest {room : Option Nat} {left : Bytes}
    (cut : (reach room left).length ≠ left.length) (right : Bytes)
    : reach (room.map fun room => room - left.length) right = [] := by
  cases room with
  | none => simp [reach] at cut
  | some room =>
      have less : room - left.length = 0 := by
        simp only [reach, List.length_take] at cut
        omega
      simp [reach, less]

namespace OutStream

/-- A stream after some bytes were written to it, in one or several writes. -/
structure Wrote (first : OutStream) (bytes : Bytes) (last : OutStream) : Prop where
  content
    : last.content = overwrite first.content first.position (reach first.device.room bytes)
  good
    : last.good = true
      ↔ (reach first.device.room bytes).length = bytes.length
        ∨ first.device.reports = false
  position : last.good = true → last.position = first.position + bytes.length
  device
    : last.good = true
      → last.device
        = { first.device with room := first.device.room.map fun room => room - bytes.length }

variable {first last : OutStream} {bytes : Bytes}

theorem seekp_good {stream : OutStream} (good : stream.good = true) (position : Nat)
    : stream.seekp position = { stream with position } := by
  simp [seekp, good]

theorem seekp_bad {stream : OutStream} (bad : stream.good = false) (position : Int)
    : stream.seekp position = stream := by
  simp [seekp, bad]

theorem write_bad {stream : OutStream} (bad : stream.good = false) (bytes : Bytes)
    : stream.write bytes = stream := by
  simp [write, bad]

/-- A stream that is good was good before the write. -/
theorem good_of_write (good : (last.write bytes).good = true) : last.good = true := by
  by_contra bad
  rw [OutStream.write, if_neg bad] at good
  exact bad good

theorem Wrote.tellp (wrote : first.Wrote bytes last) (good : last.good = true)
    : last.tellp = first.position + bytes.length := by
  rw [OutStream.tellp, if_pos good, wrote.position good, Int.natCast_add]

theorem wrote_nothing (first : OutStream) (good : first.good = true)
    : first.Wrote [] first where
  content := by cases room : first.device.room <;> simp [reach]
  good := by cases room : first.device.room <;> simp [reach, good]
  position := fun _ => rfl
  device := by cases room : first.device.room <;> simp [← room]

/-- Further bytes are stored behind the ones before. -/
theorem Wrote.write (wrote : first.Wrote bytes last) (more : Bytes)
    : first.Wrote (bytes ++ more) (last.write more) := by
  have further := reach_append first.device.room bytes more
  by_cases good : last.good = true
  · have position := wrote.position good
    have device := wrote.device good
    by_cases whole : (reach first.device.room bytes).length = bytes.length
    · constructor
      case content =>
        rw [OutStream.write, if_pos good, further, ← overwrite_overwrite, whole]
        simp only [device, position, wrote.content]
      case good =>
        rw [OutStream.write, if_pos good, further, List.length_append, whole, List.length_append]
        simp [device]
      case position =>
        intro _
        rw [OutStream.write, if_pos good]
        simp [position, Nat.add_assoc]
      case device =>
        intro _
        rw [OutStream.write, if_pos good, device]
        cases first.device.room <;> simp [Nat.sub_sub]
    · have silent := (wrote.good.mp good).resolve_left whole
      have rest := reach_rest whole more
      constructor
      case content =>
        rw [OutStream.write, if_pos good, further, rest, List.append_nil, device]
        simp only [rest, overwrite_nil, wrote.content]
      case good =>
        rw [OutStream.write, if_pos good, device]
        simp [silent]
      case position =>
        intro _
        rw [OutStream.write, if_pos good]
        simp [position, Nat.add_assoc]
      case device =>
        intro _
        rw [OutStream.write, if_pos good, device]
        cases first.device.room <;> simp [Nat.sub_sub]
  · have cut : (reach first.device.room bytes).length ≠ bytes.length :=
      fun whole => good (wrote.good.mpr (Or.inl whole))
    have short := reach_length_le first.device.room bytes
    have same : last.write more = last := by rw [OutStream.write, if_neg good]
    rw [same]
    constructor
    case content => rw [further, reach_rest cut, List.append_nil, wrote.content]
    case good =>
      have reported : first.device.reports ≠ false :=
        fun silent => good (wrote.good.mpr (Or.inr silent))
      rw [further, reach_rest cut, List.append_nil, List.length_append]
      constructor
      · exact fun open_ => absurd open_ good
      · rintro (whole | silent)
        · omega
        · exact absurd silent reported
    case position => exact fun open_ => absurd open_ good
    case device => exact fun open_ => absurd open_ good

end OutStream

end FileStreams
