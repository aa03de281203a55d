import Muld.Library.Readers

/-! Functions over a binary stream written out step by step, so that it can be said how much
of the stream is left where they ask for a buffer.
-/

namespace FileStreams

/-- The steps of a function over a stream. -/
inductive Script (α : Type) : Type
  | done (value : α)
  | reading (count : Nat) (next : Bytes → Script α)
  | telling (next : Int → Script α)
  | seeking (position : Nat) (next : Script α)
  | checking (next : Script α)
  /-- A buffer of `size` elements of `width` bytes each, at most `limit` of them. -/
  | resizing (size width limit : Nat) (next : Script α)

/-- How many bytes are left to read. -/
def InStream.left (stream : InStream) : Nat := stream.content.length - stream.position

@[simp]
theorem InStream.left_between (before rest : Bytes)
    : (between before rest).left = rest.length := by
  simp [left, between]

/-- Whether or not there are enough bytes, a read takes what there is of them. -/
theorem InStream.read_between_take (before rest : Bytes) (count : Nat)
    : ((between before rest).read count).1 = rest.take count
      ∧ ((between before rest).read count).2.left = rest.length - count := by
  by_cases short : rest.length ≤ count
  · simp [read, between, left, Nat.sub_eq_zero_of_le short, List.take_of_length_le short]
  · have enough : min count rest.length = count := by omega
    simp [read, between, left, enough, Nat.add_sub_add_left]

namespace Script

variable {α β : Type}

protected def bind (next : α → Script β) : Script α → Script β
  | .done value => next value
  | .reading count rest => .reading count fun bytes => (rest bytes).bind next
  | .telling rest => .telling fun position => (rest position).bind next
  | .seeking position rest => .seeking position (rest.bind next)
  | .checking rest => .checking (rest.bind next)
  | .resizing size width limit rest => .resizing size width limit (rest.bind next)

instance instMonad : Monad Script where
  pure := .done
  bind script next := script.bind next

def read (count : Nat) : Script Bytes := .reading count .done

def tellg : Script Int := .telling .done

def seekg (position : Nat) : Script Unit := .seeking position (.done ())

def check : Script Unit := .checking (.done ())

def resize (size width limit : Nat) : Script Unit := .resizing size width limit (.done ())

def readUnlessEmpty (count : Nat) : Script Bytes :=
  if count > 0 then read count else pure []

def readAs (width : Nat) (value : Bytes → α) : Script α := do
  return value (← read width)

-----------------------------------------------------------------------------------------
-- The function that a script stands for
-----------------------------------------------------------------------------------------

def run : Script α → Reader α
  | .done value => pure value
  | .reading count next => Reader.read count >>= fun bytes => (next bytes).run
  | .telling next => Reader.tellg >>= fun position => (next position).run
  | .seeking position next => Reader.seekg position >>= fun _ => next.run
  | .checking next => Reader.check >>= fun _ => next.run
  | .resizing size _ limit next => Reader.resize size limit >>= fun _ => next.run

@[simp]
theorem run_pure (value : α) : (pure value : Script α).run = pure value := rfl

/-- By induction on the steps of the first script. -/
@[simp]
theorem run_bind (script : Script α) (next : α → Script β)
    : (script >>= next).run = script.run >>= fun value => (next value).run := by
  change (script.bind next).run = _
  have assoc {γ : Type} (first : Reader γ) (rest : γ → Reader α)
      : ((first >>= rest) >>= fun value => (next value).run)
          = first >>= fun value => rest value >>= fun value => (next value).run := by
    funext reading
    simp only [Reader.bind_apply]
    generalize first reading = outcome
    obtain ⟨stop | value, further⟩ := outcome <;> rfl
  induction script with
  | done value => rfl
  | reading count rest ih => simp only [Script.bind, run, ih, assoc]
  | telling rest ih => simp only [Script.bind, run, ih, assoc]
  | seeking position rest ih => simp only [Script.bind, run, ih, assoc]
  | checking rest ih => simp only [Script.bind, run, ih, assoc]
  | resizing size width limit rest ih => simp only [Script.bind, run, ih, assoc]

/-- By induction on the steps of the first script. -/
theorem bind_assoc {γ : Type} (script : Script α) (next : α → Script β) (last : β → Script γ)
    : script >>= next >>= last = script >>= fun value => next value >>= last := by
  change (script.bind next).bind last = script.bind fun value => (next value).bind last
  induction script with
  | done value => rfl
  | reading count rest ih => simp only [Script.bind, ih]
  | telling rest ih => simp only [Script.bind, ih]
  | seeking position rest ih => simp only [Script.bind, ih]
  | checking rest ih => simp only [Script.bind, ih]
  | resizing size width limit rest ih => simp only [Script.bind, ih]

/-- A step followed by its own result is the step. -/
theorem bind_pure_apply (reader : Reader α) : (reader >>= fun value => pure value) = reader := by
  funext reading
  rw [Reader.bind_apply]
  generalize reader reading = outcome
  obtain ⟨stop | value, further⟩ := outcome <;> rfl

@[simp]
theorem run_read (count : Nat) : (read count).run = Reader.read count := bind_pure_apply _

@[simp]
theorem run_tellg : tellg.run = Reader.tellg := bind_pure_apply _

@[simp]
theorem run_seekg (position : Nat) : (seekg position).run = Reader.seekg position :=
  bind_pure_apply _

@[simp]
theorem run_check : check.run = Reader.check := bind_pure_apply _

@[simp]
theorem run_resize (size width limit : Nat)
    : (resize size width limit).run = Reader.resize size limit := bind_pure_apply _

@[simp]
theorem run_readUnlessEmpty (count : Nat)
    : (readUnlessEmpty count).run = Reader.readUnlessEmpty count := by
  rw [readUnlessEmpty, Reader.readUnlessEmpty]
  split
  · exact run_read count
  · rfl

@[simp]
theorem run_readAs (width : Nat) (value : Bytes → α)
    : (readAs width value).run = Reader.readAs width value := by
  rw [readAs, Reader.readAs, run_bind, run_read]
  rfl

-----------------------------------------------------------------------------------------
-- Buffers
-----------------------------------------------------------------------------------------

/-- A buffer that is asked for, and how much of the stream is left then. -/
structure Request where
  bytes : Nat
  left : Nat
deriving DecidableEq, Repr

/-- The buffers that a script asks for, the one that cannot be made included. -/
def requests : Script α → InStream → List Request
  | .done _, _ => []
  | .reading count next, stream =>
      (next (stream.read count).1).requests (stream.read count).2
  | .telling next, stream => (next stream.tellg).requests stream
  | .seeking position next, stream => next.requests (stream.seekg position)
  | .checking next, stream => if stream.good then next.requests stream else []
  | .resizing size width limit next, stream =>
      ⟨size * width, stream.left⟩ :: if size ≤ limit then next.requests stream else []

/-- Every buffer is no larger than what is left of the stream, and can be made. -/
def Modest : Script α → InStream → Prop
  | .done _, _ => True
  | .reading count next, stream => (next (stream.read count).1).Modest (stream.read count).2
  | .telling next, stream => (next stream.tellg).Modest stream
  | .seeking position next, stream => next.Modest (stream.seekg position)
  | .checking next, stream => stream.good = true → next.Modest stream
  | .resizing size width limit next, stream =>
      size * width ≤ stream.left ∧ size ≤ limit ∧ next.Modest stream

/-- By induction on the steps. -/
theorem modest_iff (script : Script α) (stream : InStream) (asked : List Nat)
    : script.Modest stream
      ↔ (∀ request ∈ script.requests stream, request.bytes ≤ request.left)
        ∧ (script.run ⟨stream, asked⟩).1 ≠ .error .lengthError := by
  induction script generalizing stream asked with
  | done value => simp [Modest, requests, run, Reader.pure_apply]
  | reading count next ih => exact ih _ _ asked
  | telling next ih => exact ih _ _ asked
  | seeking position next ih => exact ih _ asked
  | checking next ih =>
      cases good : stream.good with
      | true =>
          simpa [Modest, requests, run, Reader.bind_apply, Reader.check, good]
            using ih stream asked
      | false => simp [Modest, requests, run, Reader.bind_apply, Reader.check, good]
  | resizing size width limit next ih =>
      by_cases fits : size ≤ limit
      · simp only [Modest, requests, run, Reader.bind_apply, Reader.resize, fits, if_true,
          List.forall_mem_cons, true_and, ih stream (asked ++ [size]), and_assoc]
      · simp [Modest, requests, run, Reader.bind_apply, Reader.resize, fits]

variable {next : α → Script β}

/-- Nothing is asked for on a failed stream. -/
def Quiet (script : Script α) : Prop :=
  ∀ stream : InStream, stream.good = false → script.Modest stream

theorem quiet_readAs (width : Nat) (value : Bytes → α) (quiet : Quiet (next (value [])))
    : Quiet (readAs width value >>= next) := by
  intro stream failed
  change (next (value (stream.read width).1)).Modest (stream.read width).2
  rw [InStream.read_failed width failed]
  exact quiet stream failed

theorem quiet_tellg {next : Int → Script β} (quiet : ∀ position, Quiet (next position))
    : Quiet (tellg >>= next) :=
  fun stream failed => quiet stream.tellg stream failed

/-- A failed stream does not pass a check. -/
theorem quiet_check (next : Unit → Script β) : Quiet (check >>= next) := by
  intro stream failed good
  rw [failed] at good
  cases good

/-- A field before which nothing is asked for unless it was read whole. -/
theorem modest_field {width : Nat} {value : Bytes → α} (before rest : Bytes)
    (quiet : Quiet (next (value rest)))
    : (readAs width value >>= next).Modest (.between before rest)
      ↔ (width ≤ rest.length
        → (next (value (rest.take width))).Modest
            (.between (before ++ rest.take width) (rest.drop width))) := by
  change (next (value (InStream.read width _).1)).Modest (InStream.read width _).2 ↔ _
  by_cases short : rest.length < width
  · obtain ⟨delivered, failed⟩ := InStream.read_short before short
    rw [delivered]
    exact iff_of_true (quiet _ failed) fun enough => absurd enough (Nat.not_le_of_lt short)
  · have enough : width ≤ rest.length := Nat.le_of_not_lt short
    have whole := InStream.read_between before (rest.take width) (rest.drop width)
    rw [List.take_append_drop, List.length_take_of_le enough] at whole
    rw [whole]
    exact ⟨fun modest _ => modest, fun modest => modest enough⟩

theorem modest_check (next : Unit → Script β) {stream : InStream} (good : stream.good = true)
    : (check >>= next).Modest stream ↔ (next ()).Modest stream :=
  ⟨fun modest => modest good, fun modest _ => modest⟩

theorem modest_tellg (next : Int → Script β) (stream : InStream)
    : (tellg >>= next).Modest stream ↔ (next stream.tellg).Modest stream := Iff.rfl

theorem modest_resize (size width limit : Nat) (next : Unit → Script β) (stream : InStream)
    : (resize size width limit >>= next).Modest stream
      ↔ size * width ≤ stream.left ∧ size ≤ limit ∧ (next ()).Modest stream := Iff.rfl

/-- Two fields in a row are there if there are enough bytes for both. -/
theorem enough_for_both (left right : Nat) (rest : Bytes) (holds : Prop)
    : (left ≤ rest.length → right ≤ (rest.drop left).length → holds)
      ↔ (left + right ≤ rest.length → holds) := by
  rw [List.length_drop]
  exact ⟨fun both enough => both (by omega) (by omega), fun both _ _ => both (by omega)⟩

/-- As many elements as a buffer was made for are read from what was left. -/
theorem modest_readUnlessEmpty {count : Nat} {next : Bytes → Script β} (before rest : Bytes)
    (enough : count ≤ rest.length)
    : (readUnlessEmpty count >>= next).Modest (.between before rest)
      ↔ (next (rest.take count)).Modest
          (.between (before ++ rest.take count) (rest.drop count)) := by
  rw [readUnlessEmpty]
  split
  · change (next (InStream.read count _).1).Modest (InStream.read count _).2 ↔ _
    have whole := InStream.read_between before (rest.take count) (rest.drop count)
    rw [List.take_append_drop, List.length_take_of_le enough] at whole
    rw [whole]
  · rename_i empty
    obtain rfl : count = 0 := by omega
    rw [List.take_zero, List.drop_zero, List.append_nil]
    exact Iff.rfl

/-- Reads do not ask for buffers. -/
theorem modest_readUnlessEmpty_of_all (count : Nat) {next : Bytes → Script β}
    (all : ∀ bytes stream, (next bytes).Modest stream) (stream : InStream)
    : (readUnlessEmpty count >>= next).Modest stream := by
  rw [readUnlessEmpty]
  split
  · exact all _ _
  · exact all _ _

end Script

end FileStreams
