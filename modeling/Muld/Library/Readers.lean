import Muld.Library.FileStreams
import Mathlib.Data.List.Forall2

/-! Functions that read a binary stream field by field, and what they do on a file that holds
their fields and on one that ends too early. A function may ask for a buffer of a size it
has just read, and may return false in the middle.
-/

namespace FileStreams

/-- Why a function over a stream ends before its last field. -/
inductive Stop
  | refused
  | lengthError
deriving DecidableEq, Repr

/-- The stream and the sizes of the buffers asked for so far. -/
structure Reading where
  stream : InStream
  asked : List Nat

def Reader (α : Type) : Type := Reading → Except Stop α × Reading

namespace Reader

variable {α β : Type}

instance : Monad Reader where
  pure value reading := (.ok value, reading)
  bind first next reading :=
    match first reading with
    | (.ok value, further) => next value further
    | (.error stop, further) => (.error stop, further)

def read (count : Nat) : Reader Bytes := fun reading =>
  (.ok (reading.stream.read count).1,
    { reading with stream := (reading.stream.read count).2 })

def tellg : Reader Int := fun reading => (.ok reading.stream.tellg, reading)

def seekg (position : Nat) : Reader Unit := fun reading =>
  (.ok (), { reading with stream := reading.stream.seekg position })

/-- Return false if the stream has failed. -/
def check : Reader Unit := fun reading =>
  (if reading.stream.good then .ok () else .error .refused, reading)

/-- Make a buffer of `size` elements, at most `limit`. -/
def resize (size limit : Nat) : Reader Unit := fun reading =>
  if size ≤ limit then (.ok (), { reading with asked := reading.asked ++ [size] })
  else (.error .lengthError, reading)

/-- A read that is skipped when it is of no bytes. -/
def readUnlessEmpty (count : Nat) : Reader Bytes :=
  if count > 0 then read count else pure []

/-- A fixed number of bytes, read into a variable. -/
def readAs (width : Nat) (value : Bytes → α) : Reader α := do
  return value (← read width)

theorem bind_apply (first : Reader α) (next : α → Reader β) (reading : Reading)
    : (first >>= next) reading
        = match first reading with
          | (.ok value, further) => next value further
          | (.error stop, further) => (.error stop, further) := rfl

theorem pure_apply (value : α) (reading : Reading)
    : (pure value : Reader α) reading = (.ok value, reading) := rfl

-----------------------------------------------------------------------------------------
-- Files that hold the fields
-----------------------------------------------------------------------------------------

/-- After `before`, the function takes exactly `bytes` for `value` and asks for buffers of
these sizes.
-/
def Reads (reader : Reader α) (before bytes : Bytes) (value : α) (sizes : List Nat) : Prop :=
  ∀ (rest : Bytes) (asked : List Nat),
    reader ⟨.between before (bytes ++ rest), asked⟩
      = (.ok value, ⟨.between (before ++ bytes) rest, asked ++ sizes⟩)

variable {first : Reader α} {next : α → Reader β} {before left right bytes : Bytes}
variable {value : α} {result : β} {early late sizes : List Nat}

theorem reads_pure (before : Bytes) (value : α) : Reads (pure value) before [] value [] := by
  intro rest asked
  simp [pure_apply]

theorem Reads.bind (reads : Reads first before left value early)
    (reads_next : Reads (next value) (before ++ left) right result late)
    : Reads (first >>= next) before (left ++ right) result (early ++ late) := by
  intro rest asked
  rw [bind_apply, List.append_assoc, reads]
  simp [reads_next rest (asked ++ early)]

/-- A field that needs no buffer. -/
theorem Reads.bind_field (reads : Reads first before left value [])
    (reads_next : Reads (next value) (before ++ left) right result late)
    : Reads (first >>= next) before (left ++ right) result late :=
  reads.bind reads_next

/-- A field followed by nothing but a result. -/
theorem Reads.bind_last (reads : Reads first before left value early)
    (reads_next : Reads (next value) (before ++ left) [] result [])
    : Reads (first >>= next) before left result early := by
  simpa using reads.bind reads_next

/-- A step that takes no bytes and no buffer. -/
theorem Reads.bind_silent (reads : Reads first before [] value [])
    (reads_next : Reads (next value) before right result late)
    : Reads (first >>= next) before right result late := by
  rw [← List.append_nil before] at reads_next
  simpa using reads.bind reads_next

theorem reads_read (before bytes : Bytes)
    : Reads (read bytes.length) before bytes bytes [] := by
  intro rest asked
  simp [read, InStream.read_between]

theorem reads_readUnlessEmpty (before : Bytes) {count : Nat} (length : bytes.length = count)
    : Reads (readUnlessEmpty count) before bytes bytes [] := by
  subst length
  rw [readUnlessEmpty]
  split
  · exact reads_read before bytes
  · rename_i empty
    obtain rfl : bytes = [] := List.eq_nil_of_length_eq_zero (by omega)
    exact reads_pure before []

theorem reads_tellg (before : Bytes) : Reads tellg before [] before.length [] := by
  intro rest asked
  simp [tellg]

theorem reads_check (before : Bytes) : Reads check before [] () [] := by
  intro rest asked
  simp [check]

/-- A buffer that fits is made. -/
theorem Reads.bind_resize {size limit : Nat} {next : Unit → Reader β} (fits : size ≤ limit)
    (reads_next : Reads (next ()) before right result late)
    : Reads (resize size limit >>= next) before right result (size :: late) := by
  intro rest asked
  have step := reads_next rest (asked ++ [size])
  simpa [bind_apply, resize, fits] using step

theorem reads_readAs (before : Bytes) {width : Nat} (length : bytes.length = width)
    (value : Bytes → α) : Reads (readAs width value) before bytes (value bytes) [] := by
  have reads := reads_read before bytes
  rw [length] at reads
  exact reads.bind_last (reads_pure _ _)

-----------------------------------------------------------------------------------------
-- Files that end too early
-----------------------------------------------------------------------------------------

/-- Fewer buffers, and none larger than its counterpart. -/
inductive AtMost : List Nat → List Nat → Prop
  | nil (sizes : List Nat) : AtMost [] sizes
  | cons {asked size : Nat} {more sizes : List Nat} (le : asked ≤ size)
      (rest : AtMost more sizes) : AtMost (asked :: more) (size :: sizes)

theorem AtMost.append_right {more sizes : List Nat} (small : AtMost more sizes)
    (further : List Nat) : AtMost more (sizes ++ further) := by
  induction small with
  | nil sizes => exact .nil _
  | cons le rest ih => exact .cons le ih

theorem AtMost.append {more sizes further : List Nat} (same : List.Forall₂ (· ≤ ·) more sizes)
    {late : List Nat} (small : AtMost further late)
    : AtMost (more ++ further) (sizes ++ late) := by
  induction same with
  | nil => exact small
  | cons le _ ih => exact .cons le ih

/-- The end of a function that found its stream too short: it returned false, or goes on
with a failed stream and a value that `partly` describes.
-/
inductive Ended (partly : α → Prop) (asked sizes : List Nat)
    : Except Stop α × Reading → Prop
  | refused (stream : InStream) (more : List Nat) (small : AtMost more sizes)
      : Ended partly asked sizes (.error .refused, ⟨stream, asked ++ more⟩)
  | failed (value : α) (stream : InStream) (more : List Nat) (part : partly value)
      (bad : stream.good = false) (small : List.Forall₂ (· ≤ ·) more sizes)
      : Ended partly asked sizes (.ok value, ⟨stream, asked ++ more⟩)

/-- After `before`, the function finds every strict prefix of `bytes` too short. -/
def Refuses (reader : Reader α) (partly : α → Prop) (before bytes : Bytes)
    (sizes : List Nat) : Prop :=
  ∀ (cut : Bytes) (asked : List Nat), cut <+: bytes → cut.length < bytes.length →
    Ended partly asked sizes (reader ⟨.between before cut, asked⟩)

/-- The function reads nothing from a failed stream. -/
def Idles (reader : Reader α) (partly : α → Prop) (sizes : List Nat) : Prop :=
  ∀ (stream : InStream) (asked : List Nat), stream.good = false →
    Ended partly asked sizes (reader ⟨stream, asked⟩)

variable {partly : α → Prop} {partlyNext : β → Prop}

/-- What was asked for before counts as well. -/
theorem Ended.prepend {asked more : List Nat} {outcome : Except Stop α × Reading}
    (ended : Ended partly (asked ++ more) late outcome)
    (small : List.Forall₂ (· ≤ ·) more early)
    : Ended partly asked (early ++ late) outcome := by
  cases ended with
  | refused stream further smaller =>
      rw [List.append_assoc]
      exact .refused stream _ (.append small smaller)
  | failed value stream further part bad smaller =>
      rw [List.append_assoc]
      exact .failed value stream _ part bad (List.rel_append small smaller)

theorem Ended.bind {asked : List Nat} {reading : Reading}
    (ended : Ended partly asked early (first reading))
    (idles : ∀ value, partly value → Idles (next value) partlyNext late)
    : Ended partlyNext asked (early ++ late) ((first >>= next) reading) := by
  rw [bind_apply]
  generalize first reading = outcome at ended
  cases ended with
  | refused stream more small => exact .refused stream more (small.append_right late)
  | failed value stream more part bad small =>
      exact (idles value part stream (asked ++ more) bad).prepend small

theorem Idles.bind (idles : Idles first partly early)
    (idles_next : ∀ value, partly value → Idles (next value) partlyNext late)
    : Idles (first >>= next) partlyNext (early ++ late) := by
  intro stream asked bad
  exact (idles stream asked bad).bind idles_next

/-- The file ends in the first part or in the second one. -/
theorem Refuses.bind (refuses : Refuses first partly before left early)
    (reads : Reads first before left value early)
    (idles : ∀ value, partly value → Idles (next value) partlyNext late)
    (refuses_next : Refuses (next value) partlyNext (before ++ left) right late)
    : Refuses (first >>= next) partlyNext before (left ++ right) (early ++ late) := by
  intro cut asked prefix_ short
  by_cases inside : cut.length < left.length
  · have first_part : cut <+: left :=
      List.prefix_of_prefix_length_le prefix_ (List.prefix_append left right) (Nat.le_of_lt inside)
    exact (refuses cut asked first_part inside).bind idles
  · obtain ⟨rest, rfl⟩ : left <+: cut :=
      List.prefix_of_prefix_length_le (List.prefix_append left right) prefix_ (by omega)
    have second_part : rest <+: right := (List.prefix_append_right_inj left).mp prefix_
    have step := refuses_next rest (asked ++ early) second_part
      (by simp only [List.length_append] at short; omega)
    rw [bind_apply, reads]
    exact step.prepend (List.forall₂_refl early)

/-- Nothing can be cut from a step that takes no bytes. -/
theorem Refuses.bind_silent (reads : Reads first before [] value [])
    (refuses_next : Refuses (next value) partlyNext before right late)
    : Refuses (first >>= next) partlyNext before right late := by
  intro cut asked prefix_ short
  have step := refuses_next cut asked prefix_ short
  have reads := reads cut asked
  rw [List.nil_append, List.append_nil, List.append_nil] at reads
  rw [bind_apply, reads]
  exact step

/-- A buffer that fits is made, and nothing can be cut from making it. -/
theorem Refuses.bind_resize {size limit : Nat} {next : Unit → Reader β} (fits : size ≤ limit)
    (refuses_next : Refuses (next ()) partlyNext before right late)
    : Refuses (resize size limit >>= next) partlyNext before right (size :: late) := by
  intro cut asked prefix_ short
  have step := (refuses_next cut (asked ++ [size]) prefix_ short).prepend
    (List.forall₂_refl [size])
  simpa [bind_apply, resize, fits] using step

/-- A step that is cut off before nothing that takes bytes. -/
theorem Refuses.bind_last (refuses : Refuses first partly before left early)
    (idles : ∀ value, partly value → Idles (next value) partlyNext late)
    : Refuses (first >>= next) partlyNext before left (early ++ late) := by
  intro cut asked prefix_ short
  exact (refuses cut asked prefix_ short).bind idles

theorem idles_pure {value : α} (part : partly value) : Idles (pure value) partly [] := by
  intro stream asked bad
  have ended : Ended partly asked [] (.ok value, ⟨stream, asked ++ []⟩) :=
    .failed value stream [] part bad .nil
  rwa [List.append_nil] at ended

/-- A failed stream does not pass a check. -/
theorem idles_check (next : Unit → Reader β) (sizes : List Nat)
    : Idles (check >>= next) partlyNext sizes := by
  intro stream asked bad
  have ended : Ended partlyNext asked sizes (.error .refused, ⟨stream, asked ++ []⟩) :=
    .refused stream [] (.nil _)
  rw [List.append_nil] at ended
  simpa [check, bind_apply, bad] using ended

/-- On a failed stream only the buffer of a size read in part is made. -/
theorem Idles.bind_resize {size full limit : Nat} {next : Unit → Reader β} (fits : size ≤ limit)
    (part : size ≤ full) (idles_next : Idles (next ()) partlyNext late)
    : Idles (resize size limit >>= next) partlyNext (full :: late) := by
  intro stream asked bad
  have step := (idles_next stream (asked ++ [size]) bad).prepend
    (List.Forall₂.cons part List.Forall₂.nil)
  simpa [bind_apply, resize, fits] using step

/-- A field that is cut off is read in part. -/
theorem refuses_readAs (before : Bytes) {width : Nat} (length : bytes.length = width)
    {value : Bytes → α} (part : ∀ cut, cut <+: bytes → partly (value cut))
    : Refuses (readAs width value) partly before bytes [] := by
  intro cut asked prefix_ short
  rw [length] at short
  obtain ⟨delivered, bad⟩ := InStream.read_short before short
  have ended : Ended partly asked []
      (.ok (value cut), ⟨((InStream.between before cut).read width).2, asked ++ []⟩) :=
    .failed _ _ [] (part cut prefix_) bad .nil
  rw [List.append_nil] at ended
  simpa [readAs, bind_apply, read, pure_apply, delivered] using ended

theorem idles_readAs {width : Nat} {value : Bytes → α} (part : partly (value []))
    : Idles (readAs width value) partly [] := by
  intro stream asked bad
  have ended : Ended partly asked [] (.ok (value []), ⟨stream, asked ++ []⟩) :=
    .failed _ _ [] part bad .nil
  rw [List.append_nil] at ended
  simpa [readAs, bind_apply, read, pure_apply, InStream.read_failed _ bad] using ended

theorem refuses_readUnlessEmpty (before : Bytes) {count : Nat} (length : bytes.length = count)
    : Refuses (readUnlessEmpty count) (fun _ => True) before bytes [] := by
  intro cut asked prefix_ short
  have some_ : count > 0 := by omega
  rw [length] at short
  obtain ⟨_, bad⟩ := InStream.read_short before short
  have ended : Ended (fun _ : Bytes => True) asked []
      (.ok ((InStream.between before cut).read count).1,
        ⟨((InStream.between before cut).read count).2, asked ++ []⟩) :=
    .failed _ _ [] trivial bad .nil
  rw [List.append_nil] at ended
  rwa [readUnlessEmpty, if_pos some_]

theorem idles_readUnlessEmpty (count : Nat)
    : Idles (readUnlessEmpty count) (fun _ => True) [] := by
  rw [readUnlessEmpty]
  split
  · intro stream asked bad
    have ended : Ended (fun _ : Bytes => True) asked [] (.ok [], ⟨stream, asked ++ []⟩) :=
      .failed _ _ [] trivial bad .nil
    rw [List.append_nil] at ended
    simpa [read, InStream.read_failed _ bad] using ended
  · exact idles_pure trivial

theorem idles_tellg : Idles tellg (fun _ => True) [] := by
  intro stream asked bad
  have ended : Ended (fun _ : Int => True) asked [] (.ok stream.tellg, ⟨stream, asked ++ []⟩) :=
    .failed _ _ [] trivial bad .nil
  rwa [List.append_nil] at ended

-----------------------------------------------------------------------------------------
-- What was read
-----------------------------------------------------------------------------------------

/-- Under `known`, a result that leaves the stream good was made of the next bytes, which
encode it; and no step of the function makes a failed stream good again.
-/
structure Takes (known : Prop) (reader : Reader α) (encodes : α → Bytes → Prop) : Prop where
  fails
    : ∀ (reading further : Reading) (value : α),
        reading.stream.good = false
        → reader reading = (.ok value, further)
        → further.stream.good = false
  takes
    : known
      → ∀ (before ahead : Bytes) (asked : List Nat) (value : α) (further : Reading),
          reader ⟨.between before ahead, asked⟩ = (.ok value, further)
          → further.stream.good = true
          → ∃ bytes rest,
              ahead = bytes ++ rest
              ∧ encodes value bytes
              ∧ further.stream = .between (before ++ bytes) rest

variable {known : Prop} {encodes : α → Bytes → Prop} {encodesNext : β → Bytes → Prop}

/-- What two steps made of a good stream was made of adjacent bytes; the second step knows
what the first one took.
-/
theorem Takes.bind (takes : Takes known first encodes)
    (takes_next
      : ∀ value left,
          Takes (known ∧ encodes value left) (next value)
            fun result right => encodesNext result (left ++ right))
    : Takes known (first >>= next) encodesNext := by
  constructor
  · intro reading further result failed same
    rw [bind_apply] at same
    cases taken : first reading with
    | mk outcome middle =>
        rw [taken] at same
        cases outcome with
        | error stop => cases same
        | ok value =>
            have middle_failed := takes.fails reading middle value failed taken
            exact (takes_next value []).fails middle further result middle_failed same
  · intro knows before ahead asked result further same good
    rw [bind_apply] at same
    cases taken : first ⟨.between before ahead, asked⟩ with
    | mk outcome middle =>
        rw [taken] at same
        cases outcome with
        | error stop => cases same
        | ok value =>
            have middle_good : middle.stream.good = true := by
              by_contra failed
              have still := (takes_next value []).fails middle further result
                (by simpa using failed) same
              rw [good] at still
              contradiction
            obtain ⟨left, rest, rfl, encoded, at_middle⟩ :=
              takes.takes knows before ahead asked value middle taken middle_good
            have same : next value ⟨.between (before ++ left) rest, middle.asked⟩
                = (.ok result, further) := by
              rw [← at_middle]
              exact same
            obtain ⟨right, last, rfl, encoded_next, at_end⟩ :=
              (takes_next value left).takes ⟨knows, encoded⟩ _ _ _ _ _ same good
            exact ⟨left ++ right, last, by simp, encoded_next, by simpa using at_end⟩

theorem takes_pure (holds : known → encodes value []) : Takes known (pure value) encodes := by
  constructor
  · intro reading further result failed same
    cases same
    exact failed
  · intro knows before ahead asked result further same good
    cases same
    exact ⟨[], ahead, rfl, holds knows, by simp⟩

/-- A read that leaves the stream good delivers as many bytes as it was asked for. -/
theorem takes_read (known : Prop) (count : Nat)
    : Takes known (read count) fun value bytes => value = bytes ∧ bytes.length = count := by
  constructor
  · intro reading further bytes failed same
    cases same
    rw [InStream.read_failed count failed]
    exact failed
  · intro _ before ahead asked value further same good
    cases same
    by_cases short : ahead.length < count
    · have failed := (InStream.read_short before short).2
      simp only [failed] at good
      contradiction
    · have length : (ahead.take count).length = count := by
        rw [List.length_take]
        omega
      have delivered := InStream.read_between before (ahead.take count) (ahead.drop count)
      rw [length, List.take_append_drop] at delivered
      exact ⟨_, _, (List.take_append_drop count ahead).symm,
        ⟨congrArg Prod.fst delivered, length⟩, congrArg Prod.snd delivered⟩

theorem takes_readUnlessEmpty (known : Prop) (count : Nat)
    : Takes known (readUnlessEmpty count)
        fun value bytes => value = bytes ∧ bytes.length = count := by
  rw [readUnlessEmpty]
  split
  · exact takes_read known count
  · exact takes_pure fun _ => ⟨rfl, by rw [List.length_nil]; omega⟩

theorem takes_readAs (known : Prop) (width : Nat) (decoded : Bytes → α)
    : Takes known (readAs width decoded)
        fun value bytes => value = decoded bytes ∧ bytes.length = width := by
  refine (takes_read known width).bind fun value bytes => takes_pure ?_
  rintro ⟨_, rfl, length⟩
  exact ⟨by rw [List.append_nil], by simpa using length⟩

theorem takes_tellg (known : Prop) : Takes known tellg fun _ bytes => bytes = [] := by
  constructor
  · intro reading further position failed same
    cases same
    exact failed
  · intro _ before ahead asked position further same good
    cases same
    exact ⟨[], ahead, rfl, rfl, by simp⟩

theorem takes_check (known : Prop) : Takes known check fun _ bytes => bytes = [] := by
  constructor
  · intro reading further done failed same
    rw [check, failed] at same
    cases same
  · intro _ before ahead asked done further same good
    cases same
    exact ⟨[], ahead, rfl, rfl, by simp⟩

theorem takes_resize (known : Prop) (size limit : Nat)
    : Takes known (resize size limit) fun _ bytes => bytes = [] ∧ size ≤ limit := by
  constructor
  · intro reading further done failed same
    rw [resize] at same
    split at same <;> cases same
    exact failed
  · intro _ before ahead asked done further same good
    rw [resize] at same
    split at same <;> cases same
    exact ⟨[], ahead, rfl, ⟨rfl, ‹_›⟩, by simp⟩

/-- A result of the function comes with a good stream. -/
def EndsGood (reader : Reader α) : Prop :=
  ∀ (reading further : Reading) (value : α),
    reader reading = (.ok value, further) → further.stream.good = true

/-- The last step decides. -/
theorem EndsGood.bind (ends : ∀ value, EndsGood (next value)) : EndsGood (first >>= next) := by
  intro reading further result same
  rw [bind_apply] at same
  generalize first reading = outcome at same
  obtain ⟨stop | value, middle⟩ := outcome
  · cases same
  · exact ends value middle further result same

theorem endsGood_check (value : Unit → α)
    : EndsGood (check >>= fun done => pure (value done)) := by
  intro reading further result same
  cases good : reading.stream.good <;> simp [bind_apply, check, good, pure_apply] at same
  rw [← same.2]
  exact good

end Reader

end FileStreams
