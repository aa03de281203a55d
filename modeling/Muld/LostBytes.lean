import Muld.SpeedReports

/-! Which bytes the measured speeds leave out. A worker that counts bytes while another one
stands between its reading of `nBytesFromLastSpeedCalc_` and the reset counts them for no
measurement; without such a worker the measurements account for all bytes.
-/

namespace Muld

open Threads Transition

namespace Notifying

/-- The call has read `nBytesFromLastSpeedCalc_` and not yet reset it. -/
def loaded : Notifying → Bool
  | .estimate _ | .resetBytes _ => true
  | _ => false

/-- The call has reset `nBytesFromLastSpeedCalc_` and not yet stored the time. -/
def pending : Notifying → Bool
  | .resetTime _ => true
  | _ => false

theorem holds_of_pending {call : Notifying} (pending : call.pending = true)
    : call.holds = true := by
  cases call <;> first | rfl | cases pending

/-- What a measurement in progress has to do with the counter: it is for all bytes in it, and
after the reset for all bytes that neither it nor an earlier measurement has.
-/
def Exact (meter : SpeedMeter) (measured : Rat) (counted : Nat) : Notifying → Prop
  | .estimate now | .resetBytes now =>
      meter.downloadSpeed * secondsBetween meter.lastSpeedCalcTime now
        = meter.nBytesFromLastSpeedCalc
  | .resetTime now =>
      measured + meter.nBytesFromLastSpeedCalc
          + meter.downloadSpeed * secondsBetween meter.lastSpeedCalcTime now
        = counted
  | _ => True

variable {fileSize : Nat} {clock : Int} {meter meter' : SpeedMeter} {call next : Notifying}
  {recent counted : Nat} {measured : Rat}

theorem exact_of_outside (outside : call.holds = false)
    : call.Exact meter measured counted := by
  cases call <;> trivial

/-- Bytes that another call counts leave a measurement exact unless it has read the counter.
-/
theorem Exact.mono (exact : call.Exact meter measured counted) {bytes : Nat}
    (apart : bytes = 0 ∨ call.loaded = false)
    (sameTime : meter'.lastSpeedCalcTime = meter.lastSpeedCalcTime)
    (sameSpeed : meter'.downloadSpeed = meter.downloadSpeed)
    (more
      : meter'.nBytesFromLastSpeedCalc = meter.nBytesFromLastSpeedCalc + bytes)
    : call.Exact meter' measured (counted + bytes) := by
  cases call
  case estimate | resetBytes =>
      obtain rfl : bytes = 0 := apart.resolve_right nofun
      rw [Exact, sameTime, sameSpeed, more]
      exact exact
  case resetTime =>
      rw [Exact] at exact ⊢
      rw [sameTime, sameSpeed, more]
      push_cast
      linarith
  all_goals trivial

/-- A step that does not reset the counter adds to it what it counts. -/
theorem Moves.counter (moved : Moves fileSize clock meter call meter' next)
    (small
      : meter.nBytesFromLastSpeedCalc + countedBytes (call.observe meter).toList < sizeModulus)
    : (∃ now, call = .resetBytes now)
      ∨ meter'.nBytesFromLastSpeedCalc
        = meter.nBytesFromLastSpeedCalc + countedBytes (call.observe meter).toList := by
  cases moved with
  | countRecent bytes => exact Or.inr (wrap_of_lt small)
  | resetBytes now => exact Or.inl ⟨now, rfl⟩
  | estimate => exact Or.inr (meter.estimateTime_frame fileSize).2.2.1
  | report fires => cases fires <;> exact Or.inr rfl
  | _ => exact Or.inr rfl

end Notifying

namespace MeterSystem

/-- No call counts bytes while another has read the counter and not yet reset it, and the
download is not started again.
-/
def countsApart (sys : MeterSystem) : MeterAction → Bool
  | .step index =>
      match sys.calls[index]? with
      | some (.countRecent _) => sys.calls.all fun call => !call.loaded
      | _ => true
  | .restart => false
  | _ => true

def CountsApart (before : MeterSystem) (action : MeterAction) (_ : MeterSystem) : Prop :=
  before.countsApart action = true

instance (before : MeterSystem) (action : MeterAction) (after : MeterSystem)
    : Decidable (CountsApart before action after) :=
  instDecidableEqBool (before.countsApart action) true

/-- The measurements and the counter have all bytes, but for a measurement that has reset
the counter and whose time is not yet stored.
-/
structure Exact (sys : MeterSystem) (log : List MeterEvent) : Prop where
  calls : ∀ call ∈ sys.calls, call.Exact sys.meter (measuredBytes log) (countedBytes log)
  settled
    : (∃ call ∈ sys.calls, call.pending = true)
      ∨ measuredBytes log + sys.meter.nBytesFromLastSpeedCalc = countedBytes log

variable {sys after : MeterSystem} {action : MeterAction} {log : List MeterEvent}
  {event : Option MeterEvent} {recent fileSize received index : Nat} {now : Int}
  {call next : Notifying} {meter : SpeedMeter}

/-- A call with the mutex that has not reset the counter finds all bytes accounted for. -/
theorem Exact.balanced (exact : sys.Exact log) (guarded : sys.Guarded)
    (found : sys.calls[index]? = some call) (inside : call.holds = true)
    (before : call.pending = false)
    : measuredBytes log + sys.meter.nBytesFromLastSpeedCalc = countedBytes log := by
  refine exact.settled.resolve_left ?_
  rintro ⟨another, member, pending⟩
  obtain ⟨other, at_other⟩ := List.mem_iff_getElem?.mp member
  by_cases same : other = index
  · subst same
    obtain rfl : another = call := Option.some.inj (at_other.symm.trans found)
    rw [before] at pending
    cases pending
  · have outside := Threads.Guarded.alone guarded found inside at_other same
    rw [Notifying.holds_of_pending pending] at outside
    cases outside

theorem CountsApart.loaded (apart : CountsApart sys (.step index) after)
    (found : sys.calls[index]? = some call)
    : countedBytes (call.observe sys.meter).toList = 0
      ∨ ∀ another ∈ sys.calls, another.loaded = false := by
  cases call with
  | countRecent bytes =>
      rw [CountsApart, countsApart, found] at apart
      simpa using Or.inr apart
  | report fires => cases fires <;> exact Or.inl rfl
  | _ => exact Or.inl rfl

/-- What a step of one call does to the measurements in progress. -/
theorem Exact.move_calls (exact : sys.Exact log) (guarded : sys.Guarded)
    (metered : sys.Metered recent log) (found : sys.calls[index]? = some call)
    (moved : Notifying.Moves sys.fileSize sys.clock sys.meter call meter next)
    (apart
      : countedBytes (call.observe sys.meter).toList = 0
        ∨ ∀ another ∈ sys.calls, another.loaded = false)
    (small
      : sys.meter.nBytesFromLastSpeedCalc + countedBytes (call.observe sys.meter).toList
        < sizeModulus)
    : ∀ another ∈ sys.calls.set index next,
        another.Exact meter (measuredBytes log + measuredBytes (call.observe sys.meter).toList)
          (countedBytes log + countedBytes (call.observe sys.meter).toList) := by
  intro another member
  obtain ⟨position, at_position⟩ := List.mem_iff_getElem?.mp member
  have present := List.mem_of_getElem? found
  rcases getElem?_set_cases at_position with ⟨_, rfl⟩ | ⟨different, at_other⟩
  · have own := exact.calls call present
    have balance := exact.balanced guarded found
    cases moved with
    | measure now dt =>
        obtain ⟨_, rfl, late⟩ := metered.sound _ present
        exact div_mul_cancel₀ _ (lt_trans (by norm_num) late).ne'
    | estimate now =>
        have frame := sys.meter.estimateTime_frame sys.fileSize
        rw [Notifying.Exact, frame.1, frame.2.1, frame.2.2.1]
        exact own
    | resetBytes now =>
        have all := balance rfl rfl
        change measuredBytes log + 0 + ((0 : Nat) : Rat)
          + sys.meter.downloadSpeed * secondsBetween sys.meter.lastSpeedCalcTime now
          = countedBytes log
        rw [Notifying.Exact] at own
        rw [own, Nat.cast_zero, add_zero, add_zero]
        exact all
    | _ => trivial
  · have old := List.mem_of_getElem? at_other
    cases inside : call.holds with
    | true =>
        exact Notifying.exact_of_outside
          (Threads.Guarded.alone guarded found inside at_other different)
    | false =>
        obtain ⟨sameTime, sameSpeed, silent⟩ := moved.outside inside
        rw [silent, add_zero]
        rcases moved.counter small with ⟨now, rfl⟩ | more
        · cases inside
        · exact (exact.calls another old).mono (apart.imp_right fun others => others another old)
            sameTime sameSpeed more

/-- What a step of one call does to the balance. -/
theorem Exact.move_settled (exact : sys.Exact log)
    (found : sys.calls[index]? = some call)
    (moved : Notifying.Moves sys.fileSize sys.clock sys.meter call meter next)
    (small
      : sys.meter.nBytesFromLastSpeedCalc + countedBytes (call.observe sys.meter).toList
        < sizeModulus)
    : (∃ another ∈ sys.calls.set index next, another.pending = true)
      ∨ measuredBytes (log ++ (call.observe sys.meter).toList) + meter.nBytesFromLastSpeedCalc
        = countedBytes (log ++ (call.observe sys.meter).toList) := by
  rw [measuredBytes_append, countedBytes_append]
  cases stores : call.pending with
  | true =>
      have all := exact.calls call (List.mem_of_getElem? found)
      cases moved with
      | resetTime now =>
          rw [Notifying.Exact] at all
          refine Or.inr ?_
          change measuredBytes log
              + measuredBytes
                [.measured ⟨sys.meter.lastSpeedCalcTime, now, sys.meter.downloadSpeed⟩]
              + sys.meter.nBytesFromLastSpeedCalc
            = countedBytes log
          rw [measuredBytes_measured, SpeedMeasure.bytes]
          linarith
      | _ => cases stores
  | false =>
      have silent : measuredBytes (call.observe sys.meter).toList = 0 := by
        cases moved with
        | resetTime => cases stores
        | report fires => cases fires <;> rfl
        | _ => rfl
      rcases exact.settled with waiting | balance
      · apply exists_set found waiting
        intro own
        rw [stores] at own
        cases own
      · rcases moved.counter small with ⟨now, rfl⟩ | more
        · cases moved
          exact Or.inl ⟨_, mem_set_self found, rfl⟩
        · refine Or.inr ?_
          rw [silent, more]
          push_cast
          linarith

theorem Exact.step (exact : sys.Exact log) (guarded : sys.Guarded)
    (metered : sys.Metered recent log) (steps : Steps sys action after event)
    (apart : CountsApart sys action after)
    (small : countedBytes (log ++ event.toList) < sizeModulus)
    : after.Exact (log ++ event.toList) := by
  cases steps with
  | notify bytes =>
      rw [Option.toList_none, List.append_nil]
      constructor
      · intro call member
        rcases mem_snoc_cases member with old | rfl
        · exact exact.calls call old
        · trivial
      · refine exact.settled.imp_left ?_
        rintro ⟨call, member, pending⟩
        exact ⟨call, List.mem_append_left _ member, pending⟩
  | tick =>
      rw [Option.toList_none, List.append_nil]
      exact ⟨exact.calls, exact.settled⟩
  | restart => cases apart
  | move index call next meter found moved =>
      have fits : sys.meter.nBytesFromLastSpeedCalc
            + countedBytes (call.observe sys.meter).toList
          < sizeModulus := by
        have loaded : wrap recent ≤ recent := Nat.mod_le _ _
        rw [countedBytes_append] at small
        rw [metered.wraps]
        have recent_le := metered.recent_le
        omega
      refine ⟨?_, exact.move_settled found moved fits⟩
      rw [measuredBytes_append, countedBytes_append]
      exact exact.move_calls guarded metered found moved (apart.loaded found) fits

/-- In a session in which the workers count apart from the measurements, the measured speeds, as
exact numbers, account for exactly the bytes counted, save those that have come since the last
of them.
-/
theorem measurements_exact
    (logged
      : Logged MeterSystem.step CountsApart observe (constructed fileSize received now) sys log)
    (small : countedBytes log < sizeModulus)
    (stored : ∀ call ∈ sys.calls, call.pending = false)
    : measuredBytes log + sys.meter.nBytesFromLastSpeedCalc = countedBytes log := by
  have exact : countedBytes log < sizeModulus → sys.Exact log := by
    refine @Logged.invariant _ _ _ _ _ _ _ _
      (fun sys log => countedBytes log < sizeModulus → sys.Exact log) _ logged ?_ ?_
    · intro _
      exact ⟨by simp [constructed], Or.inr (by simp [constructed])⟩
    · intro before action after log earlier exact taken apart small
      obtain ⟨recent, metered⟩ := metered_of_logged earlier
      have shorter : countedBytes log < sizeModulus := by
        rw [countedBytes_append] at small
        omega
      exact (exact shorter).step (guarded_of_logged earlier) metered (steps_of_step taken) apart
        small
  refine (exact small).settled.resolve_left ?_
  rintro ⟨call, member, pending⟩
  rw [stored call member] at pending
  cases pending

/-- The two measurements of the race account for all 2300 bytes. -/
theorem measurements_exact_race
    : ∃ (sys : MeterSystem) (log : List MeterEvent),
        countedBytes log = 2300
        ∧ measuredBytes log + sys.meter.nBytesFromLastSpeedCalc = countedBytes log := by
  obtain ⟨sys, log, logged, ends⟩ :=
    @exists_logged _ _ step CountsApart (constructed 10000 0 0) _ observe _ racingWorkers
      (fun sys log => countedBytes log == 2300 && sys.calls.all fun call => !call.pending)
      (by decide +kernel)
  obtain ⟨counted, stored⟩
    : countedBytes log = 2300 ∧ ∀ call ∈ sys.calls, call.pending = false := by
    simpa using ends
  exact ⟨sys, log, counted, measurements_exact logged (by rw [counted]; decide) stored⟩

/-- A second worker counts 500 bytes between the reading of the counter and its reset. -/
def lateCounter : List MeterAction :=
  [.notify 1000, .step 0, .step 0, .tick (10 ^ 9)]
    ++ List.replicate 6 (.step 0)
    ++ [.notify 500, .step 1]
    ++ List.replicate 5 (.step 0)
    ++ List.replicate 4 (.step 1)

/-- Its bytes are in no measurement and no longer in the counter. -/
theorem lateCounter_lost
    : ∃ (sys : MeterSystem) (log : List MeterEvent),
        Logged step anyStep observe (constructed 10000 0 0) sys log
        ∧ (∀ call ∈ sys.calls, call = .reported)
        ∧ measuredBytes log + sys.meter.nBytesFromLastSpeedCalc = 1000
        ∧ countedBytes log = 1500 := by
  obtain ⟨sys, log, logged, ends⟩ :=
    @exists_logged _ _ step anyStep (constructed 10000 0 0) _ observe _ lateCounter
      (fun sys log =>
        sys.calls.all (fun call => call == .reported)
          && measuredBytes log + sys.meter.nBytesFromLastSpeedCalc == 1000
          && countedBytes log == 1500)
      (by decide +kernel)
  obtain ⟨⟨reported, measured⟩, counted⟩
    : ((∀ call ∈ sys.calls, call = .reported)
        ∧ measuredBytes log + sys.meter.nBytesFromLastSpeedCalc = 1000)
      ∧ countedBytes log = 1500 := by
    simpa using ends
  exact ⟨sys, log, logged, reported, measured, counted⟩

end MeterSystem

end Muld
