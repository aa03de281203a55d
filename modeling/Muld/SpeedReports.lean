import Muld.SpeedMeter

/-! What the measured speeds and the reports of the progress say, however the workers that
count bytes interleave: how often they come, for how many bytes they account, and which
values they take.
-/

namespace Muld

open Threads Transition

-----------------------------------------------------------------------------------------
-- What the measurements say
-----------------------------------------------------------------------------------------

/-- How many bytes a measurement says have arrived. -/
def SpeedMeasure.bytes (measure : SpeedMeasure) : Rat :=
  measure.speed * secondsBetween measure.previous measure.now

namespace MeterEvent

def bytes : MeterEvent → Nat
  | .counted bytes => bytes
  | _ => 0

def measure? : MeterEvent → Option SpeedMeasure
  | .measured measure => some measure
  | _ => none

def report? : MeterEvent → Option SpeedReport
  | .reported report => some report
  | _ => none

end MeterEvent

/-- All bytes that the workers have counted. -/
def countedBytes (log : List MeterEvent) : Nat := (log.map MeterEvent.bytes).sum

def measures (log : List MeterEvent) : List SpeedMeasure := log.filterMap MeterEvent.measure?

def reports (log : List MeterEvent) : List SpeedReport := log.filterMap MeterEvent.report?

/-- All bytes that the measurements account for. -/
def measuredBytes (log : List MeterEvent) : Rat := ((measures log).map SpeedMeasure.bytes).sum

@[simp]
theorem countedBytes_append (log more : List MeterEvent)
    : countedBytes (log ++ more) = countedBytes log + countedBytes more := by
  simp [countedBytes]

@[simp]
theorem measures_append (log more : List MeterEvent)
    : measures (log ++ more) = measures log ++ measures more :=
  List.filterMap_append

@[simp]
theorem reports_append (log more : List MeterEvent)
    : reports (log ++ more) = reports log ++ reports more :=
  List.filterMap_append

@[simp]
theorem measuredBytes_append (log more : List MeterEvent)
    : measuredBytes (log ++ more) = measuredBytes log + measuredBytes more := by
  simp [measuredBytes]

@[simp]
theorem countedBytes_singleton (event : MeterEvent) : countedBytes [event] = event.bytes := by
  simp [countedBytes]

@[simp]
theorem measures_nil : measures [] = [] := rfl

@[simp]
theorem countedBytes_nil : countedBytes [] = 0 := rfl

@[simp]
theorem measuredBytes_nil : measuredBytes [] = 0 := rfl

@[simp]
theorem measuredBytes_counted (bytes : Nat) : measuredBytes [.counted bytes] = 0 := rfl

@[simp]
theorem measuredBytes_reported (report : SpeedReport) : measuredBytes [.reported report] = 0 :=
  rfl

@[simp]
theorem measuredBytes_measured (measure : SpeedMeasure)
    : measuredBytes [.measured measure] = measure.bytes :=
  add_zero _

namespace Notifying

/-- What is known at each point of a call: under the mutex the time is a reading of the
clock and, past the second test, more than half a second after the last measurement. The
new speed accounts for no more than the bytes counted since then. `recent` is
`nBytesFromLastSpeedCalc_` before it wraps, `counted` are all bytes, and `measured` those
that the measurements before account for.
-/
def Sound (meter : SpeedMeter) (clock : Int) (recent counted : Nat) (measured : Rat)
    : Notifying → Prop
  | .compareAgain now => now ≤ clock
  | .measure now dt =>
      now ≤ clock ∧ dt = secondsBetween meter.lastSpeedCalcTime now ∧ 0.5 < dt
  | .estimate now | .resetBytes now =>
      now ≤ clock
      ∧ 0.5 < secondsBetween meter.lastSpeedCalcTime now
      ∧ meter.downloadSpeed * secondsBetween meter.lastSpeedCalcTime now ≤ recent
  | .resetTime now =>
      now ≤ clock
      ∧ 0.5 < secondsBetween meter.lastSpeedCalcTime now
      ∧ measured + recent + meter.downloadSpeed * secondsBetween meter.lastSpeedCalcTime now
        ≤ counted
  | _ => True

/-- `recent` after a step of the call. -/
def recentAfter (recent : Nat) : Notifying → Nat
  | .countRecent bytes => recent + bytes
  | .resetBytes _ => 0
  | _ => recent

variable {fileSize : Nat} {clock clock' : Int} {meter meter' : SpeedMeter}
  {call next : Notifying} {recent counted : Nat} {measured : Rat}

theorem sound_of_outside (outside : call.holds = false)
    : call.Sound meter clock recent counted measured := by
  cases call <;> trivial

/-- What is known of a call stays true while others count bytes and the time passes. -/
theorem Sound.mono (sound : call.Sound meter clock recent counted measured) (bytes : Nat)
    (sameTime : meter'.lastSpeedCalcTime = meter.lastSpeedCalcTime)
    (sameSpeed : meter'.downloadSpeed = meter.downloadSpeed) (later : clock ≤ clock')
    : call.Sound meter' clock' (recent + bytes) (counted + bytes) measured := by
  cases call
  case compareAgain => exact sound.trans later
  case measure =>
      obtain ⟨reading, dt_eq, passed⟩ := sound
      exact ⟨reading.trans later, by rw [sameTime, dt_eq], passed⟩
  case estimate | resetBytes =>
      obtain ⟨reading, passed, bounded⟩ := sound
      refine ⟨reading.trans later, sameTime ▸ passed, ?_⟩
      rw [sameTime, sameSpeed]
      push_cast
      linarith [(Nat.cast_nonneg bytes : (0 : Rat) ≤ bytes)]
  case resetTime =>
      obtain ⟨reading, passed, bounded⟩ := sound
      refine ⟨reading.trans later, sameTime ▸ passed, ?_⟩
      rw [sameTime, sameSpeed]
      push_cast
      linarith
  all_goals trivial

theorem wrap_add (left right : Nat) : wrap (wrap left + right) = wrap (left + right) := by
  simp [wrap, Nat.add_mod]

theorem Moves.wraps (moved : Moves fileSize clock meter call meter' next)
    (recent_eq : meter.nBytesFromLastSpeedCalc = wrap recent)
    : meter'.nBytesFromLastSpeedCalc = wrap (call.recentAfter recent) := by
  cases moved with
  | countRecent bytes => rw [recent_eq, recentAfter, wrap_add]
  | estimate => exact (meter.estimateTime_frame fileSize).2.2.1.trans recent_eq
  | resetBytes => rfl
  | _ => exact recent_eq

theorem Moves.sound (moved : Moves fileSize clock meter call meter' next)
    (sound : call.Sound meter clock recent counted measured)
    (recent_eq : meter.nBytesFromLastSpeedCalc = wrap recent)
    (paid : measured + recent ≤ counted)
    : next.Sound meter' clock (call.recentAfter recent)
        (counted + countedBytes (call.observe meter).toList)
        (measured + measuredBytes (call.observe meter).toList) := by
  cases moved with
  | readClockAgain => exact le_refl clock
  | stillLate now late => exact ⟨sound, rfl, late⟩
  | measure now dt =>
      obtain ⟨reading, dt_eq, passed⟩ := sound
      subst dt_eq
      refine ⟨reading, passed, ?_⟩
      have nonzero : secondsBetween meter.lastSpeedCalcTime now ≠ 0 := by
        intro zero
        rw [zero] at passed
        norm_num at passed
      have loaded : meter.nBytesFromLastSpeedCalc ≤ recent := recent_eq ▸ Nat.mod_le _ _
      calc meter.nBytesFromLastSpeedCalc / secondsBetween meter.lastSpeedCalcTime now
            * secondsBetween meter.lastSpeedCalcTime now
          = (meter.nBytesFromLastSpeedCalc : Rat) := div_mul_cancel₀ _ nonzero
        _ ≤ recent := by exact_mod_cast loaded
  | estimate now =>
      obtain ⟨sameTime, sameSpeed, _⟩ := meter.estimateTime_frame fileSize
      obtain ⟨reading, passed, bounded⟩ := sound
      refine ⟨reading, sameTime ▸ passed, ?_⟩
      rw [sameTime, sameSpeed]
      exact bounded
  | resetBytes now =>
      obtain ⟨reading, passed, bounded⟩ := sound
      refine ⟨reading, passed, ?_⟩
      change measured + 0 + ((0 : Nat) : Rat)
        + meter.downloadSpeed * secondsBetween meter.lastSpeedCalcTime now ≤ counted
      rw [Nat.cast_zero]
      linarith
  | _ => trivial

/-- The measurements together account for no more than the bytes counted. -/
theorem Moves.paid (moved : Moves fileSize clock meter call meter' next)
    (sound : call.Sound meter clock recent counted measured)
    (paid : measured + recent ≤ counted)
    : measured + measuredBytes (call.observe meter).toList + call.recentAfter recent
      ≤ (counted + countedBytes (call.observe meter).toList : Nat) := by
  cases moved with
  | countRecent bytes =>
      change measured + 0 + ((recent + bytes : Nat) : Rat)
        ≤ ((counted + countedBytes [.counted bytes] : Nat) : Rat)
      rw [countedBytes_singleton, MeterEvent.bytes]
      push_cast
      linarith
  | resetBytes =>
      change measured + 0 + ((0 : Nat) : Rat) ≤ counted
      rw [Nat.cast_zero]
      linarith [(Nat.cast_nonneg recent : (0 : Rat) ≤ recent)]
  | resetTime now =>
      have bounded := sound.2.2
      change measured
          + measuredBytes
            [.measured ⟨meter.lastSpeedCalcTime, now, meter.downloadSpeed⟩] + recent
        ≤ counted
      rw [measuredBytes_measured, SpeedMeasure.bytes]
      linarith
  | report fires => cases fires <;> simpa [observe, recentAfter, MeterEvent.bytes] using paid
  | _ => simpa [observe, recentAfter] using paid

/-- Without the mutex a call writes neither the speed nor the time of the last measurement.
-/
theorem Moves.outside (moved : Moves fileSize clock meter call meter' next)
    (outside : call.holds = false)
    : meter'.lastSpeedCalcTime = meter.lastSpeedCalcTime
      ∧ meter'.downloadSpeed = meter.downloadSpeed
      ∧ measuredBytes (call.observe meter).toList = 0 := by
  cases moved with
  | report fires => cases fires <;> exact ⟨rfl, rfl, rfl⟩
  | _ => first | exact ⟨rfl, rfl, rfl⟩ | cases outside

theorem Moves.recent_outside (moved : Moves fileSize clock meter call meter' next)
    (outside : call.holds = false)
    : call.recentAfter recent = recent + countedBytes (call.observe meter).toList := by
  cases moved with
  | countRecent bytes => rfl
  | report fires => cases fires <;> rfl
  | _ => first | rfl | cases outside

theorem Moves.recent_le (moved : Moves fileSize clock meter call meter' next)
    : call.recentAfter recent ≤ recent + countedBytes (call.observe meter).toList := by
  cases moved with
  | resetBytes => exact Nat.zero_le _
  | countRecent bytes => exact le_refl (recent + bytes)
  | _ => exact Nat.le_add_right _ _

/-- The time of the last measurement changes at the end of a measurement only. -/
theorem Moves.timing (moved : Moves fileSize clock meter call meter' next)
    : (meter'.lastSpeedCalcTime = meter.lastSpeedCalcTime
        ∧ measures (call.observe meter).toList = [])
      ∨ ∃ now, call = .resetTime now ∧ meter'.lastSpeedCalcTime = now := by
  cases moved with
  | resetTime now => exact Or.inr ⟨now, rfl, rfl⟩
  | estimate => exact Or.inl ⟨(meter.estimateTime_frame fileSize).1, rfl⟩
  | report fires => cases fires <;> exact Or.inl ⟨rfl, rfl⟩
  | _ => exact Or.inl ⟨rfl, rfl⟩

end Notifying

namespace MeterSystem

/-- What is known of a job's meter and its calls after the events of a log. -/
structure Metered (recent : Nat) (sys : MeterSystem) (log : List MeterEvent) : Prop where
  wraps : sys.meter.nBytesFromLastSpeedCalc = wrap recent
  sound
    : ∀ call ∈ sys.calls,
        call.Sound sys.meter sys.clock recent (countedBytes log) (measuredBytes log)
  paid : measuredBytes log + recent ≤ countedBytes log
  recent_le : recent ≤ countedBytes log
  ordered : sys.meter.lastSpeedCalcTime ≤ sys.clock

variable {sys after : MeterSystem} {action : MeterAction} {log : List MeterEvent}
  {event : Option MeterEvent} {recent fileSize received : Nat} {now : Int}
  {meets : MeterSystem → MeterAction → MeterSystem → Prop}

theorem metered_constructed (fileSize received : Nat) (now : Int)
    : (constructed fileSize received now).Metered 0 [] := by
  refine ⟨rfl, ?_, ?_, le_refl 0, le_refl now⟩
  · simp [constructed]
  · simp

theorem Metered.step (metered : sys.Metered recent log) (guarded : sys.Guarded)
    (steps : Steps sys action after event)
    : ∃ recent', after.Metered recent' (log ++ event.toList) := by
  cases steps with
  | notify bytes =>
      refine ⟨recent, metered.wraps, ?_, by simpa using metered.paid,
        by simpa using metered.recent_le, metered.ordered⟩
      intro call member
      rcases mem_snoc_cases member with old | rfl
      · simpa using metered.sound call old
      · trivial
  | move index call next meter found moved =>
      have own := metered.sound call (List.mem_of_getElem? found)
      refine ⟨call.recentAfter recent, moved.wraps metered.wraps, ?_, ?_, ?_, ?_⟩
      · intro another member
        obtain ⟨position, at_position⟩ := List.mem_iff_getElem?.mp member
        rw [countedBytes_append, measuredBytes_append]
        rcases getElem?_set_cases at_position with ⟨_, rfl⟩ | ⟨different, at_other⟩
        · exact moved.sound own metered.wraps metered.paid
        · have known := metered.sound another (List.mem_of_getElem? at_other)
          cases inside : call.holds with
          | true =>
              exact Notifying.sound_of_outside
                (Threads.Guarded.alone guarded found inside at_other different)
          | false =>
              obtain ⟨sameTime, sameSpeed, silent⟩ := moved.outside inside
              rw [moved.recent_outside inside, silent, add_zero]
              exact known.mono _ sameTime sameSpeed (le_refl sys.clock)
      · rw [countedBytes_append, measuredBytes_append]
        exact moved.paid own metered.paid
      · rw [countedBytes_append]
        exact moved.recent_le.trans (Nat.add_le_add_right metered.recent_le _)
      · rcases moved.timing with ⟨same, _⟩ | ⟨reading, rfl, set⟩
        · exact same.trans_le metered.ordered
        · exact set.trans_le own.1
  | tick now later =>
      refine ⟨recent, metered.wraps, ?_, by simpa using metered.paid,
        by simpa using metered.recent_le, metered.ordered.trans later⟩
      intro call member
      simpa using (metered.sound call member).mono 0 rfl rfl later
  | restart drained =>
      refine ⟨0, rfl, ?_, ?_, Nat.zero_le _, le_refl sys.clock⟩
      · intro call member
        rw [drained call member]
        trivial
      · have paid := metered.paid
        simp only [Option.toList_none, List.append_nil, Nat.cast_zero, add_zero]
        linarith [(Nat.cast_nonneg recent : (0 : Rat) ≤ recent)]

theorem metered_of_logged
    (logged
      : Logged MeterSystem.step meets observe (constructed fileSize received now) sys log)
    : ∃ recent, sys.Metered recent log := by
  refine @Logged.invariant _ _ _ _ _ _ _ _ (fun sys log => ∃ recent, sys.Metered recent log) _
    logged ?_ ?_
  · exact ⟨0, metered_constructed fileSize received now⟩
  · intro before action after log earlier metered taken _
    obtain ⟨recent, metered⟩ := metered
    exact metered.step (guarded_of_logged earlier) (steps_of_step taken)

-----------------------------------------------------------------------------------------
-- Two workers that race
-----------------------------------------------------------------------------------------

/-- Two workers of a job of 10000 bytes find that a second has passed; the one that takes the
mutex first measures. A third one measures 600 milliseconds later.
-/
def racingWorkers : List MeterAction :=
  [.notify 1000, .notify 500, .step 0, .step 0, .step 1, .step 1, .tick (10 ^ 9)]
    ++ [.step 0, .step 0, .step 1, .step 1]
    ++ List.replicate 9 (.step 0)
    ++ List.replicate 5 (.step 1)
    ++ [.notify 800, .step 2, .step 2, .tick (16 * 10 ^ 8)]
    ++ List.replicate 11 (.step 2)

def racingMeasures : List SpeedMeasure :=
  [⟨0, 10 ^ 9, 1500⟩, ⟨10 ^ 9, 16 * 10 ^ 8, 4000 / 3⟩]

def racingReports : List SpeedReport := [⟨1500, 1500, 5⟩, ⟨2300, 1333, 5⟩]

theorem racingWorkers_logged
    : ∃ sys log,
        Logged step anyStep observe (constructed 10000 0 0) sys log
        ∧ measures log = racingMeasures
        ∧ reports log = racingReports := by
  obtain ⟨sys, log, logged, ends⟩ :=
    @exists_logged _ _ step anyStep (constructed 10000 0 0) _ observe _ racingWorkers
      (fun _ log => measures log == racingMeasures && reports log == racingReports)
      (by decide +kernel)
  exact ⟨sys, log, logged, by simpa using ends⟩

-----------------------------------------------------------------------------------------
-- How often the progress is reported
-----------------------------------------------------------------------------------------

/-- The measurements up to the time `last` take more than half a second each, the first from
`start` on, and follow one another.
-/
structure Spaced (start last : Int) (measures : List SpeedMeasure) : Prop where
  long : ∀ measure ∈ measures, 0.5 < secondsBetween measure.previous measure.now
  disjoint : measures.Pairwise fun earlier later => earlier.now ≤ later.previous
  before : ∀ measure ∈ measures, measure.now ≤ last
  elapsed : measures.length * 0.5 ≤ secondsBetween start last

section Spacing

variable {start last next : Int} {done : List SpeedMeasure}

theorem Spaced.extend (spaced : Spaced start last done) (ordered : last ≤ next)
    : Spaced start next done where
  long := spaced.long
  disjoint := spaced.disjoint
  before measure member := (spaced.before measure member).trans ordered
  elapsed := by
    calc (done.length * 0.5 : Rat)
        ≤ secondsBetween start last := spaced.elapsed
      _ ≤ secondsBetween start last + secondsBetween last next :=
          le_add_of_nonneg_right (secondsBetween_nonneg ordered)
      _ = secondsBetween start next := secondsBetween_add start last next

theorem Spaced.snoc (spaced : Spaced start last done)
    (passed : 0.5 < secondsBetween last next) (speed : Rat)
    : Spaced start next (done ++ [⟨last, next, speed⟩]) := by
  have ordered : last ≤ next := le_of_secondsBetween_pos (lt_trans (by norm_num) passed)
  obtain ⟨long, disjoint, before, elapsed⟩ := spaced
  refine ⟨?_, ?_, ?_, ?_⟩
  · intro measure member
    rcases mem_snoc_cases member with old | rfl
    · exact long measure old
    · exact passed
  · refine List.pairwise_append.mpr ⟨disjoint, List.pairwise_singleton _ _, ?_⟩
    intro earlier old measure member
    obtain rfl := List.mem_singleton.mp member
    exact before earlier old
  · intro measure member
    rcases mem_snoc_cases member with old | rfl
    · exact (before measure old).trans ordered
    · exact le_refl _
  · rw [List.length_append, List.length_singleton, Nat.cast_add, Nat.cast_one]
    linarith [secondsBetween_add start last next]

/-- Two measurements are made more than half a second apart. -/
theorem Spaced.apart (spaced : Spaced start last done)
    : done.Pairwise fun earlier later => 0.5 < secondsBetween earlier.now later.now := by
  apply spaced.disjoint.imp_of_mem
  intro earlier later _ member follows
  calc (0.5 : Rat)
      < secondsBetween later.previous later.now := spaced.long later member
    _ ≤ secondsBetween earlier.now later.previous + secondsBetween later.previous later.now :=
        le_add_of_nonneg_left (secondsBetween_nonneg follows)
    _ = secondsBetween earlier.now later.now := secondsBetween_add _ _ _

end Spacing

theorem Spaced.step {start : Int}
    (spaced : Spaced start sys.meter.lastSpeedCalcTime (measures log))
    (metered : sys.Metered recent log) (steps : Steps sys action after event)
    : Spaced start after.meter.lastSpeedCalcTime (measures (log ++ event.toList)) := by
  rw [measures_append]
  cases steps with
  | notify | tick =>
      rw [Option.toList_none, measures_nil, List.append_nil]
      exact spaced
  | restart =>
      rw [Option.toList_none, measures_nil, List.append_nil]
      exact spaced.extend metered.ordered
  | move index call next meter found moved =>
      rcases moved.timing with ⟨same, silent⟩ | ⟨reading, rfl, set⟩
      · rw [silent, List.append_nil]
        exact spaced.extend same.ge
      · obtain ⟨_, passed, _⟩ := metered.sound _ (List.mem_of_getElem? found)
        change Spaced start meter.lastSpeedCalcTime _
        rw [set]
        exact spaced.snoc passed sys.meter.downloadSpeed

theorem spaced_of_logged
    (logged
      : Logged MeterSystem.step anyStep observe (constructed fileSize received now) sys log)
    : Spaced now sys.meter.lastSpeedCalcTime (measures log) := by
  refine @Logged.invariant _ _ _ _ _ _ _ _
    (fun sys log => Spaced now sys.meter.lastSpeedCalcTime (measures log)) _ logged ?_ ?_
  · exact ⟨by simp, List.Pairwise.nil, by simp, by simp [constructed, secondsBetween]⟩
  · intro before action after log earlier spaced taken _
    obtain ⟨recent, metered⟩ := metered_of_logged earlier
    exact spaced.step metered (steps_of_step taken)

/-- The reports that a call owes for a measurement it has made. -/
def owedReports : Notifying → Int
  | .unlock true | .report true => 1
  | _ => 0

theorem owedReports_nonneg (call : Notifying) : 0 ≤ owedReports call := by
  unfold owedReports
  split <;> decide

/-- Each measurement is reported once. -/
def Reported (sys : MeterSystem) (log : List MeterEvent) : Prop :=
  (reports log).length + total owedReports sys.calls = (measures log).length

theorem owedReports_moves {call next : Notifying} {meter meter' : SpeedMeter} {clock : Int}
    (moved : Notifying.Moves fileSize clock meter call meter' next)
    : (reports (call.observe meter).toList).length + owedReports next
      = owedReports call + (measures (call.observe meter).toList).length := by
  cases moved with
  | unlock fires | report fires => cases fires <;> rfl
  | _ => rfl

theorem Reported.step (reported : sys.Reported log) (steps : Steps sys action after event)
    : after.Reported (log ++ event.toList) := by
  rw [Reported] at reported ⊢
  cases steps with
  | notify bytes =>
      have owes_none : owedReports (.countRecent bytes) = 0 := rfl
      rw [total_append, total_singleton, Option.toList_none, List.append_nil, owes_none,
        add_zero]
      exact reported
  | tick | restart => simpa using reported
  | move index call next meter found moved =>
      have balance := owedReports_moves moved
      rw [total_set owedReports found, reports_append, measures_append, List.length_append,
        List.length_append]
      push_cast
      omega

theorem reported_of_logged
    (logged
      : Logged MeterSystem.step anyStep observe (constructed fileSize received now) sys log)
    : sys.Reported log := by
  refine @Logged.invariant _ _ _ _ _ _ _ _ Reported _ logged ?_ ?_
  · rfl
  · intro before action after log _ reported taken _
    exact reported.step (steps_of_step taken)

/-- In every interleaving of the workers the measurements are made more than half a second
apart, and the reports come to at most two for each second.
-/
theorem progress_throttled
    (logged
      : Logged MeterSystem.step anyStep observe (constructed fileSize received now) sys log)
    : ((measures log).Pairwise fun earlier later =>
        0.5 < secondsBetween earlier.now later.now)
      ∧ (reports log).length ≤ 2 * secondsBetween now sys.clock := by
  obtain ⟨recent, metered⟩ := metered_of_logged logged
  have spaced := spaced_of_logged logged
  refine ⟨spaced.apart, ?_⟩
  have reported := reported_of_logged logged
  rw [Reported] at reported
  have owed : 0 ≤ total owedReports sys.calls := total_nonneg owedReports_nonneg
  have fewer : (reports log).length ≤ (measures log).length := by omega
  calc ((reports log).length : Rat)
      ≤ (measures log).length := by exact_mod_cast fewer
    _ = 2 * ((measures log).length * 0.5) := by ring
    _ ≤ 2 * secondsBetween now sys.clock :=
        mul_le_mul_of_nonneg_left (spaced.extend metered.ordered).elapsed (by norm_num)

/-- The two measurements of the race are reported within two seconds. -/
theorem progress_throttled_race
    : ∃ (sys : MeterSystem) (log : List MeterEvent),
        (measures log = racingMeasures ∧ (reports log).length = 2)
        ∧ ((measures log).Pairwise fun earlier later =>
          0.5 < secondsBetween earlier.now later.now)
        ∧ (reports log).length ≤ 2 * secondsBetween 0 sys.clock := by
  obtain ⟨sys, log, logged, measured, reported⟩ := racingWorkers_logged
  exact ⟨sys, log, ⟨measured, by rw [reported]; rfl⟩, progress_throttled logged⟩

end MeterSystem

-----------------------------------------------------------------------------------------
-- What is reported
-----------------------------------------------------------------------------------------

/-- The speed and the remaining time that the meter shows, for a job of which `counted` bytes
have been counted.
-/
structure SpeedMeter.InRange (fileSize counted : Nat) (meter : SpeedMeter) : Prop where
  speed_nonneg : 0 ≤ meter.downloadSpeed
  speed_le : meter.downloadSpeed ≤ 2 * counted
  eta_nonneg : 0 ≤ meter.eta
  eta_le : meter.eta ≤ fileSize

def MeterEvent.InRange (fileSize counted : Nat) : MeterEvent → Prop
  | .counted _ => True
  | .measured measure => 0 ≤ measure.speed ∧ measure.speed ≤ 2 * counted
  | .reported report => report.speedBytesPerSec ≤ 2 * counted ∧ report.etaSeconds ≤ fileSize

section Ranges

variable {fileSize counted counted' recent : Nat} {clock : Int} {measured : Rat}
  {meter meter' : SpeedMeter} {call next : Notifying}

theorem MeterEvent.InRange.mono {event : MeterEvent} (range : event.InRange fileSize counted)
    (more : counted ≤ counted')
    : event.InRange fileSize counted' := by
  have doubled : (2 * counted : Rat) ≤ 2 * counted' := by
    exact_mod_cast Nat.mul_le_mul_left 2 more
  cases event with
  | counted => trivial
  | measured => exact ⟨range.1, range.2.trans doubled⟩
  | reported => exact ⟨range.1.trans (Nat.mul_le_mul_left 2 more), range.2⟩

theorem SpeedMeter.InRange.mono (range : meter.InRange fileSize counted)
    (more : counted ≤ counted')
    : meter.InRange fileSize counted' := by
  have doubled : (2 * counted : Rat) ≤ 2 * counted' := by
    exact_mod_cast Nat.mul_le_mul_left 2 more
  exact { range with speed_le := range.speed_le.trans doubled }

theorem SpeedMeter.remaining_le (fileSize received : Nat)
    : remaining fileSize received ≤ fileSize := by
  rw [remaining]
  split <;> omega

theorem SpeedMeter.instantEta_mem (fileSize received : Nat) {speed : Rat} (fast : 1 < speed)
    : 0 ≤ remaining fileSize received / speed
      ∧ remaining fileSize received / speed ≤ fileSize := by
  have positive : 0 < speed := zero_lt_one.trans fast
  have share : (remaining fileSize received : Rat) ≤ fileSize := by
    exact_mod_cast remaining_le fileSize received
  exact ⟨div_nonneg (Nat.cast_nonneg _) positive.le,
    (div_le_self (Nat.cast_nonneg _) fast.le).trans share⟩

/-- The estimate is at most the file size, and so is its mean with the one before. -/
theorem SpeedMeter.InRange.estimate (range : meter.InRange fileSize counted)
    : (meter.estimateTime fileSize).InRange fileSize counted := by
  obtain ⟨speed_nonneg, speed_le, eta_nonneg, eta_le⟩ := range
  rw [SpeedMeter.estimateTime]
  dsimp only
  split_ifs with finished fast first
  · exact ⟨speed_nonneg, speed_le, le_rfl, Nat.cast_nonneg _⟩
  · obtain ⟨nonneg, le⟩ := instantEta_mem fileSize meter.nTotalReceivedBytes fast
    exact ⟨speed_nonneg, speed_le, nonneg, le⟩
  · obtain ⟨nonneg, le⟩ := instantEta_mem fileSize meter.nTotalReceivedBytes fast
    refine ⟨speed_nonneg, speed_le, ?_, ?_⟩ <;> rw [kEtaAlpha] <;> linarith
  · exact ⟨speed_nonneg, speed_le, eta_nonneg, eta_le⟩

/-- Half a second or more for the bytes makes a speed of at most twice their number. -/
theorem speed_le_of_late {bytes : Nat} {dt : Rat} (late : 0.5 < dt) (fits : bytes ≤ counted)
    : bytes / dt ≤ 2 * counted := by
  have positive : 0 < dt := lt_trans (by norm_num) late
  have cast : (bytes : Rat) ≤ counted := by exact_mod_cast fits
  rw [div_le_iff₀ positive]
  nlinarith [(Nat.cast_nonneg bytes : (0 : Rat) ≤ bytes)]

theorem Notifying.Moves.inRange (moved : Moves fileSize clock meter call meter' next)
    (sound : call.Sound meter clock recent counted measured)
    (wraps : meter.nBytesFromLastSpeedCalc = wrap recent) (fits : recent ≤ counted)
    (range : meter.InRange fileSize counted)
    : meter'.InRange fileSize counted := by
  cases moved with
  | measure now dt =>
      obtain ⟨_, _, late⟩ := sound
      have loaded : meter.nBytesFromLastSpeedCalc ≤ counted := by
        rw [wraps]
        exact (Nat.mod_le recent sizeModulus).trans fits
      have positive : 0 < dt := lt_trans (by norm_num) late
      exact {
        speed_nonneg := div_nonneg (Nat.cast_nonneg _) positive.le
        speed_le := speed_le_of_late late loaded
        eta_nonneg := range.eta_nonneg
        eta_le := range.eta_le
      }
  | estimate => exact range.estimate
  | _ => exact { range with }

/-- What a call shows is in range if the meter is. -/
theorem Notifying.observe_inRange (call : Notifying) (range : meter.InRange fileSize counted)
    : ∀ event ∈ (call.observe meter).toList, event.InRange fileSize counted := by
  intro event member
  rw [Option.mem_toList] at member
  cases call with
  | countRecent bytes =>
      obtain rfl := Option.some.inj member
      trivial
  | resetTime now =>
      obtain rfl := Option.some.inj member
      exact ⟨range.speed_nonneg, range.speed_le⟩
  | report fires =>
      cases fires with
      | false => cases member
      | true =>
          obtain rfl := Option.some.inj member
          refine ⟨Nat.floor_le_of_le ?_, Nat.floor_le_of_le range.eta_le⟩
          push_cast
          exact range.speed_le
  | _ => cases member

end Ranges

namespace MeterSystem

/-- Everything that the meter shows and has shown is in range. -/
structure InRange (fileSize : Nat) (sys : MeterSystem) (log : List MeterEvent) : Prop where
  fileSize_eq : sys.fileSize = fileSize
  meter : sys.meter.InRange fileSize (countedBytes log)
  events : ∀ event ∈ log, event.InRange fileSize (countedBytes log)

variable {sys after : MeterSystem} {action : MeterAction} {log : List MeterEvent}
  {event : Option MeterEvent} {recent fileSize received : Nat} {now : Int}

theorem InRange.step (range : sys.InRange fileSize log) (metered : sys.Metered recent log)
    (steps : Steps sys action after event)
    : after.InRange fileSize (log ++ event.toList) := by
  obtain ⟨rfl, meter, events⟩ := range
  cases steps with
  | notify | tick =>
      rw [Option.toList_none, List.append_nil]
      exact ⟨rfl, meter, events⟩
  | restart =>
      rw [Option.toList_none, List.append_nil]
      have none_counted : (0 : Rat) ≤ 2 * countedBytes log := by positivity
      exact ⟨rfl, ⟨le_rfl, none_counted, le_rfl, Nat.cast_nonneg _⟩, events⟩
  | move index call next meter' found moved =>
      have sound := metered.sound call (List.mem_of_getElem? found)
      have more : countedBytes log ≤ countedBytes (log ++ (call.observe sys.meter).toList) := by
        rw [countedBytes_append]
        exact Nat.le_add_right _ _
      refine ⟨rfl, (moved.inRange sound metered.wraps metered.recent_le meter).mono more, ?_⟩
      intro event member
      rcases List.mem_append.mp member with old | new
      · exact (events event old).mono more
      · exact (call.observe_inRange meter event new).mono more

theorem inRange_of_logged
    (logged
      : Logged MeterSystem.step anyStep observe (constructed fileSize received now) sys log)
    : sys.InRange fileSize log := by
  refine @Logged.invariant _ _ _ _ _ _ _ _ (InRange fileSize) _ logged ?_ ?_
  · exact ⟨rfl, ⟨le_rfl, by simp [constructed], le_rfl, Nat.cast_nonneg _⟩, by simp⟩
  · intro before action after log earlier range taken _
    obtain ⟨recent, metered⟩ := metered_of_logged earlier
    exact range.step metered (steps_of_step taken)

/-- In every interleaving of the workers the measured speeds, as exact numbers, account for no
more bytes than have been counted, over times that do not overlap, and the speed and the
remaining time that the job shows stay in range.
-/
theorem measurements_accounted
    (logged
      : Logged MeterSystem.step anyStep observe (constructed fileSize received now) sys log)
    : measuredBytes log ≤ countedBytes log
      ∧ ((measures log).Pairwise fun earlier later => earlier.now ≤ later.previous)
      ∧ sys.meter.InRange fileSize (countedBytes log)
      ∧ ∀ event ∈ log, event.InRange fileSize (countedBytes log) := by
  obtain ⟨recent, metered⟩ := metered_of_logged logged
  have range := inRange_of_logged logged
  have accounted : measuredBytes log ≤ countedBytes log :=
    (le_add_of_nonneg_right (Nat.cast_nonneg recent)).trans metered.paid
  exact ⟨accounted, (spaced_of_logged logged).disjoint, range.meter, range.events⟩

/-- The two measurements of the race account for the bytes of all three workers. -/
theorem measurements_accounted_race
    : ∃ (sys : MeterSystem) (log : List MeterEvent),
        (measures log = racingMeasures ∧ reports log = racingReports)
        ∧ measuredBytes log ≤ countedBytes log
        ∧ ((measures log).Pairwise fun earlier later => earlier.now ≤ later.previous)
        ∧ sys.meter.InRange 10000 (countedBytes log)
        ∧ ∀ event ∈ log, event.InRange 10000 (countedBytes log) := by
  obtain ⟨sys, log, logged, measured, reported⟩ := racingWorkers_logged
  exact ⟨sys, log, ⟨measured, reported⟩, measurements_accounted logged⟩

end MeterSystem

end Muld
