import Muld.RateLimit
import Muld.Library.Mutexes

/-! The speed and the remaining time that a job reports, with exact numbers for `double`.
Any number of workers count the bytes that they receive, look at the clock before they take
the mutex of the meter and again under it, and measure when half a second has passed.
-/

namespace Muld

open Threads Transition

-----------------------------------------------------------------------------------------
-- The meter
-----------------------------------------------------------------------------------------

/-- The fields from which `NotifyChunkReceived` computes the speed, and the mutex over the
computation. Times are in nanoseconds.
-/
structure SpeedMeter where
  nBytesFromLastSpeedCalc : Nat
  nTotalReceivedBytes : Nat
  lastSpeedCalcTime : Int
  downloadSpeed : Rat
  etaSmoothedSpeedBps : Rat
  eta : Rat
  speedMtx : Bool
deriving DecidableEq, Repr

def kEtaSpeedAlpha : Rat := 0.25

def kEtaAlpha : Rat := 0.30

namespace SpeedMeter

/-- What `Start` and `Resume` write before they start the workers. -/
def reset (now : Int) (meter : SpeedMeter) : SpeedMeter :=
  {
    meter with
    lastSpeedCalcTime := now
    nBytesFromLastSpeedCalc := 0
    downloadSpeed := 0
    eta := 0
    etaSmoothedSpeedBps := 0
  }

/-- `etaSmoothedSpeedBps_` after the measurement of `instantSpeed`. -/
def smoothed (instantSpeed : Rat) (meter : SpeedMeter) : Rat :=
  if meter.etaSmoothedSpeedBps ≤ 0 then instantSpeed
  else (1 - kEtaSpeedAlpha) * meter.etaSmoothedSpeedBps + kEtaSpeedAlpha * instantSpeed

/-- The first part of the locked section: the speed, here the exact quotient. -/
def measureSpeed (dt : Rat) (meter : SpeedMeter) : SpeedMeter :=
  let instantSpeed := meter.nBytesFromLastSpeedCalc / dt
  { meter with
    downloadSpeed := instantSpeed
    etaSmoothedSpeedBps := meter.smoothed instantSpeed }

/-- `remaining`. -/
def remaining (fileSize received : Nat) : Nat :=
  if received < fileSize then fileSize - received else 0

/-- The second part of the locked section: the remaining time. -/
def estimateTime (fileSize : Nat) (meter : SpeedMeter) : SpeedMeter :=
  let remaining := remaining fileSize meter.nTotalReceivedBytes
  if remaining = 0 then { meter with eta := 0 }
  else if 1 < meter.etaSmoothedSpeedBps then
    let instantEta := remaining / meter.etaSmoothedSpeedBps
    if meter.eta ≤ 0 then { meter with eta := instantEta }
    else { meter with eta := (1 - kEtaAlpha) * meter.eta + kEtaAlpha * instantEta }
  else meter

theorem estimateTime_frame (fileSize : Nat) (meter : SpeedMeter)
    : (meter.estimateTime fileSize).lastSpeedCalcTime = meter.lastSpeedCalcTime
      ∧ (meter.estimateTime fileSize).downloadSpeed = meter.downloadSpeed
      ∧ (meter.estimateTime fileSize).nBytesFromLastSpeedCalc
        = meter.nBytesFromLastSpeedCalc
      ∧ (meter.estimateTime fileSize).speedMtx = meter.speedMtx := by
  rw [estimateTime]
  dsimp only
  split_ifs <;> exact ⟨rfl, rfl, rfl, rfl⟩

end SpeedMeter

-----------------------------------------------------------------------------------------
-- The calls of `NotifyChunkReceived`
-----------------------------------------------------------------------------------------

/-- Where a call of `NotifyChunkReceived` is, up to its report of the progress. -/
inductive Notifying
  | countRecent (bytes : Nat)
  | countTotal (bytes : Nat)
  | readClock
  | compare (now : Int)
  | lock
  | readClockAgain
  | compareAgain (now : Int)
  | measure (now : Int) (dt : Rat)
  | estimate (now : Int)
  | resetBytes (now : Int)
  | resetTime (now : Int)
  | unlock (shouldFireProgress : Bool)
  | report (shouldFireProgress : Bool)
  | reported
deriving DecidableEq, Repr

/-- One measurement: the time that it starts from, the time at which it is made, and the
speed between the two.
-/
structure SpeedMeasure where
  previous : Int
  now : Int
  speed : Rat
deriving DecidableEq, Repr

/-- The fields of a `DownloadProgress` that change. The casts to `size_t` drop the fraction.
-/
structure SpeedReport where
  downloadedBytes : Nat
  speedBytesPerSec : Nat
  etaSeconds : Nat
deriving DecidableEq, Repr

inductive MeterEvent
  | counted (bytes : Nat)
  | measured (measure : SpeedMeasure)
  | reported (report : SpeedReport)
deriving DecidableEq, Repr

namespace Notifying

/-- The call has the mutex. -/
def holds : Notifying → Bool
  | .readClockAgain | .compareAgain _ | .measure _ _ | .estimate _ | .resetBytes _
  | .resetTime _ | .unlock _ => true
  | _ => false

/-- One access to the shared fields, each of them whole. A call at the mutex waits while
another has it.
-/
def step (fileSize : Nat) (clock : Int) (meter : SpeedMeter)
    : Notifying → Option (SpeedMeter × Notifying)
  | .countRecent bytes =>
      some ({ meter with
        nBytesFromLastSpeedCalc := wrap (meter.nBytesFromLastSpeedCalc + bytes) },
        .countTotal bytes)
  | .countTotal bytes =>
      some ({ meter with nTotalReceivedBytes := wrap (meter.nTotalReceivedBytes + bytes) },
        .readClock)
  | .readClock => some (meter, .compare clock)
  | .compare now =>
      some (meter,
        if 0.5 < secondsBetween meter.lastSpeedCalcTime now then .lock else .report false)
  | .lock =>
      if meter.speedMtx then none else some ({ meter with speedMtx := true }, .readClockAgain)
  | .readClockAgain => some (meter, .compareAgain clock)
  | .compareAgain now =>
      let dt := secondsBetween meter.lastSpeedCalcTime now
      some (meter, if 0.5 < dt then .measure now dt else .unlock false)
  | .measure now dt => some (meter.measureSpeed dt, .estimate now)
  | .estimate now => some (meter.estimateTime fileSize, .resetBytes now)
  | .resetBytes now => some ({ meter with nBytesFromLastSpeedCalc := 0 }, .resetTime now)
  | .resetTime now => some ({ meter with lastSpeedCalcTime := now }, .unlock true)
  | .unlock shouldFireProgress =>
      some ({ meter with speedMtx := false }, .report shouldFireProgress)
  | .report _ => some (meter, .reported)
  | .reported => none

/-- What a step of a call shows. -/
def observe (meter : SpeedMeter) : Notifying → Option MeterEvent
  | .countRecent bytes => some (.counted bytes)
  | .resetTime now => some (.measured ⟨meter.lastSpeedCalcTime, now, meter.downloadSpeed⟩)
  | .report true =>
      some (.reported {
        downloadedBytes := meter.nTotalReceivedBytes
        speedBytesPerSec := ⌊meter.downloadSpeed⌋₊
        etaSeconds := ⌊meter.eta⌋₊
      })
  | _ => none

variable {fileSize : Nat} {clock : Int} {meter meter' : SpeedMeter} {call next : Notifying}

/-- The steps of a call, with what the tests of the two branches have found. -/
inductive Moves (fileSize : Nat) (clock : Int) (meter : SpeedMeter)
    : Notifying → SpeedMeter → Notifying → Prop
  | countRecent (bytes : Nat)
    : Moves fileSize clock meter (.countRecent bytes)
        { meter with
          nBytesFromLastSpeedCalc := wrap (meter.nBytesFromLastSpeedCalc + bytes) }
        (.countTotal bytes)
  | countTotal (bytes : Nat)
    : Moves fileSize clock meter (.countTotal bytes)
        { meter with nTotalReceivedBytes := wrap (meter.nTotalReceivedBytes + bytes) }
        .readClock
  | readClock : Moves fileSize clock meter .readClock meter (.compare clock)
  | late (now : Int) : Moves fileSize clock meter (.compare now) meter .lock
  | early (now : Int) : Moves fileSize clock meter (.compare now) meter (.report false)
  | lock (unlocked : meter.speedMtx = false)
    : Moves fileSize clock meter .lock { meter with speedMtx := true } .readClockAgain
  | readClockAgain : Moves fileSize clock meter .readClockAgain meter (.compareAgain clock)
  | stillLate (now : Int) (late : 0.5 < secondsBetween meter.lastSpeedCalcTime now)
    : Moves fileSize clock meter (.compareAgain now) meter
        (.measure now (secondsBetween meter.lastSpeedCalcTime now))
  | overtaken (now : Int)
    : Moves fileSize clock meter (.compareAgain now) meter (.unlock false)
  | measure (now : Int) (dt : Rat)
    : Moves fileSize clock meter (.measure now dt) (meter.measureSpeed dt) (.estimate now)
  | estimate (now : Int)
    : Moves fileSize clock meter (.estimate now) (meter.estimateTime fileSize) (.resetBytes now)
  | resetBytes (now : Int)
    : Moves fileSize clock meter (.resetBytes now)
        { meter with nBytesFromLastSpeedCalc := 0 } (.resetTime now)
  | resetTime (now : Int)
    : Moves fileSize clock meter (.resetTime now)
        { meter with lastSpeedCalcTime := now } (.unlock true)
  | unlock (fires : Bool)
    : Moves fileSize clock meter (.unlock fires) { meter with speedMtx := false }
        (.report fires)
  | report (fires : Bool) : Moves fileSize clock meter (.report fires) meter .reported

theorem moves_of_step (taken : call.step fileSize clock meter = some (meter', next))
    : Moves fileSize clock meter call meter' next := by
  cases call with
  | compare now =>
      rw [step] at taken
      split at taken <;> obtain ⟨rfl, rfl⟩ := Prod.mk.inj (Option.some.inj taken)
      · exact .late now
      · exact .early now
  | lock =>
      rw [step] at taken
      split at taken
      · contradiction
      · rename_i unlocked
        obtain ⟨rfl, rfl⟩ := Prod.mk.inj (Option.some.inj taken)
        exact .lock (Bool.eq_false_iff.mpr unlocked)
  | compareAgain now =>
      rw [step] at taken
      split at taken <;> obtain ⟨rfl, rfl⟩ := Prod.mk.inj (Option.some.inj taken)
      · exact .stillLate now ‹_›
      · exact .overtaken now
  | reported => cases taken
  | _ =>
      obtain ⟨rfl, rfl⟩ := Prod.mk.inj (Option.some.inj taken)
      constructor

end Notifying

-----------------------------------------------------------------------------------------
-- All calls of one job
-----------------------------------------------------------------------------------------

/-- A job's meter, the steady clock, and the calls of `NotifyChunkReceived`. -/
structure MeterSystem where
  fileSize : Nat
  meter : SpeedMeter
  clock : Int
  calls : List Notifying

inductive MeterAction
  | notify (bytes : Nat)
  | step (index : Nat)
  | tick (now : Int)
  /-- `Start` or `Resume`, which wait until no worker is left. -/
  | restart
deriving DecidableEq, Repr

namespace MeterSystem

/-- The constructor of `DownloadEngine` reads the clock. -/
def constructed (fileSize received : Nat) (now : Int) : MeterSystem :=
  {
    fileSize := fileSize
    meter := ⟨0, received, now, 0, 0, 0, false⟩
    clock := now
    calls := []
  }

def step (sys : MeterSystem) : MeterAction → Option MeterSystem
  | .notify bytes => some { sys with calls := sys.calls ++ [.countRecent bytes] }
  | .step index =>
      match sys.calls[index]? with
      | none => none
      | some call =>
          match call.step sys.fileSize sys.clock sys.meter with
          | none => none
          | some (meter, next) =>
              some { sys with meter := meter, calls := sys.calls.set index next }
  | .tick now => if sys.clock ≤ now then some { sys with clock := now } else none
  | .restart =>
      if ∀ call ∈ sys.calls, call = .reported then
        some { sys with meter := sys.meter.reset sys.clock }
      else none

def observe (sys : MeterSystem) : MeterAction → Option MeterEvent
  | .step index =>
      match sys.calls[index]? with
      | none => none
      | some call => call.observe sys.meter
  | _ => none

/-- The ways in which a system takes a step, each with what the step shows. -/
inductive Steps (sys : MeterSystem)
    : MeterAction → MeterSystem → Option MeterEvent → Prop
  | notify (bytes : Nat)
    : Steps sys (.notify bytes) { sys with calls := sys.calls ++ [.countRecent bytes] } none
  | move (index : Nat) (call next : Notifying) (meter : SpeedMeter)
      (found : sys.calls[index]? = some call)
      (moved : Notifying.Moves sys.fileSize sys.clock sys.meter call meter next)
    : Steps sys (.step index)
        { sys with meter := meter, calls := sys.calls.set index next }
        (call.observe sys.meter)
  | tick (now : Int) (later : sys.clock ≤ now)
    : Steps sys (.tick now) { sys with clock := now } none
  | restart (drained : ∀ call ∈ sys.calls, call = .reported)
    : Steps sys .restart { sys with meter := sys.meter.reset sys.clock } none

theorem steps_of_step {sys after : MeterSystem} {action : MeterAction}
    (taken : sys.step action = some after)
    : Steps sys action after (sys.observe action) := by
  cases action with
  | notify bytes =>
      obtain rfl := Option.some.inj taken
      exact .notify bytes
  | step index =>
      rw [step] at taken
      cases found : sys.calls[index]? with
      | none => simp [found] at taken
      | some call =>
          rw [found] at taken
          dsimp only at taken
          split at taken
          · contradiction
          · rename_i meter next moved
            obtain rfl := Option.some.inj taken
            rw [observe, found]
            exact .move index call next meter found (Notifying.moves_of_step moved)
  | tick now =>
      rw [step] at taken
      split at taken
      · rename_i later
        obtain rfl := Option.some.inj taken
        exact .tick now later
      · contradiction
  | restart =>
      rw [step] at taken
      split at taken
      · rename_i drained
        obtain rfl := Option.some.inj taken
        exact .restart drained
      · contradiction

end MeterSystem

-----------------------------------------------------------------------------------------
-- The mutex
-----------------------------------------------------------------------------------------

namespace Notifying

variable {fileSize : Nat} {clock : Int} {meter meter' : SpeedMeter} {call next : Notifying}

/-- A step of a call leaves the mutex as it is, or takes the free mutex, or gives back the
one that the call has.
-/
theorem Moves.mutex (moved : Moves fileSize clock meter call meter' next)
    : (next.holds = call.holds ∧ meter'.speedMtx = meter.speedMtx)
      ∨ (meter.speedMtx = false ∧ meter'.speedMtx = true)
      ∨ (call.holds = true ∧ next.holds = false) := by
  cases moved with
  | lock unlocked => exact Or.inr (Or.inl ⟨unlocked, rfl⟩)
  | unlock => exact Or.inr (Or.inr ⟨rfl, rfl⟩)
  | estimate => exact Or.inl ⟨rfl, (meter.estimateTime_frame fileSize).2.2.2⟩
  | _ => exact Or.inl ⟨rfl, rfl⟩

end Notifying

namespace MeterSystem

variable {sys after : MeterSystem} {action : MeterAction} {log : List MeterEvent}
  {event : Option MeterEvent} {meets : MeterSystem → MeterAction → MeterSystem → Prop}

/-- The mutex of the meter with the calls that have it. -/
def Guarded (sys : MeterSystem) : Prop :=
  Threads.Guarded Notifying.holds sys.meter.speedMtx sys.calls

theorem Guarded.step (guarded : sys.Guarded) (steps : Steps sys action after event)
    : after.Guarded := by
  cases steps with
  | notify bytes => exact Threads.Guarded.snoc guarded rfl
  | tick | restart => exact guarded
  | move index call next meter found moved =>
      change Threads.Guarded _ meter.speedMtx _
      rcases moved.mutex with ⟨same, kept⟩ | ⟨unlocked, locked⟩ | ⟨inside, outside⟩
      · rw [kept]
        exact Threads.Guarded.keep guarded found same
      · rw [Guarded, unlocked] at guarded
        rw [locked]
        exact guarded.acquire
      · exact Threads.Guarded.release guarded found inside outside

theorem guarded_of_logged {fileSize received : Nat} {now : Int}
    (logged
      : Logged MeterSystem.step meets observe (constructed fileSize received now) sys log)
    : sys.Guarded := by
  refine @Logged.invariant _ _ _ _ _ _ _ _ (fun sys _ => sys.Guarded) _ logged ?_ ?_
  · exact guarded_of_free (by simp [constructed])
  · intro before action after log _ guarded taken _
    exact guarded.step (steps_of_step taken)

end MeterSystem

end Muld
