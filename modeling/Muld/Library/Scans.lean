import Muld.Library.Threads

/-! Scans that read counters one after another while others raise them. A scan misses what
was added behind its position, and nothing when it reads the next counter.
-/

namespace Scans

open Threads

variable {κ ρ : Type*} (counter : κ → Int) (recorded : ρ → Int)

/-- How far the counters that a scan has read are above what it recorded. -/
def missed (counters : List κ) (scan : List ρ) : Int :=
  total counter (counters.take scan.length) - total recorded scan

@[simp]
theorem missed_nil (counters : List κ) : missed counter recorded counters [] = 0 := by
  simp [missed]

variable {counter recorded} {counters : List κ} {scan : List ρ} {index : Nat} {old new : κ}
  {entry : ρ}

/-- Reading the next counter misses nothing of it. -/
theorem missed_read (found : counters[scan.length]? = some old)
    (read : recorded entry = counter old)
    : missed counter recorded counters (scan ++ [entry])
        = missed counter recorded counters scan := by
  have longer : counters.take (scan.length + 1) = counters.take scan.length ++ [old] := by
    rw [List.take_add_one, found, Option.toList_some]
  simp only [missed, List.length_append, List.length_singleton, longer, total_append,
    total_singleton, read]
  ring

/-- A counter that goes up is missed by a scan that is past it. -/
theorem missed_set_le {amount : Int} (found : counters[index]? = some old)
    (nonneg : 0 ≤ amount) (raised : counter new ≤ counter old + amount)
    : missed counter recorded (counters.set index new) scan
        ≤ missed counter recorded counters scan + amount := by
  simp only [missed, List.take_set]
  by_cases past : index < scan.length
  · have inside : (counters.take scan.length)[index]? = some old := by
      rw [List.getElem?_take_of_lt past, found]
    rw [total_set _ inside]
    omega
  · have outside : (counters.take scan.length).length ≤ index := by
      rw [List.length_take]
      omega
    rw [List.set_eq_of_length_le outside]
    omega

/-- What a scan of all counters missed is all that its record lacks. -/
theorem total_sub_eq_missed (complete : counters.length ≤ scan.length)
    : total counter counters - total recorded scan = missed counter recorded counters scan := by
  rw [missed, List.take_of_length_le complete]

end Scans
