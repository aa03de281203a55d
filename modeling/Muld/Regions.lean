import Muld.WorkerSteps
import Muld.Calls

/-! Regions of the programs: sets of program points that invariants speak about. -/

namespace Muld

/-- The worker counts in `scheduledConnections_`. -/
def WorkerPc.scheduled : WorkerPc → Bool
  | .closeConnection | .closeCheck | .closeCleanup | .closed => false
  | _ => true

/-- The worker counts in `nConnections_`. -/
def WorkerPc.connected : WorkerPc → Bool
  | .queued | .closeCheck | .closeCleanup | .closed => false
  | _ => true

/-- The callers of `Store` that come back to the loop over a work item. -/
def StoreSite.mayHold : StoreSite → Bool
  | .notify | .complete => true
  | .fail => false

/-- The program points at which a work item can be held. -/
def WorkerPc.mayHold : WorkerPc → Bool
  | .pollInner | .checkState | .request | .streamHead | .streamState | .budget
  | .awaitBudget | .read | .write | .readEnd | .streamed _ | .notifyUpdate | .notifyTotal
  | .notifyEvent | .notifyEventReport | .notifyProgress | .notifyProgressReport
  | .notifyCount | .notifyFinished | .notifyBump | .completeCas | .completeForce
  | .completeCleanup | .finishReport | .failSet => true
  | .storeLock site | .storeScan site | .storeWrite site => site.mayHold
  | _ => false

theorem WorkerPc.scheduled_of_mayHold {pc : WorkerPc} (holds : pc.mayHold = true)
    : pc.scheduled = true := by
  cases pc <;> simp_all [mayHold, scheduled]

theorem WorkerPc.scheduled_of_throws {pc : WorkerPc} (throws : pc.throws = true)
    : pc.scheduled = true := by
  cases pc <;> simp_all [WorkerPc.throws, scheduled]

theorem WorkerPc.connected_of_throws {pc : WorkerPc} (throws : pc.throws = true)
    : pc.connected = true := by
  cases pc <;> simp_all [WorkerPc.throws, connected]

/-- A call that has read the chunks for a rebuild and has not finished it. -/
def Call.building : Call → Bool
  | .resetNext _ | .resetCount _ => true
  | _ => false

/-- The program points that complete the download. -/
def WorkerPc.completing : WorkerPc → Bool
  | .completeCas | .completeForce => true
  | _ => false

/-- The program points between the completed state and `on_finish`. -/
def WorkerPc.finishing : WorkerPc → Bool
  | .storeLock .complete | .storeScan .complete | .storeWrite .complete
  | .completeCleanup | .finishReport => true
  | _ => false

/-- A call that was accepted by `Start` or `Resume` and has not rebuilt the work list. -/
def Call.starting : Call → Bool
  | .startReport | .drain | .resetBudget | .rebuild | .resetNext _ | .resetCount _ => true
  | _ => false

/-- A call whose `Cancel` was accepted and that has not cleaned up. -/
def Call.canceling : Call → Bool
  | .cancelReport | .cancelCheck | .cancelCleanup => true
  | _ => false

/-- A call between its drain check and the end of its rebuild. -/
def Call.rebuilding : Call → Bool
  | .resetBudget | .rebuild | .resetNext _ | .resetCount _ => true
  | _ => false

/-- The number of scheduled workers that the compare-and-swap of a planner expects. -/
def Call.expects : Call → Option Int
  | .planCas scheduled _ => some scheduled
  | _ => none

theorem Call.rebuilding_of_building {call : Call} (building : call.building = true)
    : call.rebuilding = true := by
  cases call <;> simp_all [Call.building, rebuilding]

end Muld
