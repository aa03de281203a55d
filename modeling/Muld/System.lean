import Muld.Calls
import Muld.Library.Transition

/-! One download job with all its workers and all calls in progress.
Every action is one atomic step of one worker or call, or the entry of a new call, so the
runs of the system are the interleavings of the threads that share the engine.
-/

namespace Muld

structure Sys where
  shared : Shared
  workers : List Worker
  calls : List Call
  /-- The dispatcher has decided between attaching an engine and failing. -/
  dispatched : Bool

inductive Action
  | worker (index : Nat) (label : WorkerLabel)
  | call (index : Nat) (label : CallLabel)
  | invoke (api : Api)
deriving DecidableEq, Repr

/-- A worker takes some steps that need no decision of the environment. -/
def Action.workerRuns (index count : Nat) : List Action :=
  List.replicate count (.worker index .run)

/-- A call takes some steps that need no decision of the environment. -/
def Action.callRuns (index count : Nat) : List Action :=
  List.replicate count (.call index .run)

/-- A worker at the top of the loop over its item requests a body, receives all of it in
one read, writes and counts it.
-/
def Action.fetch (index status : Nat) (bytes : List Byte) : List Action :=
  workerRuns index 2
    ++ [.worker index (.header status ""), .worker index (.isDone false)]
    ++ workerRuns index 2
    ++ [.worker index (.read bytes .none), .worker index (.wrote bytes.length)]
    ++ workerRuns index 1
    ++ [.worker index (.clock false)]
    ++ workerRuns index 4

/-- The dispatcher ends a request by one of these, once. -/
def Api.dispatches : Api → Bool
  | .attachEngine => true
  | .failBeforeEngineStart _ => true
  | _ => false

namespace Sys

def step (sys : Sys) (action : Action) : Option Sys :=
  if sys.shared.nullWriter then none
  else
    match action with
    | .worker index label =>
        match sys.workers[index]? with
        | none => none
        | some worker =>
            match worker.step sys.shared label with
            | none => none
            | some (shared, next) =>
                some { sys with shared, workers := sys.workers.set index next }
    | .call index label =>
        match sys.calls[index]? with
        | none => none
        | some call =>
            match call.step index sys.shared label with
            | none => none
            | some (shared, next, spawned) =>
                some { sys with
                  shared
                  workers := sys.workers ++ spawned
                  calls := sys.calls.set index next }
    | .invoke api =>
        if api.dispatches ∧ sys.dispatched then none
        else
          some { sys with
            calls := sys.calls ++ [api.entry]
            dispatched := sys.dispatched || api.dispatches }

/-- A job that was just built, with its handler and without any thread acting on it. -/
structure Built (sys : Sys) : Prop where
  workers : sys.workers = []
  calls : sys.calls = []
  state : sys.shared.engine.state = .initialized
  pendingWork : sys.shared.engine.pendingWork = []
  nextWorkItem : sys.shared.engine.nextWorkItem = 0
  nConnections : sys.shared.engine.nConnections = 0
  scheduledConnections : sys.shared.engine.scheduledConnections = 0
  writer : sys.shared.engine.writer = true
  artifactsCleaned : sys.shared.engine.artifactsCleaned = false
  diskLocked : sys.shared.engine.diskLocked = false
  callbacksAttached : sys.shared.engine.callbacksAttached = false
  handler : sys.shared.handler = {}
  history : sys.shared.history = {}
  nullWriter : sys.shared.nullWriter = false
  /-- The number of chunks is a `size_t`. -/
  nChunks : sys.shared.engine.nChunks < sizeModulus

/-- A job built by the first constructor of the engine. -/
def fresh (maxConnections : Int) (fileSize : Nat) (ranged : Bool) (nChunks : Nat)
    [NeZero nChunks] (file : Nat → Byte) (maxThreads : Int)
    : Sys where
  shared := {
    engine := .create maxConnections fileSize ranged nChunks
    handler := {}
    output := some file
    image := .absent
    maxThreads
    history := {}
    nullWriter := false
  }
  workers := []
  calls := []
  dispatched := false

/-- A job built from a stored image. -/
def loaded (image : JobImage) (file : Nat → Byte) (maxThreads : Int) : Sys where
  shared := {
    engine := .ofImage image
    handler := {}
    output := some file
    image := .stored image.chunks
    maxThreads
    history := {}
    nullWriter := false
  }
  workers := []
  calls := []
  dispatched := false

/-- A ranged job of twenty bytes in two chunks. -/
def twoChunks : Sys := fresh 8 20 true 2 (fun _ => 0) 8

/-- A job of twenty bytes for a server without range support. -/
def oneChunk : Sys := fresh 8 20 false 1 (fun _ => 0) 8

theorem fresh_built (maxConnections : Int) (fileSize : Nat) (ranged : Bool) {nChunks : Nat}
    [NeZero nChunks] (file : Nat → Byte) (maxThreads : Int) (fits : nChunks < sizeModulus)
    : (fresh maxConnections fileSize ranged nChunks file maxThreads).Built := by
  constructor
  case nChunks => simpa [fresh, DownloadEngine.create, DownloadEngine.nChunks] using fits
  all_goals rfl

theorem loaded_built {image : JobImage} (file : Nat → Byte) (maxThreads : Int)
    (fits : image.chunks.length < sizeModulus)
    : (loaded image file maxThreads).Built := by
  constructor
  case nChunks => simpa [loaded, DownloadEngine.ofImage, DownloadEngine.nChunks] using fits
  all_goals rfl

theorem twoChunks_built : twoChunks.Built :=
  fresh_built _ _ _ _ _ (by decide)

theorem oneChunk_built : oneChunk.Built :=
  fresh_built _ _ _ _ _ (by decide)

end Sys

end Muld
