import Muld.Sessions
import Muld.Closing

/-! No command of a client is lost while the engine is attached, where the other threads heed
what the client has asked for. What the handler has recorded is what the client asked for
last, and what the engine does follows the record.
-/

namespace Muld

open Threads

theorem Api.entry_wants (api : Api) : api.entry.wants = api.wants := by
  cases api <;> rfl

theorem Api.entry_limit (api : Api)
    : api.entry.limit = api.limit ∧ api.entry.limitWish = api.limit := by
  cases api <;> exact ⟨rfl, rfl⟩

/-- A method of the handler enters before it asks the engine for anything. -/
theorem Api.entry_ofClient {api : Api} (client : api.ofClient = true)
    : api.entry.ofClient = true ∧ api.entry.engineCommand = none := by
  cases api <;> first | exact ⟨rfl, rfl⟩ | cases client

theorem Call.limit_of_limitWish {call : Call} (wants : call.limitWish ≠ none)
    : call.limit ≠ none := by
  cases call <;> simp_all [limitWish, limit]

/-- A command in its critical section has not returned. -/
theorem Call.wants_of_returned {call : Call}
    (returned : (call == .returned true || call == .returned false) = true)
    : call.wants = none ∧ call.limit = none ∧ call.limitWish = none
      ∧ call.engineCommand = none := by
  rcases Bool.or_eq_true_iff.mp returned with same | same <;>
    rw [eq_of_beq same] <;> exact ⟨rfl, rfl, rfl, rfl⟩

namespace Session

variable {meets : Session → Action → Session → Prop} {start : Sys} {session : Session}

-----------------------------------------------------------------------------------------
-- The record of the client and the record of the handler
-----------------------------------------------------------------------------------------

/-- The last call of the client after a call took a step. -/
theorem own_set {index : Nat} {call next : Call} {shared : Shared} {workers : List Worker}
    (found : session.sys.calls[index]? = some call)
    : own { session with sys := { session.sys with
          shared, workers, calls := session.sys.calls.set index next } }
        = if session.command = some index then some next else session.own := by
  obtain ⟨inside, _⟩ := List.getElem?_eq_some_iff.mp found
  cases command : session.command with
  | none => simp [own, command]
  | some position =>
      by_cases same : position = index
      · simp [own, same, inside]
      · simp [own, command, same, Ne.symm same]

theorem own_eq {index : Nat} {call : Call} (found : session.sys.calls[index]? = some call)
    (command : session.command = some index)
    : session.own = some call := by
  simp [own, command, found]

/-- The client's last call stays where it is while another call takes a step. -/
theorem own_keeps {index : Nat} {call next other : Call} {shared : Shared}
    {workers : List Worker} (found : session.sys.calls[index]? = some call)
    (present : session.own = some other) (different : other ≠ call)
    : own { session with sys := { session.sys with
          shared, workers, calls := session.sys.calls.set index next } }
        = some other := by
  rw [own_set found, if_neg, present]
  intro command
  exact different (Option.some.inj (present.symm.trans (own_eq found command)))

/-- The record of the client agrees with the calls and with the record of the handler. -/
structure Tracked (session : Session) : Prop where
  placed
    : ∀ index,
        session.command = some index
        → ∃ call, session.sys.calls[index]? = some call ∧ call.ofClient = true
  wants
    : ∀ index call wanted,
        session.sys.calls[index]? = some call
        → call.wants = some wanted
        → session.command = some index ∧ session.last = some wanted
  limits
    : ∀ index call bps,
        session.sys.calls[index]? = some call
        → call.limit = some bps
        → session.command = some index ∧ session.limit = some bps
  /-- What the client asks the engine for is still what is recorded. -/
  commands
    : ∀ call wanted,
        session.own = some call
        → call.engineCommand = some wanted
        → session.sys.shared.handler.desiredState = wanted
  desired
    : (∃ call, session.own = some call ∧ call.wants ≠ none)
      ∨ session.sys.shared.handler.desiredState = session.last.getD .initialized
  desiredLimit
    : (∃ call, session.own = some call ∧ call.limitWish ≠ none)
      ∨ session.sys.shared.handler.desiredSpeedLimitBps = session.limit.getD 0
  engineLimit
    : session.sys.shared.handler.engine = true
      → (∃ call, session.own = some call ∧ call.limit ≠ none)
        ∨ session.sys.shared.engine.speedLimitBps = session.limit.getD 0
  unfailing : ∀ call ∈ session.sys.calls, ∀ error, call ≠ .failBeforeEngineStart error
  opens
    : session.sys.dispatched = true
      → session.sys.shared.handler.engine = true
        ∨ ∃ call ∈ session.sys.calls, call.dispatchShare = 1

theorem Tracked.worker_step (tracked : session.Tracked) {index : Nat} {worker next : Worker}
    {label : WorkerLabel} {shared : Shared}
    (taken : worker.Step session.sys.shared label shared next)
    : Tracked { session with sys := { session.sys with
        shared, workers := session.sys.workers.set index next } } := by
  obtain ⟨desired, desiredLimit, limit⟩ := taken.wishes
  have engine := taken.attached.1
  constructor <;> simp only [desired, desiredLimit, limit, engine]
  case placed => exact tracked.placed
  case wants => exact tracked.wants
  case limits => exact tracked.limits
  case commands => exact tracked.commands
  case desired => exact tracked.desired
  case desiredLimit => exact tracked.desiredLimit
  case engineLimit => exact tracked.engineLimit
  case unfailing => exact tracked.unfailing
  case opens => exact tracked.opens

/-- What a call does to the record, the client's own calls and those of other threads apart.
-/
theorem Tracked.call_step (tracked : session.Tracked) {index : Nat} {call next : Call}
    {label : CallLabel} {shared : Shared} {spawned : List Worker} {after : Sys}
    (found : session.sys.calls[index]? = some call)
    (taken : Call.Step index session.sys.shared call label shared next spawned)
    (moved : session.sys.step (.call index label) = some after)
    (heeds : session.command ≠ some index → session.Heeds call)
    (same : after = { session.sys with
      shared
      workers := session.sys.workers ++ spawned
      calls := session.sys.calls.set index next })
    : Tracked { session with sys := after } := by
  have member := List.mem_of_getElem? found
  have unfailing := tracked.unfailing call member
  have client : session.command = some index → call.ofClient = true := by
    intro command
    obtain ⟨other, present, own⟩ := tracked.placed index command
    exact Option.some.inj (found.symm.trans present) ▸ own
  have passes : ∀ bps, call = .handlerSpeedLimit bps
      → session.sys.shared.handler.engine = true → next = .speedLimit bps := by
    rintro bps rfl engine
    have calls := Sys.calls_handlerSpeedLimit found engine moved
    rw [same] at calls
    have position := congrArg (fun list : List Call => list[index]?) calls
    obtain ⟨inside, _⟩ := List.getElem?_eq_some_iff.mp found
    simpa [inside] using position
  subst same
  constructor
  case placed =>
    intro position command
    obtain ⟨other, present, own⟩ := tracked.placed position command
    by_cases same : position = index
    · subst same
      exact ⟨next, by simp [(List.getElem?_eq_some_iff.mp found).1],
        taken.ofClient (client command)⟩
    · exact ⟨other, by simpa [Ne.symm same] using present, own⟩
  case wants =>
    intro position other wanted present wants
    rcases getElem?_set_cases present with ⟨rfl, rfl⟩ | old
    · simp [taken.wants.1] at wants
    · exact tracked.wants position other wanted old.2 wants
  case limits =>
    intro position other bps present limit
    rcases getElem?_set_cases present with ⟨rfl, rfl⟩ | old
    · exact tracked.limits _ call bps found (taken.limit limit)
    · exact tracked.limits position other bps old.2 limit
  case commands =>
    intro other wanted own asks
    rw [own_set found] at own
    split at own
    · rename_i command
      obtain rfl := Option.some.inj own
      rcases taken.commands asks with ⟨_, recorded⟩ | foreign
      · exact recorded
      · simp [client command] at foreign
    · rename_i different
      have before := tracked.commands other wanted own asks
      rcases taken.desired unfailing with ⟨_, kept⟩ | ⟨_, wants, _⟩
      · exact kept.trans before
      · exact absurd (tracked.wants index call _ found wants).1 different
  case desired =>
    rcases taken.desired unfailing with ⟨quiet, kept⟩ | ⟨wanted, wants, recorded⟩
    · rcases tracked.desired with ⟨other, own, wants⟩ | agrees
      · exact Or.inl ⟨other, own_keeps found own (by rintro rfl; exact wants quiet), wants⟩
      · exact Or.inr (kept.trans agrees)
    · obtain ⟨_, last⟩ := tracked.wants index call wanted found wants
      exact Or.inr (by simp only [recorded, last, Option.getD_some])
  case desiredLimit =>
    rcases taken.desiredLimit with ⟨quiet, kept⟩ | ⟨bps, rfl, recorded⟩
    · rcases tracked.desiredLimit with ⟨other, own, wants⟩ | agrees
      · exact Or.inl ⟨other, own_keeps found own (by rintro rfl; exact wants quiet), wants⟩
      · exact Or.inr (kept.trans agrees)
    · obtain ⟨_, limit⟩ := tracked.limits index _ bps found rfl
      exact Or.inr (by simp only [recorded, limit, Option.getD_some])
  case engineLimit =>
    intro engine
    rcases taken.engineLimit with ⟨other, kept, same⟩ | ⟨bps, rfl, rfl, set⟩
        | ⟨_, bps, rfl, rfl, rfl⟩
    · simp only [same] at engine
      rcases tracked.engineLimit engine with ⟨own, present, limit⟩ | agrees
      · by_cases moves : own = call
        · subst moves
          obtain ⟨bps, isLimit⟩ := Option.ne_none_iff_exists'.mp limit
          have command := (tracked.limits index own bps found isLimit).1
          have handles : own = .handlerSpeedLimit bps := by
            cases own <;> simp_all [Call.limit]
          refine Or.inl ⟨next, by rw [own_set found, if_pos command], ?_⟩
          rw [passes bps handles engine]
          simp [Call.limit]
        · exact Or.inl ⟨own, own_keeps found present moves, limit⟩
      · exact Or.inr (kept.trans agrees)
    · obtain ⟨_, limit⟩ := tracked.limits index _ bps found rfl
      exact Or.inr (by simp only [set, limit, Option.getD_some])
    · have foreign : session.command ≠ some index := fun command => by cases client command
      obtain ⟨_, rfl⟩ := heeds foreign
      rcases tracked.desiredLimit with ⟨other, own, wants⟩ | agrees
      · refine Or.inl ⟨other, own_keeps found own ?_, Call.limit_of_limitWish wants⟩
        rintro rfl
        exact wants rfl
      · exact Or.inr agrees
  case unfailing => exact forall_set tracked.unfailing fun error => taken.unfailing error
  case opens =>
    intro dispatched
    rcases tracked.opens dispatched with engine | present
    · rcases taken.dispatches with ⟨_, same⟩ | ⟨_, _, _, _, rfl⟩
      · exact Or.inl (same.trans engine)
      · exact Or.inl rfl
    · exact (exists_set found present fun share => taken.attaches unfailing share).symm

/-- A call of another thread leaves the client's last call alone. -/
theorem Tracked.own_snoc (tracked : session.Tracked) (entry : Call) (dispatched : Bool)
    : own { session with sys := { session.sys with
          calls := session.sys.calls ++ [entry], dispatched } }
        = session.own := by
  cases command : session.command with
  | none => simp [own, command]
  | some index =>
      obtain ⟨call, found, _⟩ := tracked.placed index command
      obtain ⟨inside, _⟩ := List.getElem?_eq_some_iff.mp found
      simp [own, command, List.getElem?_append_left inside]

/-- A call of another thread enters beside the client. -/
theorem Tracked.invoke_other (tracked : session.Tracked) {api : Api}
    (attaches : api.attaches = true) (other : api.ofClient = false)
    : Tracked { session with sys := { session.sys with
        calls := session.sys.calls ++ [api.entry]
        dispatched := session.sys.dispatched || api.dispatches } } := by
  have silent : api.entry.wants = none ∧ api.entry.limit = none := by
    rw [Api.ofClient, Bool.or_eq_false_iff] at other
    rw [Api.entry_wants, (Api.entry_limit api).1]
    simpa using other
  have kept := tracked.own_snoc api.entry (session.sys.dispatched || api.dispatches)
  constructor
  case placed =>
    intro index command
    obtain ⟨call, found, own⟩ := tracked.placed index command
    obtain ⟨inside, _⟩ := List.getElem?_eq_some_iff.mp found
    exact ⟨call, by rw [List.getElem?_append_left inside, found], own⟩
  case wants =>
    intro index call wanted found wants
    rcases getElem?_snoc_cases found with old | ⟨_, rfl⟩
    · exact tracked.wants index call wanted old wants
    · simp [silent.1] at wants
  case limits =>
    intro index call bps found limit
    rcases getElem?_snoc_cases found with old | ⟨_, rfl⟩
    · exact tracked.limits index call bps old limit
    · simp [silent.2] at limit
  case commands =>
    rw [kept]
    exact tracked.commands
  case desired =>
    rw [kept]
    exact tracked.desired
  case desiredLimit =>
    rw [kept]
    exact tracked.desiredLimit
  case engineLimit =>
    rw [kept]
    exact tracked.engineLimit
  case unfailing =>
    intro call member error
    rcases mem_snoc_cases member with old | rfl
    · exact tracked.unfailing call old error
    · cases api <;> simp_all [Api.entry, Api.attaches]
  case opens =>
    intro dispatched
    by_cases dispatches : api.dispatches = true
    · refine Or.inr ⟨api.entry, List.mem_append_right _ (List.mem_singleton_self _), ?_⟩
      rw [Api.entry_dispatchShare, if_pos dispatches]
    · rw [eq_false_of_ne_true dispatches, Bool.or_false] at dispatched
      refine (tracked.opens dispatched).imp id ?_
      rintro ⟨call, member, share⟩
      exact ⟨call, List.mem_append_left _ member, share⟩

theorem wants_of_idle {call : Call} (idle : session.idle = true)
    (own : session.own = some call)
    : call.wants = none ∧ call.limit = none ∧ call.limitWish = none
      ∧ call.engineCommand = none := by
  rw [Session.idle, own] at idle
  exact Call.wants_of_returned idle

/-- The client makes its next call when the last one has returned. -/
theorem Tracked.invoke_own (tracked : session.Tracked) {api : Api}
    (client : api.ofClient = true) (idle : session.idle = true)
    : Tracked { session.note api with sys := { session.sys with
        calls := session.sys.calls ++ [api.entry]
        dispatched := session.sys.dispatched || api.dispatches } } := by
  have returned : ∀ call, session.own = some call → _ := fun _ own => wants_of_idle idle own
  rw [note, if_pos client]
  have entered : own { session with
      command := some session.sys.calls.length
      last := api.wants.or session.last
      limit := api.limit.or session.limit
      sys := { session.sys with
        calls := session.sys.calls ++ [api.entry]
        dispatched := session.sys.dispatched || api.dispatches } } = some api.entry := by
    simp [own]
  constructor
  case placed =>
    intro index command
    obtain rfl := Option.some.inj command
    exact ⟨api.entry, by simp, (Api.entry_ofClient client).1⟩
  case wants =>
    intro index call wanted found wants
    rcases getElem?_snoc_cases found with old | ⟨rfl, rfl⟩
    · obtain ⟨command, _⟩ := tracked.wants index call wanted old wants
      simp [(returned call (own_eq old command)).1] at wants
    · rw [Api.entry_wants] at wants
      exact ⟨rfl, by simp [wants]⟩
  case limits =>
    intro index call bps found limit
    rcases getElem?_snoc_cases found with old | ⟨rfl, rfl⟩
    · obtain ⟨command, _⟩ := tracked.limits index call bps old limit
      simp [(returned call (own_eq old command)).2.1] at limit
    · rw [(Api.entry_limit api).1] at limit
      exact ⟨rfl, by simp [limit]⟩
  case commands =>
    intro call wanted own asks
    obtain rfl := Option.some.inj (entered.symm.trans own)
    simp [(Api.entry_ofClient client).2] at asks
  case desired =>
    cases wants : api.wants with
    | some wanted => exact Or.inl ⟨api.entry, entered, by simp [Api.entry_wants, wants]⟩
    | none =>
        refine Or.inr (tracked.desired.resolve_left ?_)
        rintro ⟨call, own, wants⟩
        exact wants (returned call own).1
  case desiredLimit =>
    cases limit : api.limit with
    | some bps => exact Or.inl ⟨api.entry, entered, by simp [(Api.entry_limit api).2, limit]⟩
    | none =>
        refine Or.inr (tracked.desiredLimit.resolve_left ?_)
        rintro ⟨call, own, limit⟩
        exact limit (returned call own).2.2.1
  case engineLimit =>
    intro engine
    cases limit : api.limit with
    | some bps => exact Or.inl ⟨api.entry, entered, by simp [(Api.entry_limit api).1, limit]⟩
    | none =>
        refine Or.inr ((tracked.engineLimit engine).resolve_left ?_)
        rintro ⟨call, own, limit⟩
        exact limit (returned call own).2.1
  case unfailing =>
    intro call member error
    rcases mem_snoc_cases member with old | rfl
    · exact tracked.unfailing call old error
    · cases api <;> first | (simp [Api.entry]; done) | cases client
  case opens =>
    have undispatched : api.dispatches = false := by
      cases api <;> first | rfl | cases client
    intro dispatched
    rw [undispatched, Bool.or_false] at dispatched
    refine (tracked.opens dispatched).imp id ?_
    rintro ⟨call, member, share⟩
    exact ⟨call, List.mem_append_left _ member, share⟩

theorem ReachableWhile.tracked (built : start.Built) (undispatched : start.dispatched = false)
    (reached : ReachableWhile HeedsClient start session)
    : session.Tracked := by
  refine invariant_of_steps reached ?_ ?_ ?_ ?_
  · constructor
    case desired => exact Or.inr (by simp [built.handler])
    case desiredLimit => exact Or.inr (by simp [built.handler])
    all_goals simp [built.calls, built.handler, undispatched, own]
  · intro session index worker next label shared _ tracked _ taken
    exact tracked.worker_step taken
  · intro session index call next label shared spawned after _ tracked found taken moved met same
    exact tracked.call_step found taken moved (fun foreign => met foreign call found) same
  · intro session api _ tracked attaches idle
    cases client : api.ofClient with
    | true => exact tracked.invoke_own client (idle client)
    | false =>
        rw [note, client, if_neg Bool.false_ne_true]
        exact tracked.invoke_other attaches client

-----------------------------------------------------------------------------------------
-- The engine and the record of the handler
-----------------------------------------------------------------------------------------

theorem own_mem {call : Call} (own : session.own = some call) : call ∈ session.sys.calls := by
  obtain ⟨index, _, found⟩ := Option.bind_eq_some_iff.mp own
  exact List.mem_of_getElem? found

/-- The client is about to stop the engine. -/
def Stopping (session : Session) : Prop :=
  session.own = some .pauseSet ∨ session.own = some .cancelSet

/-- With an engine, a recorded `Resume` has started it or will, and a recorded `Pause` or
`Cancel` has stopped it or will.
-/
def Follows (session : Session) : Prop :=
  session.sys.shared.handler.engine = true
  → (session.sys.shared.handler.desiredState = .queued
      ∧ (session.sys.shared.engine.started = true
        ∨ ∃ call ∈ session.sys.calls, call.startsEngine = true))
    ∨ (session.sys.shared.handler.desiredState ≠ .queued
      ∧ (session.sys.shared.engine.active = false ∨ session.Stopping))

theorem Follows.worker_step (follows : session.Follows) {index : Nat} {worker next : Worker}
    {label : WorkerLabel} {shared : Shared}
    (taken : worker.Step session.sys.shared label shared next)
    : Follows { session with sys := { session.sys with
        shared, workers := session.sys.workers.set index next } } := by
  intro engine
  simp only [taken.attached.1] at engine
  obtain ⟨started, inactive⟩ := taken.started
  simp only [taken.wishes.1]
  exact (follows engine).imp
    (fun ⟨queued, runs⟩ => ⟨queued, runs.imp_left started⟩)
    (fun ⟨other, stopped⟩ => ⟨other, stopped.imp_left inactive⟩)

/-- The call that gives the handler its engine finds the engine untouched. -/
theorem Follows.publish (opens : session.sys.OpensUnattached)
    (detached : session.sys.shared.handler.engine = false) {index bps : Nat}
    {desired : DownloadState} {workers : List Worker}
    (found : session.sys.calls[index]? = some (.attachPublish desired bps))
    (heeds : session.Heeds (.attachPublish desired bps))
    : Follows { session with sys := { session.sys with
        shared := Call.publish session.sys.shared bps
        workers
        calls := session.sys.calls.set index (.attachDispatch desired) } } := by
  intro _
  by_cases queued : session.sys.shared.handler.desiredState = .queued
  · refine Or.inl ⟨queued, Or.inr ⟨_, mem_set_self found, ?_⟩⟩
    rw [heeds.1 queued]
    rfl
  · refine Or.inr ⟨queued, Or.inl ?_⟩
    simp [Call.publish, DownloadEngine.active, (opens detached).state]

/-- A command with an engine goes on to ask it for what is recorded now. -/
theorem Follows.forward {index : Nat} {call next : Call} {shared : Shared}
    {workers : List Worker} {wanted : DownloadState}
    (found : session.sys.calls[index]? = some call) (command : session.command = some index)
    (recorded : shared.handler.desiredState = wanted)
    (asks : next.engineCommand = some wanted)
    : Follows { session with sys := { session.sys with
        shared, workers, calls := session.sys.calls.set index next } } := by
  intro _
  have own : own { session with sys := { session.sys with
      shared, workers, calls := session.sys.calls.set index next } } = some next := by
    rw [own_set found, if_pos command]
  cases next
  case startSet =>
    cases asks
    exact Or.inl ⟨recorded, Or.inr ⟨_, mem_set_self found, rfl⟩⟩
  case pauseSet =>
    cases asks
    exact Or.inr ⟨by simp [recorded], Or.inr (Or.inl own)⟩
  case cancelSet =>
    cases asks
    exact Or.inr ⟨by simp [recorded], Or.inr (Or.inr own)⟩
  all_goals cases asks

/-- While a `Resume` is recorded, the engine runs or will, unless the step of another thread
does not heed it.
-/
theorem Follows.resumed (tracked : session.Tracked) {index : Nat} {call next : Call}
    {label : CallLabel} {shared : Shared} {spawned : List Worker}
    (found : session.sys.calls[index]? = some call)
    (taken : Call.Step index session.sys.shared call label shared next spawned)
    (heeds : session.command ≠ some index → session.Heeds call)
    (queued : session.sys.shared.handler.desiredState = .queued)
    (runs
      : session.sys.shared.engine.started = true
        ∨ ∃ call ∈ session.sys.calls, call.startsEngine = true)
    : shared.engine.started = true
      ∨ ∃ call ∈ session.sys.calls.set index next, call.startsEngine = true := by
  -- the client has recorded a `Resume`, so what stops the engine comes from another thread
  have overtaken : ∀ wanted, call.engineCommand = some wanted → wanted ≠ .queued
      → (session.command ≠ some index → session.own = some .startSet)
      → ∃ call ∈ session.sys.calls.set index next, call.startsEngine = true := by
    intro wanted asks other own
    have foreign : session.command ≠ some index := by
      intro command
      exact other ((tracked.commands call wanted (own_eq found command) asks).symm.trans queued)
    refine exists_set_of_keeps found ⟨_, own_mem (own foreign), rfl⟩ ?_
    intro starts
    cases call
    case startSet => cases asks; exact absurd rfl other
    case pauseSet => cases starts
    case cancelSet => cases starts
    all_goals cases asks
  rcases taken.accepts with
    ⟨same, _⟩ | ⟨_, _, _, rfl⟩ | ⟨rfl, _, admitted, rfl⟩ | ⟨rfl, _, admitted, rfl⟩
  · rcases runs with started | present
    · left
      simpa [DownloadEngine.started, DownloadEngine.active, same] using started
    · exact (exists_set found present fun starts => taken.makesStart starts).symm
  · exact Or.inl rfl
  · exact Or.inr (overtaken .paused rfl (by decide)
      fun foreign => (heeds foreign admitted).resolve_left (absurd queued))
  · exact Or.inr (overtaken .canceled rfl (by decide)
      fun foreign => (heeds foreign admitted).resolve_left (absurd queued))

/-- While something else is recorded, the engine is stopped or will be. -/
theorem Follows.stopped (tracked : session.Tracked) {index : Nat} {call next : Call}
    {label : CallLabel} {shared : Shared} {spawned : List Worker}
    (found : session.sys.calls[index]? = some call)
    (taken : Call.Step index session.sys.shared call label shared next spawned)
    (heeds : session.command ≠ some index → session.Heeds call)
    (other : session.sys.shared.handler.desiredState ≠ .queued)
    (stops : session.sys.shared.engine.active = false ∨ session.Stopping)
    : shared.engine.active = false
      ∨ Stopping { session with sys := { session.sys with
          shared
          workers := session.sys.workers ++ spawned
          calls := session.sys.calls.set index next } } := by
  have waits : session.Stopping → call ≠ .pauseSet → call ≠ .cancelSet
      → Stopping { session with sys := { session.sys with
          shared
          workers := session.sys.workers ++ spawned
          calls := session.sys.calls.set index next } } := by
    intro stopping pause cancel
    exact stopping.imp (fun own => own_keeps found own pause.symm)
      (fun own => own_keeps found own cancel.symm)
  by_cases asks : call = .pauseSet ∨ call = .cancelSet
  · exact Or.inl (taken.stops asks)
  · obtain ⟨pause, cancel⟩ := not_or.mp asks
    rcases taken.accepts with
      ⟨same, _⟩ | ⟨rfl, _, admitted, rfl⟩ | ⟨rfl, _⟩ | ⟨rfl, _⟩
    · refine stops.imp (fun inactive => ?_) (fun stopping => waits stopping pause cancel)
      simpa [DownloadEngine.active, same] using inactive
    · right
      have foreign : session.command ≠ some index := by
        intro command
        exact other (tracked.commands _ .queued (own_eq found command) rfl)
      exact waits ((heeds foreign admitted).resolve_left other) pause cancel
    · exact absurd rfl pause
    · exact absurd rfl cancel

theorem Follows.call_step (follows : session.Follows) (tracked : session.Tracked)
    (opens : session.sys.OpensUnattached) {index : Nat} {call next : Call}
    {label : CallLabel} {shared : Shared} {spawned : List Worker}
    (found : session.sys.calls[index]? = some call)
    (taken : Call.Step index session.sys.shared call label shared next spawned)
    (heeds : session.command ≠ some index → session.Heeds call)
    : Follows { session with sys := { session.sys with
        shared
        workers := session.sys.workers ++ spawned
        calls := session.sys.calls.set index next } } := by
  cases engine : session.sys.shared.handler.engine with
  | false =>
      rcases taken.dispatches with ⟨_, same⟩ | ⟨desired, bps, rfl, rfl, rfl⟩
      · intro attached
        simp [same, engine] at attached
      · refine Follows.publish opens engine found (heeds ?_)
        intro command
        obtain ⟨other, present, own⟩ := tracked.placed index command
        cases Option.some.inj (found.symm.trans present)
        cases own
  | true =>
      rcases taken.desired (tracked.unfailing call (List.mem_of_getElem? found)) with
        ⟨_, kept⟩ | ⟨wanted, wants, recorded⟩
      · intro _
        simp only [kept]
        exact (follows engine).imp
          (fun ⟨queued, runs⟩ =>
            ⟨queued, Follows.resumed tracked found taken heeds queued runs⟩)
          (fun ⟨other, stops⟩ => ⟨other, Follows.stopped tracked found taken heeds other stops⟩)
      · exact Follows.forward found (tracked.wants index call wanted found wants).1 recorded
          (taken.forwards wants engine)

/-- A call enters while the client has nothing more to stop. -/
theorem Follows.invoke (follows : session.Follows) (tracked : session.Tracked) {api : Api}
    (idle : api.ofClient = true → session.idle = true)
    : Follows { session.note api with sys := { session.sys with
        calls := session.sys.calls ++ [api.entry]
        dispatched := session.sys.dispatched || api.dispatches } } := by
  intro engine
  refine (follows engine).imp
    (fun ⟨queued, runs⟩ => ⟨queued, runs.imp_right ?_⟩)
    (fun ⟨other, stops⟩ => ⟨other, ?_⟩)
  · rintro ⟨call, member, starts⟩
    exact ⟨call, List.mem_append_left _ member, starts⟩
  · cases client : api.ofClient with
    | true =>
        refine Or.inl (stops.resolve_right ?_)
        rintro (own | own) <;> cases (wants_of_idle (idle client) own).2.2.2
    | false =>
        rw [note, client, if_neg Bool.false_ne_true, Stopping, tracked.own_snoc]
        exact stops

theorem ReachableWhile.follows (built : start.Built) (undispatched : start.dispatched = false)
    (reached : ReachableWhile HeedsClient start session)
    : session.Follows := by
  refine invariant_of_steps reached ?_ ?_ ?_ ?_
  · simp [Follows, built.handler]
  · intro session index worker next label shared _ follows _ taken
    exact follows.worker_step taken
  · intro session index call next label shared spawned after earlier follows found taken _ met
      same
    subst same
    have opens := Sys.ReachableWhile.opensUnattached built earlier.reached
      fun _ _ _ through => through
    exact follows.call_step (earlier.tracked built undispatched) opens found taken
      fun foreign => met foreign call found
  · intro session api earlier follows _ idle
    exact follows.invoke (earlier.tracked built undispatched) idle

-----------------------------------------------------------------------------------------
-- Sessions at rest
-----------------------------------------------------------------------------------------

/-- `AttachEngine` and all other calls have returned. -/
structure AtRest (session : Session) : Prop where
  attached : session.sys.dispatched = true
  returned : ∀ call ∈ session.sys.calls, call = .returned true ∨ call = .returned false

instance (session : Session) : Decidable session.AtRest :=
  decidable_of_iff
    (session.sys.dispatched = true
      ∧ ∀ call ∈ session.sys.calls, call = .returned true ∨ call = .returned false)
    ⟨fun ⟨attached, returned⟩ => ⟨attached, returned⟩,
      fun rest => ⟨rest.attached, rest.returned⟩⟩

/-- The steps of other threads heed the client, and no thread uses a null writer. -/
def ClientRun (before : Session) (action : Action) (after : Session) : Prop :=
  HeedsClient before action after ∧ Sys.FindsWriter before.sys action after.sys

instance (before : Session) (action : Action) (after : Session)
    : Decidable (ClientRun before action after) := by
  unfold ClientRun
  infer_instance

/-- The process of a client whose threads find the writer goes on. -/
theorem ReachableWhile.running (built : start.Built)
    (reached : ReachableWhile ClientRun start session)
    : session.sys.shared.nullWriter = false := by
  induction reached with
  | start => exact built.nullWriter
  | next _ taken met running => exact met.2.running (step_cases taken).1 running

/-- The engine was started if the last command was `Resume`; after another last command it is
neither `Queued` nor `Downloading`, its workers close, and no connection is scheduled when
they rest; and it has the last speed limit.
-/
structure Obeyed (session : Session) : Prop where
  resumed : session.last = some .queued → session.sys.shared.engine.started = true
  stopped : session.last ≠ some .queued → session.sys.shared.engine.active = false
  windsDown : session.last ≠ some .queued → session.sys.WindsDown
  unscheduled
    : session.last ≠ some .queued
      → session.sys.WorkersRest
      → session.sys.shared.engine.scheduledConnections = 0
  limited : ∀ bps, session.limit = some bps → session.sys.shared.engine.speedLimitBps = bps

/-- At rest the client has nothing on its way. -/
theorem AtRest.idle (rest : session.AtRest) : session.idle = true := by
  cases own : session.own with
  | none => simp [Session.idle, own]
  | some call =>
      rcases rest.returned call (own_mem own) with rfl | rfl <;> simp [Session.idle, own]

/-- At rest the handler has its engine. -/
theorem AtRest.engine (rest : session.AtRest) (tracked : session.Tracked)
    : session.sys.shared.handler.engine = true := by
  refine (tracked.opens rest.attached).resolve_right ?_
  rintro ⟨call, member, share⟩
  rcases rest.returned call member with rfl | rfl <;> cases share

/-- The engine at rest is not active if the last command was not `Resume`. -/
theorem AtRest.inactive (rest : session.AtRest) (tracked : session.Tracked)
    (follows : session.Follows) (last : session.last ≠ some .queued)
    : session.sys.shared.engine.active = false := by
  have idle : ∀ {call}, session.own = some call → _ := fun own => wants_of_idle rest.idle own
  have desired : session.sys.shared.handler.desiredState = session.last.getD .initialized :=
    tracked.desired.resolve_left fun ⟨_, own, wants⟩ => wants (idle own).1
  have other : session.sys.shared.handler.desiredState ≠ .queued := by
    rw [desired]
    cases found : session.last with
    | none => simp
    | some wanted =>
        rw [found] at last
        exact fun same => last (congrArg some same)
  rcases follows (rest.engine tracked) with ⟨queued, _⟩ | ⟨_, inactive | stopping⟩
  · exact absurd queued other
  · exact inactive
  · rcases stopping with own | own <;> cases (idle own).2.2.2

/-- Where the other threads heed the client and find the writer, no command is lost: when all
calls have returned, the engine does what the last ones asked for.
-/
theorem commands_obeyed (built : start.Built) (undispatched : start.dispatched = false)
    (reached : ReachableWhile ClientRun start session) (rest : session.AtRest)
    : session.Obeyed := by
  have heeds : ReachableWhile HeedsClient start session :=
    Transition.Reachable.mono reached fun _ _ _ met => met.1
  have tracked := heeds.tracked built undispatched
  have follows := heeds.follows built undispatched
  have engine := rest.engine tracked
  have idle : ∀ {call}, session.own = some call → _ := fun own => wants_of_idle rest.idle own
  have winds : session.last ≠ some .queued → session.sys.WindsDown := by
    intro last
    have stopped : session.sys.Stopped := ⟨rest.returned, rest.inactive tracked follows last⟩
    exact stopped.windsDown (reached.running built) built reached.reached
  constructor
  case resumed =>
    intro last
    have desired : session.sys.shared.handler.desiredState = session.last.getD .initialized :=
      tracked.desired.resolve_left fun ⟨_, own, wants⟩ => wants (idle own).1
    have queued : session.sys.shared.handler.desiredState = .queued := by rw [desired, last]; rfl
    rcases follows engine with ⟨_, started | ⟨call, member, starts⟩⟩ | ⟨other, _⟩
    · exact started
    · rcases rest.returned call member with rfl | rfl <;> cases starts
    · exact absurd queued other
  case stopped => exact rest.inactive tracked follows
  case windsDown => exact winds
  case unscheduled => exact fun last workers => (winds last).unscheduled workers
  case limited =>
    intro bps limit
    have set := (tracked.engineLimit engine).resolve_left
      fun ⟨_, own, passes⟩ => passes (idle own).2.1
    rw [set, limit]
    rfl

theorem exists_reachable (meets : Session → Action → Session → Prop)
    [∀ before action after, Decidable (meets before action after)] (start : Sys)
    (actions : List Action) (test : Session → Bool)
    (ran : (Transition.runWhile step meets { sys := start } actions).any test = true)
    : ∃ session, ReachableWhile meets start session ∧ test session = true :=
  Transition.exists_of_runWhile ran

open Muld.Action in
/-- A `Pause` that finds the engine in the handler before `AttachEngine` has started it: the
recorded `Resume` starts it, the `Pause` stops it, and both workers close.
-/
theorem commands_obeyed_pause
    : ∃ session : Session,
        session.last = some .paused
        ∧ session.sys.shared.engine.state = .paused
        ∧ session.sys.shared.engine.speedLimitBps = 1000
        ∧ session.sys.shared.engine.scheduledConnections = 0 := by
  obtain ⟨session, reached, holds⟩ :=
    exists_reachable ClientRun Sys.twoChunks
      (.invoke (.handlerSpeedLimit 1000) :: callRuns 0 1
        ++ .invoke .handlerResume :: callRuns 1 1
        ++ .invoke .attachEngine :: callRuns 2 4
        ++ .invoke .handlerPause :: callRuns 3 1
        ++ callRuns 2 15 ++ callRuns 3 2 ++ workerRuns 0 10 ++ workerRuns 1 10)
      (fun session =>
        decide session.AtRest
          && decide (session.last = some .paused)
          && decide (session.limit = some 1000)
          && decide (session.sys.shared.engine.state = .paused)
          && decide (∀ worker ∈ session.sys.workers, worker.pc = .closed))
      (by decide +kernel)
  simp only [Bool.and_eq_true, decide_eq_true_iff] at holds
  obtain ⟨⟨⟨⟨rest, last⟩, limit⟩, paused⟩, closed⟩ := holds
  have obeyed := commands_obeyed Sys.twoChunks_built rfl reached rest
  exact ⟨session, last, paused, obeyed.limited 1000 limit,
    obeyed.unscheduled (by simp [last]) (Sys.workersRest_of_closed closed)⟩

open Muld.Action in
/-- `Cancel` is called between `AttachEngine`'s read of the recorded `Resume` and the moment
the handler gets its engine: it is only recorded, and the download is started.
-/
theorem cancel_lost
    : ¬ ∀ (start : Sys) (session : Session),
        start.Built
        → start.dispatched = false
        → ReachableWhile Transition.anyStep start session
        → session.AtRest
        → session.Obeyed := by
  intro obeyed
  obtain ⟨session, reached, holds⟩ :=
    exists_reachable Transition.anyStep Sys.twoChunks
      (.invoke .handlerResume :: callRuns 0 1 ++ .invoke .attachEngine :: callRuns 1 3
        ++ .invoke .handlerCancel :: callRuns 2 1 ++ callRuns 1 16)
      (fun session =>
        decide session.AtRest
          && decide (session.last = some .canceled)
          && session.sys.shared.engine.active)
      (by decide +kernel)
  simp only [Bool.and_eq_true, decide_eq_true_iff] at holds
  obtain ⟨⟨rest, last⟩, active⟩ := holds
  have stopped := (obeyed _ session Sys.twoChunks_built rfl reached rest).stopped (by simp [last])
  simp [active] at stopped

end Session

end Muld
