import Mathlib.Data.List.Basic
import Modbus.Proofs.Connection.Custody
import Modbus.Proofs.Connection.View
import Modbus.Proofs.Connection.Waiting

/-!
# What is owed to whom

A caller that hands a request to the connection is owed a result, and the result reaches it over one
of three ways: the worker delivers it, a disposal refuses what is still queued, or the caller itself
finds that it has been cancelled or that the connection is to stop.  A worker that breaks down leaves
its request without a result, and that is one as well.  A `Docket` keeps what decides which: the
request in the worker's hands and its result, if there is one yet, what is queued, the calls with the
marks of their callers, how far a disposal has come, and what was noted of the calls.  Of the link it
keeps nothing: that is what a `Custody` is for, and the two together are all that is ever said of
what one happening does.

Everything that one happening can do to a docket is an `Amendment`.  Whoever makes a result says in
it why the result is right (`Docket.Earned`, `Docket.Resumes`), and that is all that is ever known of
it later.
-/

namespace Modbus

def Stage.isStopped : Stage → Bool
  | .stopped => true
  | _ => false

/-! ## Calls -/

namespace Call

variable {α : Type}

/-- **A call that is handed a result**, if it waits for the ticket and has none. -/
def handed (ticket : Nat) (result : Result Bytes) (call : Call α) : Call α :=
  { call with progress := Connection.delivered ticket result call.progress }

lemma ticket?_handed (ticket : Nat) (result : Result Bytes) (call : Call α) :
    (call.handed ticket result).ticket? = call.ticket? := by
  obtain ⟨cancelled, progress⟩ := call
  cases progress with
  | waiting own reply next =>
      cases reply with
      | none =>
          by_cases hticket : own = ticket <;>
            simp [handed, ticket?, Connection.delivered, hticket]
      | some reply => rfl
  | _ => rfl

end Call

namespace Connection

variable {σ α : Type}

/-! ## Dockets -/

/-- The request in the worker's hands. -/
def Phase.item? : Phase → Option Queued
  | .idle => none
  | .holding item => some item
  | .reading item _ => some item
  | .ended item _ => some item
  | .delivering item _ => some item

/-- The result that the worker has for it. -/
def Phase.result? : Phase → Option (Result Bytes)
  | .ended _ result => some result
  | .delivering _ result => some result
  | _ => none

/-- **What is owed to whom.** -/
structure Docket (α : Type) where
  phase : Phase
  queue : List Queued
  closed : Bool
  nextTicket : Nat
  /-- The worker waits for notice from the queue. -/
  parked : Bool
  /-- The worker has stopped. -/
  stopped : Bool
  calls : List (Call α)
  shutdown : Bool
  disposal : Disposal
  /-- What was noted of calls, oldest first. -/
  noted : List Occurrence

/-- The docket of a connection. -/
def docket (connection : Connection σ α) : Docket α where
  phase := phase connection.worker
  queue := connection.queue.items
  closed := connection.queue.closed
  nextTicket := connection.queue.nextTicket
  parked := decide (connection.queue.signal.waiter = .waiting)
  stopped := connection.worker.isStopped
  calls := connection.calls
  shutdown := connection.shutdown
  disposal := connection.disposal
  noted := (occurrences connection.history).filter isAside

namespace Docket

/-- **The requests that have not come to their end**: the one in the worker's hands, and the queued
ones. -/
def pending (d : Docket α) : List Queued :=
  d.phase.item?.toList ++ d.queue

/-- The connection is to stop, by any of the signs of it. -/
def Stopping (d : Docket α) : Prop :=
  d.shutdown = true ∨ d.disposal ≠ .untouched ∨ d.closed = true ∨ d.stopped = true

/-! ## Results -/

/-- **Why a request ends early**, and the error that says so. -/
inductive Interrupted (d : Docket α) (item : Queued) : Error → Prop where
  | cancelled {call : Call α} (hcall : d.calls[item.call]? = some call)
      (hcancelled : call.cancelled = true) : Interrupted d item .cancelled
  | disposed (hshutdown : d.shutdown = true) : Interrupted d item .disposed
  /-- Nobody waits for it any more. -/
  | abandoned (hleft : ∀ id, ¬ WaitsFor d.calls id item.ticket) : Interrupted d item .cancelled

/-- **Why the worker has a result** for a request. -/
inductive Earned (d : Docket α) (item : Queued) : Result Bytes → Prop where
  | complete {bytes : Bytes} (hcomplete : item.complete bytes = true) : Earned d item (.ok bytes)
  | interrupted {error : Error} (hinterrupted : d.Interrupted item error) :
      Earned d item (.error error)
  /-- The link failed. -/
  | failed {error : Error} (hcancelled : error ≠ .cancelled) (hdisposed : error ≠ .disposed)
      (hlink : error.exceptionCode? = none) : Earned d item (.error error)

/-- **A result that a waiting call comes to.** -/
inductive Yields (d : Docket α) (call : Call α) : Option (Result Bytes) → Result Bytes → Prop where
  | reply {result : Result Bytes} : Yields d call (some result) result
  | cancelled (hcancelled : call.cancelled = true) : Yields d call none (.error .cancelled)
  | disposed (hshutdown : d.shutdown = true) : Yields d call none (.error .disposed)

/-- **What a call does by itself**, or what is done to it from outside. -/
inductive Resumes (d : Docket α) : Call α → Call α → Prop where
  /-- It does something else than handing over a request. -/
  | proceed {call : Call α} {operation : Operation α} {progress : Progress α}
      (hcall : call.progress = .running operation)
      (hother : ∀ request complete next, operation ≠ .invoke request complete next)
      (hprogress : ∀ ticket reply next, progress ≠ .waiting ticket reply next) :
      Resumes d call { call with progress }
  /-- Its request is refused. -/
  | refuse {call : Call α} {request : Bytes} {complete : Bytes → Bool}
      {next : Result Bytes → Operation α} {error : Error}
      (hcall : call.progress = .running (.invoke request complete next))
      (hcancelled : error = .cancelled → call.cancelled = true)
      (hdisposed : error = .disposed → d.Stopping) :
      Resumes d call { call with progress := .running (next (.error error)) }
  /-- Its wait ends. -/
  | leave {call : Call α} {ticket : Nat} {reply : Option (Result Bytes)}
      {next : Result Bytes → Operation α} {result : Result Bytes}
      (hcall : call.progress = .waiting ticket reply next) (hresult : d.Yields call reply result) :
      Resumes d call { call with progress := .running (next result) }
  | drop {call : Call α} (hcall : call.isOver = false) :
      Resumes d call { call with progress := .dropped }

/-- **What is noted of a call that goes on**, or is given up: the end of its wait, if it waited. -/
inductive Notes (call : Call α) : List Occurrence → Prop where
  | silent (hticket : call.ticket? = none) : Notes call []
  | returned {ticket : Nat} (hticket : call.ticket? = some ticket) (result : Result Bytes) :
      Notes call [.returned ticket result]
  | abandoned {ticket : Nat} (hticket : call.ticket? = some ticket) :
      Notes call [.abandoned ticket]

end Docket

/-- **Everything that one happening can do to a docket.** -/
inductive Amendment : Docket α → Docket α → Prop where
  | rest {d : Docket α} : Amendment d d
  /-- The worker takes the oldest request. -/
  | take {d : Docket α} {item : Queued} {later : List Queued} (hphase : d.phase = .idle)
      (hqueue : d.queue = item :: later) :
      Amendment d { d with phase := .holding item, queue := later, parked := false }
  /-- The worker finds nothing queued and waits. -/
  | park {d : Docket α} (hphase : d.phase = .idle) (hqueue : d.queue = []) :
      Amendment d { d with parked := true }
  | stop {d : Docket α} {parked : Bool} (hphase : d.phase = .idle) (hshutdown : d.shutdown = true)
      (hparked : parked = true → d.parked = true) : Amendment d { d with parked, stopped := true }
  /-- The worker goes on with the request in its hands, and may come to its result.  It does not go
  back to where it had not sent the request. -/
  | work {d : Docket α} {item : Queued} {phase : Phase} (hbefore : d.phase.item? = some item)
      (hafter : phase.item? = some item) (hheld : phase = .holding item → d.phase = .holding item)
      (hresult : ∀ result, phase.result? = some result →
        d.phase.result? = some result ∨ d.Earned item result) :
      Amendment d { d with phase }
  | deliver {d : Docket α} {item : Queued} {result : Result Bytes}
      (hphase : d.phase = .delivering item result) :
      Amendment d { d with
        phase := .idle
        calls := d.calls.modify item.call (Call.handed item.ticket result) }
  /-- The worker breaks down, and the request in its hands gets no other result. -/
  | breakDown {d : Docket α} {item : Queued} (hphase : d.phase.item? = some item) :
      Amendment d { d with
        phase := .idle
        stopped := true
        calls := d.calls.modify item.call (Call.handed item.ticket (.error .disposed)) }
  /-- A disposal begins. -/
  | dispose {d : Docket α} (hdisposal : d.disposal = .untouched) :
      Amendment d { d with disposal := .joiningWorker, shutdown := true }
  | join {d : Docket α} (hdisposal : d.disposal = .joiningWorker) :
      Amendment d { d with disposal := .joiningTimer }
  /-- A disposal refuses what is queued. -/
  | refuseQueued {d : Docket α} (hdisposal : d.disposal = .joiningTimer) :
      Amendment d { d with
        queue := []
        closed := true
        disposal := .awaitingLink
        calls := d.queue.foldl (fun calls item =>
          calls.modify item.call (Call.handed item.ticket (.error .disposed))) d.calls }
  | finish {d : Docket α} (hdisposal : d.disposal = .awaitingLink) :
      Amendment d { d with disposal := .finished }
  | start {d : Docket α} (operation : Operation α) (cancelled : Bool) :
      Amendment d { d with calls := d.calls ++ [⟨cancelled, .running operation⟩] }
  | cancel {d : Docket α} {id : Nat} {call : Call α} (hcall : d.calls[id]? = some call) :
      Amendment d { d with calls := d.calls.set id { call with cancelled := true } }
  /-- A call goes on, or is given up; the request that it waited for is taken out of the queue. -/
  | resume {d : Docket α} {id nextTicket : Nat} {call after : Call α} {news : List Occurrence}
      (hcall : d.calls[id]? = some call) (hresumes : d.Resumes call after)
      (hticket : d.nextTicket ≤ nextTicket) (hnews : Docket.Notes call news) :
      Amendment d { d with
        queue := d.queue.filter fun item => call.ticket? != some item.ticket
        nextTicket
        calls := d.calls.set id after
        noted := d.noted ++ news }
  | accept {d : Docket α} {id : Nat} {call : Call α} {request : Bytes} {complete : Bytes → Bool}
      {next : Result Bytes → Operation α} (hcall : d.calls[id]? = some call)
      (hprogress : call.progress = .running (.invoke request complete next))
      (hopen : d.closed = false) :
      Amendment d { d with
        queue := d.queue ++ [⟨d.nextTicket, id, request, complete⟩]
        nextTicket := d.nextTicket + 1
        parked := false
        calls := d.calls.set id { call with progress := .waiting d.nextTicket none next }
        noted := d.noted ++ [.accepted d.nextTicket id] }

/-! ## Dockets of changed connections -/

/-- What happens to a call is noted. -/
lemma docket_note (connection : Connection σ α) {occurrence : Occurrence}
    (haside : isAside occurrence = true) : (connection.note occurrence).docket
      = { connection.docket with noted := connection.docket.noted ++ [occurrence] } := by
  rw [docket, note, occurrences_cons, List.filter_append, List.filter_singleton, haside]
  rfl

/-- What happens on the link is not. -/
lemma docket_note_foreign (connection : Connection σ α) {occurrence : Occurrence}
    (haside : isAside occurrence = false) :
    (connection.note occurrence).docket = connection.docket := by
  rw [docket, note, occurrences_cons, List.filter_append, List.filter_singleton, haside]
  exact congrArg (fun noted => { connection.docket with noted }) (List.append_nil _)

lemma docket_foldl_note : ∀ (events : List Wire.Event) (connection : Connection σ α),
    (events.foldl (fun connection event => connection.note (.wire event)) connection).docket
      = connection.docket
  | [], _ => rfl
  | event :: events, connection =>
      (docket_foldl_note events (connection.note (.wire event))).trans
        (docket_note_foreign connection rfl)

/-- Nothing is owed to anybody on the link. -/
lemma docket_perform {β : Type} (connection : Connection σ α)
    (performed : Wire.Performed σ β) :
    (connection.perform performed).docket = connection.docket :=
  docket_foldl_note performed.events _

lemma docket_closeLink (connection : Connection σ α) :
    connection.closeLink.docket = connection.docket :=
  docket_perform connection connection.wire.close

/-- An attempt to open the link begins. -/
lemma docket_attempted (connection : Connection σ α) :
    ((connection.perform connection.wire.close).note .attempted).docket = connection.docket :=
  (docket_note_foreign _ rfl).trans (docket_perform connection connection.wire.close)

lemma docket_moveTo (connection : Connection σ α) (stage : Stage) :
    (Worker.moveTo connection stage).docket
      = { connection.docket with phase := phase stage, stopped := stage.isStopped } :=
  rfl

/-- A worker that has a request in its hands has not stopped. -/
lemma isStopped_of_item? {stage : Stage} {item : Queued} (h : (phase stage).item? = some item) :
    stage.isStopped = false := by
  cases stage <;> first | rfl | simp [phase, Phase.item?] at h

/-- **The worker goes on with the request in its hands.** -/
lemma docket_onward {before after : Connection σ α} {stage : Stage} {item : Queued}
    (hbefore : (phase before.worker).item? = some item) (hdocket : after.docket = before.docket)
    (hafter : (phase stage).item? = some item) :
    (Worker.moveTo after stage).docket = { before.docket with phase := phase stage } := by
  have hstopped : stage.isStopped = before.docket.stopped :=
    (isStopped_of_item? hafter).trans (isStopped_of_item? hbefore).symm
  rw [docket_moveTo, hdocket, hstopped]

lemma docket_deliver (connection : Connection σ α) (item : Queued) (result : Result Bytes) :
    (connection.deliver item result).docket
      = { connection.docket with
          calls := connection.docket.calls.modify item.call (Call.handed item.ticket result) } := by
  simp only [deliver, modifyCall, docket]
  congr 2
  funext call
  obtain ⟨cancelled, progress⟩ := call
  cases progress with
  | waiting ticket reply next =>
      cases reply with
      | none => by_cases hticket : ticket = item.ticket <;> simp [Call.handed, delivered, hticket]
      | some reply => rfl
  | _ => rfl

lemma docket_foldl_deliver (result : Result Bytes) :
    ∀ (items : List Queued) (connection : Connection σ α),
      (items.foldl (fun connection item => connection.deliver item result) connection).docket
        = { connection.docket with
            calls := items.foldl (fun calls item =>
              calls.modify item.call (Call.handed item.ticket result)) connection.docket.calls }
  | [], _ => rfl
  | item :: items, connection => by
      rw [List.foldl_cons, docket_foldl_deliver result items, docket_deliver]
      rfl

/-- The change of a call that is there. -/
lemma modify_eq_set {calls : List (Call α)} {id : Nat} {call : Call α}
    (hcall : calls[id]? = some call) (change : Call α → Call α) :
    calls.modify id change = calls.set id (change call) := by
  rw [List.modify_eq_set_getElem?, hcall]
  rfl

end Connection

end Modbus
