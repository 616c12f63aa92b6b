import Modbus.Wire
import Modbus.Operation
import Modbus.Connection.Timing
import Modbus.Connection.Cancellation
import Modbus.Connection.Queue
import Modbus.Connection.Lock

/-!
# The state of a connection

Many callers share one link.  Their requests wait in a queue, a worker exchanges them one at a
time, an idle timer closes the link when nothing has been completed for a while, and a disposal
ends all of it.  Each of these tasks is a small machine whose position is a value here: `Stage` for
the worker, `Watch` for the idle timer, `Disposal`, and one `Call` for each operation started.

A `Connection` also keeps its `history`: what happened, when, newest first.  Nothing reads it back;
it is there to be looked at.
-/

namespace Modbus

/-- The state of the link as the worker reports it. -/
inductive LinkState where
  | disconnected
  | connecting
  | connected
deriving DecidableEq, Repr

def LinkState.name : LinkState → String
  | disconnected => "disconnected"
  | connecting => "connecting"
  | connected => "connected"

/-! ## The tasks -/

/-- Attempts to open the link that belong together.  How many there were is only told to a log, and
not kept. -/
structure Attempts where
  /-- When the first of them began. -/
  started : Nat
  /-- The pause that follows a failure, if there is time for it. -/
  backoff : Duration
deriving DecidableEq, Repr

/-- **Where the worker is.**  In a stage marked as waiting the worker has handed control back; the
others follow each other without anyone else acting in between. -/
inductive Stage where
  /-- Waiting for a request, or about to look for one. -/
  | fetching
  /-- A request is taken. -/
  | fetched (item : Queued)
  /-- Waiting for its turn on the link. -/
  | awaitingLink (item : Queued)
  /-- The link is held. -/
  | linked (item : Queued)
  /-- About to try to open the link. -/
  | attempting (item : Queued) (attempts : Attempts)
  /-- Waiting for an attempt to come to its end at `opensAt`, or to be cut off at `expiresAt`. -/
  | opening (item : Queued) (attempts : Attempts) (opensAt expiresAt : Nat)
  /-- Waiting before the next attempt. -/
  | backingOff (item : Queued) (attempts : Attempts) (until_ : Nat)
  /-- The link is open. -/
  | sending (item : Queued)
  /-- About to read; `received` is what earlier reads gave. -/
  | receiving (item : Queued) (received : Bytes)
  /-- Waiting in a read that found nothing, until it is cut off. -/
  | stalled (item : Queued) (received : Bytes) (expiresAt : Nat)
  /-- The exchange is over, the link still held. -/
  | concluding (item : Queued) (result : Result Bytes)
  /-- The link is handed on. -/
  | delivering (item : Queued) (result : Result Bytes)
  /-- Waiting out the guard time. -/
  | guarding (until_ : Nat)
  | stopped

def Stage.isRunning : Stage → Bool
  | fetched _ | linked _ | attempting _ _ | sending _ | receiving _ _ | concluding _ _
  | delivering _ _ => true
  | _ => false

/-- **Where the idle timer is.** -/
inductive Watch where
  /-- About to read the deadline. -/
  | looking
  /-- Waiting for the deadline it has read, or for a new one. -/
  | watching (deadline : Option Nat)
  /-- The deadline has passed; waiting for its turn on the link. -/
  | awaitingLink (deadline : Nat)
  | stopped
deriving DecidableEq, Repr

/-- **Where a disposal is.** -/
inductive Disposal where
  | untouched
  | joiningWorker
  | joiningTimer
  /-- Waiting for its turn on the link. -/
  | awaitingLink
  | finished
deriving DecidableEq, Repr

/-- **How far a call has come.** -/
inductive Progress (α : Type) where
  | running (operation : Operation α)
  /-- A request was accepted under `ticket`; the reply arrives in `reply`. -/
  | waiting (ticket : Nat) (reply : Option (Result Bytes)) (next : Result Bytes → Operation α)
  | finished (outcome : Result α)
  /-- Given up before it was finished. -/
  | dropped

/-- **An operation that was started**, and whether its caller has cancelled it. -/
structure Call (α : Type) where
  cancelled : Bool := false
  progress : Progress α

namespace Call

/-- Whether a call waits for the reply to a ticket. -/
def awaits {α : Type} (call : Call α) (ticket : Nat) : Bool :=
  match call.progress with
  | .waiting own _ _ => own == ticket
  | _ => false

def isOver {α : Type} (call : Call α) : Bool :=
  match call.progress with
  | .finished _ => true
  | .dropped => true
  | _ => false

end Call

/-! ## The whole -/

/-- What can happen on a connection. -/
inductive Occurrence where
  /-- An attempt to open the link began. -/
  | attempted
  | wire (event : Wire.Event)
  /-- A request was queued. -/
  | accepted (ticket call : Nat)
  /-- A request came to its result, which was sent to its caller. -/
  | delivered (ticket : Nat) (result : Result Bytes)
  /-- A call stopped waiting for a ticket, with this result. -/
  | returned (ticket : Nat) (result : Result Bytes)
  /-- A call was given up while it waited for a ticket. -/
  | abandoned (ticket : Nat)
  /-- The idle timer found the link unused for too long. -/
  | expired

/-- What happened, and when. -/
structure Entry where
  time : Nat
  occurrence : Occurrence

/-- **A connection** over a link with a peer of type `σ`, whose calls give values of type `α`. -/
structure Connection (σ α : Type) where
  name : String
  timing : Timing
  codec : Codec
  wire : Wire σ
  /-- The clock, in milliseconds. -/
  now : Nat := 0
  state : LinkState := .disconnected
  queue : Queue := {}
  link : LinkLock := {}
  worker : Stage := .fetching
  timer : Watch := .looking
  /-- When an unused link is to be closed. -/
  idleDeadline : Option Nat := none
  /-- Tells the idle timer that the deadline is a new one. -/
  rearmed : Signal := {}
  /-- The connection is to stop. -/
  shutdown : Bool := false
  disposal : Disposal := .untouched
  calls : List (Call α) := []
  history : List Entry := []

namespace Connection

variable {σ α : Type}

def isDisposed (connection : Connection σ α) : Bool :=
  connection.disposal != .untouched

def note (connection : Connection σ α) (occurrence : Occurrence) : Connection σ α :=
  { connection with history := ⟨connection.now, occurrence⟩ :: connection.history }

/-- The link after an operation on it, with what happened noted. -/
def perform {β : Type} (connection : Connection σ α) (performed : Wire.Performed σ β) :
    Connection σ α :=
  performed.events.foldl (fun connection event => connection.note (.wire event))
    { connection with wire := performed.wire }

def closeLink (connection : Connection σ α) : Connection σ α :=
  { connection.perform connection.wire.close with state := .disconnected }

/-- The link handed on to whoever has waited longest. -/
def releaseLink (connection : Connection σ α) : Connection σ α :=
  { connection with link := connection.link.release }

def modifyCall (connection : Connection σ α) (id : Nat) (change : Call α → Call α) :
    Connection σ α :=
  { connection with calls := connection.calls.modify id change }

/-- Whether some call waits for the reply to a ticket. -/
def awaits (connection : Connection σ α) (ticket : Nat) : Bool :=
  connection.calls.any fun call => call.awaits ticket

/-- **The marks on a queued request**: those of its call's caller, of the connection, and whether
anyone still waits for it. -/
def cancellation (connection : Connection σ α) (item : Queued) : Cancellation where
  caller := (connection.calls[item.call]?).any Call.cancelled
  shutdown := connection.shutdown
  abandoned := !connection.awaits item.ticket

/-- The error that ends a request early, if something does. -/
def interruption? (connection : Connection σ α) (item : Queued) : Option Error :=
  (connection.cancellation item).fired?.map CancelReason.error

/-- A result sent to the call that waits for a ticket; without one it is lost. -/
def deliver (connection : Connection σ α) (item : Queued) (result : Result Bytes) :
    Connection σ α :=
  connection.modifyCall item.call fun call =>
    match call.progress with
    | .waiting ticket none next =>
      if ticket = item.ticket then { call with progress := .waiting ticket (some result) next }
      else call
    | _ => call

def wireEvents (history : List Entry) : List Wire.Event :=
  history.reverse.filterMap fun entry =>
    match entry.occurrence with
    | .wire event => some event
    | _ => none

def sentCount (connection : Connection σ α) : Nat :=
  (wireEvents connection.history).countP fun event =>
    match event with
    | .sent _ => true
    | _ => false

end Connection

end Modbus
