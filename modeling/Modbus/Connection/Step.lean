import Modbus.Connection.Worker
import Modbus.Connection.IdleTimer
import Modbus.Connection.Caller
import Modbus.Connection.Disposing

/-!
# Runs of a connection

Everything that can happen to a connection is an `Action`: a move of one of its tasks, something a
caller does, something that happens to the link, or time passing.  `Connection.step` performs one,
and does nothing where the action is not possible.  Two rules say what is possible when:

* while the worker is between two waits nobody else acts, since a task hands control back only
  where it waits;
* time passes only when no task can move, and never past the next timer.

A run is a list of actions in any order at all, and what holds after every run holds however the
tasks are scheduled (`Connection.Reachable`).
-/

namespace Modbus.Connection

variable {σ α : Type}

/-- **What can happen to a connection.** -/
inductive Action (α : Type) where
  | worker
  | timer (wakeup : IdleTimer.Wakeup)
  | caller (id : Nat)
  | disposing
  | start (operation : Operation α) (cancelled : Bool)
  | cancel (id : Nat)
  | drop (id : Nat)
  | dispose
  /-- A chunk comes in that answers nothing. -/
  | push (chunk : Bytes)
  /-- So many of the next attempts to open the link are going to fail. -/
  | refuse (count : Nat)
  /-- Attempts to open the link are going to take this long. -/
  | slow (delay : Nat)
  /-- The clock moves on. -/
  | advance (now : Nat)

def taskStep? [Peer σ] (connection : Connection σ α) : Option (Connection σ α) :=
  Worker.step? connection
    <|> IdleTimer.wakeups.findSome? (IdleTimer.step? connection)
    <|> (List.range connection.calls.length).findSome? (Caller.step? connection)
    <|> Disposing.step? connection

/-- **Nothing can happen without time passing.** -/
def isSettled [Peer σ] (connection : Connection σ α) : Bool :=
  (taskStep? connection).isNone

def deadlines (connection : Connection σ α) : List Nat :=
  (Worker.deadline? connection).toList ++ (IdleTimer.deadline? connection).toList

def nextDeadline? (connection : Connection σ α) : Option Nat :=
  connection.deadlines.min?

/-- The clock moved on, if nothing stands in its way. -/
def advance [Peer σ] (connection : Connection σ α) (now : Nat) : Connection σ α :=
  if connection.isSettled && connection.now ≤ now && connection.deadlines.all (now ≤ ·) then
    { connection with now }
  else connection

def modifyWire (connection : Connection σ α) (change : Wire σ → Wire σ) : Connection σ α :=
  { connection with wire := change connection.wire }

/-- **One action.** -/
def step [Peer σ] (connection : Connection σ α) (action : Action α) : Connection σ α :=
  match action with
  | .worker => (Worker.step? connection).getD connection
  | action =>
    if connection.worker.isRunning then connection
    else
      match action with
      | .worker => connection
      | .timer wakeup => (IdleTimer.step? connection wakeup).getD connection
      | .caller id => (Caller.step? connection id).getD connection
      | .disposing => (Disposing.step? connection).getD connection
      | .start operation cancelled => (Caller.start connection operation cancelled).2
      | .cancel id => Caller.cancel connection id
      | .drop id => Caller.drop connection id
      | .dispose => Disposing.begin connection
      | .push chunk => connection.modifyWire fun wire => wire.push chunk
      | .refuse count => connection.modifyWire fun wire => { wire with refusals := count }
      | .slow delay => connection.modifyWire fun wire => { wire with openDelay := delay }
      | .advance now => connection.advance now

def run [Peer σ] (connection : Connection σ α) (actions : List (Action α)) : Connection σ α :=
  actions.foldl step connection

/-- **A new connection** over a link. -/
def create (name : String) (timing : Timing) (framing : Framing) (wire : Wire σ) :
    Connection σ α where
  name := name
  timing := timing
  codec := { framing }
  wire := wire

/-- **The states that a new connection can come to.** -/
inductive Reachable [Peer σ] (initial : Connection σ α) : Connection σ α → Prop where
  | refl : Reachable initial initial
  | step {connection : Connection σ α} (before : Reachable initial connection)
      (action : Action α) : Reachable initial (connection.step action)

end Modbus.Connection
