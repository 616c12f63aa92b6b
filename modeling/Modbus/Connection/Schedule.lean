import Modbus.Clock
import Modbus.Connection.Step

/-!
# Running a connection

Of all the runs of a connection one is singled out here, the one that a caller sees who acts, waits
until everything has come to rest, and looks.  `settle` moves the tasks until none can; as a system
with a clock (`Clocked`) a connection can then be let sleep, or be waited for.
-/

namespace Modbus.Connection

variable {σ α : Type}

def settleWithin [Peer σ] : Nat → Connection σ α → Connection σ α
  | 0, connection => connection
  | moves + 1, connection =>
    match connection.taskStep? with
    | some moved => settleWithin moves moved
    | none => connection

/-- **Everything that can happen without time passing.** -/
def settle [Peer σ] (connection : Connection σ α) : Connection σ α :=
  settleWithin Clocked.patience connection

instance [Peer σ] : Clocked (Connection σ α) where
  now connection := connection.now
  settle := settle
  nextDeadline? := nextDeadline?
  advance := advance

def isOver (connection : Connection σ α) (id : Nat) : Bool :=
  (connection.calls[id]?).all Call.isOver

/-- **Time passed until a call was over**, but no more than the given milliseconds. -/
def await [Peer σ] (connection : Connection σ α) (id : Nat) (millis : Option Nat) :
    Connection σ α :=
  Clocked.passUntil connection (fun connection => connection.isOver id) millis

def outcome? (connection : Connection σ α) (id : Nat) : Option (Result α) :=
  match (connection.calls[id]?).map Call.progress with
  | some (.finished outcome) => some outcome
  | _ => none

end Modbus.Connection
