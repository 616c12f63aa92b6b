import Modbus.Connection.Schedule

/-!
# A connection in use

A `Session` is a connection in someone's hands.  A call is either waited for where it is made
(`Session.call`), or started under a name and asked about later: awaited, cancelled, given up.
A name can be awaited once; using it for another call hides the earlier one.
-/

namespace Modbus

/-- **A connection and the calls that were started under a name**, the latest first. -/
structure Session (σ α : Type) where
  connection : Connection σ α
  /-- The name of a task and the call behind it. -/
  tasks : List (String × Nat) := []

namespace Session

variable {σ α : Type}

/-- **A call made and waited for**, given up after so many milliseconds; a call that was given up
has no outcome. -/
def call [Peer σ] (session : Session σ α) (operation : Operation α) (cancelled : Bool)
    (millis : Option Nat) : Option (Result α) × Session σ α :=
  let (id, started) := Connection.Caller.start session.connection operation cancelled
  let connection := started.await id millis
  (connection.outcome? id, { session with connection := Connection.Caller.drop connection id })

def start (session : Session σ α) (task : String) (operation : Operation α) (cancelled : Bool) :
    Session σ α :=
  let (id, connection) := Connection.Caller.start session.connection operation cancelled
  { connection, tasks := (task, id) :: session.tasks }

def callOf? (session : Session σ α) (task : String) : Option Nat :=
  session.tasks.lookup task

/-- **A task waited for**: nothing under an unknown name, and no outcome if it was given up.  From
then on the name is unknown. -/
def await [Peer σ] (session : Session σ α) (task : String) :
    Option (Option (Result α)) × Session σ α :=
  match session.callOf? task with
  | none => (none, session)
  | some id =>
    let connection := session.connection.await id none
    (some (connection.outcome? id),
      { connection, tasks := session.tasks.filter fun named => named.1 != task })

def cancel (session : Session σ α) (task : String) : Session σ α :=
  { session with
    connection := (session.callOf? task).elim session.connection
      (Connection.Caller.cancel session.connection) }

def drop (session : Session σ α) (task : String) : Session σ α :=
  { session with
    connection := (session.callOf? task).elim session.connection
      (Connection.Caller.drop session.connection) }

def isOver? (session : Session σ α) (task : String) : Option Bool :=
  (session.callOf? task).map session.connection.isOver

end Session

end Modbus
