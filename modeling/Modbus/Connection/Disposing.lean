import Modbus.Connection.State

/-!
# Disposal

Disposing a connection tells both of its tasks to stop, waits until they have, refuses what is
still queued, and closes the link.  Only the first disposal does anything.
-/

namespace Modbus.Connection.Disposing

variable {σ α : Type}

/-- **A disposal begun.** -/
def begin (connection : Connection σ α) : Connection σ α :=
  match connection.disposal with
  | .untouched => { connection with disposal := .joiningWorker, shutdown := true }
  | _ => connection

/-- The requests still queued refused, and no others accepted. -/
def refuseQueued (connection : Connection σ α) : Connection σ α :=
  let (items, queue) := connection.queue.close
  items.foldl (fun connection item => connection.deliver item (.error .disposed))
    { connection with queue }

/-- **One move of a disposal**, or nothing when it waits or is over. -/
def step? (connection : Connection σ α) : Option (Connection σ α) :=
  match connection.disposal with
  | .joiningWorker =>
    match connection.worker with
    | .stopped => some { connection with disposal := .joiningTimer }
    | _ => none
  | .joiningTimer =>
    match connection.timer with
    | .stopped =>
      some { refuseQueued connection with
        disposal := .awaitingLink
        idleDeadline := none
        link := connection.link.request .disposal }
    | _ => none
  | .awaitingLink =>
    if connection.link.isHeldBy .disposal then
      some { connection.closeLink.releaseLink with disposal := .finished }
    else none
  | .untouched => none
  | .finished => none

end Modbus.Connection.Disposing
