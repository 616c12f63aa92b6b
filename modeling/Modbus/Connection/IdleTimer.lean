import Modbus.Connection.State

/-!
# The idle timer

The idle timer closes a link on which nothing has been completed for a while.  It waits for the
deadline it last read; when that passes it asks for the link, and only once it has it, and only if
the deadline is still the same, does it close.  A request that was completed meanwhile has put the
deadline off, and then nothing happens.

While it waits three things can wake it, and when more than one has happened any of them may be
looked at first (`Wakeup`).
-/

namespace Modbus.Connection.IdleTimer

variable {σ α : Type}

/-- What the idle timer waits for. -/
inductive Wakeup where
  | shutdown
  | rearmed
  | deadline
deriving DecidableEq, Repr

/-- The order in which a settled run looks at what has happened. -/
def wakeups : List Wakeup := [.shutdown, .rearmed, .deadline]

/-- Going on after a wait because of `wakeup`, if that has happened. -/
def wake? (connection : Connection σ α) (deadline : Option Nat) (wakeup : Wakeup) :
    Option (Connection σ α) :=
  match wakeup with
  | .shutdown =>
    if connection.shutdown then
      some { connection with timer := .stopped, rearmed := connection.rearmed.withdraw }
    else none
  | .rearmed =>
    if connection.rearmed.waiter = .woken then
      some { connection with timer := .looking, rearmed := connection.rearmed.resume }
    else none
  | .deadline =>
    match deadline with
    | none => none
    | some deadline =>
      if deadline ≤ connection.now then
        some { connection with
          timer := .awaitingLink deadline
          rearmed := connection.rearmed.withdraw
          link := connection.link.request .idleTimer }
      else none

/-- **With the link in hand**: the deadline that passed is spent, and the link closed, unless the
deadline is no longer the one that passed. -/
def expire (connection : Connection σ α) (deadline : Nat) : Connection σ α :=
  if connection.idleDeadline = some deadline then
    let spent := { connection with idleDeadline := none }
    if connection.wire.connected then (spent.note .expired).closeLink else spent
  else connection

/-- **One move of the idle timer**, or nothing when it waits. -/
def step? (connection : Connection σ α) (wakeup : Wakeup) : Option (Connection σ α) :=
  match connection.timer with
  | .looking =>
    some { connection with
      timer := .watching connection.idleDeadline
      rearmed := connection.rearmed.await }
  | .watching deadline => wake? connection deadline wakeup
  | .awaitingLink deadline =>
    if connection.link.isHeldBy .idleTimer then
      some { (expire connection deadline).releaseLink with timer := .looking }
    else none
  | .stopped => none

def deadline? (connection : Connection σ α) : Option Nat :=
  match connection.timer with
  | .watching deadline => deadline
  | _ => none

end Modbus.Connection.IdleTimer
