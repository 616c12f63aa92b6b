import Modbus.Connection.Step

/-!
# The range of times

A span of time fits into 64 bits of seconds, and a clock has a last time that it tells, its horizon.
A wait that would go on for longer is merely a long wait.  But two sums of the worker's have to fit:
the idle deadline that it sets after a completed request, and the pause between attempts when it is
doubled.  Where one of them does not, the worker breaks down (`Worker.breakDown`): its task is over,
what it held is let go of, and whoever waits for the result takes the loss of it for the end of the
connection (`Caller.received`).

With an unlimited clock a connection moves by `step`, with a limited one by `stepWithin`.
-/

namespace Modbus

namespace Duration

/-- The microseconds that a span of time cannot have. -/
def limit : Nat := UInt64.size * 1000000

def fits (span : Duration) : Bool := span.micros < limit

end Duration

namespace Connection

variable {σ α : Type}

/-- **What a caller receives**: without a reply, and with nobody left to send one, that the
connection is disposed of. -/
def Caller.received (reply : Option (Result Bytes)) : Result Bytes :=
  reply.getD (.error .disposed)

namespace Worker

/-- **The request in the worker's hands when its next sum does not fit**, with a clock that tells
microseconds up to the horizon. -/
def overflow? (horizon : Nat) (connection : Connection σ α) : Option Queued :=
  match connection.worker with
  | .concluding item (.ok _) =>
    if horizon < connection.now * 1000 + connection.timing.idleTimeout.micros then some item
    else none
  | .backingOff item attempts until_ =>
    if (connection.interruption? item).isNone && until_ ≤ connection.now
        && !attempts.backoff.doubled.fits then some item
    else none
  | _ => none

/-- **The worker breaks down** over a request.  The link is handed on as it is. -/
def breakDown (connection : Connection σ α) (item : Queued) : Connection σ α :=
  moveTo (connection.releaseLink.deliver item (Caller.received none)) .stopped

end Worker

/-- **One action with a limited clock.** -/
def stepWithin [Peer σ] (horizon : Nat) (connection : Connection σ α) :
    Action α → Connection σ α
  | .worker =>
    match Worker.overflow? horizon connection with
    | some item => Worker.breakDown connection item
    | none => connection.step .worker
  | action => connection.step action

end Connection

end Modbus
