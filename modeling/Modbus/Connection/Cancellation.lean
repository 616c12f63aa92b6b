import Modbus.Error

/-!
# How a request ends early

A request has three ways to end before its reply: its caller cancels it, the connection shuts down,
or nobody waits for it any more.  Each leaves its own mark (`Cancellation`), and when several are
there the first of that order is the reason given (`Cancellation.fired?`).
-/

namespace Modbus

/-- **Why a request ended early.** -/
inductive CancelReason where
  | caller
  | shutdown
  /-- Nobody waits for the reply any more. -/
  | abandoned
deriving DecidableEq, Repr

namespace CancelReason

def name : CancelReason → String
  | caller => "Caller"
  | shutdown => "Shutdown"
  | abandoned => "Abandoned"

def error : CancelReason → Error
  | caller => .cancelled
  | shutdown => .disposed
  | abandoned => .cancelled

end CancelReason

/-- **The marks that end a request.**  None is ever taken back. -/
structure Cancellation where
  caller : Bool := false
  shutdown : Bool := false
  abandoned : Bool := false
deriving DecidableEq, Repr

namespace Cancellation

/-- The reason to end the request, if there is one. -/
def fired? (marks : Cancellation) : Option CancelReason :=
  if marks.caller then some .caller
  else if marks.shutdown then some .shutdown
  else if marks.abandoned then some .abandoned
  else none

def abandon (marks : Cancellation) : Cancellation :=
  { marks with abandoned := true }

end Cancellation

/-- **Marks with a guard**, which stands for the one who waits: letting go of it leaves the mark of
an abandoned request. -/
structure GuardedCancellation where
  marks : Cancellation := {}
  guarded : Bool := false
deriving DecidableEq, Repr

namespace GuardedCancellation

def release (state : GuardedCancellation) : GuardedCancellation :=
  if state.guarded then ⟨state.marks.abandon, false⟩ else state

/-- Taking a guard; one that was held before is let go. -/
def guard (state : GuardedCancellation) : GuardedCancellation :=
  { state.release with guarded := true }

end GuardedCancellation

end Modbus
