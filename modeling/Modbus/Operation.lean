import Modbus.Framing

/-!
# Operations as programs

What a client does is a program of two effects: framing a request, which takes a transaction
number, and handing a frame to a link, which comes back with a reply or an error.  `Operation α` is
that program as a value: a finished outcome, or an effect and what to do with its answer.

Nothing here says how the link works.  The same operation is run by a connection shared with other
callers, or against any function from requests to replies, and a law about all replies is an
induction over the operation.
-/

namespace Modbus

/-- **A client's program.** -/
inductive Operation (α : Type) where
  /-- The outcome is known. -/
  | done (outcome : Result α)
  /-- Frame a PDU for a unit. -/
  | frame (unit : UnitId) (pdu : Bytes) (next : Bytes → Operation α)
  /-- Send a frame and wait for the bytes that complete its reply. -/
  | invoke (request : Bytes) (complete : Bytes → Bool) (next : Result Bytes → Operation α)

namespace Operation

variable {α β : Type}

/-- Going on with the value of an operation; an error ends the whole. -/
def bind : Operation α → (α → Operation β) → Operation β
  | done (.ok value), continue_ => continue_ value
  | done (.error error), _ => done (.error error)
  | frame unit pdu next, continue_ => frame unit pdu fun adu => (next adu).bind continue_
  | invoke request complete next, continue_ =>
    invoke request complete fun reply => (next reply).bind continue_

instance : Monad Operation where
  pure value := done (.ok value)
  bind := bind

def ofResult (outcome : Result α) : Operation α :=
  done outcome

/-- **The outcome of an operation as its value**: an error no longer ends the whole. -/
def attempt : Operation α → Operation (Result α)
  | done outcome => done (.ok outcome)
  | frame unit pdu next => frame unit pdu fun adu => (next adu).attempt
  | invoke request complete next => invoke request complete fun reply => (next reply).attempt

def framed (unit : UnitId) (pdu : Bytes) : Operation Bytes :=
  frame unit pdu fun adu => done (.ok adu)

def call (request : Bytes) (complete : Bytes → Bool) : Operation Bytes :=
  invoke request complete done

end Operation

end Modbus
