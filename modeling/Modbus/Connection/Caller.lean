import Modbus.Connection.State

/-!
# Callers

A call runs its operation until it has to wait for a reply, and goes on when the reply is there or
when something ends the wait (`Caller.step?`).  However a wait ends, the request is taken out of
the queue, so that a request whose caller has left is never exchanged for anything.
-/

namespace Modbus.Connection.Caller

variable {σ α : Type}

def continueWith (connection : Connection σ α) (id : Nat) (operation : Operation α) :
    Connection σ α :=
  connection.modifyCall id fun call => { call with progress := .running operation }

/-- The reason to refuse a request outright, before it is queued. -/
def refusal? (connection : Connection σ α) (call : Call α) (request : Bytes) : Option Error :=
  if connection.isDisposed then some .disposed
  else if request = [] then some (.invalidArgument .emptyRequest)
  else
    ({ caller := call.cancelled, shutdown := connection.shutdown } : Cancellation).fired?.map
      CancelReason.error

/-- **A request handed to the connection**: refused, or queued and waited for. -/
def invoke (connection : Connection σ α) (id : Nat) (call : Call α) (request : Bytes)
    (complete : Bytes → Bool) (next : Result Bytes → Operation α) : Connection σ α :=
  match refusal? connection call request with
  | some error => continueWith connection id (next (.error error))
  | none =>
    match connection.queue.push id request complete with
    | (none, queue) => continueWith { connection with queue } id (next (.error .disposed))
    | (some ticket, queue) =>
      ({ connection with queue }.modifyCall id fun call =>
        { call with progress := .waiting ticket none next }).note (.accepted ticket id)

/-- **The end of a wait** for a ticket. -/
def leave (connection : Connection σ α) (id ticket : Nat) (result : Result Bytes)
    (next : Result Bytes → Operation α) : Connection σ α :=
  (continueWith { connection with queue := connection.queue.remove ticket } id
    (next result)).note (.returned ticket result)

/-- **One move of a call**, or nothing when it waits or is over. -/
def step? (connection : Connection σ α) (id : Nat) : Option (Connection σ α) :=
  match connection.calls[id]? with
  | none => none
  | some call =>
    match call.progress with
    | .running (.done outcome) =>
      some (connection.modifyCall id fun call => { call with progress := .finished outcome })
    | .running (.frame unit pdu next) =>
      let (adu, codec) := connection.codec.request unit pdu
      some (continueWith { connection with codec } id (next adu))
    | .running (.invoke request complete next) =>
      some (invoke connection id call request complete next)
    | .waiting ticket (some result) next => some (leave connection id ticket result next)
    | .waiting ticket none next =>
      if call.cancelled then some (leave connection id ticket (.error .cancelled) next)
      else if connection.shutdown then some (leave connection id ticket (.error .disposed) next)
      else none
    | .finished _ => none
    | .dropped => none

/-! ## What is done to calls from outside -/

/-- **A new call**, and its number. -/
def start (connection : Connection σ α) (operation : Operation α) (cancelled : Bool) :
    Nat × Connection σ α :=
  (connection.calls.length,
    { connection with calls := connection.calls ++ [⟨cancelled, .running operation⟩] })

def cancel (connection : Connection σ α) (id : Nat) : Connection σ α :=
  connection.modifyCall id fun call => { call with cancelled := true }

/-- **A call given up**: nobody waits for it any more. -/
def drop (connection : Connection σ α) (id : Nat) : Connection σ α :=
  match connection.calls[id]? with
  | none => connection
  | some call =>
    let dropped := connection.modifyCall id fun call => { call with progress := .dropped }
    match call.progress with
    | .running _ => dropped
    | .waiting ticket _ _ =>
      { dropped with queue := connection.queue.remove ticket }.note (.abandoned ticket)
    | .finished _ => connection
    | .dropped => connection

end Modbus.Connection.Caller
