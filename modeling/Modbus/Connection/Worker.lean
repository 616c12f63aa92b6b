import Modbus.Connection.State

/-!
# The worker

The worker takes requests from the queue and exchanges each for its reply: wait for a turn on the
link, open it if need be, send the frame, read until the reply is complete, deliver the result,
wait out the guard time.  `Worker.step?` is one move of it; no move means that the worker waits.

Whenever the worker goes on after a wait it first looks whether the request was interrupted.  What
an interruption or an error leaves on the link is never read: `Worker.conclude` closes the link
before anyone else gets it.
-/

namespace Modbus.Connection.Worker

variable {σ α : Type}

def moveTo (connection : Connection σ α) (stage : Stage) : Connection σ α :=
  { connection with worker := stage }

/-- **After the exchange.**  A completed request puts the idle deadline off; an error that may have
left bytes on the link closes it.  Then the link is handed on. -/
def conclude (connection : Connection σ α) (item : Queued) (result : Result Bytes) :
    Connection σ α :=
  let settled := match result with
    | .ok _ =>
      { connection with
        idleDeadline := some (connection.now + connection.timing.idleTimeout.ticks)
        rearmed := connection.rearmed.notify }
    | .error error =>
      if error.needsReconnect || error == Error.disposed then connection.closeLink else connection
  moveTo settled.releaseLink (.delivering item result)

def afterDelivery (connection : Connection σ α) : Stage :=
  if connection.timing.guardTime = .zero then .fetching
  else .guarding (connection.now + connection.timing.guardTime.ticks)

/-- The pause after a failed attempt, or nothing when it is time to give up. -/
def pause? (connection : Connection σ α) (attempts : Attempts) : Option Duration :=
  match connection.timing.connectTimeout with
  | none => some attempts.backoff
  | some limit =>
    let elapsed := connection.now - attempts.started
    if limit.micros ≤ elapsed * 1000 then none
    else some (attempts.backoff.shorter (limit.minusTicks elapsed))

/-- After a pause the next one is twice as long, within its bound. -/
def nextAttempts (connection : Connection σ α) (attempts : Attempts) : Attempts :=
  { attempts with backoff := attempts.backoff.doubled.shorter connection.timing.maxBackoff }

/-- **A failed attempt** is followed by a pause and another one, until the time allowed is over; then
the last error is the result. -/
def attemptFailed (connection : Connection σ α) (item : Queued) (attempts : Attempts)
    (fault : TransportFault) : Connection σ α :=
  match pause? connection attempts with
  | some pause => moveTo connection (.backingOff item attempts (connection.now + pause.ticks))
  | none => moveTo { connection with state := .disconnected }
      (.concluding item (.error (.transport fault)))

def attemptEnded (connection : Connection σ α) (item : Queued) (attempts : Attempts) :
    Connection σ α :=
  let performed := connection.wire.open
  let connection := connection.perform performed
  match performed.result with
  | .ok () => moveTo { connection with state := .connected } (.sending item)
  | .error fault => attemptFailed connection item attempts fault

/-- An attempt to open the link begins with closing what is left of it. -/
def beginAttempt (connection : Connection σ α) (item : Queued) (attempts : Attempts) :
    Connection σ α :=
  let connection := (connection.perform connection.wire.close).note .attempted
  if connection.wire.openDelay = 0 then attemptEnded connection item attempts
  else moveTo connection (.opening item attempts (connection.now + connection.wire.openDelay)
    (connection.now + connection.timing.readTimeout.ticks))

/-- The request sent; from here on its reply is read. -/
def send [Peer σ] (connection : Connection σ α) (item : Queued) : Connection σ α :=
  let performed := connection.wire.send item.request
  let connection := connection.perform performed
  match performed.result with
  | .ok _ => moveTo connection (.receiving item [])
  | .error fault => moveTo connection (.concluding item (.error (.transport fault)))

/-- **One read.**  An empty chunk is the end of the stream; otherwise the reply is complete or there
is another read. -/
def receive (connection : Connection σ α) (item : Queued) (received : Bytes) :
    Connection σ α :=
  let performed := connection.wire.receive Limit.readBuffer
  let connection := connection.perform performed
  match performed.result with
  | .error fault => moveTo connection (.concluding item (.error (.transport fault)))
  | .ok none => moveTo connection (.stalled item received
      (connection.now + connection.timing.readTimeout.ticks))
  | .ok (some []) => moveTo connection (.concluding item (.error .endOfStream))
  | .ok (some chunk) =>
    let received := received ++ chunk
    if item.complete received then moveTo connection (.concluding item (.ok received))
    else moveTo connection (.receiving item received)

def connectTimeoutFault (connection : Connection σ α) : TransportFault :=
  .timeout ("Connect to " ++ connection.name ++ " timed out")

def readTimeoutFault (received : Bytes) : TransportFault :=
  .timeout ("No complete response after " ++ toString received.length ++ "B")

/-- Going on after a wait with the link held: an interruption ends the exchange. -/
def resumeExchange (connection : Connection σ α) (item : Queued)
    (continue_ : Option (Connection σ α)) : Option (Connection σ α) :=
  match connection.interruption? item with
  | some error => some (moveTo connection (.concluding item (.error error)))
  | none => continue_

/-- Looking for the next request, unless the connection is to stop. -/
def fetch? (connection : Connection σ α) : Option (Connection σ α) :=
  if connection.shutdown then
    some { connection with worker := .stopped, queue := connection.queue.withdraw }
  else if connection.queue.signal.waiter = .waiting then none
  else
    match connection.queue.poll with
    | (some item, queue) => some { connection with worker := .fetched item, queue }
    | (none, queue) => some { connection with queue }

/-- **One move of the worker**, or nothing when it waits. -/
def step? [Peer σ] (connection : Connection σ α) : Option (Connection σ α) :=
  match connection.worker with
  | .fetching => fetch? connection
  | .fetched item =>
    match connection.interruption? item with
    | some error => some (moveTo connection (.delivering item (.error error)))
    | none =>
      let link := connection.link.request .worker
      some { connection with
        link
        worker := if link.isHeldBy .worker then .linked item else .awaitingLink item }
  | .awaitingLink item =>
    match connection.interruption? item with
    | some error =>
      some { connection with
        link := connection.link.withdraw .worker
        worker := .delivering item (.error error) }
    | none =>
      if connection.link.isHeldBy .worker then some (moveTo connection (.linked item)) else none
  | .linked item =>
    if connection.wire.connected then some (moveTo connection (.sending item))
    else
      some { connection with
        state := .connecting
        worker := .attempting item ⟨connection.now, connection.timing.minBackoff⟩ }
  | .attempting item attempts => some (beginAttempt connection item attempts)
  | .opening item attempts opensAt expiresAt =>
    resumeExchange connection item
      (if opensAt ≤ connection.now then some (attemptEnded connection item attempts)
      else if expiresAt ≤ connection.now then
        some (attemptFailed connection item attempts (connectTimeoutFault connection))
      else none)
  | .backingOff item attempts until_ =>
    resumeExchange connection item
      (if until_ ≤ connection.now then
        some (moveTo connection (.attempting item (nextAttempts connection attempts)))
      else none)
  | .sending item => some (send connection item)
  | .receiving item received => some (receive connection item received)
  | .stalled item received expiresAt =>
    resumeExchange connection item
      (if expiresAt ≤ connection.now then
        some (moveTo connection (.concluding item (.error (.transport (readTimeoutFault received)))))
      else none)
  | .concluding item result => some (conclude connection item result)
  | .delivering item result =>
    let delivered := (connection.deliver item result).note (.delivered item.ticket result)
    some (moveTo delivered (afterDelivery connection))
  | .guarding until_ =>
    if connection.shutdown then some (moveTo connection .stopped)
    else if until_ ≤ connection.now then some (moveTo connection .fetching)
    else none
  | .stopped => none

/-- The next time at which a timer of the worker fires. -/
def deadline? (connection : Connection σ α) : Option Nat :=
  match connection.worker with
  | .opening _ _ opensAt expiresAt => some (min opensAt expiresAt)
  | .backingOff _ _ until_ => some until_
  | .stalled _ _ expiresAt => some expiresAt
  | .guarding until_ => some until_
  | _ => none

end Modbus.Connection.Worker
