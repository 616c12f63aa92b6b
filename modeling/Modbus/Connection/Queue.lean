import Modbus.Bytes
import Modbus.Connection.Signal

/-!
# The queue of requests

Callers push requests and one worker takes them, first in, first out.  A caller that stops waiting
removes its own request by its ticket, and closing the queue hands back whatever is left.

The worker's side is one poll of a pending take (`Queue.poll`): it looks, and if there is nothing
it waits for a notice.  What a queue holds is `Queue.items`, oldest first.
-/

namespace Modbus

/-- **A queued request.** -/
structure Queued where
  /-- The number under which the queue accepted it. -/
  ticket : Nat
  /-- The call that waits for its reply. -/
  call : Nat
  request : Bytes
  /-- Whether the bytes received so far are a whole reply. -/
  complete : Bytes → Bool

/-- **Requests in order of arrival.** -/
structure Queue where
  items : List Queued := []
  closed : Bool := false
  nextTicket : Nat := 0
  signal : Signal := {}

namespace Queue

/-- **A request pushed** gets the next ticket, unless the queue is closed; a refused request uses
its ticket up all the same. -/
def push (queue : Queue) (call : Nat) (request : Bytes) (complete : Bytes → Bool) :
    Option Nat × Queue :=
  let ticket := queue.nextTicket
  if queue.closed then (none, { queue with nextTicket := ticket + 1 })
  else
    (some ticket, { queue with
      items := queue.items ++ [⟨ticket, call, request, complete⟩]
      nextTicket := ticket + 1
      signal := queue.signal.notify })

/-- **One poll of a pending take.**  While the task waits nothing is looked at; otherwise the oldest
request is handed out, or the task waits, and then a permit left from an earlier push is spent. -/
def poll (queue : Queue) : Option Queued × Queue :=
  match queue.signal.waiter, queue.items with
  | .waiting, _ => (none, queue)
  | _, item :: rest => (some item, { queue with items := rest, signal := queue.signal.resume })
  | _, [] => (none, { queue with signal := ⟨false, .waiting⟩ })

def withdraw (queue : Queue) : Queue :=
  { queue with signal := queue.signal.withdraw }

/-- The request with a given ticket taken out, if it is still queued. -/
def remove (queue : Queue) (ticket : Nat) : Queue :=
  { queue with items := queue.items.filter fun item => item.ticket != ticket }

/-- **The queue closed**, and the requests it still held. -/
def close (queue : Queue) : List Queued × Queue :=
  (queue.items, { queue with items := [], closed := true })

end Queue

end Modbus
