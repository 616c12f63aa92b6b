import Modbus.Device
import Modbus.Framing

/-!
# A simulated link

`Wire` is the physical link under a connection: open or not, a queue of chunks on their way in, and
a peer that answers each frame sent (`Peer`).  A chunk is what one read takes at most; an empty one
is how the end of the stream reads.  Closing an open link loses the chunks that were not read.

Every operation tells what happened as a list of events, and their order on a link is its history.
The `Responder`s are the peers one simulates: silent, echoing, following a script, or a device.
-/

namespace Modbus

/-- **What is at the far end**: the chunks that answer a frame, and the peer afterwards. -/
class Peer (σ : Type) where
  answer : σ → Bytes → List Bytes × σ

/-- **A link and what is on it.** -/
structure Wire (σ : Type) where
  peer : σ
  connected : Bool := false
  /-- How many of the next attempts to open the link fail. -/
  refusals : Nat := 0
  /-- How long an attempt to open takes, in milliseconds. -/
  openDelay : Nat := 0
  /-- Chunks that have not been read. -/
  arriving : List Bytes := []

namespace Wire

/-- What happens on a link. -/
inductive Event where
  | opened
  | refused
  | closed
  | sent (frame : Bytes)
  | received (chunk : Bytes)
deriving DecidableEq, Repr

/-- What an operation on a link comes to. -/
structure Performed (σ α : Type) where
  result : Except TransportFault α
  wire : Wire σ
  events : List Event := []

variable {σ : Type}

def «open» (wire : Wire σ) : Performed σ Unit :=
  if wire.refusals = 0 then ⟨.ok (), { wire with connected := true }, [.opened]⟩
  else ⟨.error (.connectionFailed "Simulated connection failure"),
    { wire with refusals := wire.refusals - 1 }, [.refused]⟩

/-- **Closing the link** loses what was on its way; a closed link stays as it is. -/
def close (wire : Wire σ) : Performed σ Unit :=
  if wire.connected then
    ⟨.ok (), { wire with connected := false, arriving := [] }, [.closed]⟩
  else ⟨.ok (), wire, []⟩

/-- **Sending a frame**: the peer's answer joins what is on its way in. -/
def send [Peer σ] (wire : Wire σ) (frame : Bytes) : Performed σ Nat :=
  if wire.connected then
    let (chunks, peer) := Peer.answer wire.peer frame
    ⟨.ok frame.length, { wire with peer, arriving := wire.arriving ++ chunks }, [.sent frame]⟩
  else ⟨.error .notConnected, wire, []⟩

/-- **Reading** at most `size` bytes of the next chunk; what is left of it stays first.  With
nothing on its way there is nothing to read, and there never will be for this read. -/
def receive (wire : Wire σ) (size : Nat) : Performed σ (Option Bytes) :=
  if wire.connected then
    match wire.arriving with
    | [] => ⟨.ok none, wire, []⟩
    | chunk :: rest =>
      let left := if size < chunk.length then chunk.drop size :: rest else rest
      ⟨.ok (some (chunk.take size)), { wire with arriving := left }, [.received (chunk.take size)]⟩
  else ⟨.error .notConnected, wire, []⟩

def push (wire : Wire σ) (chunk : Bytes) : Wire σ :=
  { wire with arriving := wire.arriving ++ [chunk] }

end Wire

/-! ## Simulated peers -/

/-- A reply cut into pieces of the given sizes, each at most what is left, and the rest last. -/
def pieces : List Nat → Bytes → List Bytes
  | [], [] => []
  | [], rest => [rest]
  | size :: sizes, bytes => bytes.take size :: pieces sizes (bytes.drop size)

/-- **The peers one simulates.** -/
inductive Responder where
  /-- Never answers. -/
  | silent
  /-- Answers with what it was sent, in pieces. -/
  | echo (cuts : List Nat)
  /-- Answers each frame with the next entry, and with nothing after the last. -/
  | script (replies : List (List Bytes))
  /-- A device behind a framing, whose replies come in pieces.  Frames it cannot read and units it
  does not have get no answer. -/
  | device (framing : Framing) (store : Store) (cuts : List Nat)

namespace Responder

/-- The reply frame of a device, if it gives one, and its store afterwards. -/
def serve (framing : Framing) (store : Store) (frame : Bytes) : Option Bytes × Store :=
  match framing.readRequest frame with
  | .error _ => (none, store)
  | .ok (header, request) =>
    let handled := store.handle header.unit request
    (handled.reply.map (framing.writeResponse header), handled.store)

def answer : Responder → Bytes → List Bytes × Responder
  | silent, _ => ([], silent)
  | echo cuts, frame => (pieces cuts frame, echo cuts)
  | script [], _ => ([], script [])
  | script (reply :: replies), _ => (reply, script replies)
  | device framing store cuts, frame =>
    let (reply, store) := serve framing store frame
    (reply.elim [] (pieces cuts), device framing store cuts)

instance : Peer Responder where
  answer := answer

end Responder

end Modbus
