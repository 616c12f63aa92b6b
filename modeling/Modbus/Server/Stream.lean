import Modbus.Framing

/-!
# Serving a stream

A server reads a stream in pieces, puts frames together, asks a handler about each request and
writes the replies.  `Server.absorb` is one read: the bytes held back and the new ones become a
frame, or are held back for the next read, or are too many to become one and are dropped.  A frame
that cannot be read is dropped without a reply.

`Server` is the whole loop as a state: what the peer has written and the server not yet read, what
the server has written, whether the handler is at work, and how the loop ended.
-/

namespace Modbus

namespace Server

/-- **One read**: what is held back afterwards, and the request that became complete. -/
def absorb (framing : Framing) (pending chunk : Bytes) : Bytes × Option (Header × Request) :=
  let bytes := pending ++ chunk
  if framing.requestComplete bytes then
    match framing.readRequest bytes with
    | .ok request => ([], some request)
    | .error _ => ([], none)
  else if framing.maxAdu < bytes.length then ([], none)
  else (bytes, none)

end Server

/-- **The state of a serving loop.** -/
structure Server where
  framing : Framing
  /-- Bytes read that are not yet a frame. -/
  pending : Bytes := []
  /-- Bytes from the peer that are not yet read. -/
  inbox : Bytes := []
  /-- Bytes written to the peer. -/
  outbox : Bytes := []
  /-- The peer will write no more. -/
  closed : Bool := false
  /-- The peer is gone; nothing can be written to it. -/
  gone : Bool := false
  /-- The loop is to stop. -/
  cancelled : Bool := false
  /-- The header of the request that the handler is at work on. -/
  asking : Option Header := none
  ended : Option (Result Unit) := none

namespace Server

/-- Whether bytes can still be written to the loop. -/
def accepts (server : Server) : Bool :=
  !server.closed && !server.gone && server.ended.isNone

def write (server : Server) (bytes : Bytes) : Server :=
  if server.accepts then { server with inbox := server.inbox ++ bytes } else server

/-- **One move of the loop**, and the request to ask the handler about, if there is one; no move
when the loop waits, for the handler or for the peer, or has ended. -/
def step? (server : Server) : Option (Server × Option (UnitId × Request)) :=
  if server.ended.isSome || server.asking.isSome then none
  else if server.cancelled then some ({ server with ended := some (.ok ()) }, none)
  else
    match server.inbox with
    | [] =>
      if server.closed || server.gone then some ({ server with ended := some (.ok ()) }, none)
      else none
    | _ :: _ =>
      let (pending, request) :=
        absorb server.framing server.pending (server.inbox.take Limit.readBuffer)
      let read := { server with pending, inbox := server.inbox.drop Limit.readBuffer }
      match request with
      | none => some (read, none)
      | some (header, request) =>
        some ({ read with asking := some header }, some (header.unit, request))

/-- **The handler's answer** written to the peer; without one the loop just goes on. -/
def answer (server : Server) (response : Option Response) : Server :=
  match server.asking, response with
  | some header, some response =>
    if server.gone then
      { server with asking := none, ended := some (.error (.transport (.io "broken pipe"))) }
    else
      { server with
        asking := none
        outbox := server.outbox ++ server.framing.writeResponse header response }
  | _, _ => { server with asking := none }

def collect (server : Server) : Bytes × Server :=
  (server.outbox, { server with outbox := [] })

end Server

end Modbus
