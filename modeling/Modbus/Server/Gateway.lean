import Modbus.Proxy
import Modbus.Connection.Schedule
import Modbus.Server.Stream

/-!
# Serving what lies behind another link

The handler is a proxy, which answers each request by making it again on a connection of its own.
While it waits for the device behind, the server does not read; what its peer writes meanwhile is
read together afterwards.
-/

namespace Modbus

/-- **A server in front, a connection behind.** -/
structure Gateway (σ : Type) where
  server : Server
  connection : Connection σ Response
  /-- The call that the server waits for. -/
  call : Option Nat := none

namespace Gateway

variable {σ : Type}

/-- One move of the server once the connection is at rest. -/
def step? (gateway : Gateway σ) : Option (Gateway σ) :=
  match gateway.call with
  | some id =>
    match gateway.connection.outcome? id with
    | none => none
    | some outcome =>
      some { gateway with server := gateway.server.answer outcome.toOption, call := none }
  | none =>
    match gateway.server.step? with
    | none => none
    | some (server, none) => some { gateway with server }
    | some (server, some (unit, request)) =>
      let (id, connection) := Connection.Caller.start gateway.connection
        (Proxy.handle gateway.connection.codec.framing unit request) false
      some { server, connection, call := some id }

/-- Server and connection moved in turn, at most so many times. -/
def settleWithin [Peer σ] : Nat → Gateway σ → Gateway σ
  | 0, gateway => gateway
  | moves + 1, gateway =>
    let settled := { gateway with connection := gateway.connection.settle }
    match settled.step? with
    | some moved => settleWithin moves moved
    | none => settled

instance [Peer σ] : Clocked (Gateway σ) where
  now gateway := gateway.connection.now
  settle := settleWithin Clocked.patience
  nextDeadline? gateway := gateway.connection.nextDeadline?
  advance gateway now := { gateway with connection := gateway.connection.advance now }

end Gateway

end Modbus
