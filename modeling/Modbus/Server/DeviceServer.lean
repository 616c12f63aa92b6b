import Modbus.Device
import Modbus.Server.Stream

/-!
# Serving a device

The handler is a device, which answers at once, so a server over it comes to rest as soon as it has
read what the peer has written.
-/

namespace Modbus

/-- **A server over a device**, with the writes reported since they were last collected. -/
structure DeviceServer where
  server : Server
  device : Device
  writes : List Notification := []

namespace DeviceServer

/-- One move of the loop, with the handler's answer. -/
def step? (serving : DeviceServer) : Option DeviceServer :=
  match serving.server.step? with
  | none => none
  | some (server, none) => some { serving with server }
  | some (server, some (unit, request)) =>
    let (response, writes, device) := serving.device.handle unit request
    some { server := server.answer response, device, writes := serving.writes ++ writes }

def settleWithin : Nat → DeviceServer → DeviceServer
  | 0, serving => serving
  | moves + 1, serving =>
    match serving.step? with
    | some moved => settleWithin moves moved
    | none => serving

/-- **The loop moved until it waits**: each move reads some of what the peer has written, and the
last may end the loop. -/
def settle (serving : DeviceServer) : DeviceServer :=
  settleWithin (serving.server.inbox.length + 1) serving

end DeviceServer

end Modbus
