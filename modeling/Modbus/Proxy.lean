import Modbus.Client

/-!
# Forwarding requests

A proxy stands in for a device and answers each request by making it again on a link behind it.
`Proxy.forward` is that second request; `Proxy.handle` turns every way in which it can fail into an
exception reply, so that the proxy always answers.
-/

namespace Modbus.Proxy

/-- A reply that is given once the device behind has confirmed the write. -/
def confirmed (reply : Response) (matched : Bool) : Operation Response :=
  Operation.ofResult (if matched then .ok reply else .error (.framing .echoMismatch))

/-- **A request made again** on the link behind. -/
def forward (framing : Framing) (unit : UnitId) (request : Request) : Operation Response :=
  match request with
  | .readBits table start count => do
    return .bits table ((← Client.readBits framing table unit start count).map Cell.value)
  | .readWords table start count => do
    return .words table ((← Client.readWords framing table unit start count).map Cell.value)
  | .writeCoil coil => do
    confirmed (.coilWritten coil) (← Client.writeCoil framing unit coil)
  | .writeRegister register => do
    confirmed (.registerWritten register) (← Client.writeRegister framing unit register)
  | .writeCoils coils => do
    let (start, count) := Request.range coils
    confirmed (.coilsWritten start count) (← Client.writeCoils framing unit coils)
  | .writeRegisters registers => do
    let (start, count) := Request.range registers
    confirmed (.registersWritten start count) (← Client.writeRegisters framing unit registers)
  | .identify category object => do
    return .identification ((← Client.fragment framing unit category object).toReply category)
  | .invalid function code => return .exception function code
  | .unsupported _ => return request.exception .illegalFunction

/-- The exception reply that stands for an error: the device's own code, if it gave one. -/
def refusal (request : Request) (error : Error) : Response :=
  request.exception (error.exceptionCode?.getD .slaveDeviceFailure)

/-- **Handling a request.**  Whatever happens behind, there is a reply. -/
def handle (framing : Framing) (unit : UnitId) (request : Request) : Operation Response := do
  match ← (forward framing unit request).attempt with
  | .ok response => return response
  | .error error => return refusal request error

end Modbus.Proxy
