import Modbus.Connection.Timing
import Modbus.Error

/-!
# Where a link leads

A link leads to a network host or to a serial line.  `Endpoint` says which, with everything needed
to open it, and `Endpoint.fault?` says what is wrong with it: the first fault in the order of the
fields.

Nothing here opens a real link.  What a link answers before it was ever opened is known all the
same: nothing can be sent or read, and closing it does no harm, which is what a `Wire` that is not
connected does.
-/

namespace Modbus

/-- **A host on the network.** -/
structure NetworkEndpoint where
  host : String := "127.0.0.1"
  port : UInt16 := 502
  /-- The bound on one attempt to reach the host. -/
  connectTimeout : Duration := .ofSeconds 10
  /-- Whether small frames are sent at once. -/
  noDelay : Bool := true
deriving DecidableEq, Repr

/-- The parity bit of a serial line. -/
inductive Parity where
  | none
  | even
  | odd
deriving DecidableEq, Repr

/-- How a serial line is held back. -/
inductive FlowControl where
  | none
  | software
  | hardware
deriving DecidableEq, Repr

/-- **A serial line.** -/
structure SerialEndpoint where
  device : String := "/dev/ttyUSB0"
  baudRate : UInt32 := 9600
  dataBits : UInt8 := 8
  stopBits : UInt8 := 1
  parity : Parity := .none
  flowControl : FlowControl := .none
  /-- Whether the line driver has to be switched on. -/
  driverEnable : Bool := false
deriving DecidableEq, Repr

/-- **Where a link leads.** -/
inductive Endpoint where
  | network (endpoint : NetworkEndpoint)
  | serial (endpoint : SerialEndpoint)
deriving DecidableEq, Repr

/-- What can be wrong with an endpoint. -/
inductive EndpointFault where
  | emptyHost
  | zeroPort
  | zeroConnectTimeout
  | emptyDevice
  | zeroBaudRate
  | dataBits (got : UInt8)
  | stopBits (got : UInt8)
deriving DecidableEq, Repr

namespace EndpointFault

def message : EndpointFault → String
  | emptyHost => "Host cannot be empty"
  | zeroPort => "Port cannot be zero"
  | zeroConnectTimeout => "Connect timeout must be greater than zero"
  | emptyDevice => "Port path cannot be empty"
  | zeroBaudRate => "Baud rate must be greater than zero"
  | dataBits got => "Invalid data bits: " ++ toString got.toNat
  | stopBits got => "Invalid stop bits: " ++ toString got.toNat

/-- The failure of a link that such an endpoint makes. -/
def transportFault (fault : EndpointFault) : TransportFault :=
  .configuration fault.message

end EndpointFault

def NetworkEndpoint.fault? (endpoint : NetworkEndpoint) : Option EndpointFault :=
  if endpoint.host = "" then some .emptyHost
  else if endpoint.port = 0 then some .zeroPort
  else if endpoint.connectTimeout = .zero then some .zeroConnectTimeout
  else none

def SerialEndpoint.fault? (endpoint : SerialEndpoint) : Option EndpointFault :=
  if endpoint.device = "" then some .emptyDevice
  else if endpoint.baudRate = 0 then some .zeroBaudRate
  else if endpoint.dataBits < 5 ∨ 8 < endpoint.dataBits then some (.dataBits endpoint.dataBits)
  else if endpoint.stopBits < 1 ∨ 2 < endpoint.stopBits then some (.stopBits endpoint.stopBits)
  else none

namespace Endpoint

def kind : Endpoint → String
  | network _ => "tcp"
  | serial _ => "serial"

/-- The name of an endpoint: host and port, or the device. -/
def name : Endpoint → String
  | network endpoint => endpoint.host ++ ":" ++ toString endpoint.port.toNat
  | serial endpoint => endpoint.device

def url (endpoint : Endpoint) : String :=
  endpoint.kind ++ "://" ++ endpoint.name

/-- **What is wrong with an endpoint.** -/
def fault? : Endpoint → Option EndpointFault
  | network endpoint => endpoint.fault?
  | serial endpoint => endpoint.fault?

/-- The policy of a connection to an endpoint where nothing else is said. -/
def timing : Endpoint → Timing
  | network _ => .network
  | serial _ => .serial

/-- The failure to open a serial line, for the reason the system gives. -/
def openFault (endpoint : Endpoint) (reason : String) : TransportFault :=
  .connectionFailed ("Failed to open serial port " ++ endpoint.name ++ ": " ++ reason)

end Endpoint

end Modbus
