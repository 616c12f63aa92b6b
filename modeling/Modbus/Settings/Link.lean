import Modbus.Endpoint
import Modbus.Framing
import Modbus.Settings.Value

/-!
# The settings of a link

`LinkSettings` is everything that one link needs: how PDUs are wrapped, where the link leads, how
long things may take.  `LinkSettings.fault?` tells the first thing that is wrong with it, and
`LinkSettings.timing` is the policy of its connection.

As data the settings are a table.  `LinkSettings.ofValue?` reads it, with a default for each field
that is missing and without a word about fields it does not know, and `LinkSettings.toValue` writes
it with every field.
-/

namespace Modbus

open Settings

/-- **The settings of one link.** -/
structure LinkSettings where
  protocol : Protocol := .tcp
  endpoint : Endpoint := .network {}
  /-- When to give up reconnecting; without it, never. -/
  connectTimeout : Option Duration := none
  readTimeout : Duration := .ofMillis 1000
  writeTimeout : Duration := .ofMillis 1000
  idleTimeout : Duration := .ofMillis 6000
  /-- The guard time between two requests, where it is not the one of the endpoint. -/
  guardTime : Option Duration := none
  minBackoff : Duration := .ofMillis 1000
  maxBackoff : Duration := .ofMillis 60000
deriving DecidableEq, Repr

/-- What can be wrong with the settings of a link. -/
inductive LinkFault where
  | endpoint (fault : EndpointFault)
  /-- A span that must not be zero, under the name of its setting. -/
  | zero (name : String)
  | zeroConnectTimeout
  | backoffOrder (max min : Duration)
deriving DecidableEq, Repr

def LinkFault.message : LinkFault → String
  | endpoint fault => fault.transportFault.message
  | zero name => name ++ " must be greater than zero"
  | zeroConnectTimeout =>
    "connect_timeout_ms must be greater than zero; omit it to retry forever"
  | backoffOrder max min =>
    "reconnect_max_delay_ms (" ++ toString max.millis ++ ") is below reconnect_min_delay_ms ("
      ++ toString min.millis ++ ")"

namespace LinkSettings

/-- The spans that must not be zero, with the names of their settings. -/
def spans (settings : LinkSettings) : List (String × Duration) :=
  [("read_timeout_ms", settings.readTimeout), ("write_timeout_ms", settings.writeTimeout),
    ("idle_timeout_ms", settings.idleTimeout), ("reconnect_min_delay_ms", settings.minBackoff)]

/-- **What is wrong with the settings**: the first fault, the endpoint's before all others. -/
def fault? (settings : LinkSettings) : Option LinkFault :=
  match settings.endpoint.fault? with
  | some fault => some (.endpoint fault)
  | none =>
    match settings.spans.find? fun span => span.2 = .zero with
    | some (name, _) => some (.zero name)
    | none =>
      if settings.connectTimeout = some .zero then some .zeroConnectTimeout
      else if settings.maxBackoff.micros < settings.minBackoff.micros then
        some (.backoffOrder settings.maxBackoff settings.minBackoff)
      else none

/-- Settings without a fault; the first fault is the error. -/
def validate (settings : LinkSettings) : Result LinkSettings :=
  match settings.fault? with
  | some fault => .error (.configuration fault.message)
  | none => .ok settings

/-- **The policy of the connection.** -/
def timing (settings : LinkSettings) : Timing where
  connectTimeout := settings.connectTimeout
  readTimeout := settings.readTimeout
  writeTimeout := settings.writeTimeout
  idleTimeout := settings.idleTimeout
  guardTime := settings.guardTime.getD settings.endpoint.timing.guardTime
  minBackoff := settings.minBackoff
  maxBackoff := settings.maxBackoff

end LinkSettings

/-! ## Names of choices -/

/-- A choice in settings: its alternatives and the names they go by. -/
class Named (α : Type) where
  names : List (String × α)
  name : α → String

instance : Named Protocol where
  names := [("rtu", .rtu), ("ascii", .ascii), ("tcp", .tcp)]
  name protocol := protocol.name.toLower

instance : Named Parity where
  names := [("none", .none), ("even", .even), ("odd", .odd)]
  name
    | .none => "none"
    | .even => "even"
    | .odd => "odd"

instance : Named FlowControl where
  names := [("none", .none), ("software", .software), ("hardware", .hardware)]
  name
    | .none => "none"
    | .software => "software"
    | .hardware => "hardware"

namespace Settings

namespace Value

/-- **A choice** as a whole setting: by its name, by its place in the list of names, or by a table
whose first entry has its name and no value. -/
def choice? {α : Type} [Named α] : Value → Option α
  | .text name => (Named.names (α := α)).lookup name
  | .int place =>
    if place < 0 then none else ((Named.names (α := α))[place.toNat]?).map Prod.snd
  | .table fields =>
    match Table.least? fields with
    | some (name, .null) => (Named.names (α := α)).lookup name
    | _ => none
  | _ => none

/-- A choice inside an endpoint: by its name, or by a table with a single entry of that name and
no value. -/
def innerChoice? {α : Type} [Named α] : Value → Option α
  | .text name => (Named.names (α := α)).lookup name
  | .table [(name, .null)] => (Named.names (α := α)).lookup name
  | .table [(name, .table [])] => (Named.names (α := α)).lookup name
  | _ => none

def millis? (value : Value) : Option Duration :=
  (value.natBelow? UInt64.size).map .ofMillis

def micros? (value : Value) : Option Duration :=
  (value.natBelow? UInt64.size).map Duration.mk

def ofChoice {α : Type} [Named α] (choice : α) : Value :=
  .text (Named.name choice)

def ofNat (value : Nat) : Value :=
  .int (Int.ofNat value)

def ofMillis (span : Duration) : Value :=
  ofNat span.millis

end Value

end Settings

/-! ## Endpoints as data -/

namespace NetworkEndpoint

def fieldNames : List String :=
  ["host", "port", "connect_timeout_ms", "no_delay"]

def ofTable? (table : Table) : Option NetworkEndpoint := do
  let default : NetworkEndpoint := {}
  return {
    host := ← Value.field? table "host" Value.text? default.host
    port := .ofNat (← Value.field? table "port" (Value.natBelow? UInt16.size) default.port.toNat)
    connectTimeout :=
      ← Value.field? table "connect_timeout_ms" Value.millis? default.connectTimeout
    noDelay := ← Value.field? table "no_delay" Value.bool? default.noDelay }

def toTable (endpoint : NetworkEndpoint) : Table :=
  [("host", .text endpoint.host), ("port", .ofNat endpoint.port.toNat),
    ("connect_timeout_ms", .ofMillis endpoint.connectTimeout),
    ("no_delay", .bool endpoint.noDelay)]

end NetworkEndpoint

namespace SerialEndpoint

def fieldNames : List String :=
  ["device", "baud_rate", "data_bits", "stop_bits", "parity", "flow_control",
    "rs485_driver_enable"]

def ofTable? (table : Table) : Option SerialEndpoint := do
  let default : SerialEndpoint := {}
  let byte (name : String) (value : UInt8) : Option UInt8 :=
    (Value.field? table name (Value.natBelow? UInt8.size) value.toNat).map .ofNat
  return {
    device := ← Value.field? table "device" Value.text? default.device
    baudRate :=
      .ofNat (← Value.field? table "baud_rate" (Value.natBelow? UInt32.size) default.baudRate.toNat)
    dataBits := ← byte "data_bits" default.dataBits
    stopBits := ← byte "stop_bits" default.stopBits
    parity := ← Value.field? table "parity" Value.innerChoice? default.parity
    flowControl := ← Value.field? table "flow_control" Value.innerChoice? default.flowControl
    driverEnable := ← Value.field? table "rs485_driver_enable" Value.bool? default.driverEnable }

def toTable (endpoint : SerialEndpoint) : Table :=
  [("device", .text endpoint.device), ("baud_rate", .ofNat endpoint.baudRate.toNat),
    ("data_bits", .ofNat endpoint.dataBits.toNat), ("stop_bits", .ofNat endpoint.stopBits.toNat),
    ("parity", .ofChoice endpoint.parity), ("flow_control", .ofChoice endpoint.flowControl),
    ("rs485_driver_enable", .bool endpoint.driverEnable)]

end SerialEndpoint

namespace Endpoint

/-- An endpoint of a given kind, by name or by place, read from a table. -/
def ofTable? (kind : Value) (table : Table) : Option Endpoint :=
  match kind with
  | .text "tcp" | .int 0 => (NetworkEndpoint.ofTable? table).map .network
  | .text "serial" | .int 1 => (SerialEndpoint.ofTable? table).map .serial
  | _ => none

/-- The names of the fields of an endpoint of a given kind. -/
def fieldNames : Value → List String
  | .text "tcp" | .int 0 => NetworkEndpoint.fieldNames
  | _ => SerialEndpoint.fieldNames

/-- **An endpoint read from data**: a table with its `type`, or a list that begins with it and goes
on with fields in order. -/
def ofValue? : Value → Option Endpoint
  | .table fields =>
    match fields.lookup "type" with
    | some kind => ofTable? kind fields
    | none => none
  | .list (kind :: values) =>
    if (fieldNames kind).length < values.length then none
    else ofTable? kind ((fieldNames kind).zip values)
  | _ => none

def toValue (endpoint : Endpoint) : Value :=
  .table (("type", .text endpoint.kind) ::
    match endpoint with
    | network endpoint => endpoint.toTable
    | serial endpoint => endpoint.toTable)

end Endpoint

/-! ## Link settings as data -/

namespace LinkSettings

def ofTable? (table : Table) : Option LinkSettings := do
  let default : LinkSettings := {}
  let span (name : String) (value : Duration) : Option Duration :=
    Value.field? table name Value.millis? value
  return {
    protocol := ← Value.field? table "protocol" Value.choice? default.protocol
    endpoint := ← Value.field? table "transport" Endpoint.ofValue? default.endpoint
    connectTimeout := ← Value.field? table "connect_timeout_ms" (Value.nullable? Value.millis?)
      default.connectTimeout
    readTimeout := ← span "read_timeout_ms" default.readTimeout
    writeTimeout := ← span "write_timeout_ms" default.writeTimeout
    idleTimeout := ← span "idle_timeout_ms" default.idleTimeout
    guardTime := ← Value.field? table "inter_request_delay_us" (Value.nullable? Value.micros?)
      default.guardTime
    minBackoff := ← span "reconnect_min_delay_ms" default.minBackoff
    maxBackoff := ← span "reconnect_max_delay_ms" default.maxBackoff }

/-- **Settings read from data**, which has to be a table. -/
def ofValue? : Value → Option LinkSettings
  | .table fields => ofTable? fields
  | _ => none

/-- **Settings as data.** -/
def toValue (settings : LinkSettings) : Value :=
  .table [("protocol", .ofChoice settings.protocol), ("transport", settings.endpoint.toValue),
    ("connect_timeout_ms", settings.connectTimeout.elim .null .ofMillis),
    ("read_timeout_ms", .ofMillis settings.readTimeout),
    ("write_timeout_ms", .ofMillis settings.writeTimeout),
    ("idle_timeout_ms", .ofMillis settings.idleTimeout),
    ("inter_request_delay_us", settings.guardTime.elim .null fun span => .ofNat span.micros),
    ("reconnect_min_delay_ms", .ofMillis settings.minBackoff),
    ("reconnect_max_delay_ms", .ofMillis settings.maxBackoff)]

end LinkSettings

end Modbus
