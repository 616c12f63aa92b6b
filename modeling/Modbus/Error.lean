import Modbus.ExceptionCode
import Modbus.Text.CharLiteral

/-!
# What can go wrong

One type covers the whole path of a request.  `Error` groups causes by where they arise: a caller's
argument, a value out of range, a frame that does not hold together, a device's exception reply,
the transport, the request's own end (`cancelled`, `disposed`), the configuration.  Within a group
each cause has its own constructor with the values that its wording needs, so that a law can say
*which* fault a frame has without speaking of text; the wording is `Error.message` alone.

`Error.needsReconnect` is the rule that keeps one exchange's bytes out of the next: after these
errors the link may hold the rest of a reply, and it is closed.
-/

namespace Modbus

/-- The three ways a PDU travels. -/
inductive Protocol where
  | rtu
  | ascii
  | tcp
deriving DecidableEq, Repr

namespace Protocol

def name : Protocol → String
  | rtu => "RTU"
  | ascii => "ASCII"
  | tcp => "TCP"

end Protocol

/-- Arguments a caller must not give. -/
inductive ArgumentFault where
  /-- A write of several values that names none. -/
  | emptyBatch
  | duplicateAddress (address : UInt16)
  | addressGap (before after : UInt16)
  /-- Bytes given as a request that are too few, or too malformed, to be a frame. -/
  | notAFrame (protocol : Protocol)
  | emptyRequest
  /-- The chain of fragments was asked to read one object. -/
  | individualChain
  | described (text : String)
deriving DecidableEq, Repr

/-- Values outside their range. -/
inductive RangeFault where
  /-- A count that is zero or above what one request may carry. -/
  | countLimit (max : UInt16) (got : Nat)
  /-- A range that runs past the last address. -/
  | addressSpace (start count : UInt16)
  | undefinedCategory (code : UInt8)
  | unknownCategory (name : String)
  | reservedObject (id : UInt8)
  | oversizedObject (id : UInt8) (size : Nat)
  | described (text : String)
deriving DecidableEq, Repr

/-- Frames that do not hold together, or do not answer what was asked. -/
inductive FramingFault where
  | emptyPdu
  | missingExceptionCode
  | functionMismatch (expected got : UInt8)
  /-- A reply PDU that ends within its fixed part. -/
  | truncatedPdu
  /-- A reply frame that ends within its fixed part. -/
  | truncatedResponse (size : Nat)
  /-- A byte count that is not the number of bytes that follow. -/
  | declaredByteCount (declared got : Nat)
  /-- A byte count that is not what the requested bits need. -/
  | bitByteCount (expected : Nat) (count : UInt16) (got : Nat)
  /-- Fewer bytes than the requested words need. -/
  | wordByteCount (got : Nat) (count : UInt16)
  /-- A write echo that is not five bytes long. -/
  | echoLength (got : Nat)
  | coilValue (word : UInt16)
  | meiMismatch (got : UInt8)
  | missingObject
  | objectLength (id : UInt8)
  | trailingBytes (count : Nat)
  | categoryMismatch (expected got : UInt8)
  /-- A frame shorter than any of its protocol. -/
  | shortFrame (protocol : Protocol) (size : Nat)
  | checksum
  | delimiters
  | hexDigits (fault : Hex.Fault)
  | unitMismatch (expected got : UInt8)
  | protocolIdentifier (got : UInt16)
  /-- The same, found in a reply that is checked against its request. -/
  | replyProtocolIdentifier
  | following (declared got : Nat)
  | transactionMismatch (expected got : Bytes)
  | chainStalled (next current : UInt8)
  | echoMismatch
  | described (text : String)
deriving DecidableEq, Repr

/-- Failures of the link under a connection. -/
inductive TransportFault where
  | connectionFailed (text : String)
  | sendFailed (text : String)
  | receiveFailed (text : String)
  | timeout (text : String)
  | notConnected
  | configuration (text : String)
  | io (text : String)
deriving DecidableEq, Repr

/-- **The errors of a request, a frame or a configuration.** -/
inductive Error where
  | invalidArgument (fault : ArgumentFault)
  | outOfRange (fault : RangeFault)
  | framing (fault : FramingFault)
  /-- The device answered `function` with an exception reply. -/
  | exception (function : UInt8) (code : ExceptionCode)
  | transport (fault : TransportFault)
  /-- The peer closed the stream before the response was complete. -/
  | endOfStream
  /-- The caller gave the request up. -/
  | cancelled
  /-- The connection is gone. -/
  | disposed
  | configuration (text : String)
  /-- A configuration source that cannot be read into the expected shape. -/
  | unreadable
deriving DecidableEq, Repr

/-! ## Wording -/

def ArgumentFault.message : ArgumentFault → String
  | emptyBatch => "At least one object must be written"
  | duplicateAddress address => "Duplicate address " ++ toString address.toNat
  | addressGap before after =>
    "Gap between addresses " ++ toString before.toNat ++ " and " ++ toString after.toNat
  | notAFrame .rtu => "Request is not an RTU frame"
  | notAFrame .ascii => "Request is not an ASCII frame"
  | notAFrame .tcp => "Request is not a TCP frame"
  | emptyRequest => "Request must not be empty"
  | individualChain =>
    "Individual access reads one object; use read_device_identification_raw"
  | described text => text

/-- The most bytes an identification object may have: what one reply can carry beside its header
and the object's own. -/
def maxObjectSize : Nat := 244

def RangeFault.message : RangeFault → String
  | countLimit max got =>
    "Count must be between 1 and " ++ toString max.toNat ++ ", got " ++ toString got
  | addressSpace start count =>
    "Start address " ++ toString start.toNat ++ " with count " ++ toString count.toNat
      ++ " exceeds the address space"
  | undefinedCategory code =>
    "Device identification category 0x" ++ Hex.byte code ++ " is not defined"
  | unknownCategory name => "Unknown device identification category: " ++ name
  | reservedObject id => "Object id 0x" ++ Hex.byte id ++ " is reserved"
  | oversizedObject id size =>
    "Object 0x" ++ Hex.byte id ++ " is " ++ toString size ++ " bytes, at most "
      ++ toString maxObjectSize ++ " fit a reply"
  | described text => text

def Hex.Fault.message : Hex.Fault → String
  | .oddLength => "Odd number of digits"
  | .invalidCharacter character position =>
    "Invalid character " ++ CharLiteral.quote character ++ " at position " ++ toString position

/-- The wording of a frame that does not hold together. -/
def FramingFault.message : FramingFault → String
  | emptyPdu => "Empty PDU"
  | missingExceptionCode => "Exception reply without exception code"
  | functionMismatch expected got =>
    "Function code does not match: expected 0x" ++ Hex.byte expected ++ ", got 0x" ++ Hex.byte got
  | truncatedPdu => "Response too short"
  | truncatedResponse size => "Response too short: " ++ toString size ++ " bytes"
  | declaredByteCount declared got =>
    "Byte count does not match: declared " ++ toString declared ++ ", got " ++ toString got
  | bitByteCount expected count got =>
    "Byte count does not match: expected " ++ toString expected ++ " for "
      ++ toString count.toNat ++ " values, got " ++ toString got
  | wordByteCount got count =>
    "Byte count does not match: " ++ toString got ++ " bytes cannot hold "
      ++ toString count.toNat ++ " registers"
  | echoLength got =>
    "Response length does not match: expected 5 PDU bytes, got " ++ toString got
  | coilValue word => "Invalid coil value 0x" ++ Hex.word word
  | meiMismatch got => "MEI type does not match: expected 0x0E, got 0x" ++ Hex.byte got
  | missingObject => "Number of objects does not match"
  | objectLength id => "Object 0x" ++ Hex.byte id ++ " length does not match"
  | trailingBytes count => toString count ++ " trailing bytes after the last object"
  | categoryMismatch expected got =>
    "Read device id code does not match: expected 0x" ++ Hex.byte expected ++ ", got 0x"
      ++ Hex.byte got
  | shortFrame .ascii size => "ASCII frame too short: " ++ toString size ++ " chars"
  | shortFrame protocol size =>
    protocol.name ++ " frame too short: " ++ toString size ++ " bytes"
  | checksum => "Checksum does not match"
  | delimiters => "Frame delimiters missing"
  | hexDigits fault => "Invalid hex encoding: " ++ fault.message
  | unitMismatch expected got =>
    "Unit identifier does not match: expected " ++ toString expected.toNat ++ ", got "
      ++ toString got.toNat
  | protocolIdentifier got =>
    "Protocol identifier does not match: expected 0, got " ++ toString got.toNat
  | replyProtocolIdentifier => "Protocol identifier does not match"
  | following declared got =>
    "Number of following bytes does not match: declared " ++ toString declared ++ ", got "
      ++ toString got
  | transactionMismatch expected got =>
    "Transaction identifier does not match: expected " ++ Hex.byteList expected ++ ", got "
      ++ Hex.byteList got
  | chainStalled next current =>
    "Device identification chain does not advance: 0x" ++ Hex.byte next ++ " after 0x"
      ++ Hex.byte current
  | echoMismatch => "Backend echo does not match the write"
  | described text => text

def TransportFault.message : TransportFault → String
  | connectionFailed text => "Connection failed: " ++ text
  | sendFailed text => "Send failed: " ++ text
  | receiveFailed text => "Receive failed: " ++ text
  | timeout text => "Operation timed out: " ++ text
  | notConnected => "Not connected"
  | configuration text => "Configuration error: " ++ text
  | io text => "IO error: " ++ text

def TransportFault.kind : TransportFault → String
  | connectionFailed _ => "ConnectionFailed"
  | sendFailed _ => "SendFailed"
  | receiveFailed _ => "ReceiveFailed"
  | timeout _ => "Timeout"
  | notConnected => "NotConnected"
  | configuration _ => "ConfigError"
  | io _ => "IoError"

namespace Error

def kind : Error → String
  | invalidArgument _ => "InvalidArgument"
  | outOfRange _ => "OutOfRange"
  | framing _ => "Framing"
  | exception _ _ => "Exception"
  | transport fault => "Transport." ++ fault.kind
  | endOfStream => "EndOfStream"
  | cancelled => "Cancelled"
  | disposed => "Disposed"
  | configuration _ => "Config"
  | unreadable => "Config"

/-- **The wording of an error.** -/
def message : Error → String
  | invalidArgument fault => "Invalid argument: " ++ fault.message
  | outOfRange fault => "Out of range: " ++ fault.message
  | framing fault => "Framing error: " ++ fault.message
  | exception function code =>
    "Remote exception on function 0x" ++ Hex.byte function ++ ": " ++ code.description
  | transport fault => fault.message
  | endOfStream => "End of stream reached before the response was complete"
  | cancelled => "Request cancelled"
  | disposed => "Connection disposed"
  | configuration text => "Configuration error: " ++ text
  | unreadable => "Configuration error: unreadable source"

/-- The errors that a text alone describes, one of each kind that has such an error. -/
def described (text : String) : List Error :=
  [invalidArgument (.described text), outOfRange (.described text), framing (.described text),
    endOfStream, cancelled, disposed, configuration text, transport (.connectionFailed text),
    transport (.sendFailed text), transport (.receiveFailed text), transport (.timeout text),
    transport .notConnected, transport (.configuration text), transport (.io text)]

/-- The error of a given kind that a text describes. -/
def ofKind? (kind text : String) : Option Error :=
  (described text).find? fun error => error.kind = kind

/-! ## Classes of errors -/

/-- The device's code, when the device answered with an exception reply. -/
def exceptionCode? : Error → Option ExceptionCode
  | exception _ code => some code
  | _ => none

def isTransport : Error → Bool
  | transport _ => true
  | endOfStream => true
  | _ => false

/-- **Whether the link may still hold bytes of this exchange** and has to be reopened. -/
def needsReconnect : Error → Bool
  | transport _ => true
  | endOfStream => true
  | cancelled => true
  | _ => false

end Error

/-- The result of an operation that can fail. -/
abbrev Result (α : Type) := Except Error α

end Modbus
