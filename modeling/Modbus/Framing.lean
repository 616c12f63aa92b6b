import Modbus.Framing.Rtu
import Modbus.Framing.Ascii
import Modbus.Framing.Tcp

/-!
# The three framings

Units, PDUs and the rules about them are the same on every link; only the wrapping differs.
`Framing` chooses one, and everything above it speaks through the functions of this file: wrap a
PDU, take a frame apart, tell when a frame is complete, check a reply against its request.

A `Codec` is a framing together with the number of its next transaction.  Requests are framed
through a codec, since each one takes a number; the framings without transactions ignore it.
-/

namespace Modbus

/-- **How PDUs are wrapped.** -/
inductive Framing where
  | rtu
  | ascii
  /-- Network frames; the transaction number of replies is checked unless a gateway on the way
  changes it. -/
  | tcp (checked : Bool)
deriving DecidableEq, Repr

namespace Protocol

def ofName (name : String) : Result Protocol :=
  match name.toLower with
  | "rtu" => .ok rtu
  | "ascii" => .ok ascii
  | "tcp" => .ok tcp
  | other => .error (.configuration ("Unknown protocol: " ++ other))

def framing : Protocol → Framing
  | rtu => .rtu
  | ascii => .ascii
  | tcp => .tcp true

end Protocol

namespace Framing

def protocol : Framing → Protocol
  | rtu => .rtu
  | ascii => .ascii
  | tcp _ => .tcp

def name (framing : Framing) : String :=
  framing.protocol.name

def maxAdu : Framing → Nat
  | rtu => 256
  | ascii => 513
  | tcp _ => 260

/-- The most bytes a PDU may have; it is the same everywhere. -/
def maxPdu (_framing : Framing) : Nat :=
  Limit.maxPdu

/-- **Wrapping a PDU.**  A network frame without a transaction number has number zero. -/
def wrap (framing : Framing) (header : Header) (pdu : Bytes) : Bytes :=
  match framing with
  | rtu => Rtu.frame header.unit pdu
  | ascii => Ascii.frame header.unit pdu
  | tcp _ => Tcp.frame (header.transaction.getD 0) header.unit pdu

/-- **Taking a frame apart** into its header and its PDU. -/
def parse (framing : Framing) (adu : Bytes) : Result (Header × Bytes) :=
  match framing with
  | rtu => Rtu.parse adu
  | ascii => Ascii.parse adu
  | tcp _ => Tcp.parse adu

def responseComplete (framing : Framing) (bytes : Bytes) : Bool :=
  match framing with
  | rtu => Rtu.responseComplete bytes
  | ascii => Ascii.complete bytes
  | tcp _ => Tcp.complete bytes

def requestComplete (framing : Framing) (bytes : Bytes) : Bool :=
  match framing with
  | rtu => Rtu.requestComplete bytes
  | ascii => Ascii.complete bytes
  | tcp _ => Tcp.complete bytes

/-- **Whether a reply frame answers a request frame.** -/
def validate (framing : Framing) (request response : Bytes) : Result Unit :=
  match framing with
  | rtu => Rtu.validate request response
  | ascii => Ascii.validate request response
  | tcp checked => Tcp.validate checked request response

/-! ## Frames with meaning -/

/-- The request in a frame, with the header that its reply echoes. -/
def readRequest (framing : Framing) (adu : Bytes) : Result (Header × Request) := do
  let (header, pdu) ← framing.parse adu
  return (header, ← Request.ofPdu pdu)

def writeResponse (framing : Framing) (header : Header) (response : Response) : Bytes :=
  framing.wrap header response.toPdu

def answerIdentity (framing : Framing) (identity : Identity) (category : Category)
    (first : UInt8) : Response :=
  identity.answer category first framing.maxPdu

/-- The bits in the frame of a read reply, at the addresses that were asked for. -/
def readBits (framing : Framing) (table : BitTable) (adu : Bytes) (start count : UInt16) :
    Result (List (Cell Bool)) := do
  let (_, pdu) ← framing.parse adu
  return Cell.sequence start (← Reply.bits table.code pdu count)

/-- The words in the frame of a read reply, at the addresses that were asked for. -/
def readWords (framing : Framing) (table : WordTable) (adu : Bytes) (start count : UInt16) :
    Result (List (Cell UInt16)) := do
  let (_, pdu) ← framing.parse adu
  return Cell.sequence start (← Reply.words table.code pdu count)

def readCoil (framing : Framing) (adu : Bytes) : Result Coil := do
  let (_, pdu) ← framing.parse adu
  Reply.coil pdu

def readRegister (framing : Framing) (adu : Bytes) : Result Register := do
  let (_, pdu) ← framing.parse adu
  Reply.register pdu

/-- The range in the frame of a reply to a write of several cells. -/
def readRange (framing : Framing) (function : Function) (adu : Bytes) :
    Result (UInt16 × UInt16) := do
  let (_, pdu) ← framing.parse adu
  Reply.range function.code pdu

def readFragment (framing : Framing) (adu : Bytes) : Result Fragment := do
  let (_, pdu) ← framing.parse adu
  Reply.fragment pdu

end Framing

/-! ## Codecs -/

/-- **A framing and its next transaction number.** -/
structure Codec where
  framing : Framing
  transaction : UInt16 := 1
deriving DecidableEq, Repr

namespace Codec

/-- **Framing a request** takes the next transaction number; after the last comes zero. -/
def request (codec : Codec) (unit : UnitId) (pdu : Bytes) : Bytes × Codec :=
  (codec.framing.wrap ⟨unit, some codec.transaction⟩ pdu,
    { codec with transaction := codec.transaction + 1 })

/-- The last of `count` framings of the same request, if there is one. -/
def requestRepeatedly (codec : Codec) (unit : UnitId) (pdu : Bytes) (count : Nat) :
    Option Bytes × Codec :=
  Nat.repeat (fun (_, codec) =>
    let (frame, codec) := codec.request unit pdu
    (some frame, codec)) count (none, codec)

end Codec

end Modbus
