import Modbus.Request
import Modbus.Identification.Fragment

/-!
# Responses

A device answers with a `Response`, which `Response.toPdu` writes as a PDU.  The client reads that
PDU knowing what it asked for, so reading is one function per kind of request: `Reply.bits`,
`Reply.words`, `Reply.coil`, `Reply.register`, `Reply.range`, `Reply.fragment`.  All of them begin
with `Reply.payload`, which tells an echo of the function from an exception reply and from anything
else.

`Reply.checkShape` is what a frame's validation asks of the PDU inside: that its length is what its
own fields announce, and that an identification answers the category that was asked for.
-/

namespace Modbus

/-- **A reply as a device produces it.** -/
inductive Response where
  | bits (table : BitTable) (values : List Bool)
  | words (table : WordTable) (values : List UInt16)
  | coilWritten (coil : Coil)
  | registerWritten (register : Register)
  | coilsWritten (start count : UInt16)
  | registersWritten (start count : UInt16)
  | identification (reply : IdentificationReply)
  | exception (function : UInt8) (code : ExceptionCode)
deriving DecidableEq, Repr

def Request.exception (request : Request) (code : ExceptionCode) : Response :=
  .exception request.function code

/-- The page that answers an access to an identity, or the exception reply in its place. -/
def Identity.answer (identity : Identity) (category : Category) (first : UInt8) (maxPdu : Nat) :
    Response :=
  match identity.page category first maxPdu with
  | .ok reply => .identification reply
  | .error code => .exception Function.identify.code code

namespace Response

/-! ## The device's side -/

/-- A byte count and the bytes it counts; only its low byte travels. -/
def counted (data : Bytes) : Bytes :=
  UInt8.ofNat data.length :: data

/-- An identification object on the line: its id, its size, its data. -/
def record (object : Object) : Bytes :=
  object.id :: counted object.data

/-- **Writing a reply.** -/
def toPdu : Response → Bytes
  | bits table values => table.code :: counted (Bits.pack values)
  | words table values => table.code :: counted (Word.listToBytes values)
  | coilWritten coil => Request.writeCoilPdu coil
  | registerWritten register => Request.writeRegisterPdu register
  | coilsWritten start count =>
    Function.writeCoils.code :: Word.toBytes start ++ Word.toBytes count
  | registersWritten start count =>
    Function.writeRegisters.code :: Word.toBytes start ++ Word.toBytes count
  | identification reply =>
    [Function.identify.code, Request.meiIdentification, reply.category.code, reply.conformity,
      if reply.moreFollows then 0xFF else 0x00, reply.nextObject,
      UInt8.ofNat reply.objects.length] ++ reply.objects.flatMap record
  | exception function code => [Function.flagged function, code.toByte]

end Response

namespace Reply

/-! ## The client's side -/

/-- **What follows the function code** of a reply to `function`.  An exception reply is an error
that names the device's code. -/
def payload (function : UInt8) : Bytes → Result Bytes
  | [] => .error (.framing .emptyPdu)
  | code :: rest =>
    if code = function then .ok rest
    else if code = Function.flagged function then
      match rest with
      | reason :: _ => .error (.exception function (.ofByte reason))
      | [] => .error (.framing .missingExceptionCode)
    else .error (.framing (.functionMismatch function code))

/-- The data of a read reply, as many bytes as it announces. -/
def data (function : UInt8) (pdu : Bytes) : Result Bytes := do
  match ← payload function pdu with
  | [] => throw (.framing .truncatedPdu)
  | size :: data =>
    if data.length = size.toNat then return data
    else throw (.framing (.declaredByteCount size.toNat data.length))

def bits (function : UInt8) (pdu : Bytes) (count : UInt16) : Result (List Bool) := do
  let data ← data function pdu
  let expected := Bits.bytesFor count.toNat
  if data.length = expected then return Bits.unpack data count.toNat
  else throw (.framing (.bitByteCount expected count data.length))

/-- The words of a reply to a read of `count` words. -/
def words (function : UInt8) (pdu : Bytes) (count : UInt16) : Result (List UInt16) := do
  let data ← data function pdu
  if data.length < 2 * count.toNat then throw (.framing (.wordByteCount data.length count))
  else return (Word.listOfBytes data).take count.toNat

/-- The two words that a device echoes after a write. -/
def echo (function : UInt8) (pdu : Bytes) : Result (UInt16 × UInt16) := do
  match Request.startAndCount (← payload function pdu) with
  | some (first, second, []) => return (first, second)
  | _ => throw (.framing (.echoLength pdu.length))

def coil (pdu : Bytes) : Result Coil := do
  let (address, word) ← echo Function.writeCoil.code pdu
  match coilState? word with
  | some on => return ⟨address, on⟩
  | none => throw (.framing (.coilValue word))

/-- The register that a device says it has written. -/
def register (pdu : Bytes) : Result Register := do
  let (address, word) ← echo Function.writeRegister.code pdu
  return ⟨address, word⟩

def range (function : UInt8) (pdu : Bytes) : Result (UInt16 × UInt16) :=
  echo function pdu

/-- **Object records.**  Exactly `count` of them, and nothing after the last. -/
def objects : Nat → Bytes → Result (List Object)
  | 0, [] => .ok []
  | 0, rest => .error (.framing (.trailingBytes rest.length))
  | count + 1, id :: size :: rest =>
    if rest.length < size.toNat then .error (.framing (.objectLength id))
    else (objects count (rest.drop size.toNat)).map (⟨id, rest.take size.toNat⟩ :: ·)
  | _ + 1, _ => .error (.framing .missingObject)

def fragment (pdu : Bytes) : Result Fragment := do
  match ← payload Function.identify.code pdu with
  | mei :: _category :: conformity :: more :: next :: count :: records =>
    if mei ≠ Request.meiIdentification then throw (.framing (.meiMismatch mei))
    let objects ← objects count.toNat records
    return {
      individualAccess := conformity &&& 0x80 != 0
      moreFollows := more == 0xFF
      nextObject := next
      objects }
  | _ => throw (.framing .truncatedPdu)

/-- Whether a reply names another category than the request did. -/
def categoryFault? (request pdu : Bytes) : Option FramingFault :=
  match request[2]?, pdu[2]? with
  | some asked, some got => if asked = got then none else some (.categoryMismatch asked got)
  | _, _ => none

/-- **The shape of a reply PDU**: its length is what its fields announce, and an identification is
of the category that the request PDU asks for.  Functions that are not served have no shape. -/
def checkShape (request pdu : Bytes) : Result Unit :=
  match pdu with
  | [] => .error (.framing .emptyPdu)
  | code :: _ =>
    match Function.ofCode? code with
    | some (.readBits _) | some (.readWords _) => (data code pdu).map fun _ => ()
    | some .writeCoil | some .writeRegister | some .writeCoils | some .writeRegisters =>
      (echo code pdu).map fun _ => ()
    | some .identify => do
      let _ ← fragment pdu
      match categoryFault? request pdu with
      | some fault => throw (.framing fault)
      | none => return ()
    | none => .ok ()

end Reply

end Modbus
