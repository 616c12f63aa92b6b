import Modbus.Checksum
import Modbus.Response
import Modbus.Framing.Header

/-!
# Binary serial frames

A frame is the unit, the PDU and the two bytes of its cyclic redundancy check.  Nothing marks its
end: the receiver works out from the function code, and from the sizes that some functions carry,
how long the frame has to be.  `Rtu.responseSize?` and `Rtu.requestSize?` are that calculation on
the bytes received so far, and a frame is complete once it has that many bytes.
-/

namespace Modbus.Rtu

/-- The fewest bytes of a frame: unit, function code and check. -/
def minFrame : Nat := 4

/-- **A frame**: unit, PDU and check. -/
def frame (unit : UnitId) (pdu : Bytes) : Bytes :=
  unit :: pdu ++ Checksum.crcTrailer (unit :: pdu)

/-- The unit and the PDU of a frame that is long enough to have both; the check is left unread. -/
def split? : Bytes → Option (UnitId × Bytes)
  | [] => none
  | unit :: rest => if rest.length < 3 then none else some (unit, rest.take (rest.length - 2))

/-- **Taking a frame apart**, once its check is found right. -/
def parse (adu : Bytes) : Result (Header × Bytes) :=
  match split? adu with
  | none => .error (.framing (.shortFrame .rtu adu.length))
  | some (unit, pdu) =>
    if Checksum.crcMatches adu then .ok (⟨unit, none⟩, pdu) else .error (.framing .checksum)

/-! ## How long a frame is -/

/-- The bytes that `count` object records take, as soon as all their sizes are known. -/
def recordsSize? : Nat → Bytes → Option Nat
  | 0, _ => some 0
  | count + 1, _ :: size :: rest =>
    (recordsSize? count (rest.drop size.toNat)).map (2 + size.toNat + ·)
  | _ + 1, _ => none

/-- The bytes of an identification reply, from the bytes after its function code. -/
def identificationSize? : Bytes → Option Nat
  | _mei :: _category :: _conformity :: _more :: _next :: count :: records =>
    (recordsSize? count.toNat records).map (10 + ·)
  | _ => none

/-- **The length of the reply** that begins with these bytes, as soon as they tell it. -/
def responseSize? : Bytes → Option Nat
  | _unit :: code :: rest =>
    if Function.isFlagged code then some 5
    else
      match Function.ofCode? code with
      | some (.readBits _) | some (.readWords _) => rest.head?.map fun size => 5 + size.toNat
      | some .writeCoil | some .writeRegister | some .writeCoils | some .writeRegisters => some 8
      | some .identify => identificationSize? rest
      | none => some 4
  | _ => none

/-- **The length of the request** that begins with these bytes, as soon as they tell it. -/
def requestSize? : Bytes → Option Nat
  | _unit :: code :: rest =>
    match Function.ofCode? code with
    | some (.readBits _) | some (.readWords _) | some .writeCoil | some .writeRegister => some 8
    | some .writeCoils | some .writeRegisters => rest[4]?.map fun size => 9 + size.toNat
    | some .identify => some 7
    | none => some 4
  | _ => none

/-- Whether as many bytes are there as `size?` asks for. -/
def reached (size? : Option Nat) (bytes : Bytes) : Bool :=
  size?.any fun size => decide (size ≤ bytes.length)

def responseComplete (bytes : Bytes) : Bool :=
  reached (responseSize? bytes) bytes

def requestComplete (bytes : Bytes) : Bool :=
  reached (requestSize? bytes) bytes

/-! ## Checking a reply against its request -/

/-- **Whether a reply answers a request**: the same unit, the same function, an intact check, and a
PDU of the right shape.  An exception reply is reported before its check is looked at. -/
def validate (request response : Bytes) : Result Unit :=
  match split? request, split? response with
  | none, _ => .error (.invalidArgument (.notAFrame .rtu))
  | some _, none => .error (.framing (.truncatedResponse response.length))
  | some (asked, requestPdu), some (unit, pdu) => do
    if unit ≠ asked then throw (.framing (.unitMismatch asked unit))
    let _ ← Reply.payload (requestPdu.headD 0) pdu
    if !Checksum.crcMatches response then throw (.framing .checksum)
    Reply.checkShape requestPdu pdu

end Modbus.Rtu
