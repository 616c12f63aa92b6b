import Modbus.Checksum
import Modbus.Response
import Modbus.Framing.Header

/-!
# Character serial frames

A frame is a colon, the hexadecimal digits of its body and a line end; the body is the unit, the PDU
and the byte of the longitudinal redundancy check.  The line end marks where a frame stops, so a
frame is complete once one has arrived, whatever it holds.
-/

namespace Modbus.Ascii

def opening : UInt8 := 0x3A

def closing : Bytes := [0x0D, 0x0A]

/-- The fewest characters of a frame: opening, unit, function code, check and closing. -/
def minFrame : Nat := 9

/-- **A frame**: opening, digits of unit, PDU and check, closing. -/
def frame (unit : UnitId) (pdu : Bytes) : Bytes :=
  opening :: Hex.encode (unit :: pdu ++ [Checksum.lrc (unit :: pdu)]) ++ closing

def isDelimited (adu : Bytes) : Bool :=
  adu.head? == some opening && adu.drop (adu.length - 2) == closing

/-- The bytes that a frame's digits spell, check included. -/
def body (adu : Bytes) : Result Bytes :=
  if adu.length < minFrame then .error (.framing (.shortFrame .ascii adu.length))
  else if !isDelimited adu then .error (.framing .delimiters)
  else
    match Hex.decode ((adu.drop 1).take (adu.length - 3)) with
    | .ok bytes => .ok bytes
    | .error fault => .error (.framing (.hexDigits fault))

/-- The unit and the PDU of a body that is long enough to have both; the check is left unread. -/
def split? : Bytes → Option (UnitId × Bytes)
  | [] => none
  | unit :: rest => if rest.length < 2 then none else some (unit, rest.dropLast)

/-- **Taking a frame apart**, once its check is found right. -/
def parse (adu : Bytes) : Result (Header × Bytes) := do
  let body ← body adu
  match split? body with
  | none => throw (.framing .checksum)
  | some (unit, pdu) =>
    if Checksum.lrcMatches body then return (⟨unit, none⟩, pdu) else throw (.framing .checksum)

def hasLineEnd : Bytes → Bool
  | first :: second :: rest => [first, second] == closing || hasLineEnd (second :: rest)
  | _ => false

def complete (bytes : Bytes) : Bool :=
  3 ≤ bytes.length && hasLineEnd bytes

/-- The unit and the PDU of a frame whose check is left unread. -/
def request? (adu : Bytes) : Option (UnitId × Bytes) :=
  match body adu with
  | .ok body => split? body
  | .error _ => none

/-- **Whether a reply answers a request**: the same unit, the same function, an intact check, and a
PDU of the right shape.  An exception reply is reported before its check is looked at. -/
def validate (request response : Bytes) : Result Unit :=
  match request? request with
  | none => .error (.invalidArgument (.notAFrame .ascii))
  | some (asked, requestPdu) => do
    let body ← body response
    match split? body with
    | none => throw (.framing .truncatedPdu)
    | some (unit, pdu) =>
      if unit ≠ asked then throw (.framing (.unitMismatch asked unit))
      let _ ← Reply.payload (requestPdu.headD 0) pdu
      if !Checksum.lrcMatches body then throw (.framing .checksum)
      Reply.checkShape requestPdu pdu

end Modbus.Ascii
