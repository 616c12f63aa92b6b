import Modbus.Response
import Modbus.Framing.Header

/-!
# Network frames

A frame opens with seven bytes: the number of the transaction, a protocol identifier that is zero,
the number of bytes that follow, and the unit.  The PDU follows without a check, since the link
below has its own.  A frame is complete once the announced bytes have arrived.
-/

namespace Modbus.Tcp

/-- Bytes before the ones that the length field counts. -/
def uncounted : Nat := 6

/-- **The fields of a frame**, whether or not they agree with each other. -/
structure Fields where
  transaction : UInt16
  protocol : UInt16
  /-- The number of bytes announced to follow. -/
  following : UInt16
  unit : UnitId
  pdu : Bytes
deriving DecidableEq, Repr

/-- **A frame.**  The length field keeps the low bytes of a length that it cannot hold. -/
def frame (transaction : UInt16) (unit : UnitId) (pdu : Bytes) : Bytes :=
  Word.toBytes transaction ++ Word.toBytes 0 ++ Word.toBytes (UInt16.ofNat (pdu.length + 1))
    ++ unit :: pdu

/-- The fields of a frame that is long enough to have them all and a function code. -/
def split? : Bytes → Option Fields
  | t₁ :: t₂ :: p₁ :: p₂ :: l₁ :: l₂ :: unit :: code :: rest =>
    some ⟨Word.ofBytes t₁ t₂, Word.ofBytes p₁ p₂, Word.ofBytes l₁ l₂, unit, code :: rest⟩
  | _ => none

/-- The number of bytes that do follow the length field. -/
def Fields.present (fields : Fields) : Nat :=
  fields.pdu.length + 1

/-- **Taking a frame apart**, once its fields are found right. -/
def parse (adu : Bytes) : Result (Header × Bytes) :=
  match split? adu with
  | none => .error (.framing (.shortFrame .tcp adu.length))
  | some fields =>
    if fields.protocol ≠ 0 then .error (.framing (.protocolIdentifier fields.protocol))
    else if fields.following.toNat ≠ fields.present then
      .error (.framing (.following fields.following.toNat fields.present))
    else .ok (⟨fields.unit, some fields.transaction⟩, fields.pdu)

/-- The length of the frame that begins with these bytes, as soon as they tell it. -/
def size? : Bytes → Option Nat
  | _ :: _ :: _ :: _ :: l₁ :: l₂ :: _ => some (uncounted + (Word.ofBytes l₁ l₂).toNat)
  | _ => none

def complete (bytes : Bytes) : Bool :=
  (size? bytes).any fun size => decide (size ≤ bytes.length)

/-- **Whether a reply answers a request**: the same transaction unless `checked` is off, header
fields that agree with each other, the same unit, the same function, and a PDU of the right
shape. -/
def validate (checked : Bool) (request response : Bytes) : Result Unit :=
  match split? request, split? response with
  | none, _ => .error (.invalidArgument (.notAFrame .tcp))
  | some _, none => .error (.framing (.truncatedResponse response.length))
  | some asked, some got => do
    if checked && asked.transaction != got.transaction then
      throw (.framing (.transactionMismatch (Word.toBytes asked.transaction)
        (Word.toBytes got.transaction)))
    if got.protocol ≠ 0 then throw (.framing .replyProtocolIdentifier)
    if got.following.toNat ≠ got.present then
      throw (.framing (.following got.following.toNat got.present))
    if got.unit ≠ asked.unit then throw (.framing (.unitMismatch asked.unit got.unit))
    let _ ← Reply.payload (asked.pdu.headD 0) got.pdu
    Reply.checkShape asked.pdu got.pdu

end Modbus.Tcp
