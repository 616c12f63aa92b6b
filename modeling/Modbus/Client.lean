import Modbus.Operation

/-!
# A client's operations

Each operation builds a request, exchanges it for a reply that answers it (`Client.exchange`) and
reads the reply.  A write tells whether the device confirmed exactly what was written.

A whole identification is read page by page (`Client.identification`).  A device decides where the
next page begins, so the chain is held to one rule, that object ids go up; with it the chain ends
against any device, after at most one request for each of the 256 ids.
-/

namespace Modbus.Client

/-- **A request exchanged for its reply.**  The reply has been checked against the request. -/
def exchange (framing : Framing) (unit : UnitId) (pdu : Bytes) : Operation Bytes := do
  let request ← Operation.framed unit pdu
  let response ← Operation.call request framing.responseComplete
  Operation.ofResult (framing.validate request response)
  return response

/-- A frame sent as it is; the reply is complete, but not checked. -/
def invokeRaw (framing : Framing) (request : Bytes) : Operation Bytes :=
  Operation.call request framing.responseComplete

/-! ## Reads -/

def readBits (framing : Framing) (table : BitTable) (unit : UnitId) (start count : UInt16) :
    Operation (List (Cell Bool)) := do
  let pdu ← Operation.ofResult (Request.readPdu table.code start count)
  let response ← exchange framing unit pdu
  Operation.ofResult (framing.readBits table response start count)

def readWords (framing : Framing) (table : WordTable) (unit : UnitId) (start count : UInt16) :
    Operation (List (Cell UInt16)) := do
  let pdu ← Operation.ofResult (Request.readPdu table.code start count)
  let response ← exchange framing unit pdu
  Operation.ofResult (framing.readWords table response start count)

/-! ## Writes -/

/-- One coil written; whether the device echoed it. -/
def writeCoil (framing : Framing) (unit : UnitId) (coil : Coil) : Operation Bool := do
  let response ← exchange framing unit (Request.writeCoilPdu coil)
  return (← Operation.ofResult (framing.readCoil response)) == coil

/-- One register written; whether the device echoed it. -/
def writeRegister (framing : Framing) (unit : UnitId) (register : Register) : Operation Bool := do
  let response ← exchange framing unit (Request.writeRegisterPdu register)
  return (← Operation.ofResult (framing.readRegister response)) == register

/-- The range of a batch given in any order: its lowest address and the number of its cells. -/
def written {α : Type} (cells : List (Cell α)) : UInt16 × UInt16 :=
  (cells.foldl (fun lowest cell => min lowest cell.address) 0xFFFF, UInt16.ofNat cells.length)

/-- Several coils written; whether the device confirmed their range. -/
def writeCoils (framing : Framing) (unit : UnitId) (coils : List Coil) : Operation Bool := do
  let pdu ← Operation.ofResult (Request.writeCoilsPdu coils)
  let response ← exchange framing unit pdu
  return (← Operation.ofResult (framing.readRange .writeCoils response)) == written coils

/-- Several registers written; whether the device confirmed their range. -/
def writeRegisters (framing : Framing) (unit : UnitId) (registers : List Register) :
    Operation Bool := do
  let pdu ← Operation.ofResult (Request.writeRegistersPdu registers)
  let response ← exchange framing unit pdu
  return (← Operation.ofResult (framing.readRange .writeRegisters response)) == written registers

/-! ## Identification -/

def fragment (framing : Framing) (unit : UnitId) (category : Category) (object : UInt8) :
    Operation Fragment := do
  let response ← exchange framing unit (Request.identifyPdu category object)
  Operation.ofResult (framing.readFragment response)

/-- The pages from `object` on, merged into what earlier pages gave. -/
def identificationFrom (framing : Framing) (unit : UnitId) (category : Category)
    (object : UInt8) (before : Identification) : Operation Identification := do
  let page ← fragment framing unit category object
  let merged := before.merge page
  if page.moreFollows then
    if page.nextObject ≤ object then
      Operation.ofResult (.error (.framing (.chainStalled page.nextObject object)))
    else identificationFrom framing unit category page.nextObject merged
  else return merged
termination_by 256 - object.toNat
decreasing_by
  rename_i later
  have above : object.toNat < page.nextObject.toNat := by
    simpa [UInt8.le_iff_toNat_le] using later
  have bound := page.nextObject.toNat_lt
  omega

/-- **A whole identification** of a stream category. -/
def identification (framing : Framing) (unit : UnitId) (category : Category) :
    Operation Identification :=
  if category = .individual then
    Operation.ofResult (.error (.invalidArgument .individualChain))
  else identificationFrom framing unit category 0x00 {}

end Modbus.Client
