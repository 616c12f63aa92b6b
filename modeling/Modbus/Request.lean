import Modbus.Bits
import Modbus.Function
import Modbus.Identification.Identity

/-!
# Requests

A request has two forms.  On the client's side it is built from arguments: one function per kind
of request gives the PDU, or the error that the arguments deserve (`Request.readPdu`,
`Request.writeCoilsPdu`, …).  On the device's side it is a value of type `Request`, read from a PDU
by `Request.ofPdu`, which never fails on a PDU that has a function code: a known function with a
payload that breaks the rules becomes `Request.invalid` with the exception to answer, and a
function that is not served becomes `Request.unsupported`.

The two sides check the same limits and are written apart.
-/

namespace Modbus

/-- **A request as a device sees it.** -/
inductive Request where
  | readBits (table : BitTable) (start count : UInt16)
  | readWords (table : WordTable) (start count : UInt16)
  | writeCoil (coil : Coil)
  | writeRegister (register : Register)
  | writeCoils (coils : List Coil)
  | writeRegisters (registers : List Register)
  | identify (category : Category) (object : UInt8)
  /-- A served function with a payload that breaks the rules, answered with `code`. -/
  | invalid (function : UInt8) (code : ExceptionCode)
  /-- A function that is not served. -/
  | unsupported (function : UInt8)
deriving DecidableEq, Repr

namespace Request

def function : Request → UInt8
  | readBits table _ _ => table.code
  | readWords table _ _ => table.code
  | writeCoil _ => Function.writeCoil.code
  | writeRegister _ => Function.writeRegister.code
  | writeCoils _ => Function.writeCoils.code
  | writeRegisters _ => Function.writeRegisters.code
  | identify _ _ => Function.identify.code
  | invalid function _ => function
  | unsupported function => function

/-! ## The client's side -/

/-- Whether a range of `count` cells from `start` runs past the last address. -/
def overflows (start count : UInt16) : Bool :=
  65536 < start.toNat + count.toNat

/-- A read of `count` cells from `start`: at least one, no more than a reply can carry, and none
beyond the last address.  A function that reads no bits is held to the limit on words. -/
def readPdu (function : UInt8) (start count : UInt16) : Result Bytes :=
  let max := if function = 0x01 ∨ function = 0x02 then Limit.readBits else Limit.readWords
  if count < 1 ∨ max < count then .error (.outOfRange (.countLimit max count.toNat))
  else if overflows start count then .error (.outOfRange (.addressSpace start count))
  else .ok (function :: Word.toBytes start ++ Word.toBytes count)

def writeCoilPdu (coil : Coil) : Bytes :=
  Function.writeCoil.code :: Word.toBytes coil.address ++ Word.toBytes (coilWord coil.value)

def writeRegisterPdu (register : Register) : Bytes :=
  Function.writeRegister.code :: Word.toBytes register.address ++ Word.toBytes register.value

/-- The first place where ascending addresses do not follow each other. -/
def addressFault? : List UInt16 → Option ArgumentFault
  | first :: second :: rest =>
    if first = second then some (.duplicateAddress first)
    else if second ≠ first + 1 then some (.addressGap first second)
    else addressFault? (second :: rest)
  | _ => none

/-- **A batch of cells to write**, in the order of their addresses, which have to be distinct and
without a gap. -/
def batch {α : Type} (max : UInt16) (cells : List (Cell α)) : Result (List (Cell α)) :=
  if cells = [] then .error (.invalidArgument .emptyBatch)
  else if max.toNat < cells.length then .error (.outOfRange (.countLimit max cells.length))
  else
    let sorted := cells.mergeSort fun a b => a.address ≤ b.address
    match addressFault? (sorted.map Cell.address) with
    | some fault => .error (.invalidArgument fault)
    | none => .ok sorted

/-- The range that a batch covers: its first address and the number of its cells. -/
def range {α : Type} (cells : List (Cell α)) : UInt16 × UInt16 :=
  (cells.head?.elim 0 Cell.address, UInt16.ofNat cells.length)

/-- The PDU of a write of several cells whose values are already bytes. -/
def batchPdu {α : Type} (function : Function) (cells : List (Cell α)) (payload : Bytes) : Bytes :=
  function.code :: Word.toBytes (range cells).1 ++ Word.toBytes (range cells).2
    ++ UInt8.ofNat payload.length :: payload

def writeCoilsPdu (coils : List Coil) : Result Bytes := do
  let sorted ← batch Limit.writeCoils coils
  return batchPdu .writeCoils sorted (Bits.pack (sorted.map Cell.value))

/-- A write of several registers, given in any order. -/
def writeRegistersPdu (registers : List Register) : Result Bytes := do
  let sorted ← batch Limit.writeRegisters registers
  return batchPdu .writeRegisters sorted (Word.listToBytes (sorted.map Cell.value))

/-- The interface under which identification is read. -/
def meiIdentification : UInt8 := 0x0E

/-- A read of identification objects from `object` on. -/
def identifyPdu (category : Category) (object : UInt8) : Bytes :=
  [Function.identify.code, meiIdentification, category.code, object]

/-! ## The device's side -/

/-- A range that is asked for: none, or more than `max`, breaks the rules for values; one that runs
past the last address breaks those for addresses. -/
def rangeFault? (max start count : UInt16) : Option ExceptionCode :=
  if count < 1 ∨ max < count then some .illegalDataValue
  else if overflows start count then some .illegalDataAddress
  else none

/-- The request that `request` is, unless its range is at fault. -/
def checked (function : Function) (max start count : UInt16) (request : Request) : Request :=
  match rangeFault? max start count with
  | some code => invalid function.code code
  | none => request

/-- The start and count that open most payloads, and what follows them. -/
def startAndCount : Bytes → Option (UInt16 × UInt16 × Bytes)
  | a :: b :: c :: d :: rest => some (Word.ofBytes a b, Word.ofBytes c d, rest)
  | _ => none

/-- The payload of a write of several cells: start, count, and as many bytes as are announced and
as the cells need. -/
def writePayload? (bytesFor : Nat → Nat) (payload : Bytes) : Option (UInt16 × UInt16 × Bytes) :=
  match startAndCount payload with
  | some (start, count, size :: data) =>
    if size.toNat = bytesFor count.toNat ∧ data.length = size.toNat then
      some (start, count, data)
    else none
  | _ => none

/-- The request of a served function with a given payload. -/
def ofPayload (function : Function) (payload : Bytes) : Request :=
  let refused := invalid function.code .illegalDataValue
  match function with
  | .readBits table =>
    match startAndCount payload with
    | some (start, count, []) =>
      checked function Limit.readBits start count (readBits table start count)
    | _ => refused
  | .readWords table =>
    match startAndCount payload with
    | some (start, count, []) =>
      checked function Limit.readWords start count (readWords table start count)
    | _ => refused
  | .writeCoil =>
    match startAndCount payload with
    | some (address, word, []) =>
      match coilState? word with
      | some on => writeCoil ⟨address, on⟩
      | none => refused
    | _ => refused
  | .writeRegister =>
    match startAndCount payload with
    | some (address, word, []) => writeRegister ⟨address, word⟩
    | _ => refused
  | .writeCoils =>
    match writePayload? Bits.bytesFor payload with
    | some (start, count, data) =>
      checked function Limit.writeCoils start count
        (writeCoils (Cell.sequence start (Bits.unpack data count.toNat)))
    | none => refused
  | .writeRegisters =>
    match writePayload? (2 * ·) payload with
    | some (start, count, data) =>
      checked function Limit.writeRegisters start count
        (writeRegisters (Cell.sequence start (Word.listOfBytes data)))
    | none => refused
  | .identify =>
    match payload with
    | [] => invalid function.code .illegalFunction
    | mei :: rest =>
      if mei ≠ meiIdentification then invalid function.code .illegalFunction
      else
        match rest with
        | [code, object] =>
          match Category.ofCode? code with
          | some category => identify category object
          | none => refused
        | _ => refused

/-- **Reading a request.**  Only a PDU without a function code is an error. -/
def ofPdu : Bytes → Result Request
  | [] => .error (.framing .emptyPdu)
  | code :: payload =>
    match Function.ofCode? code with
    | some function => .ok (ofPayload function payload)
    | none => .ok (unsupported code)

end Request

end Modbus
