import Modbus.Bytes

/-!
# Functions and their codes

A PDU opens with a function code.  Nine functions are served here (`Function`); the tables that the
four reads draw from are `BitTable` and `WordTable`.  A reply sets the top bit of the code when it
reports an exception (`Function.flagged`).

The limits are those of the protocol: what one request can ask for is bounded by what one PDU of
at most `maxPdu` bytes can carry.
-/

namespace Modbus

/-- The tables of single bits that a read can address. -/
inductive BitTable where
  | coils
  | discreteInputs
deriving DecidableEq, Repr

/-- The tables of words that a read can address. -/
inductive WordTable where
  | holdingRegisters
  | inputRegisters
deriving DecidableEq, Repr

/-- **The served functions.** -/
inductive Function where
  | readBits (table : BitTable)
  | readWords (table : WordTable)
  | writeCoil
  | writeRegister
  | writeCoils
  | writeRegisters
  | identify
deriving DecidableEq, Repr

namespace BitTable

/-- The code of the function that reads a table of bits. -/
def code : BitTable → UInt8
  | coils => 0x01
  | discreteInputs => 0x02

end BitTable

namespace WordTable

/-- The code of the function that reads a table of words. -/
def code : WordTable → UInt8
  | holdingRegisters => 0x03
  | inputRegisters => 0x04

end WordTable

namespace Function

def code : Function → UInt8
  | readBits table => table.code
  | readWords table => table.code
  | writeCoil => 0x05
  | writeRegister => 0x06
  | writeCoils => 0x0F
  | writeRegisters => 0x10
  | identify => 0x2B

def ofCode? (code : UInt8) : Option Function :=
  match code with
  | 0x01 => some (readBits .coils)
  | 0x02 => some (readBits .discreteInputs)
  | 0x03 => some (readWords .holdingRegisters)
  | 0x04 => some (readWords .inputRegisters)
  | 0x05 => some writeCoil
  | 0x06 => some writeRegister
  | 0x0F => some writeCoils
  | 0x10 => some writeRegisters
  | 0x2B => some identify
  | _ => none

@[simp] theorem ofCode?_code (function : Function) : ofCode? function.code = some function := by
  cases function with
  | readBits table => cases table <;> rfl
  | readWords table => cases table <;> rfl
  | _ => rfl

def all : List Function :=
  [readBits .coils, readBits .discreteInputs, readWords .holdingRegisters,
    readWords .inputRegisters, writeCoil, writeRegister, writeCoils, writeRegisters, identify]

def name : Function → String
  | readBits .coils => "ReadCoils"
  | readBits .discreteInputs => "ReadDiscreteInputs"
  | readWords .holdingRegisters => "ReadHoldingRegisters"
  | readWords .inputRegisters => "ReadInputRegisters"
  | writeCoil => "WriteSingleCoil"
  | writeRegister => "WriteSingleRegister"
  | writeCoils => "WriteMultipleCoils"
  | writeRegisters => "WriteMultipleRegisters"
  | identify => "ReadDeviceIdentification"

def ofName? (name : String) : Option Function :=
  all.find? fun function => function.name = name

def flagged (code : UInt8) : UInt8 :=
  code ||| 0x80

def isFlagged (code : UInt8) : Bool :=
  code &&& 0x80 != 0

end Function

/-! ## Limits -/

namespace Limit

def maxPdu : Nat := 253

def readBits : UInt16 := 2000

def readWords : UInt16 := 125

def writeCoils : UInt16 := 1968

def writeRegisters : UInt16 := 123

def readBuffer : Nat := 512

end Limit

def coilOn : UInt16 := 0xFF00

def coilOff : UInt16 := 0x0000

def coilWord (on : Bool) : UInt16 :=
  if on then coilOn else coilOff

/-- The state that a word stands for; only two words stand for one. -/
def coilState? (word : UInt16) : Option Bool :=
  if word = coilOn then some true else if word = coilOff then some false else none

@[simp] theorem coilState?_coilWord (on : Bool) : coilState? (coilWord on) = some on := by
  cases on <;> decide

end Modbus
