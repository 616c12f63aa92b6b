import Modbus.Bytes
import Modbus.Settings.Value

/-!
# Points as data

A point is written as a table with the kind of the table it is in, its address and what it holds: a
bit as a flag, a word as its two bytes.
-/

namespace Modbus.Point

open Settings

def kind : Point → String
  | coil _ => "coil"
  | discreteInput _ => "discrete_input"
  | holdingRegister _ => "holding_register"
  | inputRegister _ => "input_register"

def bitFields (cell : Cell Bool) : Table :=
  [("value", .bool cell.value)]

def wordFields (cell : Cell UInt16) : Table :=
  [("high_byte", .int (Int.ofNat (Word.high cell.value).toNat)),
    ("low_byte", .int (Int.ofNat (Word.low cell.value).toNat))]

/-- **A point as data.** -/
def toValue (point : Point) : Value :=
  .table ([("type", .text point.kind), ("address", .int (Int.ofNat point.address.toNat))] ++
    match point with
    | coil cell => bitFields cell
    | discreteInput cell => bitFields cell
    | holdingRegister cell => wordFields cell
    | inputRegister cell => wordFields cell)

end Modbus.Point
