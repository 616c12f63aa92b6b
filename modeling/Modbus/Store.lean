import Modbus.Identification.Identity

/-!
# The memory of simulated devices

A `Store` holds any number of units that share one identity.  A unit is an `Image`: what each
address of the four tables reads as, where an address that was never written reads as off or zero.
Reading takes `count` cells from a start address and goes on at address zero after the last;
writing one cell creates its unit if need be.
-/

namespace Modbus

/-- **What each address of a unit reads as.** -/
structure Image where
  coil : UInt16 → Bool := fun _ => false
  discreteInput : UInt16 → Bool := fun _ => false
  holdingRegister : UInt16 → UInt16 := fun _ => 0
  inputRegister : UInt16 → UInt16 := fun _ => 0

namespace Image

/-- A table that reads as before except at one address. -/
def update {α : Type} (table : UInt16 → α) (address : UInt16) (value : α) : UInt16 → α :=
  fun other => if other = address then value else table other

def read {α : Type} (table : UInt16 → α) (start : UInt16) (count : Nat) : List α :=
  (List.range count).map fun offset => table (start + UInt16.ofNat offset)

def bits (image : Image) : BitTable → UInt16 → Bool
  | .coils => image.coil
  | .discreteInputs => image.discreteInput

def words (image : Image) : WordTable → UInt16 → UInt16
  | .holdingRegisters => image.holdingRegister
  | .inputRegisters => image.inputRegister

def setBit (image : Image) (table : BitTable) (cell : Cell Bool) : Image :=
  match table with
  | .coils => { image with coil := update image.coil cell.address cell.value }
  | .discreteInputs =>
    { image with discreteInput := update image.discreteInput cell.address cell.value }

def setWord (image : Image) (table : WordTable) (cell : Cell UInt16) : Image :=
  match table with
  | .holdingRegisters =>
    { image with holdingRegister := update image.holdingRegister cell.address cell.value }
  | .inputRegisters =>
    { image with inputRegister := update image.inputRegister cell.address cell.value }

end Image

/-- **Units and their shared identity.** -/
structure Store where
  /-- The image of a unit that exists. -/
  unit : UnitId → Option Image := fun _ => none
  identity : Identity := {}

namespace Store

def hasUnit (store : Store) (unit : UnitId) : Bool :=
  (store.unit unit).isSome

/-- The units that answer requests, in ascending order. -/
def units (store : Store) : List UnitId :=
  Identity.allIds.filter store.hasUnit

/-- A store in which one unit is changed; a unit that did not exist begins blank. -/
def modify (store : Store) (unit : UnitId) (change : Image → Image) : Store :=
  let changed := change ((store.unit unit).getD {})
  { store with unit := fun other => if other = unit then some changed else store.unit other }

def addUnit (store : Store) (unit : UnitId) : Store :=
  store.modify unit id

def setBit (store : Store) (unit : UnitId) (table : BitTable) (cell : Cell Bool) : Store :=
  store.modify unit fun image => image.setBit table cell

def setWord (store : Store) (unit : UnitId) (table : WordTable) (cell : Cell UInt16) : Store :=
  store.modify unit fun image => image.setWord table cell

def readBits (store : Store) (unit : UnitId) (table : BitTable) (start count : UInt16) :
    Option (List Bool) :=
  (store.unit unit).map fun image => Image.read (image.bits table) start count.toNat

def readWords (store : Store) (unit : UnitId) (table : WordTable) (start count : UInt16) :
    Option (List UInt16) :=
  (store.unit unit).map fun image => Image.read (image.words table) start count.toNat

def setCoils (store : Store) (unit : UnitId) (coils : List Coil) : Store :=
  coils.foldl (fun store coil => store.setBit unit .coils coil) store

def setRegisters (store : Store) (unit : UnitId) (registers : List Register) : Store :=
  registers.foldl (fun store register => store.setWord unit .holdingRegisters register) store

end Store

end Modbus
