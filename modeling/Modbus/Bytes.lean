/-!
# Bytes, words and the cells they fill

Everything on a Modbus line is a list of bytes, and every number wider than a byte travels with
its high byte first.  This file fixes both: `Bytes` is the type of frames and of their parts, and
`Word.toBytes` / `Word.ofBytes` carry a 16-bit word to its two bytes and back.

A `Cell` is one addressed value: a coil or discrete input is a `Cell Bool`, a register a
`Cell UInt16`.  `Cell.sequence` lays a list of values out from a start address.
-/

namespace Modbus

/-- A frame, a PDU or any part of one. -/
abbrev Bytes := List UInt8

/-- The address of a unit on the line. -/
abbrev UnitId := UInt8

/-! ## Words -/

namespace Word

/-- **High byte first.**  The word whose two bytes are `high` and `low`. -/
def ofBytes (high low : UInt8) : UInt16 :=
  UInt16.ofNat (high.toNat * 256 + low.toNat)

/-- The byte that travels first. -/
def high (word : UInt16) : UInt8 :=
  UInt8.ofNat (word.toNat / 256)

/-- The byte that travels last. -/
def low (word : UInt16) : UInt8 :=
  UInt8.ofNat word.toNat

/-- Both bytes of a word in the order they travel. -/
def toBytes (word : UInt16) : Bytes :=
  [high word, low word]

/-- The bytes of several words, one word after the other. -/
def listToBytes (words : List UInt16) : Bytes :=
  words.flatMap toBytes

/-- The words that a list of bytes holds; a last odd byte holds none. -/
def listOfBytes : Bytes → List UInt16
  | high :: low :: rest => ofBytes high low :: listOfBytes rest
  | _ => []

@[simp] theorem ofBytes_high_low (word : UInt16) : ofBytes (high word) (low word) = word := by
  apply UInt16.toNat_inj.mp
  have bound := word.toNat_lt
  simp only [ofBytes, high, low, UInt8.toNat_ofNat', UInt16.toNat_ofNat']
  omega

@[simp] theorem high_ofBytes (a b : UInt8) : high (ofBytes a b) = a := by
  apply UInt8.toNat_inj.mp
  have boundA := a.toNat_lt
  have boundB := b.toNat_lt
  simp only [ofBytes, high, UInt8.toNat_ofNat', UInt16.toNat_ofNat']
  omega

@[simp] theorem low_ofBytes (a b : UInt8) : low (ofBytes a b) = b := by
  apply UInt8.toNat_inj.mp
  have boundA := a.toNat_lt
  have boundB := b.toNat_lt
  simp only [ofBytes, low, UInt8.toNat_ofNat', UInt16.toNat_ofNat']
  omega

@[simp] theorem length_toBytes (word : UInt16) : (toBytes word).length = 2 := rfl

/-- **Words survive the line.**  Reading back what `listToBytes` wrote gives the words. -/
@[simp] theorem listOfBytes_listToBytes (words : List UInt16) :
    listOfBytes (listToBytes words) = words := by
  induction words with
  | nil => rfl
  | cons word rest ih =>
    simp only [listToBytes, List.flatMap_cons, toBytes, List.cons_append, List.nil_append,
      listOfBytes, ofBytes_high_low]
    exact congrArg _ ih

end Word

/-! ## Cells -/

/-- One addressed value. -/
structure Cell (α : Type) where
  /-- Where the value lives in its table. -/
  address : UInt16
  /-- What is stored there. -/
  value : α
deriving DecidableEq, Repr

/-- A single bit that can be read and written. -/
abbrev Coil := Cell Bool

/-- A 16-bit word that can be read, and written if it is a holding register. -/
abbrev Register := Cell UInt16

namespace Cell

/-- The cells that hold `values` at consecutive addresses from `start` on; after the last address
of the space comes address zero. -/
def sequence {α : Type} (start : UInt16) : List α → List (Cell α)
  | [] => []
  | value :: rest => ⟨start, value⟩ :: sequence (start + 1) rest

@[simp] theorem length_sequence {α : Type} (start : UInt16) (values : List α) :
    (sequence start values).length = values.length := by
  induction values generalizing start with
  | nil => rfl
  | cons value rest ih => simp [sequence, ih]

@[simp] theorem map_value_sequence {α : Type} (start : UInt16) (values : List α) :
    (sequence start values).map Cell.value = values := by
  induction values generalizing start with
  | nil => rfl
  | cons value rest ih => simp [sequence, ih]

end Cell

/-- **A point of a device.**  The four tables of the data model hold bits or words, and either can
be read-only. -/
inductive Point where
  | coil (cell : Cell Bool)
  | discreteInput (cell : Cell Bool)
  | holdingRegister (cell : Cell UInt16)
  | inputRegister (cell : Cell UInt16)
deriving DecidableEq, Repr

namespace Point

/-- The address of a point, whichever table it is in. -/
def address : Point → UInt16
  | coil cell => cell.address
  | discreteInput cell => cell.address
  | holdingRegister cell => cell.address
  | inputRegister cell => cell.address

end Point

end Modbus
