import Modbus.Error

/-!
# Access categories

A device's identification is a table of objects, read by category: three categories stream the
table up to a ceiling (`Category.lastObject`), the fourth reads one object.  A category travels as
a byte and is named in text; both readings can fail, and say so with the range error that names
what was given.
-/

namespace Modbus

/-- **How much of an identification is asked for.** -/
inductive Category where
  | basic
  | regular
  | extended
  /-- One object. -/
  | individual
deriving DecidableEq, Repr

namespace Category

def code : Category → UInt8
  | basic => 0x01
  | regular => 0x02
  | extended => 0x03
  | individual => 0x04

def ofCode? (code : UInt8) : Option Category :=
  match code with
  | 0x01 => some basic
  | 0x02 => some regular
  | 0x03 => some extended
  | 0x04 => some individual
  | _ => none

@[simp] theorem ofCode?_code (category : Category) : ofCode? category.code = some category := by
  cases category <;> rfl

/-- The category behind a byte, or the error that names the byte. -/
def ofCode (code : UInt8) : Result Category :=
  match ofCode? code with
  | some category => .ok category
  | none => .error (.outOfRange (.undefinedCategory code))

def ofName (name : String) : Result Category :=
  match name.toLower with
  | "basic" => .ok basic
  | "regular" => .ok regular
  | "extended" => .ok extended
  | "individual" => .ok individual
  | other => .error (.outOfRange (.unknownCategory other))

/-- **The ceiling.**  The highest object that an access of this category can return when
`requested` is the object it starts from. -/
def lastObject (category : Category) (requested : UInt8) : UInt8 :=
  match category with
  | basic => 0x02
  | regular => 0x06
  | extended => 0xFF
  | individual => requested

end Category

end Modbus
