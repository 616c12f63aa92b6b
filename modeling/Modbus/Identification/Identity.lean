import Modbus.Function
import Modbus.Identification.Category

/-!
# The table of identification objects

`Identity` is what a device says about itself: a partial map from object ids to their bytes.  Ids
between the standard and the vendor's objects are reserved and never stored, and no object is
larger than one reply can carry (`Identity.set`).

A category access is answered in pages.  `Identity.entries` lists the stored objects between two
ids in ascending order, `Object.fitting` takes from a list as many as fit, and `Identity.page`
puts the two together: which object to begin with, what to return, and where the next page begins.
-/

namespace Modbus

/-- One identification object. -/
structure Object where
  id : UInt8
  data : Bytes
deriving DecidableEq, Repr

namespace Object

/-- The bytes an object takes in a reply: its id, its length and its data. -/
def size (object : Object) : Nat :=
  2 + object.data.length

/-- Ids that are neither a standard nor a vendor's object. -/
def isReserved (id : UInt8) : Bool :=
  0x07 ≤ id && id ≤ 0x7F

def isExtended (id : UInt8) : Bool :=
  0x80 ≤ id

/-- **As many objects as fit into `room` bytes**, and the id of the first that does not. -/
def fitting (room : Nat) : List Object → List Object × Option UInt8
  | [] => ([], none)
  | object :: rest =>
    if object.size ≤ room then
      let (taken, next) := fitting (room - object.size) rest
      (object :: taken, next)
    else ([], some object.id)

end Object

/-- Bytes of an identification reply before its first object. -/
def identificationHeader : Nat := 7

/-- **What a device says about itself.** -/
structure Identity where
  /-- The bytes of a stored object. -/
  object : UInt8 → Option Bytes := fun _ => none

/-- One page of an identification, as a device sends it. -/
structure IdentificationReply where
  category : Category
  /-- The highest category the device supports; the top bit promises access to single objects. -/
  conformity : UInt8
  moreFollows : Bool
  /-- Where the next page begins. -/
  nextObject : UInt8
  objects : List Object
deriving DecidableEq, Repr

namespace Identity

def empty : Identity := {}

/-- **Storing an object.**  A reserved id or an object too large for a reply is refused. -/
def set (identity : Identity) (id : UInt8) (data : Bytes) : Result Identity :=
  if Object.isReserved id then .error (.outOfRange (.reservedObject id))
  else if maxObjectSize < data.length then
    .error (.outOfRange (.oversizedObject id data.length))
  else .ok { object := fun other => if other = id then some data else identity.object other }

/-- The identity that has the given objects, stored in order. -/
def ofObjects (objects : List Object) : Result Identity :=
  objects.foldlM (fun identity object => identity.set object.id object.data) empty

def basic (vendor product revision : String) : Result Identity :=
  ofObjects [⟨0x00, vendor.toUTF8.toList⟩, ⟨0x01, product.toUTF8.toList⟩,
    ⟨0x02, revision.toUTF8.toList⟩]

def allIds : List UInt8 :=
  (List.range 256).map UInt8.ofNat

def object? (identity : Identity) (id : UInt8) : Option Object :=
  (identity.object id).map (Object.mk id)

/-- **The stored objects from `first` to `last`**, in ascending order of their ids. -/
def entries (identity : Identity) (first last : UInt8) : List Object :=
  (allIds.filter fun id => first ≤ id && id ≤ last).filterMap identity.object?

def objects (identity : Identity) : List Object :=
  identity.entries 0x00 0xFF

/-- The highest category that has a stored object; the mandatory one if there is none. -/
def level (identity : Identity) : Category :=
  if identity.objects.any fun object => Object.isExtended object.id then .extended
  else if identity.objects.any fun object => 0x03 ≤ object.id && object.id ≤ 0x06 then .regular
  else .basic

/-- The conformity byte: the level, with the promise that single objects can be read. -/
def conformity (identity : Identity) : UInt8 :=
  0x80 ||| identity.level.code

/-- **Where a page begins.**  A stream that asks for an object it does not have, or that lies above
its ceiling, begins again; an access to a single object has no other place to go. -/
def start? (identity : Identity) (category : Category) (first : UInt8) : Option UInt8 :=
  match category, identity.object first with
  | .individual, none => none
  | .individual, some _ => some first
  | _, some _ => some (if first ≤ category.lastObject first then first else 0x00)
  | _, none => some 0x00

/-- **One page of an identification** in a PDU of at most `maxPdu` bytes.  The page ends before the
first object that does not fit, which the next page begins with; an object that fits no page is a
failure of the device. -/
def page (identity : Identity) (category : Category) (first : UInt8) (maxPdu : Nat) :
    Except ExceptionCode IdentificationReply :=
  match identity.start? category first with
  | none => .error .illegalDataAddress
  | some start =>
    let stored := (identity.entries start (category.lastObject first)).filter fun object =>
      !Object.isReserved object.id
    match Object.fitting (maxPdu - identificationHeader) stored with
    | ([], some _) => .error .slaveDeviceFailure
    | (objects, next) =>
      .ok {
        category
        conformity := identity.conformity
        moreFollows := next.isSome
        nextObject := next.getD 0x00
        objects }

end Identity

end Modbus
