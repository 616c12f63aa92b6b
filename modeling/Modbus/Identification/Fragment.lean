import Modbus.Text.Utf8
import Modbus.Identification.Identity

/-!
# Received identification

A client receives an identification in fragments (`Fragment`) and folds them into one record
(`Identification.merge`), where the standard objects are text and the vendor's own are bytes.  A
proxy passes a fragment on as the reply it came in (`Fragment.toReply`).
-/

namespace Modbus

/-- **One received page** of an identification. -/
structure Fragment where
  /-- The device grants access to single objects. -/
  individualAccess : Bool := false
  moreFollows : Bool := false
  /-- Where the next page begins. -/
  nextObject : UInt8 := 0
  objects : List Object := []
deriving DecidableEq, Repr

namespace Fragment

def object? (fragment : Fragment) (id : UInt8) : Option Bytes :=
  (fragment.objects.find? fun object => object.id == id).map Object.data

/-- The conformity byte that a fragment stands for when it answers an access of `category`. -/
def conformity (fragment : Fragment) (category : Category) : UInt8 :=
  (if fragment.individualAccess then 0x80 else 0x00) ||| category.code

def toReply (fragment : Fragment) (category : Category) : IdentificationReply where
  category := category
  conformity := fragment.conformity category
  moreFollows := fragment.moreFollows
  nextObject := fragment.nextObject
  objects := fragment.objects

end Fragment

/-- **A device's identification**, standard objects as text. -/
structure Identification where
  vendorName : Option String := none
  productCode : Option String := none
  revision : Option String := none
  vendorUrl : Option String := none
  productName : Option String := none
  modelName : Option String := none
  applicationName : Option String := none
  /-- The vendor's own objects, in the order they came. -/
  extended : List Object := []
  individualAccess : Bool := false
deriving DecidableEq, Repr

namespace Identification

/-- One more object.  A standard object replaces the text it had; a reserved one is dropped. -/
def add (identification : Identification) (object : Object) : Identification :=
  let text := some (Text.lossy object.data)
  match object.id with
  | 0x00 => { identification with vendorName := text }
  | 0x01 => { identification with productCode := text }
  | 0x02 => { identification with revision := text }
  | 0x03 => { identification with vendorUrl := text }
  | 0x04 => { identification with productName := text }
  | 0x05 => { identification with modelName := text }
  | 0x06 => { identification with applicationName := text }
  | id =>
    if Object.isExtended id then
      { identification with extended := identification.extended ++ [object] }
    else identification

/-- **One more fragment.** -/
def merge (identification : Identification) (fragment : Fragment) : Identification :=
  fragment.objects.foldl add
    { identification with
      individualAccess := identification.individualAccess || fragment.individualAccess }

end Identification

end Modbus
