import Modbus.Bytes

/-!
# Bits in bytes

Coils and discrete inputs travel eight to a byte, the first in the lowest bit.  `Bits.pack` fills
bytes from a list of bits and leaves the unused high bits of the last byte clear; `Bits.unpack`
takes the first `count` bits out again, and a bit beyond the last byte is off.
-/

namespace Modbus.Bits

/-- The byte whose low bits are the given ones, first bit lowest. -/
def packByte : List Bool → UInt8
  | [] => 0
  | bit :: rest => (if bit then 1 else 0) + 2 * packByte rest

/-- **Eight bits to a byte**, first bit lowest. -/
def pack : List Bool → Bytes
  | [] => []
  | bit :: rest => packByte (bit :: rest.take 7) :: pack (rest.drop 7)
termination_by bits => bits.length
decreasing_by simp only [List.length_drop, List.length_cons]; omega

/-- The bit at `index`, counted from the lowest bit of the first byte. -/
def bit (bytes : Bytes) (index : Nat) : Bool :=
  match bytes[index / 8]? with
  | some byte => byte.toNat.testBit (index % 8)
  | none => false

/-- **The first `count` bits.** -/
def unpack (bytes : Bytes) (count : Nat) : List Bool :=
  (List.range count).map (bit bytes)

def bytesFor (count : Nat) : Nat :=
  (count + 7) / 8

@[simp] theorem length_unpack (bytes : Bytes) (count : Nat) :
    (unpack bytes count).length = count := by
  simp [unpack]

theorem length_pack (bits : List Bool) : (pack bits).length = bytesFor bits.length := by
  fun_induction pack bits with
  | case1 => rfl
  | case2 bit rest ih =>
    simp only [List.length_cons, ih, bytesFor, List.length_drop]
    omega

end Modbus.Bits
