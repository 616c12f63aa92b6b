import Modbus.Bytes

/-!
# Frame checksums

Two checks guard the serial framings.  The binary framing ends with a cyclic redundancy check:
`Checksum.crc` divides the frame, bit by bit and low bit first, by the polynomial `0xA001` from an
all-ones start, and `crcTrailer` sends the remainder low byte first.  The character framing ends
with `Checksum.lrc`, the byte that brings the sum of the frame to zero.

`crcBit` is the only place where the polynomial appears; a byte is eight of these steps
(`crcByte`) and a frame is a fold over its bytes, so every law about the check is a law about one
shift carried along two recursions.
-/

namespace Modbus.Checksum

/-! ## The cyclic redundancy check -/

/-- **One shift of the remainder.**  The low bit leaves, and if it was set the polynomial is
subtracted, which is exclusive or. -/
def crcBit (remainder : UInt16) : UInt16 :=
  if remainder &&& 1 = 1 then (remainder >>> 1) ^^^ 0xA001 else remainder >>> 1

/-- `count` shifts of the remainder. -/
def crcBits : Nat → UInt16 → UInt16
  | 0, remainder => remainder
  | count + 1, remainder => crcBits count (crcBit remainder)

/-- The remainder after one more byte. -/
def crcByte (remainder : UInt16) (byte : UInt8) : UInt16 :=
  crcBits 8 (remainder ^^^ byte.toUInt16)

/-- The remainder of a whole frame. -/
def crc (bytes : Bytes) : UInt16 :=
  bytes.foldl crcByte 0xFFFF

/-- The remainder as it is sent: low byte, then high byte. -/
def crcTrailer (bytes : Bytes) : Bytes :=
  [Word.low (crc bytes), Word.high (crc bytes)]

/-- Whether the last two bytes of a frame are the trailer of what precedes them. -/
def crcMatches (frame : Bytes) : Bool :=
  2 ≤ frame.length &&
    crcTrailer (frame.take (frame.length - 2)) == frame.drop (frame.length - 2)

@[simp] theorem length_crcTrailer (bytes : Bytes) : (crcTrailer bytes).length = 2 := rfl

/-- A frame that was closed with its own trailer passes. -/
theorem crcMatches_append_crcTrailer (bytes : Bytes) :
    crcMatches (bytes ++ crcTrailer bytes) = true := by
  simp [crcMatches]

/-! ## The longitudinal redundancy check -/

/-- The sum of the bytes, carries dropped. -/
def sum (bytes : Bytes) : UInt8 :=
  bytes.foldl (· + ·) 0

/-- **The byte that completes the sum to zero.** -/
def lrc (bytes : Bytes) : UInt8 :=
  (sum bytes ^^^ 0xFF) + 1

/-- Whether the last byte of a frame completes the sum of what precedes it. -/
def lrcMatches (frame : Bytes) : Bool :=
  match frame.getLast? with
  | some check => lrc frame.dropLast == check
  | none => false

/-- A frame that was closed with its own check byte passes. -/
theorem lrcMatches_append_lrc (bytes : Bytes) : lrcMatches (bytes ++ [lrc bytes]) = true := by
  simp [lrcMatches]

end Modbus.Checksum
