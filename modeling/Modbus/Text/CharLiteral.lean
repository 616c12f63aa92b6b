import Modbus.Bytes

/-!
# Characters in messages

A message that complains about a byte shows it as a character literal in single quotes.
`CharLiteral.quote` writes that literal: the usual escapes for the control characters that have
one, an escape by code point for what cannot be seen, and the character itself otherwise.  Bytes
are taken as the first 256 code points, so the characters concerned are those of Latin-1.
-/

namespace Modbus.CharLiteral

/-- The lower-case digits of a number in base sixteen, without leading zeros. -/
def lowerHex (value : Nat) : String :=
  String.ofList (Nat.toDigits 16 value)

/-- Characters that leave no mark on paper: the two control ranges, the space that does not break
and the hyphen that shows only at a line's end. -/
def isInvisible (code : Nat) : Bool :=
  code < 0x20 || (0x7F ≤ code && code ≤ 0xA0) || code == 0xAD

def body (byte : UInt8) : String :=
  match byte with
  | 0x00 => "\\0"
  | 0x09 => "\\t"
  | 0x0A => "\\n"
  | 0x0D => "\\r"
  | 0x27 => "\\'"
  | 0x5C => "\\\\"
  | _ =>
    if isInvisible byte.toNat then "\\u\x7b" ++ lowerHex byte.toNat ++ "\x7d"
    else String.singleton (Char.ofNat byte.toNat)

/-- **A byte as a character literal.** -/
def quote (byte : UInt8) : String :=
  "'" ++ body byte ++ "'"

end Modbus.CharLiteral
