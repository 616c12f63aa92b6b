import Modbus.Settings.Value

/-!
# Numbers and characters in settings

What the formats of settings have in common: digits in a radix, whole numbers, the shape of numbers
with a fraction, and characters written as code points.
-/

namespace Modbus.Settings.Scalar

/-- The value of a digit in any radix up to sixteen. -/
def digit? (c : Char) : Option Nat :=
  if '0' ≤ c ∧ c ≤ '9' then some (c.toNat - '0'.toNat)
  else if 'a' ≤ c ∧ c ≤ 'f' then some (c.toNat - 'a'.toNat + 10)
  else if 'A' ≤ c ∧ c ≤ 'F' then some (c.toNat - 'A'.toNat + 10)
  else none

def isDigit (radix : Nat) (c : Char) : Bool :=
  (digit? c).any (· < radix)

def isDecimalDigit : Char → Bool := isDigit 10

def ofDigits (radix : Nat) (digits : List Char) : Nat :=
  digits.foldl (fun value c => value * radix + (digit? c).getD 0) 0

/-- A number of one or more digits in a radix, and nothing else. -/
def nat? (radix : Nat) (text : List Char) : Option Nat :=
  if !text.isEmpty && text.all (isDigit radix) then some (ofDigits radix text) else none

/-- The sign of a number, if it has one, and the rest. -/
def splitSign : List Char → Option Char × List Char
  | '+' :: rest => (some '+', rest)
  | '-' :: rest => (some '-', rest)
  | rest => (none, rest)

def int? (text : List Char) : Option Int :=
  let (sign, digits) := splitSign text
  (nat? 10 digits).map fun value => if sign = some '-' then -Int.ofNat value else Int.ofNat value

/-- Whether a number fits sixty-four bits, one of them for its sign. -/
def fitsSigned (value : Int) : Bool :=
  -Int.ofNat UInt64.size ≤ 2 * value && 2 * value < Int.ofNat UInt64.size

/-- Whether a number that is not negative fits sixty-four bits. -/
def fitsUnsigned (value : Int) : Bool :=
  0 ≤ value && value < Int.ofNat UInt64.size

/-- The exponent of a number: nothing, or a mark, perhaps a sign, and digits. -/
def isExponent : List Char → Bool
  | [] => true
  | mark :: rest =>
    (mark == 'e' || mark == 'E') && (nat? 10 (splitSign rest).2).isSome

/-- **The shape of a decimal number**: perhaps a sign, digits with at most one point among or
around them, perhaps an exponent. -/
def isDecimal (text : List Char) : Bool :=
  let (_, unsigned) := splitSign text
  let whole := unsigned.takeWhile isDecimalDigit
  match unsigned.dropWhile isDecimalDigit with
  | '.' :: rest =>
    !(whole.isEmpty && (rest.takeWhile isDecimalDigit).isEmpty)
      && isExponent (rest.dropWhile isDecimalDigit)
  | rest => !whole.isEmpty && isExponent rest

/-- The character whose code point some hexadecimal digits give, unless it is no character. -/
def codePoint? (digits : List Char) : Option Char :=
  match nat? 16 digits with
  | some code => if code.isValidChar then some (Char.ofNat code) else none
  | none => none

end Modbus.Settings.Scalar
