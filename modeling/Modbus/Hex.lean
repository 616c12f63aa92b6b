import Modbus.Bytes

/-!
# Hexadecimal text

Two uses of the sixteen digits.  In a line frame every byte is written as two upper-case digit
characters (`Hex.encode`) and read back in either case (`Hex.decode`), with the two ways a digit
text can be wrong named by `Hex.Fault`.  In messages a byte or a word is shown with a fixed number
of upper-case digits (`Hex.byte`, `Hex.word`).
-/

namespace Modbus.Hex

/-! ## Digits -/

/-- The character code of an upper-case digit; only values below sixteen are digits. -/
def digit (value : Nat) : UInt8 :=
  if value < 10 then UInt8.ofNat (48 + value) else UInt8.ofNat (55 + value)

def value? (character : UInt8) : Option Nat :=
  let code := character.toNat
  if 48 ≤ code ∧ code ≤ 57 then some (code - 48)
  else if 65 ≤ code ∧ code ≤ 70 then some (code - 55)
  else if 97 ≤ code ∧ code ≤ 102 then some (code - 87)
  else none

theorem value?_digit {value : Nat} (h : value < 16) : value? (digit value) = some value := by
  have table : ∀ v : Fin 16, value? (digit v.val) = some v.val := by decide
  exact table ⟨value, h⟩

/-! ## Bytes as digit pairs -/

def pair (byte : UInt8) : Bytes :=
  [digit (byte.toNat / 16), digit (byte.toNat % 16)]

def encode (bytes : Bytes) : Bytes :=
  bytes.flatMap pair

/-- What can be wrong with a text of digits. -/
inductive Fault where
  /-- The digits do not pair up. -/
  | oddLength
  /-- The character at `position` is no digit. -/
  | invalidCharacter (character : UInt8) (position : Nat)
deriving DecidableEq, Repr

/-- Reads digit pairs from `position` on, each pair high digit first. -/
def decodeFrom (position : Nat) : Bytes → Except Fault Bytes
  | [] => .ok []
  | [_] => .error .oddLength
  | first :: second :: rest =>
    match value? first, value? second with
    | none, _ => .error (.invalidCharacter first position)
    | some _, none => .error (.invalidCharacter second (position + 1))
    | some x, some y => (decodeFrom (position + 2) rest).map (UInt8.ofNat (16 * x + y) :: ·)

/-- **Reading digits.**  An odd number of characters is reported before any wrong character. -/
def decode (text : Bytes) : Except Fault Bytes :=
  if text.length % 2 = 1 then .error .oddLength else decodeFrom 0 text

theorem decodeFrom_encode (position : Nat) (bytes : Bytes) :
    decodeFrom position (encode bytes) = .ok bytes := by
  induction bytes generalizing position with
  | nil => rfl
  | cons byte rest ih =>
    have bound := byte.toNat_lt
    have tail := ih (position + 2)
    rw [encode] at tail
    simp only [encode, List.flatMap_cons, pair, List.cons_append, List.nil_append, decodeFrom,
      value?_digit (show byte.toNat / 16 < 16 by omega),
      value?_digit (show byte.toNat % 16 < 16 by omega), tail]
    simp [Except.map, Nat.div_add_mod]

@[simp] theorem length_encode (bytes : Bytes) : (encode bytes).length = 2 * bytes.length := by
  induction bytes with
  | nil => rfl
  | cons byte rest ih =>
    rw [encode] at ih
    simp only [encode, List.flatMap_cons, List.length_append, pair, ih, List.length_cons,
      List.length_nil]
    omega

/-- **Digits survive the line.**  What `encode` writes, `decode` reads back. -/
theorem decode_encode (bytes : Bytes) : decode (encode bytes) = .ok bytes := by
  have even : ¬ (encode bytes).length % 2 = 1 := by rw [length_encode]; omega
  rw [decode, if_neg even, decodeFrom_encode]

/-! ## Numbers in messages -/

def digitChar (value : Nat) : Char :=
  Char.ofNat (digit value).toNat

def byte (value : UInt8) : String :=
  String.ofList [digitChar (value.toNat / 16), digitChar (value.toNat % 16)]

def word (value : UInt16) : String :=
  byte (Word.high value) ++ byte (Word.low value)

/-- A list of bytes in brackets, each as two digits: `[00, 05]`. -/
def byteList (bytes : Bytes) : String :=
  "[" ++ ", ".intercalate (bytes.map byte) ++ "]"

end Modbus.Hex
