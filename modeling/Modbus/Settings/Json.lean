import Modbus.Settings.Scalar

/-!
# Settings in JSON

The strict form of the format: one value with blanks around it and nothing else, no comments, no
commas at the end, texts without raw control characters.  A whole number that fits sixty-four bits
is a whole number; any other number is kept as written.  Of several entries with one name the last
one counts.
-/

namespace Modbus.Settings.Json

def isBlank (c : Char) : Bool :=
  c == ' ' || c == '\t' || c == '\n' || c == '\r'

def skipBlanks (text : List Char) : List Char :=
  text.dropWhile isBlank

/-! ## Texts -/

/-- The character that a single letter stands for after a backslash. -/
def escaped? : Char → Option Char
  | '"' => some '"'
  | '\\' => some '\\'
  | '/' => some '/'
  | 'b' => some '\x08'
  | 'f' => some '\x0c'
  | 'n' => some '\n'
  | 'r' => some '\r'
  | 't' => some '\t'
  | _ => none

/-- The character of two code units, a high surrogate and a low one. -/
def surrogatePair? (high low : Nat) : Option Char :=
  if 0xD800 ≤ high ∧ high < 0xDC00 ∧ 0xDC00 ≤ low ∧ low < 0xE000 then
    some (Char.ofNat (0x10000 + (high - 0xD800) * 0x400 + (low - 0xDC00)))
  else none

/-- A text after its opening quote, and what follows its closing one. -/
def quoted : List Char → Option (List Char × List Char)
  | '"' :: rest => some ([], rest)
  | '\\' :: 'u' :: a :: b :: c :: d :: rest =>
    match Scalar.codePoint? [a, b, c, d], rest with
    | some character, rest => (quoted rest).map fun (text, rest) => (character :: text, rest)
    | none, '\\' :: 'u' :: e :: f :: g :: h :: rest =>
      match Scalar.nat? 16 [a, b, c, d], Scalar.nat? 16 [e, f, g, h] with
      | some high, some low =>
        match surrogatePair? high low with
        | some character => (quoted rest).map fun (text, rest) => (character :: text, rest)
        | none => none
      | _, _ => none
    | none, _ => none
  | '\\' :: letter :: rest =>
    match escaped? letter with
    | some character => (quoted rest).map fun (text, rest) => (character :: text, rest)
    | none => none
  | c :: rest =>
    if c.toNat < 0x20 then none
    else (quoted rest).map fun (text, rest) => (c :: text, rest)
  | [] => none

/-! ## Numbers -/

def isWhole : List Char → Bool
  | ['0'] => true
  | '0' :: _ => false
  | digits => (Scalar.nat? 10 digits).isSome

def isNumeral (c : Char) : Bool :=
  Scalar.isDecimalDigit c || c == '+' || c == '-' || c == '.' || c == 'e' || c == 'E'

/-- A fraction and an exponent, either of which may be missing. -/
def isTail : List Char → Bool
  | '.' :: rest =>
    !(rest.takeWhile Scalar.isDecimalDigit).isEmpty
      && Scalar.isExponent (rest.dropWhile Scalar.isDecimalDigit)
  | rest => Scalar.isExponent rest

/-- **A number.**  Minus zero is not a whole number. -/
def number? (text : List Char) : Option Value :=
  let negative := text.head? == some '-'
  let unsigned := if negative then text.drop 1 else text
  let whole := unsigned.takeWhile Scalar.isDecimalDigit
  let tail := unsigned.dropWhile Scalar.isDecimalDigit
  if isWhole whole && isTail tail then
    let value := Int.ofNat (Scalar.ofDigits 10 whole)
    if tail.isEmpty && !negative && Scalar.fitsUnsigned value then some (.int value)
    else if tail.isEmpty && negative && value != 0 && Scalar.fitsSigned (-value) then
      some (.int (-value))
    else some (.other (String.ofList text))
  else none

/-! ## Values -/

def maxDepth : Nat := 127

mutual

/-- A value, and what follows it.  Each value and each further item takes from the fuel. -/
def value (fuel depth : Nat) (text : List Char) : Option (Value × List Char) :=
  match fuel with
  | 0 => none
  | fuel + 1 =>
    match skipBlanks text with
    | 'n' :: 'u' :: 'l' :: 'l' :: rest => some (.null, rest)
    | 't' :: 'r' :: 'u' :: 'e' :: rest => some (.bool true, rest)
    | 'f' :: 'a' :: 'l' :: 's' :: 'e' :: rest => some (.bool false, rest)
    | '"' :: rest => (quoted rest).map fun (text, rest) => (.text (String.ofList text), rest)
    | '[' :: rest =>
      if depth = 0 then none
      else
        match skipBlanks rest with
        | ']' :: rest => some (.list [], rest)
        | rest => (items fuel (depth - 1) rest).map fun (items, rest) => (.list items, rest)
    | '{' :: rest =>
      if depth = 0 then none
      else
        match skipBlanks rest with
        | '}' :: rest => some (.table [], rest)
        | rest => (entries fuel (depth - 1) rest).map fun (entries, rest) =>
            (.table (Table.ofEntries entries), rest)
    | text =>
      (number? (text.takeWhile isNumeral)).map fun number => (number, text.dropWhile isNumeral)

def items (fuel depth : Nat) (text : List Char) : Option (List Value × List Char) :=
  match fuel with
  | 0 => none
  | fuel + 1 =>
    match value fuel depth text with
    | none => none
    | some (item, rest) =>
      match skipBlanks rest with
      | ',' :: rest => (items fuel depth rest).map fun (items, rest) => (item :: items, rest)
      | ']' :: rest => some ([item], rest)
      | _ => none

/-- The entries of a table up to its closing brace. -/
def entries (fuel depth : Nat) (text : List Char) :
    Option (List (String × Value) × List Char) :=
  match fuel with
  | 0 => none
  | fuel + 1 =>
    match skipBlanks text with
    | '"' :: rest =>
      match quoted rest with
      | none => none
      | some (name, rest) =>
        match skipBlanks rest with
        | ':' :: rest =>
          match value fuel depth rest with
          | none => none
          | some (item, rest) =>
            let entry := (String.ofList name, item)
            match skipBlanks rest with
            | ',' :: rest =>
              (entries fuel depth rest).map fun (entries, rest) => (entry :: entries, rest)
            | '}' :: rest => some ([entry], rest)
            | _ => none
        | _ => none
    | _ => none

end

/-- **Reading a source.** -/
def read? (text : String) : Option Value :=
  let characters := text.toList
  match value (2 * characters.length + 2) maxDepth characters with
  | some (value, rest) => if (skipBlanks rest).isEmpty then some value else none
  | none => none

end Modbus.Settings.Json
