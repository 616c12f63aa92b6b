import Modbus.Settings.Scalar

/-!
# Numbers, dates and texts in TOML

Everything in a TOML document that is written without brackets: whole numbers in four radices,
numbers with a fraction, dates and times, and texts in four kinds of quotes.
-/

namespace Modbus.Settings.Toml

def isBlank (c : Char) : Bool :=
  c == ' ' || c == '\t'

def skipBlanks (text : List Char) : List Char :=
  text.dropWhile isBlank

/-- Whether a character may stand in a comment or a text as it is. -/
def isPrintable (c : Char) : Bool :=
  c == '\t' || (0x20 ≤ c.toNat && c.toNat != 0x7F)

/-! ## Numbers -/

/-- Digits in a radix without the underscores between them. -/
def digits? (radix : Nat) : List Char → Option (List Char)
  | [] => none
  | [c] => if Scalar.isDigit radix c then some [c] else none
  | c :: '_' :: rest =>
    if Scalar.isDigit radix c then (digits? radix rest).map (c :: ·) else none
  | c :: rest => if Scalar.isDigit radix c then (digits? radix rest).map (c :: ·) else none

/-- Decimal digits without a zero in front of others. -/
def wholeDigits? (text : List Char) : Option (List Char) :=
  match digits? 10 text with
  | some ('0' :: _ :: _) => none
  | digits => digits

/-- A whole number that fits sixty-four bits with a sign. -/
def inRange? (value : Int) : Option Int :=
  if Scalar.fitsSigned value then some value else none

def radixInt? (radix : Nat) (text : List Char) : Option Int :=
  (digits? radix text).bind fun digits => inRange? (Int.ofNat (Scalar.ofDigits radix digits))

/-- **A whole number.** -/
def int? : List Char → Option Int
  | '0' :: 'x' :: rest => radixInt? 16 rest
  | '0' :: 'o' :: rest => radixInt? 8 rest
  | '0' :: 'b' :: rest => radixInt? 2 rest
  | text =>
    let (sign, unsigned) := Scalar.splitSign text
    (wholeDigits? unsigned).bind fun digits =>
      let value := Int.ofNat (Scalar.ofDigits 10 digits)
      inRange? (if sign = some '-' then -value else value)

def isExponent (text : List Char) : Bool :=
  (digits? 10 (Scalar.splitSign text).2).isSome

/-- **A number that is not whole**: with a fraction, an exponent, or one of the special names. -/
def isFloat (text : List Char) : Bool :=
  let (_, unsigned) := Scalar.splitSign text
  if unsigned == ['i', 'n', 'f'] || unsigned == ['n', 'a', 'n'] then true
  else
    let isMark (c : Char) : Bool := c == 'e' || c == 'E'
    let mantissa := unsigned.takeWhile fun c => !isMark c
    let exponent := unsigned.dropWhile fun c => !isMark c
    let whole := mantissa.takeWhile (· != '.')
    let fraction := mantissa.dropWhile (· != '.')
    (wholeDigits? whole).isSome
      && (fraction.isEmpty || (digits? 10 (fraction.drop 1)).isSome)
      && (exponent.isEmpty || isExponent (exponent.drop 1))
      && !(fraction.isEmpty && exponent.isEmpty)

/-! ## Dates -/

def fixed? (count : Nat) (text : List Char) : Option Nat :=
  if text.length = count then Scalar.nat? 10 text else none

def daysIn (year month : Nat) : Nat :=
  if month = 2 then
    if year % 4 = 0 ∧ (year % 100 ≠ 0 ∨ year % 400 = 0) then 29 else 28
  else if month = 4 ∨ month = 6 ∨ month = 9 ∨ month = 11 then 30
  else 31

def isDate : List Char → Bool
  | a :: b :: c :: d :: '-' :: e :: f :: '-' :: g :: h :: [] =>
    match fixed? 4 [a, b, c, d], fixed? 2 [e, f], fixed? 2 [g, h] with
    | some year, some month, some day =>
      1 ≤ month && month ≤ 12 && 1 ≤ day && day ≤ daysIn year month
    | _, _, _ => false
  | _ => false

def isClock (text : List Char) : Bool :=
  match text with
  | a :: b :: ':' :: c :: d :: [] =>
    (fixed? 2 [a, b]).any (· < 24) && (fixed? 2 [c, d]).any (· < 60)
  | _ => false

def isTime (text : List Char) : Bool :=
  match text.drop 5 with
  | ':' :: a :: b :: fraction =>
    isClock (text.take 5) && (fixed? 2 [a, b]).any (· ≤ 60)
      && (fraction.isEmpty
        || (fraction.head? == some '.' && (Scalar.nat? 10 (fraction.drop 1)).isSome))
  | _ => false

/-- A time of day, perhaps with its distance from the time of reference. -/
def isZonedTime (text : List Char) : Bool :=
  let isZone (c : Char) : Bool := c == '+' || c == '-' || c == 'Z' || c == 'z'
  isTime (text.takeWhile fun c => !isZone c)
    && match text.dropWhile fun c => !isZone c with
      | [] => true
      | ['Z'] => true
      | ['z'] => true
      | _ :: rest => isClock rest

/-- **A date, a time, or both.** -/
def isDateTime (text : List Char) : Bool :=
  isDate text || isTime text
    || (isDate (text.take 10)
      && match text.drop 10 with
        | mark :: time => (mark == 'T' || mark == 't' || mark == ' ') && isZonedTime time
        | [] => false)

/-- The characters that numbers, dates and names of values are made of. -/
def isLiteral (c : Char) : Bool :=
  c.isAlphanum || c == '+' || c == '-' || c == '_' || c == '.' || c == ':'

/-- What is written without quotes or brackets, and what follows it; a date may be followed by one
blank and a time. -/
def splitLiteral (text : List Char) : List Char × List Char :=
  let first := text.takeWhile isLiteral
  match text.dropWhile isLiteral with
  | ' ' :: c :: rest =>
    if isDate first && Scalar.isDecimalDigit c then
      (first ++ ' ' :: (c :: rest).takeWhile isLiteral, (c :: rest).dropWhile isLiteral)
    else (first, ' ' :: c :: rest)
  | rest => (first, rest)

/-- **The value of a literal.** -/
def literal? (text : List Char) : Option Value :=
  if text == "true".toList then some (.bool true)
  else if text == "false".toList then some (.bool false)
  else
    match int? text with
    | some value => some (.int value)
    | none =>
      if isFloat text || isDateTime text then some (.other (String.ofList text)) else none

/-! ## Texts -/

/-- The character that a single letter stands for after a backslash. -/
def escaped? : Char → Option Char
  | '"' => some '"'
  | '\\' => some '\\'
  | 'b' => some '\x08'
  | 'f' => some '\x0c'
  | 'n' => some '\n'
  | 'r' => some '\r'
  | 't' => some '\t'
  | _ => none

/-- The character written after a backslash, and what follows. -/
def escape? : List Char → Option (Char × List Char)
  | 'u' :: rest => (Scalar.codePoint? (rest.take 4)).bind fun c =>
      if (rest.take 4).length = 4 then some (c, rest.drop 4) else none
  | 'U' :: rest => (Scalar.codePoint? (rest.take 8)).bind fun c =>
      if (rest.take 8).length = 8 then some (c, rest.drop 8) else none
  | letter :: rest => (escaped? letter).map fun c => (c, rest)
  | [] => none

/-- A text on one line, after its opening quote; a text in double quotes has escapes. -/
def lineText (fuel : Nat) (quote : Char) (text : List Char) : Option (List Char × List Char) :=
  match fuel with
  | 0 => none
  | fuel + 1 =>
    match text with
    | [] => none
    | c :: rest =>
      if c = quote then some ([], rest)
      else if c = '\\' ∧ quote = '"' then
        match escape? rest with
        | some (character, rest) =>
          (lineText fuel quote rest).map fun (text, rest) => (character :: text, rest)
        | none => none
      else if isPrintable c then
        (lineText fuel quote rest).map fun (text, rest) => (c :: text, rest)
      else none

/-- What follows a backslash at the end of a line: everything up to the next character that is not
blank. -/
def skipLineEnd? (text : List Char) : Option (List Char) :=
  match skipBlanks text with
  | '\n' :: rest => some (rest.dropWhile fun c => isBlank c || c == '\n' || c == '\r')
  | '\r' :: '\n' :: rest => some (rest.dropWhile fun c => isBlank c || c == '\n' || c == '\r')
  | _ => none

/-- A text over several lines, after its three opening quotes.  Up to two quotes may stand right
before the three that close it. -/
def blockText (fuel : Nat) (quote : Char) (text : List Char) : Option (List Char × List Char) :=
  match fuel with
  | 0 => none
  | fuel + 1 =>
    let closing := text.takeWhile (· == quote)
    if 3 ≤ closing.length then
      if closing.length ≤ 5 then
        some (closing.drop 3, text.dropWhile (· == quote))
      else none
    else
      let further (c : Char) (rest : List Char) : Option (List Char × List Char) :=
        (blockText fuel quote rest).map fun (text, rest) => (c :: text, rest)
      match text with
      | [] => none
      | '\r' :: '\n' :: rest => further '\n' rest
      | '\\' :: rest =>
        if quote = '"' then
          match skipLineEnd? rest with
          | some rest => blockText fuel quote rest
          | none =>
            match escape? rest with
            | some (character, rest) => further character rest
            | none => none
        else further '\\' rest
      | c :: rest => if isPrintable c || c == '\n' then further c rest else none

/-- The newline right after three opening quotes, left out. -/
def skipNewline : List Char → List Char
  | '\n' :: rest => rest
  | '\r' :: '\n' :: rest => rest
  | rest => rest

/-- **A text of any kind**, beginning with its quotes, and what follows it. -/
def text? (text : List Char) : Option (String × List Char) :=
  let fuel := text.length + 1
  let read := match text with
    | '"' :: '"' :: '"' :: rest => blockText fuel '"' (skipNewline rest)
    | '\'' :: '\'' :: '\'' :: rest => blockText fuel '\'' (skipNewline rest)
    | '"' :: rest => lineText fuel '"' rest
    | '\'' :: rest => lineText fuel '\'' rest
    | _ => none
  read.map fun (text, rest) => (String.ofList text, rest)

end Modbus.Settings.Toml
