import Modbus.Settings.Scalar

/-!
# Plain and quoted texts in YAML

A text without quotes may stand for something else: nothing at all, a flag, a number
(`Yaml.resolve`).  A text in quotes is always a text.  Either may go on over several lines, and
then the ends of lines are folded: one becomes a blank, several become one fewer.
-/

namespace Modbus.Settings.Yaml

def isBlank (c : Char) : Bool :=
  c == ' ' || c == '\t'

def skipBlanks (text : List Char) : List Char :=
  text.dropWhile isBlank

def trimEnd (text : List Char) : List Char :=
  (text.reverse.dropWhile isBlank).reverse

/-- Whether a text is nothing but a comment, or nothing at all. -/
def isVoid (text : List Char) : Bool :=
  match skipBlanks text with
  | [] => true
  | c :: _ => c == '#'

/-- Whether a text begins with a blank or a newline, or is empty. -/
def beginsBlank : List Char → Bool
  | [] => true
  | c :: _ => isBlank c || c == '\n'

/-! ## What a plain text stands for -/

/-- Whether a text has a zero in front of other digits, which makes it no number. -/
def hasLeadingZero (text : List Char) : Bool :=
  match (Scalar.splitSign text).2 with
  | '0' :: c :: rest => (c :: rest).all Scalar.isDecimalDigit
  | _ => false

/-- **A whole number** in one of four radices. -/
def int? (text : List Char) : Option Int :=
  let (sign, unsigned) := Scalar.splitSign text
  let value? := match unsigned with
    | '0' :: 'x' :: rest => Scalar.nat? 16 rest
    | '0' :: 'o' :: rest => Scalar.nat? 8 rest
    | '0' :: 'b' :: rest => Scalar.nat? 2 rest
    | digits => if hasLeadingZero text then none else Scalar.nat? 10 digits
  value?.map fun value => if sign = some '-' then -Int.ofNat value else Int.ofNat value

def infinities : List String :=
  [".inf", ".Inf", ".INF", "+.inf", "+.Inf", "+.INF", "-.inf", "-.Inf", "-.INF", ".nan", ".NaN",
    ".NAN"]

/-- **What a plain text stands for.** -/
def resolve (text : List Char) : Value :=
  let written := String.ofList text
  if ["", "~", "null", "Null", "NULL"].contains written then .null
  else if ["true", "True", "TRUE"].contains written then .bool true
  else if ["false", "False", "FALSE"].contains written then .bool false
  else
    match int? text with
    | some value => .int value
    | none =>
      if infinities.contains written || (!hasLeadingZero text && Scalar.isDecimal text) then
        .other written
      else .text written

/-! ## Folding -/

/-- The newlines and blanks that a text begins with: how many newlines there are, and what
follows. -/
def splitBreaks : List Char → Nat × List Char
  | '\n' :: rest =>
    let (breaks, rest) := splitBreaks rest
    (breaks + 1, rest)
  | ' ' :: rest => splitBreaks rest
  | '\t' :: rest => splitBreaks rest
  | rest => (0, rest)

def folded (breaks : Nat) : List Char :=
  if breaks = 1 then [' '] else List.replicate (breaks - 1) '\n'

/-! ## Texts in quotes -/

/-- The character that a single letter stands for after a backslash. -/
def escaped? : Char → Option Char
  | '0' => some '\x00'
  | 'a' => some '\x07'
  | 'b' => some '\x08'
  | 't' => some '\t'
  | '\t' => some '\t'
  | 'n' => some '\n'
  | 'v' => some '\x0b'
  | 'f' => some '\x0c'
  | 'r' => some '\r'
  | 'e' => some '\x1b'
  | ' ' => some ' '
  | '"' => some '"'
  | '/' => some '/'
  | '\\' => some '\\'
  | 'N' => some '\u0085'
  | '_' => some '\u00a0'
  | 'L' => some '\u2028'
  | 'P' => some '\u2029'
  | _ => none

/-- How many hexadecimal digits follow a letter after a backslash. -/
def codeLength? : Char → Option Nat
  | 'x' => some 2
  | 'u' => some 4
  | 'U' => some 8
  | _ => none

/-- The character written after a backslash, and what follows. -/
def escape? : List Char → Option (Char × List Char)
  | [] => none
  | letter :: rest =>
    match codeLength? letter with
    | some length =>
      if (rest.take length).length = length then
        (Scalar.codePoint? (rest.take length)).map fun c => (c, rest.drop length)
      else none
    | none => (escaped? letter).map fun c => (c, rest)

/-- **A text in quotes**, after its opening quote, and what follows its closing one.  In double
quotes a backslash begins an escape; in single quotes a quote is written twice. -/
def quoted (fuel : Nat) (quote : Char) (text : List Char) : Option (List Char × List Char) :=
  match fuel with
  | 0 => none
  | fuel + 1 =>
    let further (before : List Char) (rest : List Char) : Option (List Char × List Char) :=
      (quoted fuel quote rest).map fun (text, rest) => (before ++ text, rest)
    match text with
    | [] => none
    | '\'' :: '\'' :: rest => if quote = '\'' then further ['\''] rest else further ['\''] ('\'' :: rest)
    | '\\' :: rest =>
      if quote = '"' then
        match rest with
        | '\n' :: rest =>
          let (breaks, rest) := splitBreaks rest
          further (List.replicate breaks '\n') rest
        | rest =>
          match escape? rest with
          | some (character, rest) => further [character] rest
          | none => none
      else further ['\\'] rest
    | c :: rest =>
      if c = quote then some ([], rest)
      else if isBlank c || c == '\n' then
        match splitBreaks (c :: rest) with
        | (0, _) => further [c] rest
        | (breaks, rest) => further (folded breaks) rest
      else further [c] rest

end Modbus.Settings.Yaml
