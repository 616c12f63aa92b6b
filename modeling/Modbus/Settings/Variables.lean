import Modbus.Settings.Scalar

/-!
# Settings in variables

A variable of the environment whose name begins with `Variables.stem` overrides one setting.  The
rest of its name is the path of the setting, in any case, with two underscores or a point between
the names on the path; a path with an empty part leads nowhere.  Its content is a value in a small notation of its own: `true`, `12`, `[a, b]`,
`{x = 1}`, a text in quotes.  Whatever is not a value in that notation from beginning to end is a
text as it stands, so every content has a value.
-/

namespace Modbus.Settings.Variables

def isBlank (c : Char) : Bool :=
  c == ' ' || c == '\t' || c == '\n' || c == '\r' || c == '\x0c'

def skipBlanks (text : List Char) : List Char :=
  text.dropWhile isBlank

def isWhite (c : Char) : Bool :=
  let code := c.toNat
  (0x09 ≤ code && code ≤ 0x0D) || code == 0x20 || code == 0x85 || code == 0xA0 || code == 0x1680
    || (0x2000 ≤ code && code ≤ 0x200A) || code == 0x2028 || code == 0x2029 || code == 0x202F
    || code == 0x205F || code == 0x3000

def trim (text : List Char) : List Char :=
  ((text.dropWhile isWhite).reverse.dropWhile isWhite).reverse

/-! ## Contents -/

def isSeparator (c : Char) : Bool :=
  c == ',' || c == '{' || c == '}' || c == '[' || c == ']'

def isName (c : Char) : Bool :=
  c.isAlphanum || c == '_' || c == '-'

/-- A value without brackets or quotes.  Only a number with a point is read as one that is not
whole. -/
def bare (text : List Char) : Value :=
  if text.contains '.' && Scalar.isDecimal text then .other (String.ofList text)
  else
    match Scalar.int? text with
    | some value =>
      if Scalar.fitsSigned value || Scalar.fitsUnsigned value then .int value
      else .text (String.ofList text)
    | none => .text (String.ofList text)

/-- The character that a single letter stands for after a backslash. -/
def escaped? : Char → Option Char
  | '"' => some '"'
  | '\\' => some '\\'
  | 'b' => some '\x08'
  | 'f' => some '\x0c'
  | 'n' => some '\n'
  | 'r' => some '\r'
  | 't' => some '\t'
  | _ => none

/-- A text after its opening quote, and what follows its closing one. -/
def quoted : List Char → Option (List Char × List Char)
  | '"' :: rest => some ([], rest)
  | '\\' :: 'u' :: a :: b :: c :: d :: rest =>
    match Scalar.codePoint? [a, b, c, d] with
    | some character => (quoted rest).map fun (text, rest) => (character :: text, rest)
    | none => none
  | '\\' :: letter :: rest =>
    match escaped? letter with
    | some character => (quoted rest).map fun (text, rest) => (character :: text, rest)
    | none => none
  | c :: rest => (quoted rest).map fun (text, rest) => (c :: text, rest)
  | [] => none

def name? (text : List Char) : Option (String × List Char) :=
  match text with
  | '"' :: rest => (quoted rest).map fun (name, rest) => (String.ofList name, rest)
  | text =>
    let name := text.takeWhile isName
    if name.isEmpty then none else some (String.ofList name, text.dropWhile isName)

mutual

/-- A value with blanks around it, and what follows. -/
def value (fuel : Nat) (text : List Char) : Option (Value × List Char) :=
  match fuel with
  | 0 => none
  | fuel + 1 =>
    let read : Option (Value × List Char) := match skipBlanks text with
      | 't' :: 'r' :: 'u' :: 'e' :: rest => some (.bool true, rest)
      | 'f' :: 'a' :: 'l' :: 's' :: 'e' :: rest => some (.bool false, rest)
      | '{' :: rest => (entries fuel rest).map fun (entries, rest) =>
          (.table (Table.ofEntries entries), rest)
      | '[' :: rest => (items fuel rest).map fun (items, rest) => (.list items, rest)
      | '"' :: rest => (quoted rest).map fun (text, rest) => (.text (String.ofList text), rest)
      | '\'' :: c :: '\'' :: rest => some (.other (String.ofList [c]), rest)
      | '\'' :: _ => none
      | text =>
        some (bare (trim (text.takeWhile fun c => !isSeparator c)),
          text.dropWhile fun c => !isSeparator c)
    read.map fun (value, rest) => (value, skipBlanks rest)

/-- The items of a list up to its closing bracket; a comma may stand after the last. -/
def items (fuel : Nat) (text : List Char) : Option (List Value × List Char) :=
  match fuel with
  | 0 => none
  | fuel + 1 =>
    match text with
    | ']' :: rest => some ([], rest)
    | text =>
      match value fuel text with
      | some (item, ',' :: rest) =>
        (items fuel rest).map fun (items, rest) => (item :: items, rest)
      | some (item, ']' :: rest) => some ([item], rest)
      | _ => none

/-- The entries of a table up to its closing brace; a comma may stand after the last. -/
def entries (fuel : Nat) (text : List Char) : Option (List (String × Value) × List Char) :=
  match fuel with
  | 0 => none
  | fuel + 1 =>
    match text with
    | '}' :: rest => some ([], rest)
    | text =>
      match name? (skipBlanks text) with
      | none => none
      | some (name, rest) =>
        match skipBlanks rest with
        | '=' :: rest =>
          match value fuel rest with
          | some (item, ',' :: rest) =>
            (entries fuel rest).map fun (entries, rest) => ((name, item) :: entries, rest)
          | some (item, '}' :: rest) => some ([(name, item)], rest)
          | _ => none
        | _ => none

end

/-- **The value of a content.** -/
def read (content : String) : Value :=
  match value (2 * content.length + 2) content.toList with
  | some (value, []) => value
  | _ => .text content

/-! ## Names -/

/-- What the names of the variables begin with, in any case. -/
def stem : String := "MODLINK_"

def lowered (text : List Char) : List Char :=
  text.map Char.toLower

def unstem? (name : String) : Option String :=
  let size := stem.length
  if lowered (name.toList.take size) = lowered stem.toList then
    some (String.ofList (name.toList.drop size))
  else none

/-- **The path that a name stands for**, unless a part of it is empty. -/
def path? (name : String) : Option (List String) :=
  let written := String.ofList (lowered (trim name.toList))
  let parts := (written.splitOn "__").flatMap fun part => part.splitOn "."
  if parts.any (·.isEmpty) then none else some parts

/-- **What the variables say together.**  A later one is laid over the earlier ones. -/
def toValue (environment : List (String × String)) : Value :=
  environment.foldl (fun settings (name, content) =>
    match (unstem? name).bind path? with
    | some path => settings.merge (.nest path (read content))
    | none => settings) (.table [])

end Modbus.Settings.Variables
