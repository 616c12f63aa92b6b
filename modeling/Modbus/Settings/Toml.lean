import Modbus.Settings.Toml.Literal
import Modbus.Settings.Toml.Tree

/-!
# Settings in TOML

A document is a sequence of lines: an entry, a header that opens the table of the entries after it,
or nothing.  `Toml.read?` reads the lines into a tree of tables and gives the tree as data.
-/

namespace Modbus.Settings.Toml

/-! ## Lines -/

/-- What follows a comment on the same line, if there is a comment. -/
def skipComment (text : List Char) : List Char :=
  match text with
  | '#' :: rest => rest.dropWhile isPrintable
  | text => text

/-- The text after the end of a line; only blanks and a comment may come before it. -/
def endLine? (text : List Char) : Option (List Char) :=
  match skipComment (skipBlanks text) with
  | [] => some []
  | '\n' :: rest => some rest
  | '\r' :: '\n' :: rest => some rest
  | _ => none

/-- A text without the blanks, comments and ends of lines it begins with. -/
def skipLines (fuel : Nat) (text : List Char) : List Char :=
  match fuel with
  | 0 => text
  | fuel + 1 =>
    match skipComment (skipBlanks text) with
    | '\n' :: rest => skipLines fuel rest
    | '\r' :: '\n' :: rest => skipLines fuel rest
    | rest => rest

/-! ## Keys -/

def isBare (c : Char) : Bool :=
  c.isAlphanum || c == '-' || c == '_'

def name? (text : List Char) : Option (String × List Char) :=
  match text with
  | '"' :: rest => (lineText (rest.length + 1) '"' rest).map fun (name, rest) =>
      (String.ofList name, rest)
  | '\'' :: rest => (lineText (rest.length + 1) '\'' rest).map fun (name, rest) =>
      (String.ofList name, rest)
  | text =>
    let name := text.takeWhile isBare
    if name.isEmpty then none else some (String.ofList name, text.dropWhile isBare)

/-- **A key**: names with points between them, the last one apart. -/
def key? (fuel : Nat) (text : List Char) : Option (List String × String × List Char) :=
  match fuel with
  | 0 => none
  | fuel + 1 =>
    match name? (skipBlanks text) with
    | none => none
    | some (name, rest) =>
      match skipBlanks rest with
      | '.' :: rest => (key? fuel rest).map fun (path, last, rest) => (name :: path, last, rest)
      | rest => some ([], name, rest)

/-! ## Values -/

mutual

def value (fuel : Nat) (text : List Char) : Option (Value × List Char) :=
  match fuel with
  | 0 => none
  | fuel + 1 =>
    match text with
    | '[' :: rest => (items fuel rest).map fun (items, rest) => (.list items, rest)
    | '{' :: rest =>
      match skipBlanks rest with
      | '}' :: rest => some (.table [], rest)
      | rest => (entries fuel [] rest).map fun (fields, rest) =>
          (.table (Node.fieldsToTable fields), rest)
    | '"' :: _ => (text? text).map fun (text, rest) => (.text text, rest)
    | '\'' :: _ => (text? text).map fun (text, rest) => (.text text, rest)
    | text =>
      let (literal, rest) := splitLiteral text
      (literal? literal).map fun value => (value, rest)

/-- The items of an array up to its closing bracket; lines may end between them, and a comma may
stand after the last. -/
def items (fuel : Nat) (text : List Char) : Option (List Value × List Char) :=
  match fuel with
  | 0 => none
  | fuel + 1 =>
    match skipLines text.length text with
    | ']' :: rest => some ([], rest)
    | text =>
      match value fuel text with
      | none => none
      | some (item, rest) =>
        match skipLines rest.length rest with
        | ',' :: rest => (items fuel rest).map fun (items, rest) => (item :: items, rest)
        | ']' :: rest => some ([item], rest)
        | _ => none

/-- The entries of a table in braces, on one line, added to those before them. -/
def entries (fuel : Nat) (before : Fields) (text : List Char) : Option (Fields × List Char) :=
  match fuel with
  | 0 => none
  | fuel + 1 =>
    match key? text.length text with
    | some (path, name, '=' :: rest) =>
      match value fuel (skipBlanks rest) with
      | none => none
      | some (item, rest) =>
        match before.enter path name item with
        | none => none
        | some fields =>
          match skipBlanks rest with
          | ',' :: rest => entries fuel fields rest
          | '}' :: rest => some (fields, rest)
          | _ => none
    | _ => none

end

/-! ## Documents -/

/-- What has been read of a document: its fields, and the path of the table that is open. -/
structure Document where
  fields : Fields := []
  path : List String := []

/-- A header after its opening brackets: the document with the table open, and the rest of the
line. -/
def header? (document : Document) (isItem : Bool) (text : List Char) :
    Option (Document × List Char) :=
  match key? text.length text with
  | none => none
  | some (path, name, rest) =>
    let rest? := match isItem, rest with
      | true, ']' :: ']' :: rest => some rest
      | false, ']' :: rest => some rest
      | _, _ => none
    let fields? := if isItem then document.fields.openItem path name
      else document.fields.openTable path name
    match rest?, fields? with
    | some rest, some fields => some (⟨fields, path ++ [name]⟩, rest)
    | _, _ => none

/-- An entry: the document with it, and the rest of the line. -/
def entry? (document : Document) (text : List Char) : Option (Document × List Char) :=
  match key? text.length text with
  | some (key, name, '=' :: rest) =>
    match value (2 * rest.length + 2) (skipBlanks rest) with
    | some (item, rest) =>
      (document.fields.enterAt document.path key name item).map fun fields =>
        ({ document with fields }, rest)
    | none => none
  | _ => none

def lines (fuel : Nat) (document : Document) (text : List Char) : Option Document :=
  match fuel with
  | 0 => none
  | fuel + 1 =>
    match skipLines text.length text with
    | [] => some document
    | text =>
      let read := match text with
        | '[' :: '[' :: rest => header? document true rest
        | '[' :: rest => header? document false rest
        | text => entry? document text
      match read with
      | none => none
      | some (document, rest) =>
        match endLine? rest with
        | none => none
        | some rest => lines fuel document rest

/-- **Reading a source.** -/
def read? (text : String) : Option Value :=
  (lines (text.length + 1) {} text.toList).map fun document =>
    .table (Node.fieldsToTable document.fields)

end Modbus.Settings.Toml
