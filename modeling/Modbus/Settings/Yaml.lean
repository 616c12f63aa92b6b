import Modbus.Settings.Yaml.Flow

/-!
# Settings in YAML

Here structure is indentation: the entries of a table and the items of a list begin in one column,
and what belongs to one of them is further in.  A source is read as a list of lines.  `Yaml.node`
reads whatever begins on the first line and hands back the lines that come after it.

Read are tables, lists, texts in all five styles, comments and the marks around a document.
Anchors, tags and keys that are more than a text are not; a source with any of them cannot be read.
-/

namespace Modbus.Settings.Yaml

/-! ## Lines -/

/-- **A line**: how far it is indented, and what it says. -/
structure Line where
  indent : Nat
  text : List Char
deriving Repr

namespace Line

def ofChars (characters : List Char) : Line :=
  ⟨(characters.takeWhile (· == ' ')).length, characters.dropWhile (· == ' ')⟩

def toChars (line : Line) : List Char :=
  List.replicate line.indent ' ' ++ line.text

def isVoid (line : Line) : Bool :=
  Yaml.isVoid line.text

/-- Whether a line is a mark of three equal characters between documents. -/
def isMark (mark : Char) (line : Line) : Bool :=
  line.indent == 0 && line.text.take 3 == [mark, mark, mark] && beginsBlank (line.text.drop 3)

end Line

def splitLines : List Char → List (List Char)
  | [] => [[]]
  | '\r' :: '\n' :: rest => [] :: splitLines rest
  | '\r' :: rest => [] :: splitLines rest
  | '\n' :: rest => [] :: splitLines rest
  | c :: rest =>
    match splitLines rest with
    | [] => [[c]]
    | line :: lines => (c :: line) :: lines

def joinLines (lines : List Line) : List Char :=
  lines.flatMap fun line => '\n' :: line.toChars

/-- Lines without those at the beginning that say nothing. -/
def skipVoid (lines : List Line) : List Line :=
  lines.dropWhile Line.isVoid

/-! ## Texts over several lines -/

/-- The part of a line that belongs to a plain text, whether a comment follows it, and nothing if a
colon makes a key of it. -/
def plainPart? (text : List Char) : Option (List Char × Bool) :=
  match text with
  | [] => some ([], false)
  | ':' :: rest =>
    if beginsBlank rest then none
    else (plainPart? rest).map fun (part, comment) => (':' :: part, comment)
  | c :: '#' :: rest =>
    if isBlank c then some ([], true)
    else (plainPart? ('#' :: rest)).map fun (part, comment) => (c :: part, comment)
  | c :: rest => (plainPart? rest).map fun (part, comment) => (c :: part, comment)

/-- How a plain text goes on over further lines that are indented enough, `breaks` newlines after
what was read of it. -/
def plainTail (minIndent breaks : Nat) (lines : List Line) : Option (List Char × List Line) :=
  match lines with
  | [] => some ([], [])
  | line :: rest =>
    if (skipBlanks line.text).isEmpty then
      match plainTail minIndent (breaks + 1) rest with
      | some ([], _) => some ([], line :: rest)
      | further => further
    else if line.indent < minIndent || line.isVoid then some ([], line :: rest)
    else
      match plainPart? (skipBlanks line.text) with
      | none => none
      | some (part, true) => some (folded breaks ++ trimEnd part, rest)
      | some (part, false) => (plainTail minIndent 1 rest).map fun (text, rest) =>
          (folded breaks ++ trimEnd part ++ text, rest)

/-- **A plain text** that begins with `text`, and the lines after it. -/
def plain (minIndent : Nat) (text : List Char) (lines : List Line) : Option (Value × List Line) :=
  match plainPart? text with
  | none => none
  | some (part, true) => some (resolve (trimEnd part), lines)
  | some (part, false) => (plainTail minIndent 1 lines).map fun (tail, rest) =>
      (resolve (trimEnd part ++ tail), rest)

/-- What happens to the newlines at the end of a block of text. -/
inductive Chomping where
  | strip
  | clip
  | keep
deriving DecidableEq, Repr

/-- The header of a block of text after its mark: the indentation it asks for and what happens to
its end. -/
def blockHeader? (text : List Char) : Option (Option Nat × Chomping) :=
  let marks := text.takeWhile fun c => !isBlank c
  let indent? (c : Char) : Option Nat := (Scalar.nat? 10 [c]).bind fun n =>
    if n = 0 then none else some n
  let chomping? (c : Char) : Option Chomping :=
    if c = '-' then some .strip else if c = '+' then some .keep else none
  if !isVoid (text.dropWhile fun c => !isBlank c) then none
  else
    match marks with
    | [] => some (none, .clip)
    | [c] =>
      match indent? c, chomping? c with
      | some indent, _ => some (some indent, .clip)
      | _, some chomping => some (none, chomping)
      | _, _ => none
    | [c, d] =>
      match indent? c, chomping? d, chomping? c, indent? d with
      | some indent, some chomping, _, _ => some (some indent, chomping)
      | _, _, some chomping, some indent => some (some indent, chomping)
      | _, _, _, _ => none
    | _ => none

/-- The lines of a block of text without its indentation, up to the first one that is not indented
enough. -/
def blockLines (indent : Nat) (lines : List Line) : List (List Char) × List Line :=
  match lines with
  | [] => ([], [])
  | line :: rest =>
    if indent ≤ line.indent || line.text.isEmpty then
      let (texts, rest) := blockLines indent rest
      (line.toChars.drop indent :: texts, rest)
    else ([], line :: rest)

/-- The text of the lines of a block, `pending` being the newlines since its last line with text,
and whether that line began with a blank. -/
def blockBody (isFolded : Bool) (chomping : Chomping) (wasBlank : Bool) (pending : Nat)
    (started : Bool) (texts : List (List Char)) : List Char :=
  match texts with
  | [] =>
    match chomping with
    | .strip => []
    | .clip => if started then ['\n'] else []
    | .keep => List.replicate pending '\n'
  | [] :: rest => blockBody isFolded chomping wasBlank (pending + 1) started rest
  | text :: rest =>
    let isBlankText := beginsBlank text
    let breaks := if isFolded && started && !wasBlank && !isBlankText then folded pending
      else List.replicate pending '\n'
    breaks ++ text ++ blockBody isFolded chomping isBlankText 1 true rest

/-- **A block of text** after its mark, and the lines after it. -/
def blockText (isFolded : Bool) (minIndent : Nat) (header : List Char) (lines : List Line) :
    Option (Value × List Line) :=
  match blockHeader? header with
  | none => none
  | some (asked, chomping) =>
    let found := ((lines.filter fun line => !line.text.isEmpty).head?.map Line.indent).getD 0
    let indent := match asked with
      | some asked => minIndent - 1 + asked
      | none => max minIndent found
    let (texts, rest) := blockLines indent lines
    some (.text (String.ofList (blockBody isFolded chomping false 0 false texts)), rest)

/-! ## Structure -/

def keyEnd? (text : List Char) : Option (List Char) :=
  match skipBlanks text with
  | ':' :: rest => if beginsBlank rest then some (skipBlanks rest) else none
  | _ => none

/-- The characters of a plain key up to its colon, and what follows that. -/
def plainKey? (text : List Char) : Option (List Char × List Char) :=
  match text with
  | [] => none
  | ':' :: rest =>
    if beginsBlank rest then some ([], skipBlanks rest)
    else (plainKey? rest).map fun (key, rest) => (':' :: key, rest)
  | c :: '#' :: rest =>
    if isBlank c then none
    else (plainKey? ('#' :: rest)).map fun (key, rest) => (c :: key, rest)
  | c :: rest => (plainKey? rest).map fun (key, rest) => (c :: key, rest)

/-- **The key that a line begins with**, and what follows its colon. -/
def key? (text : List Char) : Option (String × List Char) :=
  match text with
  | '"' :: rest => (quoted (text.length + 1) '"' rest).bind fun (key, rest) =>
      (keyEnd? rest).map fun rest => (String.ofList key, rest)
  | '\'' :: rest => (quoted (text.length + 1) '\'' rest).bind fun (key, rest) =>
      (keyEnd? rest).map fun rest => (String.ofList key, rest)
  | text =>
    if beginsPlain false text then
      (plainKey? text).map fun (key, rest) => (String.ofList (trimEnd key), rest)
    else none

/-- What follows the dash that an item begins with, and how far in it is. -/
def item? (line : Line) : Option Line :=
  match line.text with
  | '-' :: rest =>
    if beginsBlank rest then
      some ⟨line.indent + 1 + (rest.takeWhile isBlank).length, skipBlanks rest⟩
    else none
  | _ => none

/-- A value in quotes, brackets or braces that begins with `text`, and the lines after it. -/
def enclosed (text : List Char) (lines : List Line) : Option (Value × List Line) :=
  let whole := text ++ joinLines lines
  match flowValue (2 * whole.length + 2) whole with
  | none => none
  | some (value, rest) =>
    if isVoid (rest.takeWhile (· != '\n')) then
      let newlines (text : List Char) : Nat := text.countP (· == '\n')
      some (value, lines.drop (newlines whole - newlines rest))
    else none

def inline (minIndent : Nat) (text : List Char) (lines : List Line) :
    Option (Value × List Line) :=
  match text with
  | '|' :: header => blockText false minIndent header lines
  | '>' :: header => blockText true minIndent header lines
  | c :: _ =>
    if c == '"' || c == '\'' || c == '[' || c == '{' then enclosed text lines
    else if beginsPlain false text then plain minIndent text lines
    else none
  | [] => some (.null, lines)

mutual

/-- **Whatever begins on the first line that says something**, if that is indented enough; else
nothing is there. -/
def node (fuel minIndent : Nat) (lines : List Line) : Option (Value × List Line) :=
  match fuel with
  | 0 => none
  | fuel + 1 =>
    match skipVoid lines with
    | [] => some (.null, [])
    | line :: rest =>
      if line.indent < minIndent then some (.null, line :: rest)
      else if (item? line).isSome then
        (items fuel line.indent (line :: rest)).map fun (items, rest) => (.list items, rest)
      else if (key? line.text).isSome then
        (entries fuel line.indent (line :: rest)).map fun (entries, rest) =>
          (.table (Table.ofEntries entries), rest)
      else inline minIndent line.text rest

def items (fuel column : Nat) (lines : List Line) : Option (List Value × List Line) :=
  match fuel with
  | 0 => none
  | fuel + 1 =>
    match skipVoid lines with
    | [] => some ([], [])
    | line :: rest =>
      if column < line.indent then none
      else
        match item? line with
        | none => some ([], line :: rest)
        | some content =>
          if line.indent < column then some ([], line :: rest)
          else
            let content? := if content.isVoid then node fuel (column + 1) rest
              else node fuel (column + 1) (content :: rest)
            match content? with
            | none => none
            | some (item, rest) =>
              (items fuel column rest).map fun (items, rest) => (item :: items, rest)

def entries (fuel column : Nat) (lines : List Line) :
    Option (List (String × Value) × List Line) :=
  match fuel with
  | 0 => none
  | fuel + 1 =>
    match skipVoid lines with
    | [] => some ([], [])
    | line :: rest =>
      if column < line.indent then none
      else if line.indent < column then some ([], line :: rest)
      else
        match key? line.text with
        | none => none
        | some (key, text) =>
          let content? := if isVoid text then content fuel column rest
            else inline (column + 1) text rest
          match content? with
          | none => none
          | some (value, rest) =>
            (entries fuel column rest).map fun (entries, rest) => ((key, value) :: entries, rest)

/-- What a key in a column leads to on the lines below it: a list may begin in the column of the
key. -/
def content (fuel column : Nat) (lines : List Line) : Option (Value × List Line) :=
  match fuel with
  | 0 => none
  | fuel + 1 =>
    match skipVoid lines with
    | [] => some (.null, [])
    | line :: rest =>
      if line.indent = column && (item? line).isSome then
        (items fuel column (line :: rest)).map fun (items, rest) => (.list items, rest)
      else node fuel (column + 1) (line :: rest)

end

/-! ## Documents -/

def isAllowed (c : Char) : Bool :=
  let code := c.toNat
  code == 0x09 || code == 0x0A || code == 0x0D || (0x20 ≤ code && code ≤ 0x7E) || code == 0x85
    || (0xA0 ≤ code && code != 0xFEFF && code != 0xFFFE && code != 0xFFFF)

/-- The lines of the only document of a source: what comes before its mark is left out, and after
its end there must be nothing. -/
def document? (lines : List Line) : Option (List Line) :=
  let preamble (line : Line) : Bool := line.isVoid || line.text.head? == some '%'
  let isEnd (line : Line) : Bool := line.isMark '-' || line.isMark '.'
  let body := match lines.dropWhile preamble with
    | first :: rest =>
      if first.isMark '-' then
        let text := skipBlanks (first.text.drop 3)
        if isVoid text then rest else ⟨first.text.length - text.length, text⟩ :: rest
      else lines
    | [] => []
  match body.dropWhile fun line => !isEnd line with
  | [] => some body
  | mark :: rest =>
    if mark.isMark '.' && rest.all Line.isVoid then some (body.takeWhile fun line => !isEnd line)
    else none

/-- **Reading a source.**  One that says nothing is an empty table. -/
def read? (text : String) : Option Value :=
  let characters := text.toList
  if !characters.all isAllowed then none
  else
    match document? ((splitLines characters).map Line.ofChars) with
    | none => none
    | some lines =>
      if lines.all Line.isVoid then some (.table [])
      else
        match node (4 * characters.length + 4) 0 lines with
        | some (value, rest) => if rest.all Line.isVoid then some value else none
        | none => none

end Modbus.Settings.Yaml
