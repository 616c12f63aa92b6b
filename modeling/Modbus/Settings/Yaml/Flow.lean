import Modbus.Settings.Yaml.Plain

/-!
# Brackets and braces in YAML

Lists in brackets and tables in braces may be nested in each other and go on over several lines,
where indentation means nothing.
-/

namespace Modbus.Settings.Yaml

/-- A text without the blanks, ends of lines and comments it begins with.  A comment has a blank or
the beginning of a line before it. -/
def skipSpace (fuel : Nat) (text : List Char) : List Char :=
  match fuel with
  | 0 => text
  | fuel + 1 =>
    match text with
    | '\n' :: '#' :: rest => skipSpace fuel (rest.dropWhile (· != '\n'))
    | ' ' :: '#' :: rest => skipSpace fuel (rest.dropWhile (· != '\n'))
    | '\t' :: '#' :: rest => skipSpace fuel (rest.dropWhile (· != '\n'))
    | '\n' :: rest => skipSpace fuel rest
    | ' ' :: rest => skipSpace fuel rest
    | '\t' :: rest => skipSpace fuel rest
    | rest => rest

/-- The characters that structure brackets and braces. -/
def isFlow (c : Char) : Bool :=
  c == ',' || c == '[' || c == ']' || c == '{' || c == '}'

def isReserved (c : Char) : Bool :=
  isFlow c || c == '#' || c == '&' || c == '*' || c == '!' || c == '|' || c == '>' || c == '\''
    || c == '"' || c == '%' || c == '@' || c.toNat == 0x60

/-- Whether a plain text can begin here.  Three of the marks can begin one if no blank follows
them. -/
def beginsPlain (inFlow : Bool) : List Char → Bool
  | [] => false
  | c :: rest =>
    if isBlank c || c == '\n' || isReserved c then false
    else if c == '-' || c == '?' || c == ':' then
      !beginsBlank rest && !(inFlow && rest.head?.any isFlow)
    else true

/-- A plain text within brackets or braces, and what follows it. -/
def flowPlain (fuel : Nat) (text : List Char) : List Char × List Char :=
  match fuel with
  | 0 => ([], text)
  | fuel + 1 =>
    let further (before : List Char) (rest : List Char) : List Char × List Char :=
      let (text, rest) := flowPlain fuel rest
      (before ++ text, rest)
    match text with
    | [] => ([], [])
    | ':' :: rest =>
      if beginsBlank rest || rest.head?.any isFlow then ([], ':' :: rest) else further [':'] rest
    | c :: rest =>
      if isFlow c then ([], c :: rest)
      else if isBlank c || c == '\n' then
        let (breaks, after) := splitBreaks (c :: rest)
        match after with
        | [] => ([], [])
        | '#' :: _ => ([], c :: rest)
        | ':' :: more =>
          if beginsBlank more || more.head?.any isFlow then ([], ':' :: more)
          else if breaks = 0 then further [c] rest
          else further (folded breaks) after
        | next :: _ =>
          if isFlow next then ([], after)
          else if breaks = 0 then further [c] rest
          else further (folded breaks) after
      else further [c] rest

/-- A key: a text, plain or in quotes, whatever it would stand for as a value. -/
def flowKey? (text : List Char) : Option (String × List Char) :=
  let fuel := text.length + 1
  match text with
  | '"' :: rest => (quoted fuel '"' rest).map fun (key, rest) => (String.ofList key, rest)
  | '\'' :: rest => (quoted fuel '\'' rest).map fun (key, rest) => (String.ofList key, rest)
  | text =>
    if beginsPlain true text then
      let (key, rest) := flowPlain fuel text
      some (String.ofList key, rest)
    else none

/-- What follows the colon after a key, if there is one.  After a key in quotes nothing else has to
come between. -/
def afterColon? (isQuoted : Bool) (text : List Char) : Option (List Char) :=
  match text with
  | ':' :: rest =>
    if isQuoted || beginsBlank rest || rest.head?.any isFlow then some rest else none
  | _ => none

mutual

/-- A value within brackets or braces, and what follows it; the text begins with it. -/
def flowValue (fuel : Nat) (text : List Char) : Option (Value × List Char) :=
  match fuel with
  | 0 => none
  | fuel + 1 =>
    match text with
    | '[' :: rest => (flowItems fuel rest).map fun (items, rest) => (.list items, rest)
    | '{' :: rest => (flowEntries fuel rest).map fun (entries, rest) =>
        (.table (Table.ofEntries entries), rest)
    | '"' :: rest => (quoted (text.length + 1) '"' rest).map fun (text, rest) =>
        (.text (String.ofList text), rest)
    | '\'' :: rest => (quoted (text.length + 1) '\'' rest).map fun (text, rest) =>
        (.text (String.ofList text), rest)
    | text =>
      if beginsPlain true text then
        let (plain, rest) := flowPlain (text.length + 1) text
        some (resolve plain, rest)
      else none

/-- What a key leads to: a value, or nothing before the next separator. -/
def flowContent (fuel : Nat) (text : List Char) : Option (Value × List Char) :=
  match fuel with
  | 0 => none
  | fuel + 1 =>
    match skipSpace text.length text with
    | [] => none
    | c :: rest =>
      if c == ',' || c == ']' || c == '}' then some (.null, c :: rest)
      else flowValue fuel (c :: rest)

/-- The items of a list up to its closing bracket.  An item with a colon is a table of one
entry. -/
def flowItems (fuel : Nat) (text : List Char) : Option (List Value × List Char) :=
  match fuel with
  | 0 => none
  | fuel + 1 =>
    match skipSpace text.length text with
    | ']' :: rest => some ([], rest)
    | text =>
      let isQuoted := text.head?.any fun c => c == '"' || c == '\''
      let pair? : Option (String × List Char) := (flowKey? text).bind fun (key, rest) =>
        (afterColon? isQuoted (skipSpace rest.length rest)).map fun rest => (key, rest)
      let item? : Option (Value × List Char) := match pair? with
        | some (key, rest) => (flowContent fuel rest).map fun (value, rest) =>
            (Value.table [(key, value)], rest)
        | none => flowValue fuel text
      match item? with
      | none => none
      | some (item, rest) =>
        match skipSpace rest.length rest with
        | ',' :: rest => (flowItems fuel rest).map fun (items, rest) => (item :: items, rest)
        | ']' :: rest => some ([item], rest)
        | _ => none

/-- The entries of a table up to its closing brace.  A key without a colon leads to nothing. -/
def flowEntries (fuel : Nat) (text : List Char) : Option (List (String × Value) × List Char) :=
  match fuel with
  | 0 => none
  | fuel + 1 =>
    match skipSpace text.length text with
    | '}' :: rest => some ([], rest)
    | text =>
      let isQuoted := text.head?.any fun c => c == '"' || c == '\''
      match flowKey? text with
      | none => none
      | some (key, rest) =>
        let rest := skipSpace rest.length rest
        let content? : Option (Value × List Char) := match afterColon? isQuoted rest with
          | some rest => flowContent fuel rest
          | none => some (.null, rest)
        match content? with
        | none => none
        | some (value, rest) =>
          match skipSpace rest.length rest with
          | ',' :: rest =>
            (flowEntries fuel rest).map fun (entries, rest) => ((key, value) :: entries, rest)
          | '}' :: rest => some ([(key, value)], rest)
          | _ => none

end

end Modbus.Settings.Yaml
