/-!
# Settings as data

Whatever format a source of settings is written in, what it says is a tree of values, and a
setting is read from that tree.  `Value` is the tree; `Value.merge` lays one source over another,
table by table, so that a later source changes single settings and leaves the rest.

The readers are strict.  A number is never read from a text, a text never from a number, and a
number has to be in range: a setting of the wrong kind makes the whole source unreadable.
-/

namespace Modbus.Settings

/-- **What a source of settings says.** -/
inductive Value where
  | null
  | bool (value : Bool)
  | int (value : Int)
  | text (value : String)
  /-- What no setting can be: a number that is not whole, a date, a lone character; as written. -/
  | other (written : String)
  | list (items : List Value)
  | table (fields : List (String × Value))
deriving Repr, Inhabited

/-- Named values, each name once. -/
abbrev Table := List (String × Value)

namespace Table

/-- A table in which a name has a value, whatever it had before. -/
def set (table : Table) (name : String) (value : Value) : Table :=
  match table with
  | [] => [(name, value)]
  | (other, old) :: rest =>
    if other = name then (name, value) :: rest else (other, old) :: set rest name value

/-- The table of a list of entries, of which the last of each name counts. -/
def ofEntries (entries : List (String × Value)) : Table :=
  entries.foldl (fun table entry => set table entry.1 entry.2) []

/-- The entry whose name comes first in the order of names. -/
def least? : Table → Option (String × Value)
  | [] => none
  | entry :: rest =>
    match least? rest with
    | some other => some (if other.1 < entry.1 then other else entry)
    | none => some entry

end Table

namespace Value

mutual

/-- **One source laid over another.**  Tables are merged name by name; anything else replaces what
was there. -/
def merge (below : Value) (above : Value) : Value :=
  match above with
  | .table fields =>
    match below with
    | .table old => .table (mergeFields old fields)
    | _ => .table fields
  | above => above

/-- The fields of one table laid over those of another. -/
def mergeFields (below : Table) (above : List (String × Value)) : Table :=
  match above with
  | [] => below
  | (name, value) :: rest =>
    let merged := match below.lookup name with
      | some old => merge old value
      | none => value
    mergeFields (Table.set below name merged) rest

end

def nest (path : List String) (value : Value) : Value :=
  path.foldr (fun name inner => .table [(name, inner)]) value

/-! ## Readers -/

def natBelow? (bound : Nat) : Value → Option Nat
  | .int value => if 0 ≤ value ∧ value < bound then some value.toNat else none
  | _ => none

def bool? : Value → Option Bool
  | .bool value => some value
  | _ => none

def text? : Value → Option String
  | .text value => some value
  | _ => none

def nullable? {α : Type} (read : Value → Option α) : Value → Option (Option α)
  | .null => some none
  | value => some <$> read value

/-- **A field of a table**, or a default where the table has no such field. -/
def field? {α : Type} (table : Table) (name : String) (read : Value → Option α) (default : α) :
    Option α :=
  match table.lookup name with
  | some value => read value
  | none => some default

end Value

end Modbus.Settings
