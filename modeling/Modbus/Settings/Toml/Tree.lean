import Modbus.Settings.Value

/-!
# Tables under construction

The entries of a TOML document build one tree, and a table may be mentioned in several places: on
the way to another one, under a header of its own, by dotted keys, as one of an array.  What may be
said about a table after what has been said before is the format's hardest rule, and it is all
here.

* A header opens a table once; one that was only passed through may still be opened.
* A dotted key never enters a table that a header opened.
* Nothing enters a value, be it a table in braces.
-/

namespace Modbus.Settings.Toml

/-- **A name's content.** -/
inductive Node where
  /-- A value, closed to further entries. -/
  | value (value : Value)
  /-- A table.  It is `implied` as long as no header has opened it, and `dotted` if a dotted key
  made it. -/
  | table (implied dotted : Bool) (fields : List (String × Node))
  /-- The tables of an array, of which the last one is open. -/
  | tables (items : List (List (String × Node)))
deriving Inhabited

/-- Named contents. -/
abbrev Fields := List (String × Node)

namespace Fields

/-- Fields in which a name has a content, whatever it had before. -/
def set (fields : Fields) (name : String) (node : Node) : Fields :=
  match fields with
  | [] => [(name, node)]
  | (other, old) :: rest =>
    if other = name then (name, node) :: rest else (other, old) :: set rest name node

/-- **The fields at the end of a path changed**, where tables that are missing on the way are made.
The change is told whether the table it changes was made by a dotted key. -/
def change (dotted : Bool) (path : List String) (made : Bool)
    (edit : Bool → Fields → Option Fields) (fields : Fields) : Option Fields :=
  match path with
  | [] => edit made fields
  | name :: path =>
    match fields.lookup name with
    | none => (change dotted path dotted edit []).map fun inner =>
        fields.set name (.table true dotted inner)
    | some (.value _) => none
    | some (.table implied dottedBefore inner) =>
      if dotted && !implied then none
      else
        (change dotted path dottedBefore edit inner).map fun inner =>
          fields.set name (.table implied dottedBefore inner)
    | some (.tables items) =>
      match items.getLast? with
      | none => none
      | some last =>
        (change dotted path false edit last).map fun last =>
          fields.set name (.tables (items.dropLast ++ [last]))

def add (name : String) (value : Value) (fields : Fields) : Option Fields :=
  if (fields.lookup name).isSome then none else some (fields ++ [(name, .value value)])

/-- **An entry** with a key that may be dotted: the table it goes into has to be the open one or
one made by dotted keys. -/
def enter (key : List String) (name : String) (value : Value) (fields : Fields) : Option Fields :=
  change true key false (fun made fields =>
    if made == key.isEmpty then none else fields.add name value) fields

def enterAt (path key : List String) (name : String) (value : Value) (fields : Fields) :
    Option Fields :=
  change false path false (fun _ fields => fields.enter key name value) fields

/-- **A table opened by a header.** -/
def openTable (path : List String) (name : String) (fields : Fields) : Option Fields :=
  change false path false (fun _ fields =>
    match fields.lookup name with
    | none => some (fields.set name (.table false false []))
    | some (.table true false inner) => some (fields.set name (.table false false inner))
    | some _ => none) fields

/-- **One more table of an array**, opened by a header. -/
def openItem (path : List String) (name : String) (fields : Fields) : Option Fields :=
  change false path false (fun _ fields =>
    match fields.lookup name with
    | none => some (fields.set name (.tables [[]]))
    | some (.tables items) => some (fields.set name (.tables (items ++ [[]])))
    | some _ => none) fields

end Fields

mutual

def Node.toValue : Node → Value
  | .value content => content
  | .table _ _ fields => .table (Node.fieldsToTable fields)
  | .tables items => .list (Node.itemsToList items)

def Node.fieldsToTable : List (String × Node) → Table
  | [] => []
  | (name, node) :: rest => (name, node.toValue) :: Node.fieldsToTable rest

def Node.itemsToList : List (List (String × Node)) → List Value
  | [] => []
  | fields :: rest => .table (Node.fieldsToTable fields) :: Node.itemsToList rest

end

end Modbus.Settings.Toml
