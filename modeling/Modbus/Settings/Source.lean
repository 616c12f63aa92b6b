import Modbus.Settings.Json
import Modbus.Settings.Link
import Modbus.Settings.Toml
import Modbus.Settings.Variables
import Modbus.Settings.Yaml

/-!
# Where settings come from

The settings of a link come from a file and from variables of the environment, which are laid over
the file.  `Settings.load` reads both: the extension of the file's name chooses its format, a file
that does not exist says nothing, and what the two say together has to be readable and without
fault.
-/

namespace Modbus.Settings

/-- The formats of a file. -/
inductive Format where
  | json
  | toml
  | yaml
deriving DecidableEq, Repr

namespace Format

/-- The format of files with a given extension, in this very case. -/
def ofExtension? : String → Option Format
  | "json" => some json
  | "toml" => some toml
  | "yaml" => some yaml
  | "yml" => some yaml
  | _ => none

def read? : Format → String → Option Value
  | json => Json.read?
  | toml => Toml.read?
  | yaml => Yaml.read?

end Format

/-- **The extension of a file's name**: what follows the last point, if anything comes before that
point. -/
def extension? (file : String) : Option String :=
  let reversed := file.toList.reverse
  let extension := (reversed.takeWhile (· != '.')).reverse
  match reversed.dropWhile (· != '.') with
  | [] => none
  | [_] => none
  | ['.', '.'] => if extension.isEmpty then none else some (String.ofList extension)
  | _ => some (String.ofList extension)

def format (file : String) : Result Format :=
  match extension? file with
  | none => .error (.configuration "Config file must have an extension")
  | some extension =>
    match Format.ofExtension? extension with
    | none => .error (.configuration ("Unsupported config file format: " ++ extension))
    | some format => .ok format

/-- What a file and the environment say together, if the file can be read. -/
def gather? (format : Format) (text : Option String) (environment : List (String × String)) :
    Option Value :=
  let below? := match text with
    | some text => format.read? text
    | none => some (.table [])
  match below? with
  | some (.table fields) => some ((Value.table fields).merge (Variables.toValue environment))
  | _ => none

/-- **The settings of a link** from a file, whose text is missing if there is no such file, and
from the variables of the environment. -/
def load (file : String) (text : Option String) (environment : List (String × String)) :
    Result LinkSettings := do
  let format ← format file
  match (gather? format text environment).bind LinkSettings.ofValue? with
  | some settings => settings.validate
  | none => .error .unreadable

end Modbus.Settings
