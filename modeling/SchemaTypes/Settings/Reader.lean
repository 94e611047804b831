import SchemaTypes.Settings.Basic
import SchemaTypes.Toml.Document
import SchemaTypes.Json.Value

/-! # Reading settings

Settings are given in a TOML file or as a JSON object, under the same names. A name that is not
known is passed over; a known one must have a value of its type.
-/

namespace SchemaTypes

/-- What a source of settings gives under a name, as far as settings can be that. -/
inductive Given where
  | text (text : String)
  | flag (value : Bool)
  /-- A table; its entries are texts or of no use. -/
  | table (entries : List (String × Option String))
  | nothing
  | other

namespace Given

def ofItem : Toml.Item → Given
  | .string s => .text s
  | .boolean b => .flag b
  | .table _ entries => .table (entries.map fun (name, item) =>
      (name, match item with
        | .string s => some s
        | _ => none))
  | _ => .other

def ofValue : Json.Value → Given
  | .string s => .text s
  | .bool b => .flag b
  | .object fields => .table (fields.map fun (name, value) => (name, value.string?))
  | .null => .nothing
  | _ => .other

def path? : Given → Option (Option String)
  | .text s => some (some s)
  | .nothing => some none
  | _ => none

def text? : Given → Option String
  | .text s => some s
  | _ => none

def flag? : Given → Option Bool
  | .flag b => some b
  | _ => none

def imports? : Given → Option ImportTable
  | .table entries =>
    (entries.mapM fun (entry : String × Option String) =>
      entry.2.map fun statement => (entry.1, statement)).map (ImportTable.extend [])
  | _ => none

end Given

namespace Settings

/-- Take over what is given under a name; none if it has the wrong type. -/
def set? (settings : Settings) (name : String) (given : Given) : Option Settings :=
  let affixes := settings.affixes
  let declarations := settings.declarations
  match name with
  | "input" => given.path?.map fun input => { settings with input := input }
  | "output" => given.path?.map fun output => { settings with output := output }
  | "type_prefix" => given.text?.map fun text =>
      { settings with affixes := { affixes with front := text } }
  | "type_suffix" => given.text?.map fun text =>
      { settings with affixes := { affixes with back := text } }
  | "export_types" => given.flag?.map fun exported =>
      { settings with declarations := { declarations with exported := exported } }
  | "type_style" => (given.text?.bind DeclarationStyle.ofText?).map fun style =>
      { settings with declarations := { declarations with style := style } }
  | "union_enums" => given.flag?.map fun asUnions =>
      { settings with declarations := { declarations with enumsAsUnions := asUnions } }
  | "custom_type_imports" => given.imports?.map fun imports => { settings with imports := imports }
  | "strict_nullable" => given.flag?.map fun strict => { settings with strictNullable := strict }
  | "strict_validation" => given.flag?.map fun strict =>
      { settings with strictValidation := strict }
  | _ => some settings

/-- The settings that named values give; none if a known name has a value of the wrong type. -/
def ofGiven? (given : List (String × Given)) : Option Settings :=
  given.foldlM (fun settings entry => settings.set? entry.1 entry.2) {}

def ofToml? (text : String) : Option Settings :=
  (Toml.parse? text).bind fun entries =>
    ofGiven? (entries.map fun (name, item) => (name, Given.ofItem item))

def ofValue? : Json.Value → Option Settings
  | .object fields => ofGiven? (fields.map fun (name, value) => (name, Given.ofValue value))
  | _ => none

end Settings

end SchemaTypes
