import SchemaTypes.Failure
import SchemaTypes.Imports
import SchemaTypes.Naming

/-! # Settings

What a run depends on apart from its input, with the values that hold where nothing is said.
-/

namespace SchemaTypes

inductive DeclarationStyle where
  /-- `type Name = …;` -/
  | alias
  /-- `interface Name …` -/
  | interface
deriving DecidableEq

def DeclarationStyle.text : DeclarationStyle → String
  | .alias => "alias"
  | .interface => "interface"

def DeclarationStyle.ofText? : String → Option DeclarationStyle
  | "alias" => some .alias
  | "interface" => some .interface
  | _ => none

structure DeclarationOptions where
  /-- Declarations are exported. -/
  exported : Bool := true
  style : DeclarationStyle := .alias
  /-- Enumerations are declared as unions of literals. -/
  enumsAsUnions : Bool := false
deriving DecidableEq

structure Settings where
  /-- The document to read. -/
  input : Option String := none
  /-- The file to write. -/
  output : Option String := none
  affixes : Affixes := ⟨"", ""⟩
  declarations : DeclarationOptions := {}
  imports : ImportTable := []
  /-- Kept for files that set it; `null` is always written where it belongs. -/
  strictNullable : Bool := true
  /-- A document of another version is refused. -/
  strictValidation : Bool := true
deriving DecidableEq

namespace Settings

/-- The paths that a run from file to file needs. The input must be more than white space. -/
def paths (settings : Settings) : Except Failure (String × String) :=
  match settings.input.filter fun input => Text.trimmed input != "" with
  | none => .error .noInput
  | some input =>
    match settings.output.filter (· != "") with
    | none => .error .noOutput
    | some output => .ok (input, output)

def fileName : String := "openapi-ts.toml"

end Settings

end SchemaTypes
