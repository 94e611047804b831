import SchemaTypes.Json.Reader
import SchemaTypes.Json.Writer
import SchemaTypes.Json.Pointer
import SchemaTypes.Yaml.Reader
import SchemaTypes.Failure
import SchemaTypes.Text.Blank

/-! # Documents

An OpenAPI document, the description of an interface, as one value with the name of its source. Text
is read as JSON if the source is named so or if it starts with a brace, and as YAML otherwise.
-/

namespace SchemaTypes

open SchemaTypes.Json

structure Document where
  root : Value
  source : String

namespace Document

/-- A source without a query or fragment behind it. -/
def sourcePath (source : String) : List Char :=
  source.toList.takeWhile fun c => c != '?' && c != '#'

def isJson (text source : String) : Bool :=
  ".json".toList.isSuffixOf ((sourcePath source).map Char.toLower) ||
    (Text.trimFront text.toList).head? == some '{'

def parse (text source : String) : Except Failure Document :=
  if isJson text source then
    match Value.parse? text with
    | some root => .ok ⟨root, source⟩
    | none => .error (.document source .notJson)
  else
    match Yaml.value? text with
    | some root => .ok ⟨root, source⟩
    | none => .error (.document source .notYaml)

/-- A document that comes from no source. -/
def ofValue (root : Value) : Document := ⟨root, "<memory>"⟩

/-- The version of the format: a string, or a number as it is written in JSON. -/
def version? (document : Document) : Option String :=
  match document.root.get? "openapi" with
  | some (.string text) => some text
  | some (.number n) => some n.text
  | _ => none

def versionFault? (document : Document) : Option VersionFault :=
  match document.root.fields? with
  | none => some .notMapping
  | some _ =>
    if (document.root.get? "openapi").isNone then
      some (.missing (document.root.get? "swagger").isSome)
    else
      match document.version? with
      | none => some .notText
      | some version =>
        if ("3.".toList).isPrefixOf version.toList then none else some (.unsupported version)

def validate (document : Document) : Except Failure Unit :=
  match document.versionFault? with
  | none => .ok ()
  | some fault => .error (.version document.source fault)

def schemas (document : Document) : Fields :=
  ((document.root.at? ["components", "schemas"]).bind Value.fields?).getD []

def resolve? (document : Document) (reference : String) : Option Value :=
  match reference.toList with
  | '#' :: pointer => (Pointer.parse? (String.ofList pointer)).bind document.root.at?
  | _ => none

end Document

end SchemaTypes
