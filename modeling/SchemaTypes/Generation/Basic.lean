import SchemaTypes.Generation.Document
import SchemaTypes.Generation.Output
import SchemaTypes.Build.Session

/-! # Generation

The text for a document under given settings, with all that was found on the way.
-/

namespace SchemaTypes

structure Generation where
  text : String
  /-- The custom types in use, in the order of their first use. -/
  used : List String
  imports : List String
  findings : List Finding

/-- Generate the types of a document. The version of the document does not matter here. -/
def Settings.generate (settings : Settings) (document : Document) : Generation :=
  let schemas := document.schemas
  let builder : Builder := ⟨settings.affixes, schemas⟩
  let (trees, context) := builder.buildAll schemas
  let imports := settings.imports.resolve context.used
  ⟨settings.declarations.file trees imports, context.used, imports, context.findings⟩

end SchemaTypes
