import SchemaTypes.Yaml.Tag

/-! # Tokens

The parts of a YAML text with the structure that indentation and punctuation give it: blocks are
opened and closed, and keys are marked as such.
-/

namespace SchemaTypes.Yaml

inductive Token where
  | directive (directive : Directive)
  | documentStart
  | documentEnd
  | blockSequenceStart
  | blockMappingStart
  | blockEnd
  | flowSequenceStart
  | flowSequenceEnd
  | flowMappingStart
  | flowMappingEnd
  /-- The dash in front of an item. -/
  | blockEntry
  /-- The comma between entries. -/
  | flowEntry
  /-- A key begins. -/
  | key
  /-- The colon after a key. -/
  | value
  | alias (name : String)
  | anchor (name : String)
  | tag (tag : Tag)
  /-- A scalar; the flag tells that it has no quotes and is no block. -/
  | scalar (text : String) (plain : Bool)

end SchemaTypes.Yaml
