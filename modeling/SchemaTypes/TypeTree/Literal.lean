import SchemaTypes.Json.Writer
import SchemaTypes.Text.Quoted

/-! # Literals

A JSON value as a literal type. Arrays and objects have no literal type of their own and are written
as a string that holds their JSON text.
-/

namespace SchemaTypes.Json.Value

def literal : Value → String
  | .string text => Text.quote text
  | .array items => Text.quote (compact (.array items))
  | .object fields => Text.quote (compact (.object fields))
  | value => compact value

end SchemaTypes.Json.Value
