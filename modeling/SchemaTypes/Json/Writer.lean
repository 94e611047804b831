import SchemaTypes.Json.Value
import SchemaTypes.Text.Hexadecimal

/-! # Compact JSON text

The text of a value without any white space, fields in their order. Inside strings the quote, the
backslash and the control characters are escaped and nothing else is.
-/

namespace SchemaTypes.Json

def escapeChar (c : Char) : List Char :=
  match c with
  | '"' => ['\\', '"']
  | '\\' => ['\\', '\\']
  | '\n' => ['\\', 'n']
  | '\r' => ['\\', 'r']
  | '\t' => ['\\', 't']
  | '\x08' => ['\\', 'b']
  | '\x0c' => ['\\', 'f']
  | c =>
    if c.toNat < 32 then
      ['\\', 'u', '0', '0', Text.hexDigit (c.toNat / 16), Text.hexDigit (c.toNat % 16)]
    else [c]

def quoted (text : String) : String :=
  String.ofList ('"' :: text.toList.flatMap escapeChar ++ ['"'])

namespace Value

mutual

def compact : Value → String
  | .null => "null"
  | .bool true => "true"
  | .bool false => "false"
  | .number n => n.text
  | .string text => quoted text
  | .array items => "[" ++ ",".intercalate (compactItems items) ++ "]"
  | .object fields => "\x7b" ++ ",".intercalate (compactFields fields) ++ "\x7d"

def compactItems : List Value → List String
  | [] => []
  | item :: rest => compact item :: compactItems rest

def compactFields : List (String × Value) → List String
  | [] => []
  | (name, value) :: rest => (quoted name ++ ":" ++ compact value) :: compactFields rest

end

end Value

end SchemaTypes.Json
