/-! # Quoted text

String literals of the generated declarations. Between double quotes a quote, a backslash and the
three control characters that would break or blur the line are written with a backslash; every
other character stands for itself.
-/

namespace SchemaTypes.Text

def escapeChar : Char → List Char
  | '"' => ['\\', '"']
  | '\\' => ['\\', '\\']
  | '\n' => ['\\', 'n']
  | '\r' => ['\\', 'r']
  | '\t' => ['\\', 't']
  | c => [c]

def escape (cs : List Char) : List Char :=
  cs.flatMap escapeChar

def quote (s : String) : String :=
  String.ofList ('"' :: escape s.toList ++ ['"'])

end SchemaTypes.Text
