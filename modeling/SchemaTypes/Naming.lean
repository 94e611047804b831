import SchemaTypes.Text.Quoted

/-! # Names of types and properties

A type name is made of the words of a raw name, its maximal runs of ASCII letters and digits, each
with a capital in front, between the two affixes that all type names share. A property keeps its
name and is quoted where it could not stand as a bare key.
-/

namespace SchemaTypes

structure Affixes where
  front : String
  back : String
deriving DecidableEq

namespace Naming

/-- Keywords that cannot stand as bare property keys. -/
def reservedWords : List String :=
  ["break", "case", "catch", "class", "const", "continue", "debugger", "default", "delete", "do",
    "else", "enum", "export", "extends", "false", "finally", "for", "function", "if", "import",
    "in", "instanceof", "new", "null", "return", "super", "switch", "this", "throw", "true", "try",
    "typeof", "var", "void", "while", "with", "yield"]

def isReserved (name : String) : Bool := reservedWords.contains name

/-- The letters and digits of a text, each first one after something else as a capital. The flag
tells whether a word would start here. -/
def joinWords : Bool → List Char → List Char
  | _, [] => []
  | start, c :: cs =>
    if c.isAlphanum then (if start then c.toUpper else c) :: joinWords false cs
    else joinWords true cs

/-- A type name without affixes: the joined words, with an underscore in front of a digit. A text
without letters and digits gives `Unnamed`. -/
def pascal (raw : String) : String :=
  match joinWords true raw.toList with
  | [] => "Unnamed"
  | c :: cs => String.ofList (if c.isDigit then '_' :: c :: cs else c :: cs)

def isKeyChar (c : Char) : Bool := c.isAlphanum || c == '_' || c == '$'

def isBareKey (name : String) : Bool :=
  match name.toList with
  | [] => false
  | c :: cs => !c.isDigit && (c :: cs).all isKeyChar && !isReserved name

def propertyKey (name : String) : String :=
  if isBareKey name then name else Text.quote name

end Naming

def Affixes.typeName (affixes : Affixes) (raw : String) : String :=
  affixes.front ++ Naming.pascal raw ++ affixes.back

end SchemaTypes
