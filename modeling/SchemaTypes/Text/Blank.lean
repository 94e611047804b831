/-! # White space

The twenty-five characters with the Unicode property `White_Space`, and trimming. Trimming works on
lists of characters, where its laws are inductions; texts are trimmed through their characters.
-/

namespace SchemaTypes.Text

/-- The characters that Unicode gives the property `White_Space`. -/
def isBlank (c : Char) : Bool :=
  let n := c.toNat
  (9 ≤ n && n ≤ 13) || n == 0x20 || n == 0x85 || n == 0xA0 || n == 0x1680 ||
    (0x2000 ≤ n && n ≤ 0x200A) || n == 0x2028 || n == 0x2029 || n == 0x202F || n == 0x205F ||
    n == 0x3000

def trimFront (cs : List Char) : List Char :=
  cs.dropWhile isBlank

def trimBack (cs : List Char) : List Char :=
  (cs.reverse.dropWhile isBlank).reverse

def trim (cs : List Char) : List Char :=
  trimBack (trimFront cs)

def trimmed (s : String) : String :=
  String.ofList (trim s.toList)

end SchemaTypes.Text
