import Mathlib.Data.List.Basic
import SchemaTypes.Proofs.Text.Quoted

/-! # String literals

A string literal stands for code units of UTF-16, which its characters and escapes give one after
the other up to the closing quote. The quoted form of a text is a literal of one line that ends
where it ends, whatever follows, and stands for the text.
-/

namespace SchemaTypes.Text

/-! ## Code units -/

def codeUnits (point : Nat) : List Nat :=
  if point < 0x10000 then [point]
  else [0xD800 + (point - 0x10000) / 0x400, 0xDC00 + (point - 0x10000) % 0x400]

/-- The text with given code units. There is none if half of a pair stands alone. -/
def ofCodeUnits? : List Nat → Option (List Char)
  | [] => some []
  | unit :: rest =>
    if unit < 0xD800 ∨ 0xDFFF < unit then (ofCodeUnits? rest).map (Char.ofNat unit :: ·)
    else
      match rest with
      | [] => none
      | low :: rest =>
        if unit ≤ 0xDBFF ∧ 0xDC00 ≤ low ∧ low ≤ 0xDFFF then
          (ofCodeUnits? rest).map
            (Char.ofNat (0x10000 + (unit - 0xD800) * 0x400 + (low - 0xDC00)) :: ·)
        else none

theorem ofCodeUnits?_append (c : Char) (units : List Nat) :
    ofCodeUnits? (codeUnits c.toNat ++ units) = (ofCodeUnits? units).map (c :: ·) := by
  have valid : c.toNat < 0xD800 ∨ 0xDFFF < c.toNat ∧ c.toNat < 0x110000 := c.valid
  rw [codeUnits]
  split
  · rw [List.singleton_append, ofCodeUnits?.eq_def]
    dsimp only
    rw [if_pos (by omega), Char.ofNat_toNat]
  · next paired =>
    rw [List.cons_append, List.singleton_append, ofCodeUnits?.eq_def]
    dsimp only
    rw [if_neg (by omega), if_pos (by omega)]
    have point : 0x10000 + (0xD800 + (c.toNat - 0x10000) / 0x400 - 0xD800) * 0x400 +
        (0xDC00 + (c.toNat - 0x10000) % 0x400 - 0xDC00) = c.toNat := by
      omega
    rw [point, Char.ofNat_toNat]

theorem ofCodeUnits?_flatMap (cs : List Char) :
    ofCodeUnits? (cs.flatMap fun c => codeUnits c.toNat) = some cs := by
  induction cs with
  | nil => rfl
  | cons c cs ih => rw [List.flatMap_cons, ofCodeUnits?_append, ih, Option.map_some]

/-! ## Reading -/

def isLineEnd (c : Char) : Bool :=
  c == '\n' || c == '\r' || c == '\u2028' || c == '\u2029'

/-- The code units of the escape that begins behind a backslash, and the number of its characters.
The end of a line gives none. -/
def escapeUnits? : List Char → Option (List Nat × Nat)
  | [] => none
  | 'x' :: rest => (hexNumber? 2 rest).map fun unit => ([unit], 3)
  | 'u' :: '{' :: rest =>
    let digits := rest.takeWhile (· != '}')
    if digits = [] ∨ digits = rest then none
    else
      ((hexNumber? digits.length digits).filter (· ≤ 0x10FFFF)).map fun point =>
        (codeUnits point, digits.length + 3)
  | 'u' :: rest => (hexNumber? 4 rest).map fun unit => ([unit], 5)
  | '0' :: rest => if rest.head?.any Char.isDigit then none else some ([0], 1)
  | '\r' :: '\n' :: _ => some ([], 2)
  | code :: _ =>
    if isLineEnd code then some ([], 1)
    else (escapedChar? code).map fun c => (codeUnits c.toNat, 1)

/-- The code units of a literal up to its closing quote, and what follows the quote. The number
counts the characters in front that belong to an escape that has been read. -/
def literalUnits? : Nat → List Char → Option (List Nat × List Char)
  | _, [] => none
  | count + 1, _ :: rest => literalUnits? count rest
  | 0, c :: rest =>
    if c = '"' then some ([], rest)
    else if c = '\\' then
      (escapeUnits? rest).bind fun (units, count) =>
        (literalUnits? count rest).map fun (further, behind) => (units ++ further, behind)
    else if c = '\n' ∨ c = '\r' then none
    else
      (literalUnits? 0 rest).map fun (further, behind) => (codeUnits c.toNat ++ further, behind)

/-- The text of the string literal in front of a program, and what follows the literal. -/
def stringLiteral? : List Char → Option (List Char × List Char)
  | '"' :: rest =>
    (literalUnits? 0 rest).bind fun (units, behind) =>
      (ofCodeUnits? units).map fun cs => (cs, behind)
  | _ => none

/-- A character is written as it is, or as a backslash and another one that stands for it. -/
theorem escapeChar_forms (c : Char) :
    (∃ code ∈ ['"', '\\', 'n', 'r', 't'], escapeChar c = ['\\', code] ∧
      ∀ rest, escapeUnits? (code :: rest) = some (codeUnits c.toNat, 1)) ∨
    escapeChar c = [c] ∧ c ≠ '"' ∧ c ≠ '\\' ∧ c ≠ '\n' ∧ c ≠ '\r' := by
  by_cases special : c ∈ ['"', '\\', '\n', '\r', '\t']
  · left
    simp only [List.mem_cons, List.not_mem_nil, or_false] at special
    rcases special with rfl | rfl | rfl | rfl | rfl
    · exact ⟨'"', by decide, rfl, fun _ => rfl⟩
    · exact ⟨'\\', by decide, rfl, fun _ => rfl⟩
    · exact ⟨'n', by decide, rfl, fun _ => rfl⟩
    · exact ⟨'r', by decide, rfl, fun _ => rfl⟩
    · exact ⟨'t', by decide, rfl, fun _ => rfl⟩
  · right
    refine ⟨escapeChar_of_ne special, ?_⟩
    simp only [List.mem_cons, List.not_mem_nil, or_false, not_or] at special
    exact ⟨special.1, special.2.1, special.2.2.1, special.2.2.2.1⟩

theorem literalUnits?_escapeChar (c : Char) (rest : List Char) :
    literalUnits? 0 (escapeChar c ++ rest) =
      (literalUnits? 0 rest).map fun (further, behind) =>
        (codeUnits c.toNat ++ further, behind) := by
  rcases escapeChar_forms c with
    ⟨code, -, written, stands⟩ | ⟨written, noQuote, noBackslash, noNewline, noReturn⟩
  · rw [written, List.cons_append, List.singleton_append, literalUnits?, if_neg (by decide),
      if_pos rfl, stands]
    rfl
  · rw [written, List.singleton_append, literalUnits?, if_neg noQuote, if_neg noBackslash,
      if_neg (not_or.mpr ⟨noNewline, noReturn⟩)]

theorem literalUnits?_escape (cs rest : List Char) :
    literalUnits? 0 (escape cs ++ '"' :: rest) =
      some (cs.flatMap fun c => codeUnits c.toNat, rest) := by
  induction cs with
  | nil => rfl
  | cons c cs ih =>
    rw [escape] at ih
    rw [escape, List.flatMap_cons, List.append_assoc, literalUnits?_escapeChar, ih]
    rfl

theorem quote_toList (s : String) : (quote s).toList = '"' :: (escape s.toList ++ ['"']) := by
  rw [quote, String.toList_ofList, List.cons_append]

/-- A quoted text is read back, up to where it ends. -/
theorem stringLiteral?_quote (s : String) (rest : List Char) :
    stringLiteral? ((quote s).toList ++ rest) = some (s.toList, rest) := by
  rw [quote_toList, List.cons_append, List.append_assoc, List.singleton_append, stringLiteral?,
    literalUnits?_escape, Option.bind_some]
  dsimp only
  rw [ofCodeUnits?_flatMap, Option.map_some]

-- Escapes of every kind, and the end of a line of two characters.
example :
    stringLiteral? "\"\\x41\\u00e4\\u\x7b1F600\x7d\\ud83d\\ude00\\0\\\r\n\\q'\" | B".toList =
      some ("Aä😀😀\x00q'".toList, " | B".toList) := by
  decide +kernel

/-! ## Quotes and ends of lines -/

/-- Whether a backslash at the end of a text escapes what follows it. -/
def opensEscape (cs : List Char) : Bool :=
  cs.foldl (fun escaped c => !escaped && c == '\\') false

theorem opensEscape_append {cs : List Char} (closed : opensEscape cs = false) (ds : List Char) :
    opensEscape (cs ++ ds) = opensEscape ds := by
  rw [opensEscape] at closed
  rw [opensEscape, List.foldl_append, closed, opensEscape]

theorem opensEscape_escapeChar (c : Char) : opensEscape (escapeChar c) = false := by
  rcases escapeChar_forms c with ⟨code, -, written, -⟩ | ⟨written, -, noBackslash, -⟩
  · rw [written]
    rfl
  · rw [written]
    simpa [opensEscape] using noBackslash

theorem opensEscape_escape (cs : List Char) : opensEscape (escape cs) = false := by
  induction cs with
  | nil => rfl
  | cons c cs ih =>
    rw [escape] at ih
    rw [escape, List.flatMap_cons, opensEscape_append (opensEscape_escapeChar c), ih]

/-- A quote within what is written for a character is escaped. -/
theorem opensEscape_of_escapeChar {c : Char} {front back : List Char}
    (split : escapeChar c = front ++ '"' :: back) : opensEscape front = true := by
  rcases escapeChar_forms c with ⟨code, -, written, -⟩ | ⟨written, noQuote, -⟩
  · rw [written] at split
    rcases front with _ | ⟨first, _ | ⟨second, further⟩⟩
    · exact absurd (List.cons.inj split).1 (by decide)
    · rw [← (List.cons.inj split).1]
      rfl
    · simp at split
  · rw [written] at split
    rcases front with _ | ⟨first, further⟩
    · exact absurd (List.cons.inj split).1 noQuote
    · simp at split

/-- A quote within what is written for a text is escaped. -/
theorem opensEscape_of_escape {cs front back : List Char}
    (split : escape cs = front ++ '"' :: back) : opensEscape front = true := by
  induction cs generalizing front with
  | nil => simp [escape] at split
  | cons c cs ih =>
    rw [escape, List.flatMap_cons, ← escape, List.append_eq_append_iff] at split
    rcases split with ⟨further, rfl, rest⟩ | ⟨rest, written, behind⟩
    · rw [opensEscape_append (opensEscape_escapeChar c)]
      exact ih rest
    · rcases rest with _ | ⟨quote, rest⟩
      · have whole : escape cs = [] ++ '"' :: back := behind.symm
        exact absurd (ih whole) (by decide)
      · rw [List.cons_append, List.cons.injEq] at behind
        exact opensEscape_of_escapeChar (behind.1 ▸ written)

/-- Of the quotes in a quoted text all are escaped but the first and the last character. -/
theorem opensEscape_eq_false_iff {s : String} {front back : List Char}
    (split : (quote s).toList = front ++ '"' :: back) :
    opensEscape front = false ↔ front = [] ∨ back = [] := by
  rw [quote_toList] at split
  rcases front with _ | ⟨first, inner⟩
  · exact iff_of_true rfl (.inl rfl)
  · rw [List.cons_append, List.cons.injEq] at split
    obtain ⟨rfl, inside⟩ := split
    rw [show opensEscape ('"' :: inner) = opensEscape inner from rfl]
    rcases List.eq_nil_or_concat' back with rfl | ⟨further, last, rfl⟩
    · rw [← (List.append_inj' inside rfl).1, opensEscape_escape]
      exact iff_of_true rfl (.inr rfl)
    · have escaped : opensEscape inner = true := by
        rw [← List.cons_append, ← List.append_assoc] at inside
        exact opensEscape_of_escape (List.append_inj' inside rfl).1
      rw [escaped]
      simp

theorem lineEnd_not_mem_escapeChar {c d : Char} (written : d ∈ escapeChar c) :
    d ≠ '\n' ∧ d ≠ '\r' := by
  rcases escapeChar_forms c with ⟨code, isCode, same, -⟩ | ⟨same, -, -, noNewline, noReturn⟩
  · rw [same, List.mem_cons, List.mem_singleton] at written
    rcases written with rfl | rfl
    · decide
    · refine ⟨?_, ?_⟩ <;> rintro rfl <;> exact absurd isCode (by decide)
  · rw [same, List.mem_singleton] at written
    rw [written]
    exact ⟨noNewline, noReturn⟩

/-- A quoted text stands on one line. -/
theorem lineEnd_not_mem_quote (s : String) : ∀ c ∈ (quote s).toList, c ≠ '\n' ∧ c ≠ '\r' := by
  intro d mem
  rw [quote_toList, List.mem_cons, List.mem_append, List.mem_singleton] at mem
  rcases mem with rfl | inner | rfl
  · decide
  · obtain ⟨c, -, written⟩ := List.mem_flatMap.mp inner
    exact lineEnd_not_mem_escapeChar written
  · decide

end SchemaTypes.Text
