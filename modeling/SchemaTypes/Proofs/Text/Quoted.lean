import SchemaTypes.Text.Hexadecimal
import SchemaTypes.Text.Quoted

/-! # Reading string literals

What stands between the quotes of a string literal stands for a text, by the escapes of the
generated language. The written form of a text stands for that text.
-/

namespace SchemaTypes.Text

/-- The character that a backslash and one more character stand for. Digits and the letters `x` and
`u` are left out, as they begin an escape by number. -/
def escapedChar? (code : Char) : Option Char :=
  if code = 'n' then some '\n'
  else if code = 'r' then some '\r'
  else if code = 't' then some '\t'
  else if code = 'b' then some '\x08'
  else if code = 'v' then some '\x0b'
  else if code = 'f' then some '\x0c'
  else if code.isDigit ∨ code = 'x' ∨ code = 'u' ∨ code = '\n' then none
  else some code

/-- The text that is meant by what stands between double quotes. A backslash takes the end of a line
away; of the escapes by number those with a fixed count of digits are read. -/
def unescape? : List Char → Option (List Char)
  | [] => some []
  | '\\' :: '\n' :: rest => unescape? rest
  | '\\' :: 'x' :: a :: b :: rest =>
    (hexChar? 2 [a, b]).bind fun c => (unescape? rest).map fun cs => c :: cs
  | '\\' :: 'u' :: a :: b :: c :: d :: rest =>
    (hexChar? 4 [a, b, c, d]).bind fun c => (unescape? rest).map fun cs => c :: cs
  | '\\' :: code :: rest =>
    (escapedChar? code).bind fun c => (unescape? rest).map fun cs => c :: cs
  | c :: rest =>
    if c = '"' ∨ c = '\\' ∨ c = '\n' ∨ c = '\r' then none
    else (unescape? rest).map fun cs => c :: cs

theorem escapeChar_of_ne {c : Char} (h : c ∉ ['"', '\\', '\n', '\r', '\t']) :
    escapeChar c = [c] := by
  unfold escapeChar
  grind

/-- A character is written by an escape that stands for it, or as it is if it can be. -/
theorem escapeChar_cases (c : Char) :
    (∃ code, escapeChar c = ['\\', code] ∧ escapedChar? code = some c) ∨
      (escapeChar c = [c] ∧ ¬ (c = '"' ∨ c = '\\' ∨ c = '\n' ∨ c = '\r')) := by
  by_cases special : c ∈ ['"', '\\', '\n', '\r', '\t']
  · left
    simp only [List.mem_cons, List.not_mem_nil, or_false] at special
    rcases special with rfl | rfl | rfl | rfl | rfl
    · exact ⟨'"', rfl, by decide⟩
    · exact ⟨'\\', rfl, by decide⟩
    · exact ⟨'n', rfl, by decide⟩
    · exact ⟨'r', rfl, by decide⟩
    · exact ⟨'t', rfl, by decide⟩
  · right
    refine ⟨escapeChar_of_ne special, ?_⟩
    grind

theorem unescape?_escaped {code c : Char} (h : escapedChar? code = some c) (rest : List Char) :
    unescape? ('\\' :: code :: rest) = (unescape? rest).map fun cs => c :: cs := by
  have notNumber : code ≠ '\n' ∧ code ≠ 'x' ∧ code ≠ 'u' := by
    refine ⟨?_, ?_, ?_⟩ <;> rintro rfl <;> simp [escapedChar?] at h
  rw [unescape?, h]
  · rfl
  all_goals grind

theorem unescape?_plain {c : Char} (h : ¬ (c = '"' ∨ c = '\\' ∨ c = '\n' ∨ c = '\r'))
    (rest : List Char) : unescape? (c :: rest) = (unescape? rest).map fun cs => c :: cs := by
  rw [unescape?, if_neg h]
  all_goals grind

/-- What is written for a text stands for the text. -/
theorem unescape?_escape (cs : List Char) : unescape? (escape cs) = some cs := by
  induction cs with
  | nil => rfl
  | cons c cs ih =>
    rw [escape] at ih
    rw [escape, List.flatMap_cons]
    rcases escapeChar_cases c with ⟨code, written, stands⟩ | ⟨written, plain⟩
    · rw [written, List.cons_append, List.singleton_append, unescape?_escaped stands, ih]
      rfl
    · rw [written, List.singleton_append, unescape?_plain plain, ih]
      rfl

end SchemaTypes.Text
