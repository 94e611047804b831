import Mathlib.Data.List.Nodup
import SchemaTypes.Naming
import SchemaTypes.Proofs.Text.Literal

/-! # Keys stand for their names

The key of a property is an identifier or a string literal, and read as the one that it is it gives
the name of the property. So properties with different names have different keys.
-/

namespace SchemaTypes.Naming

open Text

/-- An identifier of ASCII letters, digits, underscores and dollar signs, no digit in front. -/
def isIdentifier : List Char → Bool
  | [] => false
  | c :: cs => !c.isDigit && (c :: cs).all fun d => d.isAlphanum || d == '_' || d == '$'

/-- The name that a key stands for: the text of a string literal, and an identifier itself. -/
def keyText? (key : String) : Option String :=
  if key.toList.head? = some '"' then
    (stringLiteral? key.toList).bind fun (name, behind) =>
      if behind = [] then some (String.ofList name) else none
  else if isIdentifier key.toList then some key
  else none

theorem isBareKey_eq (name : String) :
    isBareKey name = (isIdentifier name.toList && !isReserved name) := by
  rw [isBareKey]
  cases name.toList with
  | nil => rfl
  | cons c cs => rfl

theorem head_ne_quote_of_isIdentifier {cs : List Char} (identifier : isIdentifier cs) :
    cs.head? ≠ some '"' := by
  cases cs with
  | nil => exact nofun
  | cons c cs =>
    intro quoted
    rw [List.head?_cons, Option.some.injEq] at quoted
    have refused : isIdentifier ('"' :: cs) = false := rfl
    rw [quoted, refused] at identifier
    cases identifier

/-- A property name stands bare if it is an identifier and no keyword, and is quoted otherwise. -/
theorem propertyKey_bare_or_quoted (name : String) :
    (propertyKey name = name ∧ isIdentifier name.toList ∧ isReserved name = false) ∨
      propertyKey name = quote name := by
  rw [propertyKey, isBareKey_eq]
  split
  · next bare =>
    obtain ⟨identifier, free⟩ := (Bool.and_eq_true _ _).mp bare
    exact .inl ⟨rfl, identifier, by simpa using free⟩
  · exact .inr rfl

theorem keyText?_propertyKey (name : String) : keyText? (propertyKey name) = some name := by
  rcases propertyKey_bare_or_quoted name with ⟨bare, identifier, -⟩ | quoted
  · rw [bare, keyText?, if_neg (head_ne_quote_of_isIdentifier identifier), if_pos identifier]
  · have read : stringLiteral? (quote name).toList = some (name.toList, []) := by
      simpa using stringLiteral?_quote name []
    have first : (quote name).toList.head? = some '"' := by
      rw [quote_toList]
      rfl
    rw [quoted, keyText?, if_pos first, read, Option.bind_some]
    dsimp only
    rw [if_pos rfl, String.ofList_toList]

theorem propertyKey_injective : Function.Injective propertyKey := by
  intro name other same
  have read := congrArg keyText? same
  rw [keyText?_propertyKey, keyText?_propertyKey] at read
  exact Option.some.inj read

/-- A quoted text is a literal on one line whose quotes are escaped but for the first and the last
character, and stands for the text whatever follows. A property name is its own key or is quoted;
its key stands for it; and keys differ where names do. -/
theorem literals_and_keys_decode (text : String) :
    (∀ c ∈ (quote text).toList, c ≠ '\n' ∧ c ≠ '\r') ∧
    (∀ front back, (quote text).toList = front ++ '"' :: back →
      (opensEscape front = false ↔ front = [] ∨ back = [])) ∧
    (∀ rest : String,
      stringLiteral? (quote text ++ rest).toList = some (text.toList, rest.toList)) ∧
    ((propertyKey text = text ∧ isIdentifier text.toList ∧ isReserved text = false) ∨
      propertyKey text = quote text) ∧
    keyText? (propertyKey text) = some text ∧
    ∀ names : List String, (names.map propertyKey).Nodup ↔ names.Nodup := by
  refine ⟨lineEnd_not_mem_quote text, fun front back => opensEscape_eq_false_iff, fun rest => ?_,
    propertyKey_bare_or_quoted text, keyText?_propertyKey text,
    fun names => List.nodup_map_iff propertyKey_injective⟩
  rw [String.toList_append, stringLiteral?_quote]

end SchemaTypes.Naming
