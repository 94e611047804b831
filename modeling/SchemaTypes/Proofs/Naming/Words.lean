import Mathlib
import SchemaTypes.Naming

/-! # The words of a name

What a type name keeps of a raw name are its words, joined with a capital each. Separators and the
case of first letters are lost, so two raw names have the same type name exactly if they are spelled
alike in this sense. A raw name that is one word with its capital is spelled as it stands.
-/

namespace SchemaTypes

namespace Naming

def words (cs : List Char) : List (List Char) :=
  (cs.splitOnP fun c => !c.isAlphanum).filter fun word => !word.isEmpty

def capitalized : List Char → List Char
  | [] => []
  | c :: cs => c.toUpper :: cs

/-- The joined words of a raw name. One without words is spelled like `Unnamed`. -/
def spelling (raw : String) : List Char :=
  match (words raw.toList).flatMap capitalized with
  | [] => "Unnamed".toList
  | cs => cs

/-- A single word with its capital, or with a digit in front. -/
def IsSpelled (raw : String) : Prop :=
  raw ≠ "" ∧ (∀ c ∈ raw.toList, c.isAlphanum) ∧ ∀ c ∈ raw.toList.head?, c.toUpper = c

theorem isAlphanum_toUpper (c : Char) : c.toUpper.isAlphanum = c.isAlphanum := by
  by_cases lower : c.isLower
  · simp [Char.isAlphanum, Char.isAlpha, lower]
  · rw [Char.toUpper_eq_of_not_isLower lower]

/-- Joining is splitting at what is no letter or digit, and capitalising what lies between. The
first piece goes on with a word that is already there, unless one starts. -/
theorem joinWords_eq (start : Bool) (cs : List Char) :
    ∃ first rest, (cs.splitOnP fun c => !c.isAlphanum) = first :: rest ∧
      joinWords start cs =
        (if start then capitalized first else first) ++ rest.flatMap capitalized := by
  induction cs generalizing start with
  | nil => exact ⟨[], [], rfl, by cases start <;> rfl⟩
  | cons c cs ih =>
    rw [joinWords, List.splitOnP_cons_eq_if_modifyHead]
    by_cases alphanum : c.isAlphanum
    · obtain ⟨first, rest, pieces, joined⟩ := ih false
      refine ⟨c :: first, rest, by simp [alphanum, pieces], ?_⟩
      rw [if_pos alphanum, joined]
      cases start <;> rfl
    · obtain ⟨first, rest, pieces, joined⟩ := ih true
      refine ⟨[], first :: rest, by simp [alphanum, pieces], ?_⟩
      rw [if_neg alphanum, joined]
      cases start <;> rfl

theorem joinWords_words (cs : List Char) :
    joinWords true cs = (words cs).flatMap capitalized := by
  have nonempty (pieces : List (List Char)) :
      (pieces.filter fun word => !word.isEmpty).flatMap capitalized =
        pieces.flatMap capitalized := by
    induction pieces with
    | nil => rfl
    | cons piece pieces ih => cases piece <;> simp [capitalized, ih]
  obtain ⟨first, rest, pieces, joined⟩ := joinWords_eq true cs
  rw [joined, words, nonempty, pieces, if_pos rfl, List.flatMap_cons]

theorem isAlphanum_of_mem_joinWords {start : Bool} {cs : List Char} {c : Char}
    (mem : c ∈ joinWords start cs) : c.isAlphanum := by
  induction cs generalizing start with
  | nil => cases mem
  | cons d cs ih =>
    rw [joinWords] at mem
    split at mem
    · next alphanum =>
      rcases List.mem_cons.mp mem with rfl | mem
      · cases start
        · exact alphanum
        · rw [if_pos rfl, isAlphanum_toUpper, alphanum]
      · exact ih mem
    · exact ih mem

/-- A type name is the spelling, with an underscore in front of a digit. -/
theorem pascal_toList (raw : String) :
    (pascal raw).toList =
      if (spelling raw).head?.any Char.isDigit then '_' :: spelling raw else spelling raw := by
  rw [pascal, spelling, ← joinWords_words]
  cases joinWords true raw.toList with
  | nil => rfl
  | cons c cs => exact String.toList_ofList

theorem underscore_not_mem_spelling (raw : String) : '_' ∉ spelling raw := by
  rw [spelling, ← joinWords_words]
  split
  · decide
  · intro mem
    exact absurd (isAlphanum_of_mem_joinWords mem) (by decide)

/-- Raw names have the same type name if they are spelled alike, and only then. -/
theorem pascal_eq_iff (raw other : String) :
    pascal raw = pascal other ↔ spelling raw = spelling other := by
  constructor
  · intro same
    have chars := congrArg String.toList same
    rw [pascal_toList, pascal_toList] at chars
    have here := underscore_not_mem_spelling raw
    have there := underscore_not_mem_spelling other
    split at chars <;> split at chars
    · exact (List.cons.inj chars).2
    · rw [← chars] at there
      exact absurd List.mem_cons_self there
    · rw [chars] at here
      exact absurd List.mem_cons_self here
    · exact chars
  · intro same
    rw [← String.toList_inj, pascal_toList, pascal_toList, same]

example : pascal "api.v1 user" = pascal "api_V1User" := by decide

theorem spelling_of_isSpelled {raw : String} (spelled : IsSpelled raw) :
    spelling raw = raw.toList := by
  obtain ⟨nonempty, alphanum, capital⟩ := spelled
  have some : raw.toList ≠ [] := by simpa using nonempty
  rcases List.exists_cons_of_ne_nil some with ⟨c, cs, shape⟩
  have pieces : (raw.toList.splitOnP fun c => !c.isAlphanum) = [raw.toList] :=
    List.splitOnP_eq_singleton fun c mem => by simp [alphanum c mem]
  rw [spelling, words, pieces, shape]
  rw [shape] at capital
  simp [capitalized, capital c rfl]

end Naming

end SchemaTypes
