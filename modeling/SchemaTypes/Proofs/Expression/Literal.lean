import SchemaTypes.Proofs.Expression.Written

/-! # Literals are single tokens

A literal that is not a string is a word: a keyword, or a number with its sign and exponent.
-/

namespace SchemaTypes

open Lexer

/-- All characters of a text can stand in one word. -/
def IsWordText (text : String) : Prop := text.toList.all isWordChar

instance (text : String) : Decidable (IsWordText text) :=
  inferInstanceAs (Decidable (text.toList.all isWordChar = true))

def isNumberChar (c : Char) : Bool := c.isDigit || ['.', '-', '+', 'e'].contains c

def IsNumberText (text : String) : Prop := text.toList.all isNumberChar

instance (text : String) : Decidable (IsNumberText text) :=
  inferInstanceAs (Decidable (text.toList.all isNumberChar = true))

theorem IsNumberText.isWordText {text : String} (h : IsNumberText text) : IsWordText text := by
  refine List.all_eq_true.mpr fun c mem => ?_
  rcases Bool.or_eq_true _ _ ▸ List.all_eq_true.mp h c mem with digit | other
  · simp [isWordChar, isNameChar, Char.isAlphanum, digit]
  · have words : ['.', '-', '+', 'e'].all isWordChar := by decide
    exact List.all_eq_true.mp words c (List.contains_iff_mem.mp other)

theorem IsNumberText.append {text more : String} (h : IsNumberText text) (k : IsNumberText more) :
    IsNumberText (text ++ more) := by
  rw [IsNumberText] at h k ⊢
  rw [String.toList_append, List.all_append, h, k]
  rfl

theorem isNumberText_digits {cs : List Char} (h : ∀ c ∈ cs, c.isDigit) :
    IsNumberText (String.ofList cs) := by
  rw [IsNumberText, String.toList_ofList, List.all_eq_true]
  intro c mem
  rw [isNumberChar, h c mem, Bool.true_or]

theorem isNumberText_repr (n : Nat) : IsNumberText n.repr := by
  rw [Nat.repr_eq_ofList_toDigits]
  exact isNumberText_digits fun c mem => Nat.isDigit_of_mem_toDigits (by decide) (by decide) mem

theorem append_ne_empty {text more : String} (h : text ≠ "" ∨ more ≠ "") : text ++ more ≠ "" := by
  intro empty
  have := congrArg String.toList empty
  simp at this
  rcases h with h | h
  · exact h this.1
  · exact h this.2

namespace Decimal

theorem isNumberText_zeros (n : Nat) : IsNumberText (zeros n) := by
  refine isNumberText_digits fun c mem => ?_
  rw [List.eq_of_mem_replicate mem]
  rfl

theorem isNumberText_unsigned (d : Scientific) : IsNumberText (Layout.standard.unsigned d) := by
  have digits : ∀ c ∈ Nat.toDigits 10 d.digits, c.isDigit := fun c mem =>
    Nat.isDigit_of_mem_toDigits (by decide) (by decide) mem
  have all := isNumberText_digits digits
  have front : ∀ n, IsNumberText (String.ofList ((Nat.toDigits 10 d.digits).take n)) := fun n =>
    isNumberText_digits fun c mem => digits c (List.mem_of_mem_take mem)
  have back : ∀ n, IsNumberText (String.ofList ((Nat.toDigits 10 d.digits).drop n)) := fun n =>
    isNumberText_digits fun c mem => digits c (List.mem_of_mem_drop mem)
  have point : IsNumberText "." := by decide
  have none : IsNumberText "" := by decide
  rw [Layout.unsigned]
  dsimp only
  split
  · decide
  · split
    · split
      · exact (all.append (isNumberText_zeros _)).append (by decide)
      · split
        · exact ((front _).append point).append (back _)
        · exact (IsNumberText.append (by decide) (isNumberText_zeros _)).append all
    · have fraction : IsNumberText (if (Nat.toDigits 10 d.digits).length = 1 then ""
          else "." ++ String.ofList ((Nat.toDigits 10 d.digits).drop 1)) := by
        split
        · exact none
        · exact point.append (back 1)
      have sign : ∀ exponent : Int,
          IsNumberText (if 0 ≤ exponent then Layout.standard.exponentPlus else "-") := by
        intro exponent
        split <;> decide
      exact ((((front 1).append fraction).append (by decide)).append (sign _)).append
        (isNumberText_repr _)

theorem unsigned_ne_empty (d : Scientific) : Layout.standard.unsigned d ≠ "" := by
  rw [Layout.unsigned]
  dsimp only
  split
  · decide
  · split
    · split
      · exact append_ne_empty (.inr (by decide))
      · split
        · exact append_ne_empty (.inl (append_ne_empty (.inr (by decide))))
        · exact append_ne_empty (.inl (append_ne_empty (.inl (by decide))))
    · exact append_ne_empty (.inl (append_ne_empty (.inl (append_ne_empty (.inr (by decide))))))

end Decimal

namespace Json

theorem isNumberText_number (n : Number) : IsNumberText n.text := by
  cases n with
  | whole n =>
    rw [Number.text, Int.toString_eq_repr, Int.repr_eq_if]
    split
    · exact isNumberText_repr _
    · exact IsNumberText.append (by decide) (isNumberText_repr _)
  | real x =>
    rw [Number.text, Decimal.Binary64.text]
    refine IsNumberText.append ?_ (Decimal.isNumberText_unsigned _)
    split <;> decide

theorem number_ne_empty (n : Number) : n.text ≠ "" := by
  cases n with
  | whole n =>
    rw [Number.text, Int.toString_eq_repr, Int.repr_eq_if]
    split
    · exact Nat.repr_ne_empty
    · exact append_ne_empty (.inl (by decide))
  | real x => exact append_ne_empty (.inr (Decimal.unsigned_ne_empty _))

/-- A literal is one token. -/
theorem written_literal (value : Value) : Written .atom value.literal [[.leaf value.literal]] := by
  cases value with
  | null => exact written_word (by decide) (by decide)
  | bool b => cases b <;> exact written_word (by decide) (by decide)
  | number n => exact written_word (number_ne_empty n) (isNumberText_number n).isWordText
  | string text => exact written_quote text
  | array items => exact written_quote _
  | object fields => exact written_quote _

/-- A literal is a word or a string literal. -/
theorem literal_cases (value : Value) :
    IsWordText value.literal ∨ ∃ text, value.literal = Text.quote text := by
  cases value with
  | null => exact .inl (by decide)
  | bool b => cases b <;> exact .inl (by decide)
  | number n => exact .inl (isNumberText_number n).isWordText
  | string text => exact .inr ⟨_, rfl⟩
  | array items => exact .inr ⟨_, rfl⟩
  | object fields => exact .inr ⟨_, rfl⟩

end Json

theorem Primitive.isWordText (primitive : Primitive) : IsWordText primitive.text := by
  cases primitive <;> decide

end SchemaTypes
