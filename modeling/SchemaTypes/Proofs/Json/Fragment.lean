import Mathlib.Tactic.IntervalCases
import SchemaTypes.Generation.Document
import SchemaTypes.Proofs.Json.Pointer

/-! # Pointers as fragments

A pointer is given to the user as a fragment, whose tokens are written so that a slash or a tilde in
them is no part of the notation. The fragment reads back as the pointer it was made from, whatever
the tokens are. So a reference with that text leads to where the pointer leads, and no other pointer
has the same text.
-/

namespace SchemaTypes

open SchemaTypes.Json

namespace Json.Pointer

theorem escape_toList (token : String) : (escape token).toList = escapeChars token.toList := by
  rw [escape, String.toList_ofList]

/-- The written tokens of a pointer, one slash between two of them, fall apart at the slashes. -/
theorem splitOn_written {pointer : Pointer} (nonempty : pointer ≠ []) :
    ("/".intercalate (pointer.map escape)).toList.splitOn '/' =
      pointer.map fun token => escapeChars token.toList := by
  have written : ("/".intercalate (pointer.map escape)).toList =
      ['/'].intercalate (pointer.map fun token => escapeChars token.toList) := by
    rw [String.toList_intercalate, List.map_map]
    exact congrArg _ (List.map_congr_left fun token _ => escape_toList token)
  rw [written, List.splitOn_intercalate]
  · intro token mem
    rcases List.mem_map.mp mem with ⟨token, -, rfl⟩
    exact slash_not_mem_escapeChars _
  · simpa using nonempty

/-- The text of a pointer reads back as the pointer. -/
theorem parse?_written {pointer : Pointer} (nonempty : pointer ≠ []) :
    parse? ("/" ++ "/".intercalate (pointer.map escape)) = some pointer := by
  have text : ("/" ++ "/".intercalate (pointer.map escape)).toList =
      '/' :: ("/".intercalate (pointer.map escape)).toList := by
    rw [String.toList_append]
    rfl
  have tokens : (pointer.map fun token => escapeChars token.toList).map
      (fun token => String.ofList (unescapeChars token)) = pointer := by
    simp [unescapeChars_escapeChars, Function.comp_def]
  rw [parse?, text]
  simp only [splitOn_written nonempty, tokens]

theorem fragment_toList (pointer : Pointer) :
    pointer.fragment.toList = '#' :: ("/" ++ "/".intercalate (pointer.map escape)).toList := by
  rw [fragment, String.toList_append, String.toList_append]
  rfl

/-- Pointers with the same fragment are the same. -/
theorem fragment_inj {pointer other : Pointer} (nonempty : pointer ≠ [])
    (alsoNonempty : other ≠ []) (same : pointer.fragment = other.fragment) : pointer = other := by
  have written := congrArg String.toList same
  rw [fragment_toList, fragment_toList, List.cons.injEq, String.toList_inj] at written
  have read := parse?_written nonempty
  rw [written.2, parse?_written alsoNonempty] at read
  exact (Option.some.inj read).symm

/-! ## Places of items -/

theorem toDigits_head? {n : Nat} (positive : 0 < n) : (Nat.toDigits 10 n).head? ≠ some '0' := by
  induction n using Nat.strongRecOn with
  | ind n ih =>
    rw [Nat.toDigits_eq_if (by decide)]
    split
    · next small => interval_cases n <;> decide
    · next large =>
      have first := ih (n / 10) (by omega) (by omega)
      rcases List.exists_cons_of_ne_nil (@Nat.toDigits_ne_nil (n / 10) 10) with ⟨c, cs, shape⟩
      rw [shape] at first ⊢
      exact first

theorem decimalValue_toDigits (n : Nat) : Text.decimalValue (Nat.toDigits 10 n) = n := by
  have digits := @Nat.ofDigitChars_ten_toDigits n
  rw [Nat.ofDigitChars_eq_foldl] at digits
  simp only [Nat.mul_comm 10] at digits
  exact digits

/-- The place of an item reads back as that place. -/
theorem index?_toString (n : Nat) : index? (toString n) = some n := by
  rcases Nat.eq_zero_or_pos n with rfl | positive
  · rfl
  · have digits : (Nat.toDigits 10 n).all Char.isDigit := by
      rw [List.all_eq_true]
      exact fun c mem => Nat.isDigit_of_mem_toDigits (by decide) (by decide) mem
    rcases List.exists_cons_of_ne_nil (@Nat.toDigits_ne_nil n 10) with ⟨c, cs, shape⟩
    have notZero : c ≠ '0' := by
      have := toDigits_head? positive
      rwa [shape, List.head?_cons, ne_eq, Option.some.injEq] at this
    have value := decimalValue_toDigits n
    rw [index?, Nat.toString_eq_ofList_toDigits, String.toList_ofList]
    rw [shape] at digits value ⊢
    split
    · contradiction
    · simp_all
    · simp_all
    · rw [if_pos digits, value]

end Json.Pointer

/-- The fragment of a pointer leads to where the pointer leads. -/
theorem Document.resolve?_fragment (document : Document) {pointer : Pointer}
    (nonempty : pointer ≠ []) : document.resolve? pointer.fragment = document.root.at? pointer := by
  rw [resolve?, Pointer.fragment_toList]
  simp only [String.ofList_toList, Pointer.parse?_written nonempty, Option.bind_some]

end SchemaTypes
