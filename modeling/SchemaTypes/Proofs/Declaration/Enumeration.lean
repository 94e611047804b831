import SchemaTypes.Proofs.Declaration.Lines

/-! # The lines of an `enum`

The declaration of an enumeration has a line for every value other than `null`: a key that no other
line has, and the literal of the value.
-/

namespace SchemaTypes.TypeTree

open SchemaTypes.Json Text Enumeration

/-- Between its braces an `enum` has a line for each value other than `null`, in their order, with a
key and the literal of the value. The keys are all different; each of them stands bare, and is the
end of counting up from the key of its value past the keys in front. -/
theorem enumDeclaration_lists_values (name : String) (description : Option String)
    (nullable ofStrings : Bool) (values : List Value) :
    let tree : TypeTree := .node ⟨some name, description, nullable⟩ (.enumeration values ofStrings)
    let given := values.filter fun value => !value.isNull
    ∃ keys body, tree.enumDeclaration? = some ("enum " ++ name ++ " \x7b\n" ++ body ++ "\x7d") ∧
      keys.length = given.length ∧
      lines body.toList = List.zipWith (fun key value =>
        ("  " ++ key ++ " = " ++ value.literal ++ ",").toList) keys given ++ [[]] ∧
      keys.Nodup ∧ (∀ key ∈ keys, IsKey key) ∧
      ∀ (place : Nat) chosen value, keys[place]? = some chosen → given[place]? = some value →
        CountsUp (keys.take place) (key value) (key value) 2 chosen := by
  intro tree given
  have literals : (members [] values).map (·.2) = given.map Value.literal :=
    members_literals [] values
  refine ⟨(members [] values).map (·.1), String.join ((members [] values).map memberLine), rfl,
    ?_, ?_, nodup_members [] values, ?_, ?_⟩
  · simpa using congrArg List.length literals
  · have each : ∀ member ∈ members [] values, '\n' ∉ member.1.toList ∧ '\n' ∉ member.2.toList :=
      fun _ mem => whole_of_mem_members mem
    have whole := lines_members each []
    rw [List.append_nil] at whole
    rw [whole, ← List.zipWith_map_right (f := Value.literal)
      (g := fun key literal => ("  " ++ key ++ " = " ++ literal ++ ",").toList), ← literals,
      List.zipWith_map, List.zipWith_self]
    rfl
  · rw [List.forall_mem_map]
    exact fun _ mem => isKey_of_mem_members mem
  · intro place chosen value here isValue
    rw [List.getElem?_map, Option.map_eq_some_iff] at here
    obtain ⟨member, here, rfl⟩ := here
    exact countsUp_members here isValue

/-- A value whose own key has been counted up to before, a repeated value, and `null`. -/
theorem enumDeclaration_lists_values_again :
    let values : List Value :=
      [.string "a b", .string "a-b", .null, .string "a_b_2", .string "a b"]
    let tree : TypeTree := .node ⟨some "Odd", none, true⟩ (.enumeration values true)
    let body := "  A_B = \"a b\",\n  A_B_2 = \"a-b\",\n  A_B_2_2 = \"a_b_2\",\n  A_B_3 = \"a b\",\n"
    tree.enumDeclaration? = some ("enum Odd \x7b\n" ++ body ++ "\x7d") ∧
    ∃ keys : List String, keys.Nodup ∧ (∀ key ∈ keys, IsKey key) ∧ keys.length = 4 ∧
      lines body.toList = List.zipWith (fun key value =>
        ("  " ++ key ++ " = " ++ value.literal ++ ",").toList) keys
          (values.filter fun value => !value.isNull) ++ [[]] := by
  intro values tree body
  have declared : tree.enumDeclaration? = some ("enum Odd \x7b\n" ++ body ++ "\x7d") := by
    decide +kernel
  obtain ⟨keys, rows, text, length, isRows, distinct, areKeys, -⟩ :=
    enumDeclaration_lists_values "Odd" none true true values
  have same : rows = body := by
    have heading : "enum " ++ "Odd" ++ " \x7b\n" = "enum Odd \x7b\n" := by decide
    have both := Option.some.inj (text.symm.trans declared)
    rwa [heading, String.append_left_inj, String.append_right_inj] at both
  exact ⟨declared, keys, distinct, areKeys, length, same ▸ isRows⟩

end SchemaTypes.TypeTree
