import SchemaTypes.Yaml.Reader
import SchemaTypes.Proofs.Json.Names

/-! # Names in values of YAML texts

Scalars have no fields, and a mapping gives its entries to an object one after the other. So the
value of a document has every name at most once in an object, though the document may repeat keys.
-/

namespace SchemaTypes.Yaml

open SchemaTypes.Json

namespace Scalar

theorem readInt_hasDistinctNames {cs : List Char} {value : Value}
    (read : readInt cs = .is value) : value.HasDistinctNames := by
  rw [readInt] at read
  split at read
  · split at read
    · cases read
      exact .number _
    · split at read <;> cases read
  · cases read

theorem floatValue?_hasDistinctNames {cs : List Char} {value : Value}
    (read : floatValue? cs = some value) : value.HasDistinctNames := by
  rw [floatValue?] at read
  split at read
  · cases read
    exact .null
  · rcases Option.map_eq_some_iff.mp read with ⟨x, -, read⟩
    cases read
    exact .number _

theorem plain?_hasDistinctNames {text : String} {value : Value}
    (read : plain? text = some value) : value.HasDistinctNames := by
  simp only [plain?] at read
  split at read
  · cases read
    exact .null
  · split at read
    · cases read
      exact .bool _
    · split at read
      · next isInt =>
        cases read
        exact readInt_hasDistinctNames isInt
      · cases read
      · split at read
        · cases read
          exact .string text
        · cases read
          cases isFloat : floatValue? text.toList with
          | none => exact .string text
          | some value => exact floatValue?_hasDistinctNames isFloat

theorem tagged?_hasDistinctNames {tag text : String} {value : Value}
    (read : tagged? tag text = some value) : value.HasDistinctNames := by
  simp only [tagged?] at read
  split at read
  · cases read
  · split at read
    · split at read
      · cases read
        exact .null
      · cases read
    · split at read
      · rcases Option.map_eq_some_iff.mp read with ⟨b, -, read⟩
        cases read
        exact .bool b
      · split at read
        · split at read
          · next isInt =>
            cases read
            exact readInt_hasDistinctNames isInt
          · cases read
        · split at read
          · exact floatValue?_hasDistinctNames read
          · cases read
            exact .string text

end Scalar

namespace Evaluate

variable {α β : Type}

/-- Whatever copies can still be made, the result of a step is as described if there is one. -/
def Gives (action : Evaluate α) (holds : α → Prop) : Prop :=
  ∀ before a after, action.run before = some (a, after) → holds a

variable {action : Evaluate α} {next : α → Evaluate β} {first : α → Prop} {holds : β → Prop}

theorem gives_pure {b : β} (here : holds b) : Gives (pure b) holds := by
  intro before b after run
  cases run
  exact here

theorem gives_failure : Gives failure holds := fun _ _ _ run => nomatch run

theorem gives_lift {found : Option β} (each : ∀ b, found = some b → holds b) :
    Gives (liftM found) holds := by
  intro before b after run
  rcases Option.bind_eq_some_iff.mp run with ⟨c, isFound, same⟩
  cases same
  exact each b isFound

theorem Gives.bind (begins : Gives action first) (goesOn : ∀ a, first a → Gives (next a) holds) :
    Gives (action >>= next) holds := by
  intro before b after run
  rw [StateT.run_bind] at run
  rcases Option.bind_eq_some_iff.mp run with ⟨⟨a, middle⟩, isFirst, run⟩
  exact goesOn a (begins before a middle isFirst) middle b after run

theorem gives_any (action : Evaluate α) : Gives action fun _ => True := fun _ _ _ _ => trivial

theorem gives_mapM {action : α → Evaluate β} (each : ∀ a, Gives (action a) holds) (as : List α) :
    Gives (as.mapM action) fun bs => ∀ b ∈ bs, holds b := by
  induction as with
  | nil => exact gives_pure fun b mem => nomatch mem
  | cons a as ih =>
    rw [List.mapM_cons]
    refine (each a).bind fun b here => ih.bind fun others further => ?_
    exact gives_pure (List.forall_mem_cons.mpr ⟨here, further⟩)

/-- The value of a node has every name at most once in an object. -/
theorem value_gives (slots : List (Nat × Node)) (depth : Nat) (node : Node) :
    Gives (value slots depth node) Value.HasDistinctNames := by
  induction depth using Nat.strongRecOn generalizing node with
  | ind depth ih =>
    unfold value
    refine (gives_any _).bind fun found _ => ?_
    split
    · split
      · exact gives_lift fun _ read => Scalar.tagged?_hasDistinctNames read
      · split
        · exact gives_lift fun _ read => Scalar.plain?_hasDistinctNames read
        · exact gives_pure (.string _)
    · split
      · exact gives_failure
      · next depth =>
        have values (items : List Node) := (gives_mapM (ih depth depth.lt_succ_self) items).bind
          fun values each => gives_pure (Value.HasDistinctNames.array each)
        dsimp only
        split
        · exact (gives_any _).bind fun _ _ => values _
        · exact values _
    · split
      · exact gives_failure
      · next depth =>
        have entry (entry : Node × Node) :
            Gives (do return (← key slots entry.1, ← value slots depth entry.2))
              fun field : String × Value => field.2.HasDistinctNames :=
          (gives_any _).bind fun name _ => (ih depth depth.lt_succ_self entry.2).bind
            fun value here => gives_pure here
        have fields (entries : List (Node × Node)) := (gives_mapM entry entries).bind
          fun fields each => gives_pure (Value.HasDistinctNames.ofList each)
        dsimp only
        split
        · exact (gives_any _).bind fun _ _ => fields _
        · exact fields _
    · exact gives_failure

end Evaluate

/-- A YAML text has no value with a name twice in one object. -/
theorem value?_hasDistinctNames {text : String} {value : Value}
    (read : Yaml.value? text = some value) : value.HasDistinctNames := by
  rw [Yaml.value?] at read
  rcases Option.bind_eq_some_iff.mp read with ⟨tokens, -, read⟩
  rcases Option.bind_eq_some_iff.mp read with ⟨⟨root, rest⟩, -, read⟩
  cases root with
  | none =>
    cases read
    exact .null
  | some root =>
    rcases Option.map_eq_some_iff.mp read with ⟨⟨found, copies⟩, run, same⟩
    cases same
    exact Evaluate.value_gives _ _ root _ _ _ run

end SchemaTypes.Yaml
