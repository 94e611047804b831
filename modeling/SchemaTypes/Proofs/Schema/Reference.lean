import Mathlib.Data.List.Basic
import SchemaTypes.Schema.Reference
import SchemaTypes.Generation.Document
import SchemaTypes.Proofs.Json.Pointer

/-! # What references lead to

A text refers to a component schema if a single written token follows the root of the components.
Then its last segment is that token, and as a pointer it leads through the same three tokens, so
that the name, the component and the part of the document that it points at belong together.
-/

namespace SchemaTypes

open SchemaTypes.Json

namespace Reference

/-- A reference to a component is the root of the components and one written token. -/
theorem component?_eq_some {reference key : String} :
    component? reference = some key ↔
      ∃ written, written ≠ [] ∧ '/' ∉ written ∧
        reference.toList = componentsRoot.toList ++ written ∧
        key = String.ofList (Pointer.unescapeChars written) := by
  rw [component?, Text.after?]
  constructor
  · intro found
    split at found
    · next c cs prefixed =>
      rw [List.isPrefixOf?_eq_some_iff_append_eq] at prefixed
      split at found
      · simp at found
      · next noSlash =>
        exact ⟨c :: cs, by simp, by simpa using noSlash, prefixed.symm, by simpa using found.symm⟩
    · simp at found
  · rintro ⟨written, nonempty, noSlash, shape, rfl⟩
    rcases List.exists_cons_of_ne_nil nonempty with ⟨c, cs, rfl⟩
    rw [List.isPrefixOf?_eq_some_iff_append_eq.mpr shape.symm]
    simp only [List.contains_eq_mem, noSlash, decide_false, Bool.false_eq_true, if_false]

theorem componentsRoot_toList :
    componentsRoot.toList = "#/components/schemas".toList ++ ['/'] := by
  rw [componentsRoot, ← String.toList_singleton, ← String.toList_append]
  rfl

theorem lastSegment_append {segment : List Char} (h : '/' ∉ segment) (front : List Char) :
    lastSegment (front ++ '/' :: segment) = segment := by
  have stops : (segment.reverse ++ '/' :: front.reverse).takeWhile (· != '/') =
      segment.reverse := by
    rw [List.takeWhile_append_of_pos]
    · simp
    · intro c mem
      simp only [bne_iff_ne]
      rintro rfl
      exact h (List.mem_reverse.mp mem)
  rw [lastSegment]
  simp only [List.reverse_append, List.reverse_cons, List.append_assoc, List.singleton_append]
  rw [stops, List.reverse_reverse]

/-- The name of a reference to a component is the key of the component. -/
theorem name_of_component? {reference key : String} (h : component? reference = some key) :
    name reference = key := by
  rcases component?_eq_some.mp h with ⟨written, nonempty, noSlash, shape, rfl⟩
  have last : lastSegment reference.toList = written := by
    rw [shape, componentsRoot_toList, List.append_assoc]
    exact lastSegment_append noSlash _
  rw [name, last]
  cases written with
  | nil => exact absurd rfl nonempty
  | cons c cs => rfl

theorem component?_toComponent {key : String} (nonempty : key ≠ "") :
    component? (toComponent key) = some key := by
  rw [component?_eq_some]
  refine ⟨Pointer.escapeChars key.toList, Pointer.escapeChars_ne_nil ?_,
    Pointer.slash_not_mem_escapeChars _, ?_, ?_⟩
  · simpa using nonempty
  · simp [toComponent, Pointer.escape]
  · simp [Pointer.unescapeChars_escapeChars]

theorem toComponent_injective : Function.Injective toComponent := by
  intro key other same
  have written : Pointer.escapeChars key.toList = Pointer.escapeChars other.toList := by
    have := congrArg String.toList same
    simpa [toComponent, Pointer.escape] using this
  rw [← String.toList_inj, ← Pointer.unescapeChars_escapeChars key.toList, written,
    Pointer.unescapeChars_escapeChars]

end Reference

namespace Document

theorem parse?_component {written : List Char} (noSlash : '/' ∉ written) :
    Pointer.parse? (String.ofList ("/components/schemas/".toList ++ written)) =
      some ["components", "schemas", String.ofList (Pointer.unescapeChars written)] := by
  have split : ("components/schemas/".toList ++ written).splitOn '/' =
      ["components".toList, "schemas".toList, written] := by
    change ("components".toList ++ '/' :: ("schemas".toList ++ '/' :: written)).splitOn '/' = _
    rw [List.splitOn_append_cons_self_of_not_mem (by decide),
      List.splitOn_append_cons_self_of_not_mem (by decide), List.splitOn_eq_singleton noSlash]
  rw [Pointer.parse?, String.toList_ofList]
  change some ((("components/schemas/".toList ++ written).splitOn '/').map _) = _
  rw [split]
  rfl

/-- A reference to a component leads to the component schema of that key. -/
theorem resolve?_of_component? {reference key : String} {document : Document} {schemas : Fields}
    (h : Reference.component? reference = some key)
    (place : document.root.at? ["components", "schemas"] = some (.object schemas)) :
    document.resolve? reference = Fields.get? key schemas := by
  rcases Reference.component?_eq_some.mp h with ⟨written, -, noSlash, shape, rfl⟩
  have fragment : reference.toList = '#' :: ("/components/schemas/".toList ++ written) := shape
  calc document.resolve? reference
    _ = document.root.at? (["components", "schemas"] ++
        [String.ofList (Pointer.unescapeChars written)]) := by
      rw [resolve?, fragment]
      simp only [parse?_component noSlash, Option.bind_some]
      rfl
    _ = _ := by
      rw [Value.at?_append, place]
      exact Value.at?_field schemas _

end Document

end SchemaTypes
