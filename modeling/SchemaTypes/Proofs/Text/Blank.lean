import Mathlib.Data.List.Basic
import Mathlib.Data.List.TakeWhile
import SchemaTypes.Text.Blank

/-! # Trimming

A trimmed text has the characters of the text but for white space at its ends, and trimming changes
nothing in a text without any there. So a text may be trimmed again.
-/

namespace SchemaTypes.Text

theorem mem_of_mem_trim {c : Char} {cs : List Char} (mem : c ∈ trim cs) : c ∈ cs := by
  rw [trim, trimBack, List.mem_reverse] at mem
  have front := List.mem_reverse.mp (List.dropWhile_subset _ mem)
  exact List.dropWhile_subset _ front

theorem trim_append_space (cs : List Char) : trim (cs ++ [' ']) = trim cs := by
  have drop (ds : List Char) : trimBack (ds ++ [' ']) = trimBack ds := by
    rw [trimBack, List.reverse_append]
    rfl
  rw [trim, trim, trimFront, trimFront, List.dropWhile_append]
  split
  · next blank =>
    rw [List.isEmpty_iff.mp blank]
    rfl
  · exact drop _

/-- A text that neither starts nor ends with white space. -/
theorem trim_eq_self {cs : List Char} (front : ∀ c ∈ cs.head?, isBlank c = false)
    (back : ∀ c ∈ cs.getLast?, isBlank c = false) : trim cs = cs := by
  have dropNone {ds : List Char} (noBlank : ∀ c ∈ ds.head?, isBlank c = false) :
      ds.dropWhile isBlank = ds := by
    cases ds with
    | nil => rfl
    | cons d ds => rw [List.dropWhile_cons_of_neg (by simpa using noBlank d rfl)]
  rw [trim, trimFront, dropNone front, trimBack, dropNone (by simpa using back),
    List.reverse_reverse]

theorem mem_trim {c : Char} {cs : List Char} (mem : c ∈ cs) (noBlank : isBlank c = false) :
    c ∈ trim cs := by
  have kept {ds : List Char} (inside : c ∈ ds) : c ∈ ds.dropWhile isBlank := by
    have parts : ds.takeWhile isBlank ++ ds.dropWhile isBlank = ds :=
      List.takeWhile_append_dropWhile
    rw [← parts, List.mem_append] at inside
    refine inside.resolve_left fun front => ?_
    rw [List.mem_takeWhile_imp front] at noBlank
    cases noBlank
  rw [trim, trimBack, List.mem_reverse]
  exact kept (List.mem_reverse.mpr (kept mem))

theorem head?_dropWhile_isBlank {c : Char} {cs : List Char}
    (first : c ∈ (cs.dropWhile isBlank).head?) : isBlank c = false := by
  have found := List.head?_dropWhile_not isBlank cs
  rw [Option.mem_def.mp first] at found
  simpa using found

theorem head?_trim {c : Char} {cs : List Char} (first : c ∈ (trim cs).head?) :
    isBlank c = false := by
  have isFront : trim cs <+: trimFront cs := by
    rw [trim, trimBack, ← List.reverse_suffix, List.reverse_reverse]
    exact List.dropWhile_suffix _
  obtain ⟨rest, whole⟩ := isFront
  have same : c ∈ (cs.dropWhile isBlank).head? := by
    rw [← trimFront, ← whole, List.head?_append, Option.mem_def.mp first, Option.some_or]
    exact Option.mem_some_self c
  exact head?_dropWhile_isBlank same

theorem getLast?_trim {c : Char} {cs : List Char} (last : c ∈ (trim cs).getLast?) :
    isBlank c = false := by
  rw [trim, trimBack, List.getLast?_reverse] at last
  exact head?_dropWhile_isBlank last

theorem trim_trim (cs : List Char) : trim (trim cs) = trim cs :=
  trim_eq_self (fun _ first => head?_trim first) fun _ last => getLast?_trim last

theorem trimmed_trimmed (s : String) : trimmed (trimmed s) = trimmed s := by
  rw [trimmed, trimmed, String.toList_ofList, trim_trim]

theorem trimmed_eq_empty_iff {s : String} :
    trimmed s = "" ↔ ∀ c ∈ s.toList, isBlank c = true := by
  rw [trimmed, String.ofList_eq_empty_iff]
  constructor
  · intro empty c mem
    by_contra noBlank
    have kept := mem_trim mem (by simpa using noBlank)
    rw [empty] at kept
    cases kept
  · intro blank
    rw [trim, trimFront, List.dropWhile_eq_nil_iff.mpr blank]
    rfl

end SchemaTypes.Text
