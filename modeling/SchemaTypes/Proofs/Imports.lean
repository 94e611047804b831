import Mathlib.Data.List.Sort
import Mathlib.Data.String.Basic
import SchemaTypes.Imports

/-! # What is imported depends on the names in use

The statements for the names in use rise strictly, and a list that rises strictly is known by its
members. So it does not matter how often and in which order names are used. The statement for a name
is the one that it was given last.
-/

namespace SchemaTypes.ImportTable

variable {table : ImportTable} {statement other : String} {statements used : List String}

theorem mem_of_get? {name : String} (found : table.get? name = some statement) :
    (name, statement) ∈ table := by
  induction table with
  | nil => cases found
  | cons entry rest ih =>
    rcases entry with ⟨key, given⟩
    rw [get?] at found
    split at found
    · next same =>
      cases found
      exact same ▸ List.mem_cons_self
    · exact List.mem_cons_of_mem _ (ih found)

theorem get?_insert (table : ImportTable) (key statement name : String) :
    (table.insert key statement).get? name =
      if key = name then some statement else table.get? name := by
  induction table with
  | nil => rfl
  | cons entry rest ih =>
    rcases entry with ⟨other, old⟩
    rw [insert]
    split
    · next same =>
      rw [get?, get?, same]
      split <;> rfl
    · next different =>
      rw [get?, ih, get?]
      by_cases isOther : other = name
      · have notKey : key ≠ name := fun isKey => different (isOther.trans isKey.symm)
        rw [if_pos isOther, if_pos isOther, if_neg notKey]
      · rw [if_neg isOther, if_neg isOther]

/-- Of further entries the last one for a name counts. -/
theorem get?_extend (table : ImportTable) (entries : List (String × String)) (name : String) :
    (table.extend entries).get? name =
      ((entries.reverse.find? (·.1 = name)).map (·.2)).or (table.get? name) := by
  induction entries generalizing table with
  | nil => rfl
  | cons entry rest ih =>
    rw [show table.extend (entry :: rest) = (table.insert entry.1 entry.2).extend rest from rfl, ih,
      get?_insert, List.reverse_cons, List.find?_append]
    cases rest.reverse.find? (·.1 = name) with
    | some later => rfl
    | none =>
      by_cases isName : entry.1 = name
      · simp [isName]
      · simp [isName]

theorem mem_insertSorted :
    other ∈ insertSorted statement statements ↔ other = statement ∨ other ∈ statements := by
  induction statements with
  | nil => rw [insertSorted, List.mem_singleton, or_iff_left List.not_mem_nil]
  | cons first rest ih =>
    rw [insertSorted]
    split
    · next same =>
      refine (or_iff_right_of_imp ?_).symm
      rintro rfl
      exact same ▸ List.mem_cons_self
    · split
      · exact List.mem_cons
      · rw [List.mem_cons, ih, List.mem_cons]
        exact or_left_comm

theorem insertSorted_rising (rising : statements.Pairwise (· < ·)) :
    (insertSorted statement statements).Pairwise (· < ·) := by
  induction statements with
  | nil => exact List.pairwise_singleton _ _
  | cons first rest ih =>
    obtain ⟨below, rest_rising⟩ := List.pairwise_cons.mp rising
    rw [insertSorted]
    split
    · exact rising
    · next different =>
      split
      · next before =>
        refine .cons (fun other mem => ?_) rising
        rcases List.mem_cons.mp mem with rfl | mem
        · exact before
        · exact before.trans (below other mem)
      · next notBefore =>
        refine .cons (fun other mem => ?_) (ih rest_rising)
        rcases mem_insertSorted.mp mem with rfl | mem
        · exact lt_of_le_of_ne (not_lt.mp notBefore) (Ne.symm different)
        · exact below other mem

/-- What is imported: the statements that names in use have, without the space around them, unless
they are blank. -/
theorem mem_resolve :
    statement ∈ table.resolve used ↔
      statement ≠ "" ∧ ∃ name ∈ used, ∃ given, table.get? name = some given ∧
        Text.trimmed given = statement := by
  have mem_sorted (statements : List String) :
      statement ∈ statements.foldr insertSorted [] ↔ statement ∈ statements := by
    induction statements with
    | nil => rfl
    | cons first rest ih => rw [List.foldr_cons, mem_insertSorted, ih, List.mem_cons]
  rw [resolve, mem_sorted, List.mem_filter, List.mem_map, bne_iff_ne, and_comm]
  refine and_congr_right fun _ => ?_
  simp only [List.mem_filterMap]
  constructor
  · rintro ⟨given, ⟨name, mem, found⟩, same⟩
    exact ⟨name, mem, given, found, same⟩
  · rintro ⟨name, mem, given, found, same⟩
    exact ⟨given, ⟨name, mem, found⟩, same⟩

theorem resolve_rising (table : ImportTable) (used : List String) :
    (table.resolve used).Pairwise (· < ·) := by
  rw [resolve]
  generalize List.filter _ _ = statements
  induction statements with
  | nil => exact .nil
  | cons first rest ih => exact insertSorted_rising ih

/-- Names that are used in another order, or more than once, bring the same imports. -/
theorem resolve_congr (table : ImportTable) {used others : List String}
    (same : ∀ name, name ∈ used ↔ name ∈ others) : table.resolve used = table.resolve others := by
  refine (table.resolve_rising used).eq_of_mem_iff (table.resolve_rising others) fun statement => ?_
  simp only [mem_resolve, same]

/-- A name without a statement, or with a blank one, brings nothing. -/
theorem resolve_cons_of_blank {name : String}
    (blank : ((table.get? name).map Text.trimmed).getD "" = "") :
    table.resolve (name :: used) = table.resolve used := by
  refine (table.resolve_rising _).eq_of_mem_iff (table.resolve_rising _) fun statement => ?_
  rw [mem_resolve, mem_resolve, List.exists_mem_cons_iff]
  refine and_congr_right fun nonempty => or_iff_right ?_
  rintro ⟨given, found, rfl⟩
  rw [found, Option.map_some, Option.getD_some] at blank
  exact nonempty blank

end SchemaTypes.ImportTable
