import Mathlib.Data.List.Basic
import Mathlib.Data.List.TakeDrop
import Mathlib.Data.List.TakeWhile
import SchemaTypes.Text.Split

/-! # Pieces of a text

A text that is cut at a character falls into pieces without that character. In particular no line
has a line feed in it. A text can also be cut just at the first of some character, if it has one.
What putting two texts together preserves holds of many texts that are put together, and behind its
front a text goes on with its rest.
-/

namespace SchemaTypes.Text

/-- What two texts with the same operator in them have in common, if it passes on to texts from
their parts. -/
theorem intercalate_related {related : String → String → Prop} {operator : String}
    (none : related "" "") (append : ∀ {text text' more more'}, related text text' →
      related more more' → related (text ++ more) (text' ++ more'))
    (between : related operator operator) {ι : Type} {items : List ι} {text text' : ι → String}
    (each : ∀ item ∈ items, related (text item) (text' item)) :
    related (operator.intercalate (items.map text)) (operator.intercalate (items.map text')) := by
  induction items with
  | nil => exact none
  | cons item rest ih =>
    have first := each item List.mem_cons_self
    by_cases last : rest = []
    · rw [last, List.map_singleton, List.map_singleton, String.intercalate_singleton,
        String.intercalate_singleton]
      exact first
    · rw [List.map_cons, List.map_cons, String.intercalate_cons_of_ne_nil (by simpa using last),
        String.intercalate_cons_of_ne_nil (by simpa using last)]
      exact append (append first between)
        (ih fun item mem => each item (List.mem_cons_of_mem _ mem))

/-- What holds of texts with an operator between them, if it passes on to a text from its parts. -/
theorem intercalate_of_append {holds : String → Prop} {operator : String} (none : holds "")
    (append : ∀ {text more}, holds text → holds more → holds (text ++ more))
    (between : holds operator) {texts : List String} (each : ∀ text ∈ texts, holds text) :
    holds (operator.intercalate texts) := by
  have both := @intercalate_related (fun text _ => holds text) operator none append between
    String texts id id each
  rwa [List.map_id] at both

theorem after?_append (front rest : List Char) : after? front (front ++ rest) = some rest := by
  rw [after?, List.isPrefixOf?_eq_some_iff_append_eq]

/-- A character of some class is none of those that are not in it. -/
theorem not_mem_of_all_not {p : Char → Bool} {c : Char} {cs : List Char} (others : cs.all (!p ·))
    (holds : p c) : c ∉ cs := by
  intro mem
  have notHolds := List.all_eq_true.mp others c mem
  rw [holds] at notHolds
  cases notHolds

theorem bne_of_not_mem {mark : Char} {front : List Char} (whole : mark ∉ front) :
    ∀ c ∈ front, (c != mark) = true :=
  fun _ mem => bne_iff_ne.mpr fun isMark => whole (isMark ▸ mem)

theorem takeWhile_append_mark {mark : Char} {front : List Char} (whole : mark ∉ front)
    (back : List Char) : (front ++ mark :: back).takeWhile (· != mark) = front := by
  rw [List.takeWhile_append_of_pos (bne_of_not_mem whole), List.takeWhile_cons_of_neg (by simp),
    List.append_nil]

theorem dropWhile_append_mark {mark : Char} {front : List Char} (whole : mark ∉ front)
    (back : List Char) : (front ++ mark :: back).dropWhile (· != mark) = mark :: back := by
  rw [List.dropWhile_append_of_pos (bne_of_not_mem whole), List.dropWhile_cons_of_neg (by simp)]

theorem splitFirst?_eq (mark : Char) (s : String) :
    splitFirst? mark s =
      if mark ∈ s.toList then
        some (String.ofList (s.toList.takeWhile (· != mark)),
          String.ofList ((s.toList.dropWhile (· != mark)).drop 1))
      else none := by
  rw [splitFirst?, List.span_eq_takeWhile_dropWhile]
  by_cases marked : mark ∈ s.toList
  · obtain ⟨front, back, parts, whole⟩ := List.eq_append_cons_of_mem marked
    rw [if_pos marked, parts, takeWhile_append_mark whole, dropWhile_append_mark whole,
      List.drop_one, List.tail_cons]
  · rw [if_neg marked, List.dropWhile_eq_nil_iff.mpr (bne_of_not_mem marked)]

theorem not_mem_of_mem_splitOn {mark : Char} {piece cs : List Char}
    (mem : piece ∈ cs.splitOn mark) : mark ∉ piece := by
  induction cs generalizing piece with
  | nil =>
    rw [List.splitOn_nil, List.mem_singleton] at mem
    rw [mem]
    exact List.not_mem_nil
  | cons c cs ih =>
    rw [List.splitOn_cons_eq_if_modifyHead] at mem
    split at mem
    · rcases List.mem_cons.mp mem with rfl | further
      · exact List.not_mem_nil
      · exact ih further
    · next other =>
      obtain ⟨first, rest, pieces⟩ := List.exists_cons_of_ne_nil (List.splitOn_ne_nil mark cs)
      rw [pieces] at mem ih
      rcases List.mem_cons.mp mem with rfl | further
      · rw [List.mem_cons, not_or]
        exact ⟨fun same => other (by simp [same]), ih List.mem_cons_self⟩
      · exact ih (List.mem_cons_of_mem _ further)

theorem lines_newline (cs : List Char) : lines ('\n' :: cs) = [] :: lines cs := by
  rw [lines, List.splitOn_cons_eq_if_modifyHead, beq_self_eq_true, if_pos rfl, lines]

theorem lines_cons {c : Char} (noBreak : c ≠ '\n') (cs : List Char) :
    lines (c :: cs) = (lines cs).modifyHead (List.cons c) := by
  rw [lines, List.splitOn_cons_eq_if_modifyHead, if_neg (by simpa using noBreak), lines]

theorem lines_append_newline {line : List Char} (whole : '\n' ∉ line) (cs : List Char) :
    lines (line ++ '\n' :: cs) = line :: lines cs := by
  rw [lines, List.splitOn_append_cons_self_of_not_mem whole, lines]

theorem not_mem_of_mem_lines {line cs : List Char} (mem : line ∈ lines cs) : '\n' ∉ line :=
  not_mem_of_mem_splitOn mem

end SchemaTypes.Text
