import SchemaTypes.Proofs.Text.Split

/-! # Blocks of lines

A text without blank lines can be put next to others, or onto lines of its own between them, and
there is still no blank line. Such texts with blank lines between them are the blocks of what they
make up.
-/

namespace SchemaTypes.Text

/-- The parts of a text between its blank lines. -/
def blocks (text : String) : List String :=
  ((lines text.toList).splitOn []).map fun block => String.ofList (['\n'].intercalate block)

/-- Nothing at all, or lines of which none is blank. -/
def Dense (cs : List Char) : Prop := cs ≠ [] → [] ∉ lines cs

/-- Lines of which none is blank, each with the line feed that ends it. There may be none. -/
def Rows (cs : List Char) : Prop := cs ≠ [] → ∃ body, body ≠ [] ∧ Dense body ∧ cs = body ++ ['\n']

/-! ## Lines of texts that are put together -/

/-- The last line of one text goes on with the first line of the next. -/
theorem lines_append (cs ds : List Char) :
    ∃ before last first after, lines cs = before ++ [last] ∧ lines ds = first :: after ∧
      lines (cs ++ ds) = before ++ (last ++ first) :: after := by
  induction cs with
  | nil =>
    obtain ⟨first, after, pieces⟩ := List.exists_cons_of_ne_nil (List.splitOn_ne_nil '\n' ds)
    exact ⟨[], [], first, after, rfl, pieces, pieces⟩
  | cons c cs ih =>
    obtain ⟨before, last, first, after, left, right, both⟩ := ih
    by_cases isBreak : c = '\n'
    · refine ⟨[] :: before, last, first, after, ?_, right, ?_⟩
      · rw [isBreak, lines_newline, left, List.cons_append]
      · rw [isBreak, List.cons_append, lines_newline, both, List.cons_append]
    · rw [List.cons_append, lines_cons isBreak, lines_cons isBreak, left, both]
      cases before with
      | nil => exact ⟨[], c :: last, first, after, rfl, right, rfl⟩
      | cons line before => exact ⟨(c :: line) :: before, last, first, after, rfl, right, rfl⟩

theorem lines_behind (cs ds : List Char) : lines (cs ++ '\n' :: ds) = lines cs ++ lines ds :=
  List.splitOn_append_cons_self cs ds

theorem lines_of_not_mem {cs : List Char} (whole : '\n' ∉ cs) : lines cs = [cs] :=
  List.splitOn_eq_singleton whole

theorem lines_intercalate {rows : List (List Char)} (nonempty : rows ≠ [])
    (whole : ∀ row ∈ rows, '\n' ∉ row) : lines (['\n'].intercalate rows) = rows :=
  List.splitOn_intercalate '\n' whole nonempty

theorem dense_of_not_mem {cs : List Char} (whole : '\n' ∉ cs) : Dense cs := by
  intro nonempty
  rw [lines_of_not_mem whole, List.mem_singleton]
  exact nonempty.symm

namespace Dense

variable {cs ds : List Char}

theorem append (first : Dense cs) (second : Dense ds) : Dense (cs ++ ds) := by
  intro _
  by_cases none : cs = []
  · subst none
    exact second ‹_›
  by_cases none' : ds = []
  · rw [none', List.append_nil]
    exact first none
  -- Only the line that the two texts share is new, and it has on it what either has.
  obtain ⟨before, last, next, after, left, right, both⟩ := lines_append cs ds
  have noneBefore := first none
  have noneBehind := second none'
  rw [left, List.mem_append, List.mem_singleton, not_or] at noneBefore
  rw [right, List.mem_cons, not_or] at noneBehind
  rw [both, List.mem_append, List.mem_cons, not_or, not_or]
  exact ⟨noneBefore.1, fun same => noneBefore.2 (List.append_eq_nil_iff.mp same.symm).1.symm,
    noneBehind.2⟩

/-- Texts that follow one another line by line. -/
theorem line (first : Dense cs) (nonempty : cs ≠ []) (second : Dense ds) (nonempty' : ds ≠ []) :
    Dense (cs ++ '\n' :: ds) := by
  intro _
  rw [lines_behind, List.mem_append, not_or]
  exact ⟨first nonempty, second nonempty'⟩

theorem getLast?_ne (dense : Dense cs) : cs.getLast? ≠ some '\n' := by
  intro last
  obtain ⟨front, rfl⟩ := List.getLast?_eq_some_iff.mp last
  refine dense (List.append_ne_nil_of_right_ne_nil _ (List.cons_ne_nil _ _)) ?_
  rw [lines_behind, List.mem_append]
  exact .inr (List.mem_singleton.mpr rfl)

theorem rows (dense : Dense cs) (nonempty : cs ≠ []) : Rows (cs ++ ['\n']) :=
  fun _ => ⟨cs, nonempty, dense, rfl⟩

/-- Whole lines in front of a text. -/
theorem behind {before : List Char} (dense : Dense cs) (nonempty : cs ≠ []) (rows : Rows before) :
    Dense (before ++ cs) := by
  by_cases none : before = []
  · rw [none, List.nil_append]
    exact dense
  · obtain ⟨body, nonempty', dense', rfl⟩ := rows none
    rw [List.append_assoc, List.singleton_append]
    exact dense'.line nonempty' dense nonempty

end Dense

theorem rows_nil : Rows [] := fun nonempty => absurd rfl nonempty

theorem Rows.append {cs ds : List Char} (first : Rows cs) (second : Rows ds) : Rows (cs ++ ds) := by
  intro _
  by_cases none : cs = []
  · subst none
    exact second ‹_›
  by_cases none' : ds = []
  · rw [none', List.append_nil]
    exact first none
  obtain ⟨body, nonempty, dense, rfl⟩ := first none
  obtain ⟨body', nonempty', dense', rfl⟩ := second none'
  refine ⟨body ++ '\n' :: body', List.append_ne_nil_of_left_ne_nil nonempty _,
    dense.line nonempty dense' nonempty', by simp⟩

/-! ## Texts with blank lines between them -/

theorem lines_intercalate_blank {texts : List String} (nonempty : texts ≠ []) :
    lines ("\n\n".intercalate texts).toList =
      [[]].intercalate (texts.map fun text => lines text.toList) := by
  induction texts with
  | nil => exact absurd rfl nonempty
  | cons text rest ih =>
    by_cases last : rest = []
    · rw [last, String.intercalate_singleton, List.map_singleton, List.intercalate_singleton]
    · have shape : ("\n\n".intercalate (text :: rest)).toList =
          text.toList ++ '\n' :: ([] ++ '\n' :: ("\n\n".intercalate rest).toList) := by
        rw [String.intercalate_cons_of_ne_nil last, String.toList_append, String.toList_append,
          List.append_assoc]
        rfl
      obtain ⟨next, rest, rfl⟩ := List.exists_cons_of_ne_nil last
      rw [shape, lines_behind, lines_behind, ih last, List.map_cons, List.map_cons, List.map_cons,
        List.intercalate_cons_cons, List.append_assoc]
      rfl

/-- Texts without blank lines are the blocks of the text that they make up. -/
theorem blocks_intercalate {texts : List String} (nonempty : texts ≠ [])
    (dense : ∀ text ∈ texts, text ≠ "" ∧ Dense text.toList) :
    blocks ("\n\n".intercalate texts) = texts := by
  have noBlank : ∀ rows ∈ texts.map fun text => lines text.toList, [] ∉ rows := by
    intro rows mem
    obtain ⟨text, isText, rfl⟩ := List.mem_map.mp mem
    exact (dense text isText).2 (mt String.toList_eq_nil_iff.mp (dense text isText).1)
  rw [blocks, lines_intercalate_blank nonempty,
    List.splitOn_intercalate [] noBlank (by simpa using nonempty), List.map_map]
  refine List.map_id'' (fun text => ?_) texts
  rw [Function.comp_apply, lines, List.intercalate_splitOn, String.ofList_toList]

/-- Texts with blank lines between them end as the last of them does. -/
theorem getLast?_intercalate_blank {texts : List String} (nonempty : texts ≠ [])
    (dense : ∀ text ∈ texts, text ≠ "" ∧ Dense text.toList) :
    ∃ c, ("\n\n".intercalate texts).toList.getLast? = some c ∧ c ≠ '\n' := by
  induction texts with
  | nil => exact absurd rfl nonempty
  | cons text rest ih =>
    by_cases last : rest = []
    · obtain ⟨nonempty, noBlank⟩ := dense text List.mem_cons_self
      have ends := noBlank.getLast?_ne
      rw [last, String.intercalate_singleton]
      cases found : text.toList.getLast? with
      | none => exact absurd (List.getLast?_eq_none_iff.mp found) (by simpa using nonempty)
      | some c => exact ⟨c, rfl, fun same => ends (by rw [found, same])⟩
    · obtain ⟨c, ends, noBreak⟩ := ih last fun other mem => dense other (List.mem_cons_of_mem _ mem)
      refine ⟨c, ?_, noBreak⟩
      rw [String.intercalate_cons_of_ne_nil last, String.toList_append, List.getLast?_append, ends,
        Option.some_or]

end SchemaTypes.Text
