import Mathlib.Data.List.SplitBy
import SchemaTypes.Proofs.Text.Comment

/-! # The normal form of a description

The line of a description begins and ends with something to see and has neither a line feed nor the
end of a comment in it. What can be seen in it is what can be seen in the description, with a
backslash in each `*/`. So it is its own line.
-/

namespace SchemaTypes.Text

def nonBlanks (cs : List Char) : List Char := cs.filter fun c => !isBlank c

def closeComment (c d : Char) : Bool := c == '*' && d == '/'

/-- A text that is cut inside each `*/`, between the asterisk and the slash. -/
def cutCommentEnds (cs : List Char) : List (List Char) :=
  cs.splitBy fun c d => !closeComment c d

/-- A text with something other than white space at both ends. -/
structure Solid (cs : List Char) : Prop where
  starts : ∃ c ∈ cs.head?, isBlank c = false
  ends : ∃ c ∈ cs.getLast?, isBlank c = false

/-- What the line of a description is: one line without the end of a comment, solid, that shows what
the description shows, with a backslash in each `*/` of the joined lines, and is its own line. -/
structure IsDocLine (description line : String) : Prop where
  whole : '\n' ∉ line.toList
  isOpen : ¬ ['*', '/'] <:+: line.toList
  solid : Solid line.toList
  shows : nonBlanks (joinedLines description.toList) = nonBlanks description.toList
  guarded : line.toList = ['\\'].intercalate (cutCommentEnds (joinedLines description.toList))
  again : docLine? line = some line

/-! ## What can be seen -/

theorem nonBlanks_append (cs ds : List Char) :
    nonBlanks (cs ++ ds) = nonBlanks cs ++ nonBlanks ds :=
  List.filter_append ..

theorem nonBlanks_reverse (cs : List Char) : nonBlanks cs.reverse = (nonBlanks cs).reverse :=
  List.filter_reverse ..

theorem nonBlanks_eq_nil_iff {cs : List Char} :
    nonBlanks cs = [] ↔ ∀ c ∈ cs, isBlank c = true := by
  simp [nonBlanks]

theorem nonBlanks_dropWhile (cs : List Char) : nonBlanks (cs.dropWhile isBlank) = nonBlanks cs := by
  have front : nonBlanks (cs.takeWhile isBlank) = [] :=
    nonBlanks_eq_nil_iff.mpr fun _ mem => List.mem_takeWhile_imp mem
  conv_rhs => rw [← List.takeWhile_append_dropWhile (p := isBlank) (l := cs)]
  rw [nonBlanks_append, front, List.nil_append]

theorem nonBlanks_trim (cs : List Char) : nonBlanks (trim cs) = nonBlanks cs := by
  rw [trim, trimBack, nonBlanks_reverse, nonBlanks_dropWhile, nonBlanks_reverse,
    List.reverse_reverse, trimFront, nonBlanks_dropWhile]

/-- White space between texts cannot be seen. -/
theorem nonBlanks_intercalate {between : List Char} (blank : nonBlanks between = [])
    (parts : List (List Char)) :
    nonBlanks (between.intercalate parts) = parts.flatMap nonBlanks := by
  induction parts with
  | nil => rfl
  | cons part rest ih =>
    cases rest with
    | nil => rw [List.intercalate_singleton, List.flatMap_singleton]
    | cons next rest =>
      rw [List.intercalate_cons_cons, nonBlanks_append, nonBlanks_append, ih, blank,
        List.append_nil, ← List.flatMap_cons]

theorem nonBlanks_lines (cs : List Char) : (lines cs).flatMap nonBlanks = nonBlanks cs := by
  have lineFeed : nonBlanks ['\n'] = [] := by decide
  rw [← nonBlanks_intercalate lineFeed, lines, List.intercalate_splitOn]

theorem nonBlanks_joinedLines (cs : List Char) : nonBlanks (joinedLines cs) = nonBlanks cs := by
  have dropped (parts : List (List Char)) :
      (parts.filter (· ≠ [])).flatMap nonBlanks = parts.flatMap nonBlanks := by
    induction parts with
    | nil => rfl
    | cons part rest ih =>
      by_cases none : part = []
      · rw [List.filter_cons_of_neg (by simpa using none), ih, List.flatMap_cons, none]
        rfl
      · rw [List.filter_cons_of_pos (by simpa using none), List.flatMap_cons, ih,
          List.flatMap_cons]
  have space : nonBlanks [' '] = [] := by decide
  rw [joinedLines, nonBlanks_intercalate space, dropped, List.flatMap_map]
  simp only [nonBlanks_trim]
  exact nonBlanks_lines cs

/-! ## Both ends -/

namespace Solid

variable {cs ds : List Char}

theorem ne_nil (solid : Solid cs) : cs ≠ [] := by
  rintro rfl
  obtain ⟨c, first, -⟩ := solid.starts
  cases first

theorem nonBlanks_ne_nil (solid : Solid cs) : nonBlanks cs ≠ [] := by
  obtain ⟨c, first, seen⟩ := solid.starts
  intro none
  rw [nonBlanks_eq_nil_iff.mp none c (List.mem_of_mem_head? first)] at seen
  cases seen

theorem trim (solid : Solid cs) : trim cs = cs := by
  obtain ⟨c, first, seen⟩ := solid.starts
  obtain ⟨d, last, seen'⟩ := solid.ends
  refine trim_eq_self (fun c' first' => ?_) fun d' last' => ?_
  · rwa [Option.mem_unique first' first]
  · rwa [Option.mem_unique last' last]

theorem of_trim (some : Text.trim cs ≠ []) : Solid (Text.trim cs) where
  starts := ⟨_, List.head_mem_head? some, head?_trim (List.head_mem_head? some)⟩
  ends := ⟨_, List.getLast_mem_getLast? some, getLast?_trim (List.getLast_mem_getLast? some)⟩

/-- What stands between two solid texts does not matter. -/
theorem join (first : Solid cs) (second : Solid ds) (between : List Char) :
    Solid (cs ++ between ++ ds) where
  starts := by
    obtain ⟨c, isFirst, seen⟩ := first.starts
    refine ⟨c, ?_, seen⟩
    rw [List.append_assoc, List.head?_append, Option.mem_def.mp isFirst]
    rfl
  ends := by
    obtain ⟨c, isLast, seen⟩ := second.ends
    refine ⟨c, ?_, seen⟩
    rw [List.getLast?_append, Option.mem_def.mp isLast]
    rfl

theorem intercalate {parts : List (List Char)} (nonempty : parts ≠ [])
    (each : ∀ part ∈ parts, Solid part) : Solid ([' '].intercalate parts) := by
  induction parts with
  | nil => exact absurd rfl nonempty
  | cons part rest ih =>
    have first := each part List.mem_cons_self
    cases rest with
    | nil => rwa [List.intercalate_singleton]
    | cons next rest =>
      rw [List.intercalate_cons_cons]
      exact first.join
        (ih (List.cons_ne_nil _ _) fun other mem => each other (List.mem_cons_of_mem _ mem)) _

end Solid

theorem solid_joinedLines {cs : List Char} (some : joinedLines cs ≠ []) :
    Solid (joinedLines cs) := by
  refine Solid.intercalate (fun none => some ?_) fun part mem => ?_
  · rw [joinedLines, none]
    rfl
  · obtain ⟨isPart, nonempty⟩ := List.mem_filter.mp mem
    obtain ⟨line, -, rfl⟩ := List.mem_map.mp isPart
    exact Solid.of_trim (by simpa using nonempty)

theorem joinedLines_eq_nil_iff {cs : List Char} :
    joinedLines cs = [] ↔ ∀ c ∈ cs, isBlank c = true := by
  rw [← nonBlanks_eq_nil_iff, ← nonBlanks_joinedLines]
  constructor
  · intro none
    rw [none]
    rfl
  · intro unseen
    by_contra some
    exact (solid_joinedLines some).nonBlanks_ne_nil unseen

/-- A solid text of one line is joined as it is. -/
theorem joinedLines_of_solid {cs : List Char} (solid : Solid cs) (whole : '\n' ∉ cs) :
    joinedLines cs = cs := by
  have one : lines cs = [cs] := List.splitOn_eq_singleton whole
  rw [joinedLines, one, List.map_singleton, solid.trim,
    List.filter_cons_of_pos (by simpa using solid.ne_nil), List.filter_nil,
    List.intercalate_singleton]

/-! ## Guarded texts -/

theorem guardCommentEnd_cons (c : Char) (cs : List Char) :
    guardCommentEnd (c :: cs) =
      c :: if c = '*' ∧ cs.head? = some '/' then '\\' :: guardCommentEnd cs
        else guardCommentEnd cs := by
  split
  · next isEnd =>
    obtain ⟨rfl, isSlash⟩ := isEnd
    obtain ⟨rest, rfl⟩ := List.head?_eq_some_iff.mp isSlash
    have further : guardCommentEnd ('/' :: rest) = '/' :: guardCommentEnd rest :=
      guardCommentEnd.eq_2 _ _ fun _ noStar => absurd noStar (by decide)
    rw [further, guardCommentEnd]
  · next noEnd =>
    refine guardCommentEnd.eq_2 _ _ fun rest isStar same => noEnd ⟨isStar, ?_⟩
    rw [same, List.head?_cons]

theorem getLast?_guardCommentEnd (cs : List Char) :
    (guardCommentEnd cs).getLast? = cs.getLast? := by
  induction cs using guardCommentEnd.induct with
  | case1 rest ih =>
    rw [guardCommentEnd]
    simp only [List.getLast?_cons, ih, Option.getD_some]
  | case2 c rest noEnd ih =>
    rw [guardCommentEnd.eq_2 _ _ noEnd, List.getLast?_cons, List.getLast?_cons, ih]
  | case3 => rfl

theorem Solid.guard {cs : List Char} (solid : Solid cs) : Solid (guardCommentEnd cs) where
  starts := by
    rw [head?_guardCommentEnd]
    exact solid.starts
  ends := by
    rw [getLast?_guardCommentEnd]
    exact solid.ends

/-- A guarded text has nothing left to guard. -/
theorem guardCommentEnd_guardCommentEnd (cs : List Char) :
    guardCommentEnd (guardCommentEnd cs) = guardCommentEnd cs := by
  induction cs with
  | nil => rfl
  | cons c cs ih =>
    rw [guardCommentEnd_cons c cs, guardCommentEnd_cons]
    split
    · next isEnd =>
      rw [List.head?_cons, if_neg (by simp), guardCommentEnd_cons, if_neg (by simp), ih]
    · next noEnd => rw [head?_guardCommentEnd, if_neg noEnd, ih]

theorem not_infix_guardCommentEnd (cs : List Char) : ¬ ['*', '/'] <:+: guardCommentEnd cs := by
  rintro ⟨front, back, same⟩
  have last := closesLast_guarded cs front (back ++ [' ', '*', '/']) (by simp [← same])
  simp at last

/-- Only where it meets what follows it can a text without `*/` get a backslash. -/
theorem guardCommentEnd_append {cs : List Char} (uncut : cs.IsChain fun c d => !closeComment c d)
    (ds : List Char) :
    guardCommentEnd (cs ++ ds) =
      cs ++ if cs.getLast? = some '*' ∧ ds.head? = some '/' then '\\' :: guardCommentEnd ds
        else guardCommentEnd ds := by
  induction cs with
  | nil => rfl
  | cons c cs ih =>
    cases cs with
    | nil =>
      rw [List.singleton_append, List.singleton_append, guardCommentEnd_cons]
      simp only [List.getLast?_singleton, Option.some.injEq]
    | cons d cs =>
      obtain ⟨here, further⟩ := List.isChain_cons_cons.mp uncut
      have noEnd : ¬ (c = '*' ∧ (d :: (cs ++ ds)).head? = some '/') := by
        simpa [closeComment, imp_iff_not_or] using here
      rw [List.cons_append, guardCommentEnd_cons, List.cons_append, if_neg noEnd,
        ← List.cons_append, ih further, List.getLast?_cons_cons]
      rfl

/-- Pieces that end and begin with the two characters of `*/` get a backslash between them. -/
theorem guardCommentEnd_flatten {pieces : List (List Char)} (nonempty : [] ∉ pieces)
    (uncut : ∀ piece ∈ pieces, piece.IsChain fun c d => !closeComment c d)
    (cut : pieces.IsChain fun a b =>
      ∃ ha hb, (!closeComment (a.getLast ha) (b.head hb)) = false) :
    guardCommentEnd pieces.flatten = ['\\'].intercalate pieces := by
  induction pieces with
  | nil => rfl
  | cons piece rest ih =>
    rw [List.mem_cons, not_or] at nonempty
    rw [List.forall_mem_cons] at uncut
    have further := ih nonempty.2 uncut.2 cut.tail
    rw [List.flatten_cons, guardCommentEnd_append uncut.1]
    cases rest with
    | nil => simp [guardCommentEnd]
    | cons next rest =>
      obtain ⟨⟨some, some', between⟩, -⟩ := List.isChain_cons_cons.mp cut
      simp only [closeComment, Bool.not_eq_false', Bool.and_eq_true, beq_iff_eq] at between
      have ends : piece.getLast? = Option.some '*' := by
        rw [List.getLast?_eq_some_getLast some, between.1]
      have starts : (next :: rest).flatten.head? = Option.some '/' := by
        rw [List.flatten_cons, List.head?_append, List.head?_eq_some_head some', between.2,
          Option.some_or]
      rw [if_pos ⟨ends, starts⟩, further, List.intercalate_cons_cons, List.append_assoc]
      rfl

/-- A guarded text has a backslash in each `*/`. -/
theorem guardCommentEnd_eq (cs : List Char) :
    guardCommentEnd cs = ['\\'].intercalate (cutCommentEnds cs) := by
  have cut := List.isChain_getLast_head_splitBy (fun c d => !closeComment c d) cs
  have pieces := guardCommentEnd_flatten (List.nil_notMem_splitBy _ cs)
    (fun piece mem => List.isChain_of_mem_splitBy mem) cut
  rwa [List.flatten_splitBy] at pieces

/-! ## The line -/

theorem docLine?_of_ne_nil {description : String} (some : joinedLines description.toList ≠ []) :
    docLine? description =
      Option.some (String.ofList (guardCommentEnd (joinedLines description.toList))) := by
  rw [docLine?]
  split
  · next none => exact absurd none some
  · rfl

theorem isDocLine_guarded {description : String} (some : joinedLines description.toList ≠ []) :
    IsDocLine description
      (String.ofList (guardCommentEnd (joinedLines description.toList))) := by
  have solid := (solid_joinedLines some).guard
  have whole : '\n' ∉ guardCommentEnd (joinedLines description.toList) := fun mem =>
    (mem_guardCommentEnd mem).elim (newline_not_mem_joinedLines _) (by decide)
  have joined := joinedLines_of_solid solid whole
  refine ⟨?_, ?_, ?_, nonBlanks_joinedLines _, ?_, ?_⟩
  · rwa [String.toList_ofList]
  · rw [String.toList_ofList]
    exact not_infix_guardCommentEnd _
  · rwa [String.toList_ofList]
  · rw [String.toList_ofList, guardCommentEnd_eq]
  · rw [docLine?_of_ne_nil, String.toList_ofList, joined, guardCommentEnd_guardCommentEnd]
    rw [String.toList_ofList, joined]
    exact solid.ne_nil

theorem docLine?_eq_none_iff {description : String} :
    docLine? description = none ↔ ∀ c ∈ description.toList, isBlank c = true := by
  rw [← joinedLines_eq_nil_iff]
  constructor
  · intro isNone
    by_contra some
    rw [docLine?_of_ne_nil some] at isNone
    cases isNone
  · intro none
    rw [docLine?, none]

theorem isDocLine_of_docLine? {description line : String}
    (isLine : docLine? description = some line) :
    IsDocLine description line := by
  have some : joinedLines description.toList ≠ [] := by
    intro none
    rw [docLine?_eq_none_iff.mpr (joinedLines_eq_nil_iff.mp none)] at isLine
    cases isLine
  rw [docLine?_of_ne_nil some] at isLine
  rw [← Option.some.inj isLine]
  exact isDocLine_guarded some

/-- A description has a line unless it is white space alone, and the line is its normal form. -/
theorem description_normalForm (description : String) :
    (docLine? description = none ↔ ∀ c ∈ description.toList, isBlank c = true) ∧
      ∀ line, docLine? description = some line → IsDocLine description line :=
  ⟨docLine?_eq_none_iff, fun _ isLine => isDocLine_of_docLine? isLine⟩

/-- Asterisks and slashes in a row, and an asterisk and a slash on lines of their own. -/
theorem description_normalForm_comment :
    let description := "  a **//\x0d\n \t\n*/*/ *\n/ b */"
    docLine? description = some "a **\\// *\\/*\\/ * / b *\\/" ∧
    IsDocLine description "a **\\// *\\/*\\/ * / b *\\/" := by
  intro description
  have line : docLine? description = some "a **\\// *\\/*\\/ * / b *\\/" := by decide
  exact ⟨line, (description_normalForm description).2 _ line⟩

end SchemaTypes.Text
