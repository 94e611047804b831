import Mathlib.Data.List.Basic
import Mathlib.Data.List.Forall2
import SchemaTypes.Text.Comment
import SchemaTypes.Proofs.Text.Blank
import SchemaTypes.Proofs.Text.Split

/-! # Doc comments are lines of their own

The comment of a description has no line feed but the one at its end, and nothing in it closes it
before that. A text with comments is the text without them into which whole lines have been put,
each behind a line feed and in front of something that was there before.
-/

namespace SchemaTypes.Text

def commentStart : List Char := ['/', '*', '*', ' ']

/-- Whether a line starts with a doc comment, after spaces. -/
def startsComment (line : List Char) : Bool :=
  commentStart.isPrefixOf (line.dropWhile (· == ' '))

/-- What closes a comment stands nowhere but at the end of the line. -/
def ClosesLast (line : List Char) : Prop :=
  ∀ front back, line = front ++ '*' :: '/' :: back → back = []

/-- A line that is a doc comment and nothing else. -/
structure IsComment (line : List Char) : Prop where
  starts : startsComment line
  whole : '\n' ∉ line
  closed : ['*', '/'] <:+ line
  closesLast : ClosesLast line

/-! ## The line of a description -/

theorem mem_intercalate {c : Char} {separator : List Char} {parts : List (List Char)}
    (mem : c ∈ separator.intercalate parts) : c ∈ separator ∨ ∃ part ∈ parts, c ∈ part := by
  induction parts with
  | nil => cases mem
  | cons part rest ih =>
    cases rest with
    | nil =>
      rw [List.intercalate_singleton] at mem
      exact .inr ⟨part, List.mem_cons_self, mem⟩
    | cons next rest =>
      rw [List.intercalate_cons_cons, List.append_assoc, List.mem_append, List.mem_append] at mem
      rcases mem with here | between | further
      · exact .inr ⟨part, List.mem_cons_self, here⟩
      · exact .inl between
      · exact (ih further).imp_right fun ⟨other, isPart, there⟩ =>
          ⟨other, List.mem_cons_of_mem _ isPart, there⟩

theorem newline_not_mem_joinedLines (cs : List Char) : '\n' ∉ joinedLines cs := by
  intro mem
  rcases mem_intercalate mem with space | ⟨part, isPart, mem⟩
  · exact absurd space (by decide)
  · obtain ⟨line, isLine, rfl⟩ := List.mem_map.mp (List.mem_filter.mp isPart).1
    exact not_mem_of_mem_lines isLine (mem_of_mem_trim mem)

theorem mem_guardCommentEnd {c : Char} {cs : List Char} (mem : c ∈ guardCommentEnd cs) :
    c ∈ cs ∨ c = '\\' := by
  induction cs using guardCommentEnd.induct with
  | case1 rest ih =>
    simp only [guardCommentEnd, List.mem_cons] at mem ⊢
    grind
  | case2 d rest noEnd ih =>
    rw [guardCommentEnd.eq_2 _ _ noEnd, List.mem_cons] at mem
    rw [List.mem_cons]
    grind
  | case3 => cases mem

theorem head?_guardCommentEnd (cs : List Char) : (guardCommentEnd cs).head? = cs.head? := by
  induction cs using guardCommentEnd.induct with
  | case1 rest => rfl
  | case2 c rest noEnd => rw [guardCommentEnd.eq_2 _ _ noEnd, List.head?_cons, List.head?_cons]
  | case3 => rfl

theorem ClosesLast.cons {c : Char} {line : List Char} (here : c = '*' → line.head? ≠ some '/')
    (further : ClosesLast line) : ClosesLast (c :: line) := by
  intro front back same
  cases front with
  | nil =>
    obtain ⟨isStar, rest⟩ := List.cons.inj same
    exact absurd (congrArg List.head? rest) (here isStar)
  | cons d front => exact further front back (List.cons.inj same).2

theorem closesLast_guarded (cs : List Char) :
    ClosesLast (guardCommentEnd cs ++ [' ', '*', '/']) := by
  induction cs using guardCommentEnd.induct with
  | case1 rest ih => exact .cons (by simp) (.cons (by simp) (.cons (by simp) ih))
  | case2 c rest noEnd ih =>
    rw [guardCommentEnd.eq_2 _ _ noEnd, List.cons_append]
    refine .cons (fun isStar => ?_) ih
    rw [List.head?_append, head?_guardCommentEnd]
    cases rest with
    -- After an asterisk at the end of the text comes the space in front of what closes the comment.
    | nil => decide
    | cons d rest =>
      intro isSlash
      exact noEnd rest isStar (by rw [Option.some.inj isSlash])
  | case3 =>
    refine .cons (by simp) ?_
    intro front back same
    have length := congrArg List.length same
    simp at length
    exact List.length_eq_zero_iff.mp (by omega)

theorem isComment_guarded {indent line : List Char} (spaces : ∀ c ∈ indent, c = ' ')
    (whole : '\n' ∉ line) :
    IsComment (indent ++ (commentStart ++ (guardCommentEnd line ++ [' ', '*', '/']))) where
  starts := by
    rw [startsComment, List.dropWhile_append_of_pos fun c mem => by rw [spaces c mem]; rfl]
    rfl
  whole := by
    simp only [List.mem_append, not_or]
    refine ⟨fun mem => absurd (spaces _ mem) (by decide), by decide, fun mem => ?_, by decide⟩
    rcases mem_guardCommentEnd mem with here | same
    · exact whole here
    · exact absurd same (by decide)
  closed :=
    ⟨indent ++ (commentStart ++ (guardCommentEnd line ++ [' '])), by simp⟩
  closesLast := by
    induction indent with
    | nil =>
      exact .cons nofun (.cons (fun _ => by simp) (.cons (fun _ => by simp)
        (.cons nofun (closesLast_guarded line))))
    | cons c indent ih =>
      have isSpace := spaces c List.mem_cons_self
      exact .cons (fun isStar => absurd (isSpace.symm.trans isStar) (by decide))
        (ih fun d mem => spaces d (List.mem_cons_of_mem _ mem))

/-- The comment of a description, if there is one, is a line. -/
theorem docComment_cases {indent : String} (spaces : ∀ c ∈ indent.toList, c = ' ')
    (description : Option String) :
    docComment indent description = "" ∨
      ∃ line, IsComment line ∧ (docComment indent description).toList = line ++ ['\n'] := by
  rw [docComment]
  cases told : description.bind docLine? with
  | none => exact .inl rfl
  | some said =>
    obtain ⟨text, -, told⟩ := Option.bind_eq_some_iff.mp told
    have guarded : said = String.ofList (guardCommentEnd (joinedLines text.toList)) := by
      rw [docLine?] at told
      split at told
      · cases told
      · exact (Option.some.inj told).symm
    have comment := isComment_guarded spaces (newline_not_mem_joinedLines text.toList)
    exact .inr ⟨_, comment, by simp [guarded, commentStart]⟩

/-! ## Texts with and without comments -/

/-- Lines, and the same lines with comments put between them. -/
inductive Commented : List (List Char) → List (List Char) → Prop where
  | nil : Commented [] []
  | keep (line : List Char) {plain full : List (List Char)} (further : Commented plain full) :
    Commented (line :: plain) (line :: full)
  | comment {line : List Char} {plain full : List (List Char)} (isComment : IsComment line)
    (further : Commented plain full) : Commented plain (line :: full)

/-- What is left without the lines that start with a comment is the same. -/
theorem Commented.filter {plain full : List (List Char)} (commented : Commented plain full) :
    (full.filter fun line => !startsComment line) =
      plain.filter fun line => !startsComment line := by
  induction commented with
  | nil => rfl
  | keep line _ ih => rw [List.filter_cons, List.filter_cons, ih]
  | comment isComment _ ih =>
    rw [List.filter_cons_of_neg (by simp [isComment.starts]), ih]

/-- A text, and the same text with comments put into it, each behind a line feed and in front of
something. So the two texts end alike, and one ends in a line feed if the other does. -/
inductive Comments : List Char → List Char → Prop where
  | nil : Comments [] []
  | keep (c : Char) {plain full : List Char} (further : Comments plain full) :
    Comments (c :: plain) (c :: full)
  | comment {line plain full : List Char} (isComment : IsComment line) (some : plain ≠ [])
    (further : Comments plain full) : Comments ('\n' :: plain) ('\n' :: (line ++ '\n' :: full))

namespace Comments

variable {plain full : List Char}

theorem refl (cs : List Char) : Comments cs cs := by
  induction cs with
  | nil => exact .nil
  | cons c cs ih => exact .keep c ih

theorem append {before after : List Char} (first : Comments plain full)
    (second : Comments before after) : Comments (plain ++ before) (full ++ after) := by
  induction first with
  | nil => exact second
  | keep c _ ih => exact .keep c ih
  | @comment line _ _ isComment some _ ih =>
    rw [List.cons_append, List.cons_append, List.append_assoc, List.cons_append]
    exact .comment isComment (List.append_ne_nil_of_left_ne_nil some _) ih

theorem eq_nil_iff (comments : Comments plain full) : plain = [] ↔ full = [] := by
  cases comments <;> simp

theorem getLast? (comments : Comments plain full) : full.getLast? = plain.getLast? := by
  induction comments with
  | nil => rfl
  | keep c further ih =>
    rw [List.getLast?_cons, List.getLast?_cons, ih]
  | @comment line plain full _ some further ih =>
    have some' : full ≠ [] := fun none => some (further.eq_nil_iff.mpr none)
    have behind : ('\n' :: (line ++ '\n' :: full)) = ('\n' :: line ++ ['\n']) ++ full := by simp
    rw [behind, List.getLast?_append_of_ne_nil _ some', ih]
    exact (List.getLast?_append_of_ne_nil ['\n'] some).symm

theorem eq_nil_iff_behind (comments : Comments ('\n' :: plain) ('\n' :: full)) :
    plain = [] ↔ full = [] := by
  cases comments with
  | keep _ further => exact further.eq_nil_iff
  | comment _ some _ => simp [some]

/-- Every line of the one text is a line of the other, up to the first line feed at least. -/
theorem lines (comments : Comments plain full) :
    ∃ line rest further, Text.lines plain = line :: rest ∧ Text.lines full = line :: further ∧
      Commented rest further := by
  induction comments with
  | nil => exact ⟨[], [], [], rfl, rfl, .nil⟩
  | @keep c plain full _ ih =>
    obtain ⟨line, rest, further, left, right, commented⟩ := ih
    by_cases isBreak : c = '\n'
    · rw [isBreak, lines_newline, lines_newline, left, right]
      exact ⟨[], _, _, rfl, rfl, .keep line commented⟩
    · rw [lines_cons isBreak, lines_cons isBreak, left, right]
      exact ⟨c :: line, rest, further, rfl, rfl, commented⟩
  | comment isComment _ _ ih =>
    obtain ⟨line, rest, further, left, right, commented⟩ := ih
    rw [lines_newline, lines_newline, lines_append_newline isComment.whole, left, right]
    exact ⟨[], _, _, rfl, rfl, .comment isComment (.keep line commented)⟩

/-- Behind a line feed, the whole text is one with comments between its lines. -/
theorem commented (comments : Comments ('\n' :: plain) ('\n' :: full)) :
    Commented (Text.lines plain) (Text.lines full) := by
  obtain ⟨line, rest, further, left, right, commented⟩ := comments.lines
  rw [lines_newline] at left right
  rw [(List.cons.inj left).2, (List.cons.inj right).2]
  exact commented

end Comments

def Annotated (plain full : String) : Prop := Comments plain.toList full.toList

namespace Annotated

variable {plain full before after : String}

theorem refl (text : String) : Annotated text text := Comments.refl _

theorem append (first : Annotated plain full) (second : Annotated before after) :
    Annotated (plain ++ before) (full ++ after) := by
  rw [Annotated, String.toList_append, String.toList_append]
  exact Comments.append first second

/-- Behind a line feed a comment can be put in front of any text. -/
theorem docComment {indent : String} (spaces : ∀ c ∈ indent.toList, c = ' ')
    (description : Option String) (some : plain ≠ "") (further : Annotated plain full) :
    Annotated ("\n" ++ plain) ("\n" ++ (docComment indent description ++ full)) := by
  rcases docComment_cases spaces description with none | ⟨line, isComment, same⟩
  · rw [none, String.empty_append]
    exact (refl "\n").append further
  · have some' : plain.toList ≠ [] := fun none => some (String.toList_eq_nil_iff.mp none)
    rw [Annotated]
    simp only [String.toList_append, same, List.append_assoc]
    exact Comments.comment isComment some' further

/-- Texts one after the other, with something between them that ends in what each of them may take
for granted in front of it. -/
theorem intercalate (mark between : String) {plains fulls : List String}
    (each : List.Forall₂ (fun plain full => Annotated (mark ++ plain) (mark ++ full))
      plains fulls) :
    Annotated (mark ++ (between ++ mark).intercalate plains)
      (mark ++ (between ++ mark).intercalate fulls) := by
  induction each with
  | nil => exact refl _
  | @cons plain full plains fulls first rest ih =>
    cases rest with
    | nil =>
      rw [String.intercalate_singleton, String.intercalate_singleton]
      exact first
    | cons next rest =>
      rw [String.intercalate_cons_of_ne_nil (List.cons_ne_nil _ _),
        String.intercalate_cons_of_ne_nil (List.cons_ne_nil _ _)]
      have whole := (first.append (refl between)).append ih
      simpa only [String.append_assoc] using whole

/-- Behind a line feed, the whole text is one with comments between its lines. -/
theorem commented (annotated : Annotated ("\n" ++ plain) ("\n" ++ full)) :
    Commented (lines plain.toList) (lines full.toList) := by
  rw [Annotated, String.toList_append, String.toList_append] at annotated
  exact Comments.commented annotated

end Annotated

end SchemaTypes.Text
