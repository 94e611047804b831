import SchemaTypes.Proofs.Text.Blocks
import SchemaTypes.Proofs.Text.Comment
import SchemaTypes.Proofs.TypeTree.Texts

/-! # Written types have no blank lines

Keys, literals and comments have no line feed of their own, so line feeds come from objects alone,
and there every line has something on it.
-/

namespace SchemaTypes

open SchemaTypes.Json Text

/-- The text has no blank line, wherever it stands. -/
def IsDense (text : String) : Prop := Dense text.toList

theorem IsDense.append {text more : String} (first : IsDense text) (second : IsDense more) :
    IsDense (text ++ more) := by
  rw [IsDense, String.toList_append]
  exact Dense.append first second

theorem isDense_of_not_mem {text : String} (whole : '\n' ∉ text.toList) : IsDense text :=
  dense_of_not_mem whole

/-- The text is made of whole lines that are not blank. -/
def IsRows (text : String) : Prop := Rows text.toList

theorem IsRows.append {text more : String} (first : IsRows text) (second : IsRows more) :
    IsRows (text ++ more) := by
  rw [IsRows, String.toList_append]
  exact Rows.append first second

theorem IsDense.rows {text : String} (dense : IsDense text) (nonempty : text ≠ "") :
    IsRows (text ++ "\n") := by
  rw [IsRows, String.toList_append]
  exact Dense.rows dense (mt String.toList_eq_nil_iff.mp nonempty)

theorem IsDense.behind {text rows : String} (dense : IsDense text) (nonempty : text ≠ "")
    (before : IsRows rows) : IsDense (rows ++ text) := by
  rw [IsDense, String.toList_append]
  exact Dense.behind dense (mt String.toList_eq_nil_iff.mp nonempty) before

theorem IsDense.line {text more : String} (first : IsDense text) (nonempty : text ≠ "")
    (second : IsDense more) (nonempty' : more ≠ "") : IsDense (text ++ "\n" ++ more) := by
  rw [String.append_assoc, IsDense, String.toList_append, String.toList_append]
  exact Dense.line first (mt String.toList_eq_nil_iff.mp nonempty) second
    (mt String.toList_eq_nil_iff.mp nonempty')

theorem isRows_docComment {indent : String} (spaces : ∀ c ∈ indent.toList, c = ' ')
    (description : Option String) : IsRows (docComment indent description) := by
  rcases docComment_cases spaces description with none | ⟨line, isComment, same⟩
  · rw [none]
    exact rows_nil
  · have nonempty : line ≠ [] := by
      rintro rfl
      exact absurd isComment.starts (by decide)
    rw [IsRows, same]
    exact (dense_of_not_mem isComment.whole).rows nonempty

namespace TypeTree

theorem isDense_indentation (depth : Nat) : IsDense (indentation depth) :=
  isDense_of_not_mem fun mem => absurd (spaces_indentation depth _ mem) (by decide)

/-- Rows stand between the braces of an object, and a row is a line. -/
theorem denseTexts : Printer.TextsRelated id 0 (fun name => '\n' ∉ name.toList)
    (fun text _ => IsDense text) (fun rows _ => IsRows rows) where
  silent := rfl
  line := isDense_of_not_mem
  name := isDense_of_not_mem
  append := IsDense.append
  noRows := rows_nil
  row depth description {line _ _ _} type further := by
    have comment := isRows_docComment (spaces_indentation depth) description
    have lineEnd : IsDense ";" := isDense_of_not_mem (by decide)
    have row := (((isDense_indentation depth).append type).append lineEnd).rows (by simp)
    have feed : ";\n" = ";" ++ "\n" := rfl
    rw [feed]
    simpa only [String.append_assoc, id] using comment.append (row.append further)
  object depth {rows _} isRows := by
    have opening : IsDense "\x7b" := isDense_of_not_mem (by decide)
    have brace : IsDense "\x7d" := isDense_of_not_mem (by decide)
    have closing := ((isDense_indentation depth).append brace).behind (by simp) isRows
    have feed : "\x7b\n" = "\x7b" ++ "\n" := rfl
    rw [feed]
    simpa only [String.append_assoc] using opening.line (by decide) closing (by simp)

/-- A written type has no blank line if no name in it has a line feed. -/
theorem isDense_inlineAt (depth : Nat) {tree : TypeTree} (names : tree.HasWholeNames) :
    IsDense (tree.inlineAt depth) :=
  denseTexts.inlineAt Printer.writes_printed names depth

/-- The members of an object are whole lines. -/
theorem isRows_members (depth : Nat) (required : List String)
    {properties : List (String × TypeTree)} {index : Option TypeTree}
    (names : ∀ part ∈ (Kind.interface properties required index).parts, part.HasWholeNames) :
    IsRows (memberLines depth required properties ++ indexLine depth index) := by
  rw [← Printer.rows_printed]
  exact denseTexts.members Printer.writes_printed required names depth

end TypeTree

end SchemaTypes
