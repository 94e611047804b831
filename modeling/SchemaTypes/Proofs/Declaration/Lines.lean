import SchemaTypes.Proofs.Declaration.Heading
import SchemaTypes.Proofs.TypeTree.Enumeration
import SchemaTypes.Proofs.TypeTree.Lines

/-! # Declarations have no blank lines

What follows a heading is whole lines and an end: the members of an object or of an enumeration with
the brace that closes them, or a written type with its semicolon.
-/

namespace SchemaTypes

open SchemaTypes.Json Text TypeTree

theorem isRows_join {texts : List String} (each : ∀ text ∈ texts, IsRows text) :
    IsRows (String.join texts) := by
  induction texts with
  | nil => exact rows_nil
  | cons text rest ih =>
    rw [String.join_cons]
    exact (each text List.mem_cons_self).append
      (ih fun text mem => each text (List.mem_cons_of_mem _ mem))

theorem Enumeration.whole_of_mem_members {taken : List String} {values : List Value}
    {member : String × String} (mem : member ∈ members taken values) :
    '\n' ∉ member.1.toList ∧ '\n' ∉ member.2.toList := by
  obtain ⟨value, -, -, literal⟩ := literal_of_mem_members mem
  refine ⟨fun here => absurd ((isKey_of_mem_members mem).made '\n' here) (by decide), ?_⟩
  exact literal ▸ newline_not_mem_literal value

theorem Enumeration.isRows_memberLine {taken : List String} {values : List Value}
    {member : String × String} (mem : member ∈ members taken values) :
    IsRows (memberLine member) := by
  obtain ⟨inKey, inLiteral⟩ := whole_of_mem_members mem
  have line : IsDense ("  " ++ member.1 ++ " = " ++ member.2 ++ ",") :=
    isDense_of_not_mem (by simp [inKey, inLiteral])
  have feed : ",\n" = "," ++ "\n" := rfl
  rw [memberLine, feed]
  simpa only [String.append_assoc] using line.rows (by simp)

/-- Each member has a line of its own. -/
theorem Enumeration.lines_members {members : List (String × String)} (each : ∀ member ∈ members,
    '\n' ∉ member.1.toList ∧ '\n' ∉ member.2.toList) (rest : List Char) :
    lines ((String.join (members.map memberLine)).toList ++ rest) =
      members.map (fun member => ("  " ++ member.1 ++ " = " ++ member.2 ++ ",").toList) ++
        lines rest := by
  induction members with
  | nil => rfl
  | cons member further ih =>
    obtain ⟨inKey, inLiteral⟩ := each member List.mem_cons_self
    have others := ih fun other mem => each other (List.mem_cons_of_mem _ mem)
    have whole : '\n' ∉ ("  " ++ member.1 ++ " = " ++ member.2 ++ ",").toList := by
      simp [inKey, inLiteral]
    have shape : (String.join ((member :: further).map memberLine)).toList ++ rest =
        ("  " ++ member.1 ++ " = " ++ member.2 ++ ",").toList ++
          '\n' :: ((String.join (further.map memberLine)).toList ++ rest) := by
      simp [memberLine]
    rw [shape, lines_append_newline whole, others, List.map_cons, List.cons_append]

namespace DeclarationForm

variable {tree : TypeTree} {name : String}

theorem content_rows (form : DeclarationForm) (names : tree.HasWholeNames) :
    ∃ rows tail, form.content tree = rows ++ tail ∧ IsRows rows ∧ IsDense tail ∧ tail ≠ "" ∧
      (form = .expression → rows = "") := by
  have lineEnd : IsDense ";" := isDense_of_not_mem (by decide)
  have brace : IsDense "\x7d" := isDense_of_not_mem (by decide)
  have expression := (isDense_inlineAt 0 names).append lineEnd
  rw [content.eq_def]
  split
  · next properties required index isInterface =>
    refine ⟨_, _, rfl, isRows_members 1 required fun part mem => ?_, brace, by decide, nofun⟩
    exact names.part (isInterface ▸ mem)
  · next values ofStrings isEnumeration =>
    refine ⟨_, _, rfl, isRows_join fun text mem => ?_, brace, by decide, nofun⟩
    obtain ⟨member, isMember, rfl⟩ := List.mem_map.mp mem
    exact Enumeration.isRows_memberLine isMember
  · exact ⟨"", _, String.empty_append.symm, rows_nil, expression, by simp, fun _ => rfl⟩

theorem isDense_heading_content (form : DeclarationForm) (whole : '\n' ∉ name.toList)
    (names : tree.HasWholeNames) : IsDense (form.heading name ++ form.content tree) := by
  obtain ⟨rows, tail, shape, isRows, dense, nonempty, none⟩ := form.content_rows names
  have isName := isDense_of_not_mem whole
  have lines := dense.behind nonempty isRows
  have nonempty' : rows ++ tail ≠ "" := append_ne_empty (.inr nonempty)
  rw [shape]
  have block {keyword : String} (isKeyword : IsDense keyword) (begins : keyword ≠ "") :
      IsDense (keyword ++ name ++ " \x7b\n" ++ (rows ++ tail)) := by
    have brace : IsDense " \x7b" := isDense_of_not_mem (by decide)
    have opening := (isKeyword.append isName).append brace
    have feed : " \x7b\n" = " \x7b" ++ "\n" := rfl
    rw [feed]
    simpa only [String.append_assoc] using
      opening.line (append_ne_empty (.inl (append_ne_empty (.inl begins)))) lines nonempty'
  cases form with
  | expression =>
    have keyword : IsDense "type " := isDense_of_not_mem (by decide)
    have equals : IsDense " = " := isDense_of_not_mem (by decide)
    exact ((keyword.append isName).append equals).append lines
  | interface => exact block (isDense_of_not_mem (by decide)) (by decide)
  | enumeration => exact block (isDense_of_not_mem (by decide)) (by decide)

end DeclarationForm

/-- A declaration has no blank line, if neither the declared name nor a name in the type has a line
feed. -/
theorem DeclarationOptions.isDense_declaration (options : DeclarationOptions) {tree : TypeTree}
    {name text : String} (named : tree.name = some name) (whole : '\n' ∉ name.toList)
    (names : tree.HasWholeNames) (declared : options.declaration? tree = some text) :
    text ≠ "" ∧ IsDense text := by
  rw [options.declaration?_eq named, Option.some.injEq] at declared
  subst declared
  have lines := (options.form tree).isDense_heading_content whole names
  have nonempty : (options.form tree).heading name ++ (options.form tree).content tree ≠ "" := by
    refine append_ne_empty (.inl ?_)
    cases options.form tree <;> simp [DeclarationForm.heading]
  have exported : IsDense (if options.exported then "export " else "") := by
    split <;> exact isDense_of_not_mem (by decide)
  have comment := isRows_docComment (fun c (mem : c ∈ "".toList) => absurd mem List.not_mem_nil)
    tree.description
  rw [String.append_assoc]
  exact ⟨append_ne_empty (.inr (append_ne_empty (.inr nonempty))),
    (exported.append lines).behind (append_ne_empty (.inr nonempty)) comment⟩

end SchemaTypes
