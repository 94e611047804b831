import SchemaTypes.Text.Replace
import SchemaTypes.TypeTree.Declaration
import SchemaTypes.Proofs.Text.DocLine
import SchemaTypes.Proofs.TypeTree.Texts

/-! # Nesting only indents

Inside objects a type is written as it is on its own, with spaces behind its line feeds. Line feeds
come from the rows of objects alone, and a row begins with the spaces for its place. So the text of
a type is put together from what its parts are written as on their own.
-/

namespace SchemaTypes

open SchemaTypes.Json Text

/-- A text with two spaces for each of `depth` levels behind every line feed. -/
def Text.indented (depth : Nat) (text : String) : String :=
  String.ofList (replaceChar '\n' ('\n' :: List.replicate (2 * depth) ' ') text.toList)

namespace TypeTree

/-- The row of a property inside `depth` objects, from what its type is written as on its own. -/
def propertyRow (depth : Nat) (required : List String) (name : String) (tree : TypeTree) : String :=
  docComment (indentation depth) tree.description ++ indentation depth ++ Naming.propertyKey name ++
    (if required.contains name then "" else "?") ++ ": " ++ indented depth tree.inline ++ ";\n"

/-- The row for further properties, from what their type is written as on its own. -/
def indexRow (depth : Nat) (tree : TypeTree) : String :=
  indentation depth ++ "[key: string]: " ++ indented depth tree.inline ++ ";\n"

def rows (depth : Nat) (required : List String) (properties : List (String × TypeTree))
    (index : Option TypeTree) : String :=
  String.join (properties.map fun entry => propertyRow depth required entry.1 entry.2) ++
    String.join (index.toList.map (indexRow depth))

/-- The text of a kind of type inside `depth` objects, put together from what its parts are written
as on their own. What has no parts is the same everywhere. -/
def assembled (depth : Nat) : Kind TypeTree → String
  | .array item => parenthesized (item.binding != .atom) (indented depth item.inline) ++ "[]"
  | .interface properties required index =>
    if properties.isEmpty && index.isNone then "\x7b\x7d" else
      "\x7b\n" ++ rows (depth + 1) required properties index ++ indentation depth ++ "\x7d"
  | .union members _ => joined " | " "never" (members.map fun tree => indented depth tree.inline)
  | .intersection members =>
    joined " & " "unknown" (members.map fun tree =>
      parenthesized (tree.binding == .union) (indented depth tree.inline))
  | kind => kindAt 0 kind

/-! ## Indented texts -/

variable {depth level : Nat}

theorem indented_append (depth : Nat) (text more : String) :
    indented depth (text ++ more) = indented depth text ++ indented depth more := by
  rw [indented, String.toList_append, replaceChar, List.flatMap_append, String.ofList_append]
  rfl

theorem indented_of_not_mem {text : String} (whole : '\n' ∉ text.toList) :
    indented depth text = text := by
  have kept : replaceChar '\n' ('\n' :: List.replicate (2 * depth) ' ') text.toList =
      text.toList.flatMap fun c => [c] :=
    List.flatMap_congr fun c mem => if_neg (ne_of_mem_of_not_mem mem whole)
  rw [indented, kept, List.flatMap_singleton', String.ofList_toList]

theorem indented_lineFeed (depth : Nat) : indented depth "\n" = "\n" ++ indentation depth := by
  have feed : "\n" = String.ofList ['\n'] := rfl
  have replaced : replaceChar '\n' ('\n' :: List.replicate (2 * depth) ' ') ['\n'] =
      ['\n'] ++ List.replicate (2 * depth) ' ' := by
    rw [replaceChar, List.flatMap_singleton, if_pos rfl]
    rfl
  rw [indented, indentation, feed, ← String.ofList_append, String.toList_ofList, replaced]

theorem indentation_append (level depth : Nat) :
    indentation level ++ indentation depth = indentation (level + depth) := by
  rw [indentation, indentation, indentation, ← String.ofList_append,
    List.replicate_append_replicate, Nat.mul_add]

theorem newline_not_mem_indentation (depth : Nat) : '\n' ∉ (indentation depth).toList :=
  fun mem => absurd (spaces_indentation depth _ mem) (by decide)

/-! ## Rows -/

/-- Rows, and the same rows inside `depth` more objects. The spaces that indenting puts behind the
last row belong in front of the first one. -/
def Shifts (depth : Nat) (rows deeper : String) : Prop :=
  indentation depth ++ indented depth rows = deeper ++ indentation depth

theorem Shifts.append {rows deeper more deeper' : String} (first : Shifts depth rows deeper)
    (second : Shifts depth more deeper') : Shifts depth (rows ++ more) (deeper ++ deeper') := by
  rw [Shifts] at first second ⊢
  rw [indented_append, ← String.append_assoc, first, String.append_assoc, second,
    String.append_assoc]

theorem shifts_empty (depth : Nat) : Shifts depth "" "" := by
  rw [Shifts, indented_of_not_mem (by decide), String.append_empty, String.empty_append]

/-- A row of its own goes from one level to a deeper one. -/
theorem shifts_row (depth level : Nat) {line deeper : String}
    (same : indented depth line = deeper) :
    Shifts depth (indentation level ++ line ++ "\n")
      (indentation (level + depth) ++ deeper ++ "\n") := by
  rw [Shifts, indented_append, indented_append, same, indented_lineFeed,
    indented_of_not_mem (newline_not_mem_indentation level), Nat.add_comm, ← indentation_append]
  simp only [String.append_assoc]

theorem shifts_docComment (depth level : Nat) (description : Option String) :
    Shifts depth (docComment (indentation level) description)
      (docComment (indentation (level + depth)) description) := by
  rw [docComment, docComment]
  cases told : description.bind docLine? with
  | none => exact shifts_empty depth
  | some line =>
    obtain ⟨said, -, isLine⟩ := Option.bind_eq_some_iff.mp told
    have whole : '\n' ∉ ("/** " ++ line ++ " */").toList := by
      simp only [String.toList_append, List.mem_append, not_or]
      exact ⟨⟨by decide, (isDocLine_of_docLine? isLine).whole⟩, by decide⟩
    have row := shifts_row depth level (indented_of_not_mem whole)
    have feed : " */\n" = " */" ++ "\n" := rfl
    rw [feed]
    simpa only [String.append_assoc] using row

/-! ## Types -/

/-- A row goes deeper as a line, and the braces of an object stand at its own level. -/
theorem indentedTexts (shift : Nat) :
    Printer.TextsRelated id shift (fun name => '\n' ∉ name.toList)
      (fun text deeper => indented shift text = deeper) (Shifts shift) where
  silent := rfl
  line := indented_of_not_mem
  name := indented_of_not_mem
  append first second := by rw [indented_append, first, second]
  noRows := shifts_empty shift
  row level description {line deeper _ _} type further := by
    have comment := shifts_docComment shift level description
    have lineEnd : indented shift ";" = ";" := indented_of_not_mem (by decide)
    have whole : indented shift (line ++ ";") = deeper ++ ";" := by
      rw [indented_append, type, lineEnd]
    have row := comment.append ((shifts_row shift level whole).append further)
    have feed : ";\n" = ";" ++ "\n" := rfl
    rw [feed]
    simpa only [String.append_assoc, id] using row
  object level {rows deeper} shifts := by
    have opening : indented shift "\x7b" = "\x7b" := indented_of_not_mem (by decide)
    have closing : indented shift "\x7d" = "\x7d" := indented_of_not_mem (by decide)
    have brace : "\x7b\n" = "\x7b" ++ "\n" := rfl
    calc indented shift ("\x7b\n" ++ rows ++ indentation level ++ "\x7d")
      _ = "\x7b" ++ "\n" ++ (indentation shift ++ indented shift rows) ++ indentation level ++
          "\x7d" := by
        rw [brace]
        simp only [indented_append, indented_lineFeed, opening, closing,
          indented_of_not_mem (newline_not_mem_indentation level), String.append_assoc]
      _ = "\x7b" ++ "\n" ++ (deeper ++ indentation shift) ++ indentation level ++ "\x7d" := by
        rw [shifts]
      _ = "\x7b\n" ++ deeper ++ indentation (level + shift) ++ "\x7d" := by
        rw [Nat.add_comm level shift, ← indentation_append, brace]
        simp only [String.append_assoc]

/-- Inside more objects a type is written with more spaces. -/
theorem indented_inlineAt (depth level : Nat) {tree : TypeTree} (names : tree.HasWholeNames) :
    indented depth (tree.inlineAt level) = tree.inlineAt (level + depth) :=
  (indentedTexts depth).inlineAt Printer.writes_printed names level

theorem inlineAt_eq_indented (depth : Nat) {tree : TypeTree} (names : tree.HasWholeNames) :
    tree.inlineAt depth = indented depth tree.inline := by
  rw [inline, indented_inlineAt depth 0 names, Nat.zero_add]

/-! ## Types from their parts -/

theorem rows_eq (depth : Nat) (required : List String) {properties : List (String × TypeTree)}
    {index : Option TypeTree}
    (each : ∀ part ∈ (Kind.interface properties required index).parts, part.HasWholeNames) :
    memberLines depth required properties ++ indexLine depth index =
      rows depth required properties index := by
  have members : memberLines depth required properties =
      String.join (properties.map fun entry => propertyRow depth required entry.1 entry.2) := by
    have names (entry : String × TypeTree) (mem : entry ∈ properties) : entry.2.HasWholeNames :=
      each entry.2 (List.mem_append_left _ (List.mem_map_of_mem mem))
    clear each
    induction properties with
    | nil => rfl
    | cons entry rest ih =>
      rw [List.forall_mem_cons] at names
      rw [memberLines, List.map_cons, String.join_cons, ih names.2, propertyRow,
        inlineAt_eq_indented depth names.1]
  have further : indexLine depth index = String.join (index.toList.map (indexRow depth)) := by
    cases index with
    | none => rfl
    | some tree =>
      have names := each tree (List.mem_append_right _ List.mem_cons_self)
      rw [indexLine, inlineAt_eq_indented depth names]
      simp [indexRow]
  rw [members, further, rows]

theorem kindAt_eq_assembled (depth : Nat) {attributes : Attributes} {kind : Kind TypeTree}
    (names : HasWholeNames (.node attributes kind)) : kindAt depth kind = assembled depth kind := by
  have each : ∀ part ∈ kind.parts, part.HasWholeNames := (hasNames_node.mp names).2
  cases kind with
  | array item => rw [kindAt, assembled, inlineAt_eq_indented depth (each item List.mem_cons_self)]
  | interface properties required index =>
    rw [kindAt, assembled, ← rows_eq (depth + 1) required each]
    simp only [String.append_assoc]
  | union members discriminator =>
    rw [kindAt, assembled, inlineEach_eq]
    exact congrArg _ (List.map_congr_left fun member mem =>
      inlineAt_eq_indented depth (each member mem))
  | intersection members =>
    rw [kindAt, assembled, operandEach_eq]
    refine congrArg _ (List.map_congr_left fun member mem => ?_)
    rw [inlineAt_eq_indented depth (each member mem)]
  | _ => rfl

/-- Inside any number of objects a type is written as it is on its own, with spaces behind its line
feeds. So its text, and its own form of declaration, are put together from what its parts are
written as on their own, indented to where they stand. -/
theorem nesting_indents {tree : TypeTree} (names : tree.HasWholeNames) (depth : Nat) :
    tree.inlineAt depth = indented depth tree.inline ∧
    tree.inlineAt depth =
      assembled depth tree.kind ++ nullSuffix tree.nullable tree.kind ∧
    ∀ name properties required index, tree.name = some name →
      tree.kind = .interface properties required index →
      tree.interfaceDeclaration? = some ("interface " ++ name ++ " \x7b\n" ++
        rows 1 required properties index ++ "\x7d") := by
  rcases tree with ⟨attributes, kind⟩
  refine ⟨inlineAt_eq_indented depth names, ?_, ?_⟩
  · rw [inlineAt, kindAt_eq_assembled depth names]
    rfl
  · rintro name properties required index isName rfl
    have named : attributes.name = some name := isName
    rw [interfaceDeclaration?, named, Option.map_some,
      ← rows_eq 1 required (hasNames_node.mp names).2]
    simp only [String.append_assoc]

/-- A list of objects in an object, with a comment and a quoted key. -/
theorem nesting_indents_owner :
    let owner : TypeTree := plain (.interface [("full name",
      .node { description := some "First\nlast" } (.custom "Name"))] ["full name"] none)
    let tree : TypeTree := .node { name := some "Pet", nullable := true }
      (.interface [("owner", plain (.array owner))] [] (some unknown))
    tree.HasWholeNames ∧
    tree.inlineAt 1 = indented 1 tree.inline ∧
    tree.inlineAt 1 = assembled 1 tree.kind ++ " | null" ∧
    tree.inlineAt 1 = "\x7b\n    owner?: \x7b\n      /** First last */\n" ++
      "      \"full name\": Name;\n    \x7d[];\n    [key: string]: unknown;\n  \x7d | null" ∧
    tree.interfaceDeclaration? = some ("interface Pet \x7b\n" ++
      rows 1 [] [("owner", plain (.array owner))] (some unknown) ++ "\x7d") := by
  intro owner tree
  have names : tree.HasWholeNames := by decide
  obtain ⟨deeper, fromParts, declared⟩ := nesting_indents names 1
  exact ⟨names, deeper, fromParts, by decide +kernel, declared "Pet" _ _ _ rfl rfl⟩

end TypeTree

end SchemaTypes
