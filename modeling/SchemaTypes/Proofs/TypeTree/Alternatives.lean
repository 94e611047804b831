import Mathlib
import SchemaTypes.Proofs.Text.Alternatives
import SchemaTypes.Proofs.TypeTree.Expression

/-! # The alternatives of a written type

Brackets that begin in a written type end in it, and a type that does not bind as a union has no
bar to be cut at. So the alternatives of a union are those of its members, and `null` is put behind
a type as an alternative of its own. It is among the alternatives already if it is listed; an
intersection of a single member, which is written as this member, may have it without listing it.
-/

namespace SchemaTypes

open SchemaTypes.Json Text

/-! ## Words and literals -/

theorem isPlain_of_isWordChar {c : Char} (word : Lexer.isWordChar c) : isPlain c := by
  have none : c ∉ ['|', '"', '/', '(', '<', '[', '{', ')', '>', ']', '}'] :=
    not_mem_of_all_not (by decide) word
  simp only [List.mem_cons, List.not_mem_nil, or_false, not_or] at none
  simp [isPlain, Binding.isOpening, Binding.isClosing, none]

theorem isBlank_of_isAlphanum {c : Char} (alphanum : c.isAlphanum) : isBlank c = false := by
  have code : c.toNat = c.val.toNat := rfl
  have range : 48 ≤ c.toNat ∧ c.toNat ≤ 122 := by
    simp only [Char.isAlphanum, Char.isAlpha, Char.isUpper, Char.isLower, Char.isDigit,
      Bool.or_eq_true, Bool.and_eq_true, decide_eq_true_eq, ge_iff_le,
      UInt32.le_iff_toNat_le] at alphanum
    simp at alphanum
    omega
  simp [isBlank]
  omega

theorem isBlank_of_isWordChar {c : Char} (word : Lexer.isWordChar c) : isBlank c = false := by
  simp only [Lexer.isWordChar, Lexer.isNameChar, Bool.or_eq_true, Bool.and_eq_true, beq_iff_eq,
    Bool.not_eq_true'] at word
  rcases word with (((((alphanum | rfl) | rfl) | ⟨-, noBlank⟩) | rfl) | rfl) | rfl
  · exact isBlank_of_isAlphanum alphanum
  all_goals first | assumption | decide

theorem IsWordText.whole {text : String} (isWord : IsWordText text) : Whole text :=
  whole_of_plain (List.all_eq_true.mpr fun c mem =>
    isPlain_of_isWordChar (List.all_eq_true.mp isWord c mem))

theorem IsWordText.trimmed {text : String} (isWord : IsWordText text) : trimmed text = text := by
  have noBlank : ∀ c ∈ text.toList, isBlank c = false := fun c mem =>
    isBlank_of_isWordChar (List.all_eq_true.mp isWord c mem)
  rw [Text.trimmed, trim_eq_self (fun c mem => noBlank c (List.mem_of_mem_head? mem))
    (fun c mem => noBlank c (List.mem_of_mem_getLast? mem)), String.ofList_toList]

theorem IsIdentifier.isWordText {name : String} (identifier : IsIdentifier name) :
    IsWordText name := by
  refine List.all_eq_true.mpr fun c mem => ?_
  rw [Lexer.isWordChar, List.all_eq_true.mp identifier.2.2 c mem]
  rfl

theorem trimmed_quote (text : String) : trimmed (quote text) = quote text := by
  rw [trimmed, trim_eq_self, String.ofList_toList]
  · intro c mem
    rw [quote, String.toList_ofList] at mem
    cases mem
    rfl
  · intro c mem
    rw [quote, String.toList_ofList, List.getLast?_concat] at mem
    cases mem
    rfl

theorem whole_literal (value : Value) : Whole value.literal := by
  rcases literal_cases value with word | ⟨text, quoted⟩
  · exact word.whole
  · rw [quoted]
    exact whole_quote text

theorem alternatives_literal (value : Value) : alternatives value.literal = [value.literal] := by
  have same : trimmed value.literal = value.literal := by
    rcases literal_cases value with word | ⟨text, quoted⟩
    · exact word.trimmed
    · rw [quoted]
      exact trimmed_quote text
  rw [alternatives_of_whole (whole_literal value), same]

/-- A literal that is neither a string literal nor a number is a keyword. -/
theorem keyword_of_literal {value : Value} {word : String} (same : value.literal = word)
    (noQuote : word.toList.head? ≠ some '"') (noNumber : ¬ IsNumberText word) :
    value = .null ∨ ∃ b, value = .bool b := by
  have noString (text : String) : quote text ≠ word := by
    rintro rfl
    exact noQuote (by simp [quote])
  cases value with
  | null => exact .inl rfl
  | bool b => exact .inr ⟨b, rfl⟩
  | number n =>
    have isText : n.text = word := same
    exact absurd (isText ▸ isNumberText_number n) noNumber
  | string text => exact absurd same (noString text)
  | array items => exact absurd same (noString _)
  | object fields => exact absurd same (noString _)

theorem literal_eq_null_iff (value : Value) : value.literal = "null" ↔ value.isNull := by
  constructor
  · intro same
    rcases keyword_of_literal same (by decide) (by decide) with rfl | ⟨b, rfl⟩
    · rfl
    · cases b <;> exact absurd same (by decide)
  · cases value with
    | null => exact fun _ => rfl
    | _ => nofun

theorem literal_ne_never (value : Value) : value.literal ≠ "never" := by
  intro same
  rcases keyword_of_literal same (by decide) (by decide) with rfl | ⟨b, rfl⟩
  · exact absurd same (by decide)
  · cases b <;> exact absurd same (by decide)

namespace TypeTree

/-! ## Written types are closed -/

/-- The text of a type is closed, and whole if the type does not bind as a union. -/
structure IsClosed (text : String) (binding : Binding) : Prop where
  closed : Closed text
  whole (tight : binding ≠ .union) : Whole text

variable {depth : Nat} {binding : Binding} {text : String}

theorem isClosed_of_whole (whole : Whole text) : IsClosed text binding :=
  ⟨whole.closed, fun _ => whole⟩

theorem whole_parenthesized {needed : Bool} (closed : Closed text)
    (whole : needed = false → Whole text) : Whole (parenthesized needed text) := by
  cases needed with
  | true => exact closed.between (by decide)
  | false => exact whole rfl

theorem IsClosed.operand (isClosed : IsClosed text binding) :
    Whole (parenthesized (binding == .union) text) :=
  whole_parenthesized isClosed.closed fun tight => isClosed.whole (by simpa using tight)

theorem IsClosed.item (isClosed : IsClosed text binding) :
    Whole (parenthesized (binding != .atom) text) := by
  refine whole_parenthesized isClosed.closed fun tight => isClosed.whole ?_
  rw [bne_eq_false_iff_eq] at tight
  rw [tight]
  decide

theorem whole_indentation (depth : Nat) : Whole (indentation depth) := by
  refine whole_of_plain (List.all_eq_true.mpr fun c mem => ?_)
  rw [spaces_indentation depth c mem]
  rfl

theorem whole_propertyKey (name : String) : Whole (Naming.propertyKey name) := by
  rcases propertyKey_cases name with word | quoted
  · exact word.whole
  · rw [quoted]
    exact whole_quote name

/-- What types are put together with is closed, and whole where it does not bind as a union. -/
theorem closedTexts : Printer.Related Printer.printed Printer.printed IsIdentifier
    (fun binding text _ => ∀ depth, IsClosed (text depth) binding)
    (fun rows _ => ∀ depth, Closed (rows depth)) where
  weaken inner depth := ⟨(inner depth).closed, fun tight => absurd rfl tight⟩
  primitive primitive _ := isClosed_of_whole primitive.isWordText.whole
  literal value _ := isClosed_of_whole (whole_literal value)
  custom isName _ := isClosed_of_whole isName.isWordText.whole
  reference isName _ := isClosed_of_whole isName.isWordText.whole
  array inner depth := by
    have brackets : Whole ("[" ++ "" ++ "]") := whole_empty.closed.between (by decide)
    exact isClosed_of_whole ((inner depth).item.append brackets)
  noMember _ := by
    have never : Whole "never" := whole_of_plain (by decide)
    exact isClosed_of_whole never
  onlyMember inner := inner
  members {_ items _ _} nonempty each depth := by
    simp only [Printer.texts, List.map_map, joined_map nonempty]
    refine ⟨closed_intercalate fun text mem => ?_, fun tight => absurd rfl tight⟩
    obtain ⟨item, isItem, rfl⟩ := List.mem_map.mp mem
    exact (each item isItem depth).closed
  noOperand _ := by
    have unknown : Whole "unknown" := whole_of_plain (by decide)
    exact isClosed_of_whole unknown
  onlyOperand inner depth := isClosed_of_whole (inner depth).operand
  operands nonempty each depth := by
    have ampersand : Whole " & " := whole_of_plain (by decide)
    simp only [Printer.texts, List.map_map, joined_map nonempty]
    refine isClosed_of_whole (intercalate_of_append whole_empty Whole.append ampersand
      fun text mem => ?_)
    obtain ⟨item, isItem, rfl⟩ := List.mem_map.mp mem
    exact (each item isItem depth).operand
  orNull inner depth := by
    have null : Whole "null" := whole_of_plain (by decide)
    exact ⟨(inner depth).closed.append (closed_bar.append null.closed),
      fun tight => absurd rfl tight⟩
  emptyObject _ := by
    have braces : Whole ("\x7b" ++ "" ++ "\x7d") := whole_empty.closed.between (by decide)
    exact isClosed_of_whole braces
  object {rows _} closed depth := by
    have feed : Whole "\n" := whole_of_plain (by decide)
    have inner := (feed.closed.append (closed (depth + 1))).append (whole_indentation depth).closed
    have braces : Whole ("\x7b" ++ _ ++ "\x7d") := inner.between (by decide)
    have front : "\x7b\n" = "\x7b" ++ "\n" := rfl
    refine isClosed_of_whole ?_
    simp only [Printer.texts, front]
    simpa only [String.append_assoc] using braces
  property name required description _ _ _ _ inner more depth := by
    have comment := whole_docComment (spaces_indentation depth) description
    have key := (comment.append (whole_indentation depth)).append (whole_propertyKey name)
    have mark : Whole (if required then "" else "?") := by
      split <;> exact whole_of_plain (by decide)
    have colon : Whole ": " := whole_of_plain (by decide)
    have lineEnd : Whole ";\n" := whole_of_plain (by decide)
    have front := ((key.append mark).append colon).closed
    exact ((front.append (inner depth).closed).append lineEnd.closed).append (more depth)
  further inner depth := by
    have name : Whole "key: string" := whole_of_plain (by decide)
    have key : Whole ("[" ++ "key: string" ++ "]") := name.closed.between (by decide)
    have colon : Whole ": " := whole_of_plain (by decide)
    have lineEnd : Whole ";\n" := whole_of_plain (by decide)
    have front := ((whole_indentation depth).append (key.append colon)).closed
    exact (front.append (inner depth).closed).append lineEnd.closed
  noFurther _ := whole_empty.closed

/-- Written types are closed if the names in them are identifiers. -/
theorem isClosed_inlineAt (depth : Nat) {tree : TypeTree} (names : tree.HasNames IsIdentifier) :
    IsClosed (tree.inlineAt depth) tree.binding :=
  closedTexts.tree Printer.writes_printed Printer.writes_printed names depth

theorem isClosed_kind (depth : Nat) {attributes : Attributes} {kind : Kind TypeTree}
    (names : HasNames IsIdentifier (.node attributes kind)) :
    IsClosed (kindAt depth kind) (plain kind).binding := by
  have alone : IsClosed (kindAt depth kind ++ "") (plain kind).binding :=
    isClosed_inlineAt depth (names.mapAttributes fun _ => {})
  rwa [String.append_empty] at alone

/-! ## Where `null` is among the alternatives -/

/-- The alternatives of a union are those of its members. -/
theorem alternatives_joined {α : Type} {items : List α} {text : α → String}
    (closed : ∀ item ∈ items, Closed (text item)) :
    alternatives (joined " | " "never" (items.map text)) =
      if items = [] then ["never"] else items.flatMap fun item => alternatives (text item) := by
  rcases items with _ | ⟨first, rest⟩
  · have never : alternatives "never" = ["never"] := by decide
    exact never
  · rw [joined_map (List.cons_ne_nil _ _), if_neg (List.cons_ne_nil _ _),
      alternatives_intercalate (by simp), List.flatMap_map]
    intro text' mem
    obtain ⟨item, isItem, rfl⟩ := List.mem_map.mp mem
    exact closed item isItem

theorem null_mem_joined {α : Type} {items : List α} {text : α → String}
    (closed : ∀ item ∈ items, Closed (text item)) :
    "null" ∈ alternatives (joined " | " "never" (items.map text)) ↔
      ∃ item ∈ items, "null" ∈ alternatives (text item) := by
  rw [alternatives_joined closed]
  split
  · next none => simp [none]
  · exact List.mem_flatMap

mutual

/-- Whether `null` is among the alternatives of a type although it is not listed: an intersection of
a single member is written as the member, but what the member lists does not count. -/
def hidesNull : TypeTree → Bool
  | .node _ kind => kindHidesNull kind

def kindHidesNull : Kind TypeTree → Bool
  | .union members _ => anyHidesNull members
  | .intersection [only] => only.binding != .union && (only.listsNull || hidesNull only)
  | _ => false

def anyHidesNull : List TypeTree → Bool
  | [] => false
  | tree :: trees => hidesNull tree || anyHidesNull trees

end

theorem anyHidesNull_eq (trees : List TypeTree) : anyHidesNull trees = trees.any hidesNull := by
  induction trees with
  | nil => rfl
  | cons tree trees ih => rw [anyHidesNull, ih, List.any_cons]

abbrev HasTypeNames (tree : TypeTree) : Prop :=
  tree.HasNames fun name => IsIdentifier name ∧ name ≠ "null"

theorem HasTypeNames.identifiers {tree : TypeTree} (names : tree.HasTypeNames) :
    tree.HasNames IsIdentifier :=
  fun node mem name isName => (names node mem name isName).1

/-- A whole text with a character in it that `null` has not. -/
theorem null_not_mem_alternatives {c : Char} (whole : Whole text) (mem : c ∈ text.toList)
    (other : c ∉ "null".toList ∧ isBlank c = false) : "null" ∉ alternatives text := by
  rw [alternatives_of_whole whole, List.mem_singleton]
  intro same
  refine other.1 ?_
  rw [same, trimmed, String.toList_ofList]
  exact mem_trim mem other.2

theorem mem_alternatives_word {word other : String} (isWord : IsWordText word) :
    other ∈ alternatives word ↔ other = word := by
  rw [alternatives_of_whole isWord.whole, isWord.trimmed, List.mem_singleton]

/-- `null` is among the alternatives of a type exactly if the type admits it, lists it or hides
it. -/
def ShowsNull (depth : Nat) (tree : TypeTree) : Prop :=
  "null" ∈ alternatives (tree.inlineAt depth) ↔ tree.nullable || tree.listsNull || tree.hidesNull

theorem null_mem_enumeration (values : List Value) (ofStrings : Bool) :
    "null" ∈ alternatives (kindAt depth (.enumeration values ofStrings)) ↔
      kindListsNull (.enumeration values ofStrings) := by
  rw [kindAt, kindListsNull, null_mem_joined fun value _ => (whole_literal value).closed,
    List.any_eq_true]
  refine exists_congr fun value => and_congr_right fun _ => ?_
  rw [alternatives_literal, List.mem_singleton, eq_comm, literal_eq_null_iff]

theorem null_mem_union {members : List TypeTree} (discriminator : Option Discriminator)
    (closed : ∀ member ∈ members, Closed (member.inlineAt depth))
    (each : ∀ member ∈ members, ShowsNull depth member) :
    "null" ∈ alternatives (kindAt depth (.union members discriminator)) ↔
      kindListsNull (.union members discriminator) ||
        kindHidesNull (.union members discriminator) := by
  rw [kindAt, inlineEach_eq, kindListsNull, anyListsNull_eq, kindHidesNull, anyHidesNull_eq,
    null_mem_joined closed, Bool.or_eq_true, List.any_eq_true, List.any_eq_true, ← exists_or]
  refine exists_congr fun member => ?_
  rw [← and_or_left, ← Bool.or_eq_true]
  exact and_congr_right fun isMember => each member isMember

/-- In parentheses `null` is no alternative, and a type without them lists it or hides it. -/
theorem null_mem_operand {tree : TypeTree} (isClosed : IsClosed (tree.inlineAt depth) tree.binding)
    (shows : ShowsNull depth tree) :
    "null" ∈ alternatives (parenthesized (tree.binding == .union) (tree.inlineAt depth)) ↔
      tree.binding != .union && (tree.listsNull || tree.hidesNull) := by
  by_cases isUnion : tree.binding = .union
  · have brackets : parenthesized (tree.binding == .union) (tree.inlineAt depth) =
        "(" ++ tree.inlineAt depth ++ ")" := by
      rw [isUnion]
      rfl
    refine iff_of_false ?_ (by simp [isUnion])
    have opening : '(' ∈ (parenthesized (tree.binding == .union)
        (tree.inlineAt depth)).toList := by
      rw [brackets, String.toList_append, String.toList_append]
      exact List.mem_append_left _ (List.mem_append_left _ (by decide))
    exact null_not_mem_alternatives isClosed.operand opening (by decide)
  · have notNullable : tree.nullable = false := by
      rcases tree with ⟨attributes, kind⟩
      rw [binding_node] at isUnion
      exact Bool.eq_false_iff.mpr fun nullable => isUnion (if_pos nullable)
    have bare : parenthesized (tree.binding == .union) (tree.inlineAt depth) =
        tree.inlineAt depth := by simp [parenthesized, isUnion]
    rw [bare, bne_iff_ne.mpr isUnion, Bool.true_and]
    rwa [ShowsNull, notNullable, Bool.false_or] at shows

theorem null_not_mem_operands {first second : String} {rest : List String}
    (whole : ∀ text ∈ first :: second :: rest, Whole text) :
    "null" ∉ alternatives (" & ".intercalate (first :: second :: rest)) := by
  have ampersand : Whole " & " := whole_of_plain (by decide)
  have between : '&' ∈ (" & ".intercalate (first :: second :: rest)).toList := by
    rw [String.intercalate_cons_of_ne_nil (List.cons_ne_nil _ _), String.toList_append,
      String.toList_append]
    exact List.mem_append_left _ (List.mem_append_right _ (by decide))
  exact null_not_mem_alternatives (intercalate_of_append whole_empty Whole.append ampersand whole)
    between (by decide)

theorem null_mem_intersection {members : List TypeTree}
    (closed : ∀ member ∈ members, IsClosed (member.inlineAt depth) member.binding)
    (each : ∀ member ∈ members, ShowsNull depth member) :
    "null" ∈ alternatives (kindAt depth (.intersection members)) ↔
      kindHidesNull (.intersection members) := by
  rw [kindAt, operandEach_eq]
  rcases members with _ | ⟨only, _ | ⟨second, rest⟩⟩
  · have unknown : "null" ∉ alternatives "unknown" := by decide
    exact iff_of_false unknown (by decide)
  · rw [joined_map (List.cons_ne_nil _ _), List.map_singleton, String.intercalate_singleton,
      kindHidesNull]
    exact null_mem_operand (closed only List.mem_cons_self) (each only List.mem_cons_self)
  · rw [joined_map (List.cons_ne_nil _ _)]
    have whole : ∀ text ∈ (only :: second :: rest).map fun tree =>
        parenthesized (tree.binding == .union) (tree.inlineAt depth), Whole text := by
      intro text mem
      obtain ⟨member, isMember, rfl⟩ := List.mem_map.mp mem
      exact (closed member isMember).operand
    exact iff_of_false (null_not_mem_operands whole) (by simp [kindHidesNull])

theorem null_mem_kindAt {attributes : Attributes} {kind : Kind TypeTree}
    (names : HasTypeNames (.node attributes kind))
    (each : ∀ part ∈ kind.parts, ShowsNull depth part) :
    "null" ∈ alternatives (kindAt depth kind) ↔ kindListsNull kind || kindHidesNull kind := by
  obtain ⟨own, below⟩ := hasNames_node.mp names
  have closed (part : TypeTree) (mem : part ∈ kind.parts) :
      IsClosed (part.inlineAt depth) part.binding :=
    isClosed_inlineAt depth (HasTypeNames.identifiers (below part mem))
  have whole : (plain kind).binding ≠ .union → Whole (kindAt depth kind) :=
    (isClosed_kind depth names.identifiers).whole
  have noName (name : String) (isLeaf : leafName? (.node attributes kind) = some name) :
      "null" ∉ alternatives name := by
    rw [mem_alternatives_word (own name isLeaf).1.isWordText]
    exact (own name isLeaf).2.symm
  cases kind with
  | primitive primitive =>
    rw [kindAt, mem_alternatives_word primitive.isWordText]
    cases primitive <;> simp [Primitive.text, kindListsNull, kindHidesNull]
  | literal value =>
    rw [kindAt, alternatives_literal, List.mem_singleton, eq_comm, literal_eq_null_iff]
    cases value <;> simp [Value.isNull, kindListsNull, kindHidesNull]
  | custom text =>
    exact iff_of_false (noName text rfl) (by simp [kindListsNull, kindHidesNull])
  | reference name =>
    exact iff_of_false (noName name rfl) (by simp [kindListsNull, kindHidesNull])
  | array item =>
    have bracket : ']' ∈ (kindAt depth (.array item)).toList := by
      rw [kindAt, String.toList_append]
      exact List.mem_append_right _ (by decide)
    exact iff_of_false (null_not_mem_alternatives (whole Binding.noConfusion) bracket (by decide))
      (by simp [kindListsNull, kindHidesNull])
  | interface properties required index =>
    have brace : '\x7d' ∈ (kindAt depth (.interface properties required index)).toList := by
      rw [kindAt]
      split
      · decide
      · rw [String.toList_append]
        exact List.mem_append_right _ (by decide)
    exact iff_of_false (null_not_mem_alternatives (whole Binding.noConfusion) brace (by decide))
      (by simp [kindListsNull, kindHidesNull])
  | enumeration values ofStrings =>
    have hides : kindHidesNull (.enumeration values ofStrings) = false := by simp [kindHidesNull]
    rw [null_mem_enumeration, hides, Bool.or_false]
  | union members discriminator =>
    exact null_mem_union discriminator (fun member mem => (closed member mem).closed) each
  | intersection members =>
    have lists : kindListsNull (.intersection members) = false := by simp [kindListsNull]
    rw [lists, Bool.false_or]
    exact null_mem_intersection closed each

/-- The alternatives of a type that may be `null`, from those of its kind. -/
theorem alternatives_inlineAt {attributes : Attributes} {kind : Kind TypeTree}
    (closed : Closed (kindAt depth kind)) :
    alternatives (inlineAt depth (.node attributes kind)) = alternatives (kindAt depth kind) ++
      if attributes.nullable && !kindListsNull kind then ["null"] else [] := by
  rw [inlineAt, nullSuffix]
  split
  · have suffix : kindAt depth kind ++ " | null" = kindAt depth kind ++ " | " ++ "null" := by
      rw [String.append_assoc]
      rfl
    have null : alternatives "null" = ["null"] := by decide
    rw [suffix, alternatives_append closed, null]
  · rw [String.append_empty, List.append_nil]

theorem showsNull (depth : Nat) {tree : TypeTree} (names : tree.HasTypeNames) :
    ShowsNull depth tree := by
  induction tree using inductionOnParts generalizing depth with
  | node attributes kind parts =>
    have isClosed := isClosed_kind depth names.identifiers
    have mem := null_mem_kindAt names fun part isPart => parts part isPart depth (names.part isPart)
    rw [ShowsNull, alternatives_inlineAt isClosed.closed, List.mem_append, mem]
    change _ ↔ attributes.nullable || kindListsNull kind || kindHidesNull kind
    cases attributes.nullable <;> cases kindListsNull kind <;> simp

/-- Putting `null` behind a type adds it as an alternative unless it is listed. It is among the
alternatives already if it is listed or hidden, and only then. -/
theorem alternatives_nullable (tree : TypeTree) (names : tree.HasTypeNames) :
    let alone := alternatives (tree.withNullable false).inline
    alternatives (tree.withNullable true).inline =
      alone ++ (if tree.listsNull then [] else ["null"]) ∧
    ("null" ∈ alone ↔ tree.listsNull ∨ tree.hidesNull) := by
  intro alone
  rcases tree with ⟨attributes, kind⟩
  have closed := (isClosed_kind 0 names.identifiers).closed
  have isAlone : alone = alternatives (kindAt 0 kind) :=
    (alternatives_inlineAt closed).trans (List.append_nil _)
  have shows := showsNull 0 (names.mapAttributes fun attributes =>
    { attributes with nullable := false })
  constructor
  · rw [isAlone]
    refine (alternatives_inlineAt closed).trans ?_
    change _ ++ (if !kindListsNull kind then _ else _) = _ ++ if kindListsNull kind then _ else _
    cases kindListsNull kind <;> rfl
  · refine shows.trans ?_
    change false || kindListsNull kind || kindHidesNull kind ↔
      kindListsNull kind ∨ kindHidesNull kind
    rw [Bool.false_or, Bool.or_eq_true]

/-- A union with `null` deep in it, and an object whose comment and key have bars in them. -/
theorem alternatives_nullable_deep :
    let union : TypeTree := plain (.union [plain (.primitive .string),
      plain (.union [.node { nullable := true } (.reference "Pet")] none)] none)
    let object : TypeTree := plain (.interface [("a | b",
      .node { description := some "Either | or (" } (.custom "Big"))] [] none)
    (union.HasTypeNames ∧ object.HasTypeNames) ∧
    alternatives (union.withNullable true).inline = ["string", "Pet", "null"] ∧
    (alternatives (object.withNullable true).inline).length = 2 ∧
    "null" ∈ alternatives (union.withNullable false).inline ∧
    "null" ∉ alternatives (object.withNullable false).inline := by
  intro union object
  have unionNames : union.HasTypeNames := by decide
  have objectNames : object.HasTypeNames := by decide
  obtain ⟨both, shows⟩ := alternatives_nullable union unionNames
  obtain ⟨both', shows'⟩ := alternatives_nullable object objectNames
  refine ⟨⟨unionNames, objectNames⟩, ?_, ?_, shows.mpr (.inl (by decide)),
    fun mem => absurd (shows'.mp mem) (by decide)⟩
  · rw [both]
    decide
  · rw [both']
    decide +kernel

/-- An intersection of `null` alone is written as `null`, and with `null` behind it when it admits
it. -/
theorem intersection_repeats_null :
    let tree : TypeTree := plain (.intersection [plain (.primitive .null)])
    tree.HasTypeNames ∧ tree.hidesNull ∧ ¬ tree.listsNull ∧
    alternatives (tree.withNullable false).inline = ["null"] ∧
    alternatives (tree.withNullable true).inline = ["null", "null"] := by
  decide

end TypeTree

end SchemaTypes
