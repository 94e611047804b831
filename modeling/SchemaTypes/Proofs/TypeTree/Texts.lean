import SchemaTypes.Proofs.Expression.Object
import SchemaTypes.Proofs.Text.Literal
import SchemaTypes.Proofs.Text.Split
import SchemaTypes.Proofs.TypeTree.Printer

/-! # What written types have in common

Most of what a type is written with is texts of one line behind one another; only the rows of
objects are lines of their own. So what holds of texts of one line, and passes on to texts that
stand behind one another, holds of written types if it passes from the row of a property to an
object.
-/

namespace SchemaTypes

open SchemaTypes.Json Text

/-! ## Texts of one line -/

theorem newline_not_mem_quote (text : String) : '\n' ∉ (Text.quote text).toList :=
  fun mem => (lineEnd_not_mem_quote text '\n' mem).1 rfl

theorem IsWordText.newline_not_mem {text : String} (isWord : IsWordText text) :
    '\n' ∉ text.toList :=
  fun mem => absurd (List.all_eq_true.mp isWord '\n' mem) (by decide)

theorem newline_not_mem_literal (value : Value) : '\n' ∉ value.literal.toList := by
  rcases literal_cases value with word | ⟨text, quoted⟩
  · exact word.newline_not_mem
  · rw [quoted]
    exact newline_not_mem_quote text

theorem newline_not_mem_propertyKey (name : String) : '\n' ∉ (Naming.propertyKey name).toList := by
  rcases propertyKey_cases name with word | quoted
  · exact word.newline_not_mem
  · rw [quoted]
    exact newline_not_mem_quote name

/-- The names in a tree have no line feed in them. -/
abbrev TypeTree.HasWholeNames (tree : TypeTree) : Prop :=
  tree.HasNames fun name => '\n' ∉ name.toList

namespace Printer

open TypeTree

/-! ## Texts of types -/

/-- What texts inside some objects and texts inside `shift` more have in common, if it passes on to
texts that are put together. In the first of the two less may be said. -/
structure TextsRelated (said : Option String → Option String) (shift : Nat) (good : String → Prop)
    (related relatedRows : String → String → Prop) : Prop where
  silent : said none = none
  line {text : String} : '\n' ∉ text.toList → related text text
  name {text : String} : good text → related text text
  append {text text' more more' : String} :
    related text text' → related more more' → related (text ++ more) (text' ++ more')
  noRows : relatedRows "" ""
  row (depth : Nat) (description : Option String) {line line' more more' : String} :
    related line line' → relatedRows more more' →
      relatedRows
        (docComment (indentation depth) (said description) ++
          (indentation depth ++ line ++ ";\n" ++ more))
        (docComment (indentation (depth + shift)) description ++
          (indentation (depth + shift) ++ line' ++ ";\n" ++ more'))
  object (depth : Nat) {rows rows' : String} : relatedRows rows rows' →
    related ("\x7b\n" ++ rows ++ indentation depth ++ "\x7d")
      ("\x7b\n" ++ rows' ++ indentation (depth + shift) ++ "\x7d")

namespace TextsRelated

variable {said : Option String → Option String} {shift : Nat} {good : String → Prop}
  {related relatedRows : String → String → Prop} {text text' : String}

theorem parenthesized (closed : TextsRelated said shift good related relatedRows) (needed : Bool)
    (inner : related text text') :
    related (TypeTree.parenthesized needed text) (TypeTree.parenthesized needed text') := by
  cases needed with
  | true =>
    have opening : related "(" "(" := closed.line (by decide)
    have ending : related ")" ")" := closed.line (by decide)
    exact closed.append (closed.append opening inner) ending
  | false => exact inner

theorem joined (closed : TextsRelated said shift good related relatedRows)
    {operator empty : String} (between : '\n' ∉ operator.toList) {ι : Type} {items : List ι}
    {text text' : ι → String} (nonempty : items ≠ [])
    (each : ∀ item ∈ items, related (text item) (text' item)) :
    related (TypeTree.joined operator empty (items.map text))
      (TypeTree.joined operator empty (items.map text')) := by
  rw [joined_map nonempty, joined_map nonempty]
  exact intercalate_related (closed.line List.not_mem_nil) closed.append (closed.line between) each

/-- The row of a property goes on behind its key as its type does. -/
theorem property (closed : TextsRelated said shift good related relatedRows) (depth : Nat)
    (name : String) (required : Bool) (description : Option String) {more more' : String}
    (type : related text text') (further : relatedRows more more') :
    relatedRows
      (docComment (indentation depth) (said description) ++ indentation depth ++
        Naming.propertyKey name ++ (if required then "" else "?") ++ ": " ++ text ++ ";\n" ++ more)
      (docComment (indentation (depth + shift)) description ++ indentation (depth + shift) ++
        Naming.propertyKey name ++ (if required then "" else "?") ++ ": " ++ text' ++ ";\n" ++
          more') := by
  have key : '\n' ∉ (Naming.propertyKey name ++ (if required then "" else "?") ++ ": ").toList := by
    simp only [String.toList_append, List.mem_append, not_or]
    refine ⟨⟨newline_not_mem_propertyKey name, ?_⟩, by decide⟩
    split <;> decide
  have row := closed.row depth description (closed.append (closed.line key) type) further
  simpa only [String.append_assoc] using row

/-- The row for further properties has no comment. -/
theorem index (closed : TextsRelated said shift good related relatedRows) (depth : Nat)
    (type : related text text') :
    relatedRows (indentation depth ++ "[key: string]: " ++ text ++ ";\n")
      (indentation (depth + shift) ++ "[key: string]: " ++ text' ++ ";\n") := by
  have key : related "[key: string]: " "[key: string]: " := closed.line (by decide)
  have row := closed.row depth none (closed.append key type) closed.noRows
  have noComment (indent : String) : docComment indent none = "" := rfl
  rw [closed.silent, noComment, noComment] at row
  simpa only [String.append_assoc, String.append_empty, String.empty_append] using row

/-- What texts have in common is kept by all that they are put together with. -/
theorem operations (closed : TextsRelated said shift good related relatedRows) :
    Related (texts said) printed good
      (fun _ text text' => ∀ depth, related (text depth) (text' (depth + shift)))
      (fun rows rows' => ∀ depth, relatedRows (rows depth) (rows' (depth + shift))) where
  weaken inner := inner
  primitive primitive := fun _ => closed.line primitive.isWordText.newline_not_mem
  literal value := fun _ => closed.line (newline_not_mem_literal value)
  custom isName := fun _ => closed.name isName
  reference isName := fun _ => closed.name isName
  array inner := fun depth =>
    closed.append (closed.parenthesized _ (inner depth)) (closed.line (by decide))
  noMember := fun _ =>
    have never : '\n' ∉ "never".toList := by decide
    closed.line never
  onlyMember inner := inner
  members nonempty each := fun depth => by
    simp only [texts, List.map_map]
    exact closed.joined (by decide) nonempty fun item mem => each item mem depth
  noOperand := fun _ =>
    have unknown : '\n' ∉ "unknown".toList := by decide
    closed.line unknown
  onlyOperand inner := fun depth => closed.parenthesized _ (inner depth)
  operands nonempty each := fun depth => by
    simp only [texts, List.map_map]
    exact closed.joined (by decide) nonempty fun item mem =>
      closed.parenthesized _ (each item mem depth)
  orNull inner := fun depth => closed.append (inner depth) (closed.line (by decide))
  emptyObject := fun _ =>
    have braces : '\n' ∉ "\x7b\x7d".toList := by decide
    closed.line braces
  object rows := fun depth => by
    have inner := rows (depth + 1)
    rw [Nat.add_right_comm] at inner
    exact closed.object depth inner
  property name required description _ _ _ _ inner more := fun depth =>
    closed.property depth name required description (inner depth) (more depth)
  further inner := fun depth => closed.index depth (inner depth)
  noFurther := fun _ => closed.noRows

variable {value : TypeTree → Nat → String}

theorem inlineAt (closed : TextsRelated said shift good related relatedRows)
    (writes : (texts said).Writes value) {tree : TypeTree} (names : tree.HasNames good)
    (depth : Nat) : related (value tree depth) (tree.inlineAt (depth + shift)) :=
  closed.operations.tree writes writes_printed names depth

theorem members (closed : TextsRelated said shift good related relatedRows)
    (writes : (texts said).Writes value) (required : List String)
    {properties : List (String × TypeTree)} {index : Option TypeTree}
    (names : ∀ part ∈ (Kind.interface properties required index).parts, part.HasNames good)
    (depth : Nat) :
    relatedRows ((texts said).rows value required index properties depth)
      (memberLines (depth + shift) required properties ++ indexLine (depth + shift) index) := by
  have rows := @Related.rows _ _ _ _ _ _ _ _ _ value (fun tree depth => tree.inlineAt depth)
    closed.operations required properties index fun part mem =>
      closed.inlineAt writes (names part mem)
  rw [← rows_printed]
  exact rows depth

end TextsRelated

end Printer

end SchemaTypes
