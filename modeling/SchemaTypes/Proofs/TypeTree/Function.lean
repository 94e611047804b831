import Mathlib.Data.List.Infix
import SchemaTypes.Proofs.TypeTree.Expression

/-! # Function types as operands

A function type reaches as far to the right as it can, so that an operator behind it belongs to its
result unless parentheses close it off. The item of an array and the operands of an intersection get
them. The alternatives of a union do not, and neither does what `null` is put behind.
-/

namespace SchemaTypes

namespace Binding

/-- How many brackets a text leaves open, where an arrow is no bracket. -/
def openBrackets : List Char → Int
  | [] => 0
  | '=' :: '>' :: rest => openBrackets rest
  | c :: rest => (if isOpening c then 1 else if isClosing c then -1 else 0) + openBrackets rest

/-- The text has an arrow that no bracket is open around. -/
def IsFunctionType (text : String) : Prop :=
  ∃ front back, text.toList = front ++ '=' :: '>' :: back ∧ openBrackets front = 0

/-- No arrow stands across the place where two texts meet. -/
def Meets (front rest : List Char) : Prop := front.getLast? = some '=' → rest.head? ≠ some '>'

theorem Meets.tail {c : Char} {front rest : List Char} (meets : Meets (c :: front) rest) :
    Meets front rest := by
  intro last
  refine meets ?_
  rw [List.getLast?_cons, last, Option.getD_some]

/-- A character that begins no arrow decides on the binding, or it only takes the reading to another
place. -/
theorem ofChars_cons (depth : Int) (found : Binding) (c : Char) :
    (∀ rest, Meets [c] rest → ofChars depth found (c :: rest) = .union) ∨
      ∃ found', ∀ rest, Meets [c] rest →
        ofChars depth found (c :: rest) =
          ofChars (depth + if isOpening c then 1 else if isClosing c then -1 else 0) found'
            rest := by
  have equation {rest : List Char} (meets : Meets [c] rest) :=
    ofChars.eq_3 depth found c rest fun further isEquals same =>
      meets (by rw [isEquals]; rfl) (by rw [same]; rfl)
  by_cases opens : isOpening c
  · exact .inr ⟨found, fun rest meets => by rw [equation meets, if_pos opens, if_pos opens]⟩
  by_cases closes : isClosing c
  · refine .inr ⟨found, fun rest meets => ?_⟩
    rw [equation meets, if_neg opens, if_pos closes, if_neg opens, if_pos closes]
    rfl
  by_cases bar : c = '|' ∧ depth = 0
  · exact .inl fun rest meets => by rw [equation meets, if_neg opens, if_neg closes, if_pos bar]
  refine .inr ⟨if c = '&' ∧ depth = 0 then .intersection else found, fun rest meets => ?_⟩
  rw [equation meets, if_neg opens, if_neg closes, if_neg bar, if_neg opens, if_neg closes,
    Int.add_zero]
  split <;> rfl

/-- A text decides on the binding, whatever follows it, or it only takes the reading to another
place. -/
theorem ofChars_front (depth : Int) (found : Binding) (front : List Char) :
    (∀ rest, Meets front rest → ofChars depth found (front ++ rest) = .union) ∨
      ∃ found', ∀ rest, Meets front rest →
        ofChars depth found (front ++ rest) = ofChars (depth + openBrackets front) found' rest := by
  induction front using openBrackets.induct generalizing depth found with
  | case1 => exact .inr ⟨found, fun rest _ => by rw [openBrackets, Int.add_zero, List.nil_append]⟩
  | case2 front ih =>
    simp only [List.cons_append, ofChars, openBrackets]
    by_cases outside : depth = 0
    · exact .inl fun rest _ => if_pos outside
    · simp only [if_neg outside]
      rcases ih depth found with union | ⟨found', goesOn⟩
      · exact .inl fun rest meets => union rest meets.tail.tail
      · exact .inr ⟨found', fun rest meets => goesOn rest meets.tail.tail⟩
  | case3 c front noArrow ih =>
    have alone {rest : List Char} (meets : Meets (c :: front) rest) :
        Meets [c] (front ++ rest) := by
      cases front with
      | nil => exact meets
      | cons next front =>
        intro isEquals isArrow
        exact noArrow front (by simpa using isEquals) (by rw [Option.some.inj isArrow])
    rw [openBrackets.eq_3 _ _ noArrow, ← Int.add_assoc]
    rcases ofChars_cons depth found c with union | ⟨found', here⟩
    · exact .inl fun rest meets => union _ (alone meets)
    · rcases ih _ found' with union | ⟨found'', further⟩
      · exact .inl fun rest meets => (here _ (alone meets)).trans (union rest meets.tail)
      · exact .inr ⟨found'', fun rest meets =>
          (here _ (alone meets)).trans (further rest meets.tail)⟩

/-- An arrow outside all brackets decides on the binding, whatever stands around it. -/
theorem ofChars_arrow {depth : Int} {front : List Char} (found : Binding) (back : List Char)
    (outside : depth + openBrackets front = 0) :
    ofChars depth found (front ++ '=' :: '>' :: back) = .union := by
  -- A front that ends in `=` does not make an arrow with what follows it, which is `=` again.
  have meets : Meets front ('=' :: '>' :: back) := fun _ => by simp
  rcases ofChars_front depth found front with union | ⟨found', goesOn⟩
  · exact union _ meets
  · rw [goesOn _ meets, outside, ofChars, if_pos rfl]

theorem ofText_functionType {text : String} (function : IsFunctionType text) :
    ofText text = .union := by
  obtain ⟨front, back, same, outside⟩ := function
  rw [ofText, same]
  exact ofChars_arrow .atom back (by rw [outside, Int.add_zero])

end Binding

namespace TypeTree

/-! ## Parts stand in the text of the whole -/

def StandsIn (part whole : String) : Prop := ∃ front back, whole = front ++ part ++ back

theorem StandsIn.refl (text : String) : StandsIn text text :=
  ⟨"", "", by rw [String.empty_append, String.append_empty]⟩

theorem StandsIn.trans {part middle whole : String} (inner : StandsIn part middle)
    (outer : StandsIn middle whole) : StandsIn part whole := by
  obtain ⟨front, back, rfl⟩ := inner
  obtain ⟨before, behind, rfl⟩ := outer
  exact ⟨before ++ front, back ++ behind, by simp only [String.append_assoc]⟩

theorem StandsIn.between {part middle : String} (inner : StandsIn part middle)
    (front back : String) : StandsIn part (front ++ middle ++ back) :=
  inner.trans ⟨front, back, rfl⟩

theorem StandsIn.before {part middle : String} (inner : StandsIn part middle) (back : String) :
    StandsIn part (middle ++ back) := by
  simpa only [String.empty_append] using inner.between "" back

theorem StandsIn.behind {part middle : String} (inner : StandsIn part middle) (front : String) :
    StandsIn part (front ++ middle) := by
  simpa only [String.append_empty] using inner.between front ""

theorem StandsIn.parenthesized {part middle : String} (inner : StandsIn part middle)
    (needed : Bool) : StandsIn part (parenthesized needed middle) := by
  cases needed with
  | true => exact inner.between "(" ")"
  | false => exact inner

theorem standsIn_intercalate {text : String} (operator : String) {texts : List String}
    (mem : text ∈ texts) : StandsIn text (operator.intercalate texts) := by
  induction texts with
  | nil => cases mem
  | cons first rest ih =>
    cases rest with
    | nil =>
      rw [List.mem_singleton.mp mem, String.intercalate_singleton]
      exact .refl first
    | cons second rest =>
      rw [String.intercalate_cons_of_ne_nil (List.cons_ne_nil second rest)]
      rcases List.mem_cons.mp mem with rfl | further
      · rw [String.append_assoc]
        exact (StandsIn.refl text).before _
      · exact (ih further).behind _

theorem standsIn_joined {text : String} (operator empty : String) {texts : List String}
    (mem : text ∈ texts) : StandsIn text (joined operator empty texts) := by
  have some : texts.isEmpty = false := List.isEmpty_eq_false_iff.mpr (List.ne_nil_of_mem mem)
  rw [joined, some]
  exact standsIn_intercalate operator mem

theorem standsIn_memberLines {entry : String × TypeTree} (depth : Nat) (required : List String)
    {properties : List (String × TypeTree)} (mem : entry ∈ properties) :
    StandsIn (entry.2.inlineAt depth) (memberLines depth required properties) := by
  induction properties with
  | nil => cases mem
  | cons first rest ih =>
    rw [memberLines]
    rcases List.mem_cons.mp mem with rfl | further
    · exact (((StandsIn.refl _).behind _).before _).before _
    · exact (ih further).behind _

/-- The text of a part stands in that of the kind of type that is built from it. -/
theorem standsIn_kindAt (depth : Nat) {kind : Kind TypeTree} {part : TypeTree}
    (mem : part ∈ kind.parts) : ∃ deeper, StandsIn (part.inlineAt deeper) (kindAt depth kind) := by
  cases kind with
  | array item =>
    cases List.mem_singleton.mp mem
    exact ⟨depth, ((StandsIn.refl _).parenthesized _).before "[]"⟩
  | interface properties required index =>
    have some : (properties.isEmpty && index.isNone) = false := by
      cases properties with
      | cons => rfl
      | nil =>
        cases index with
        | some => rfl
        | none => cases mem
    refine ⟨depth + 1, ?_⟩
    rw [kindAt, some]
    rcases List.mem_append.mp mem with isProperty | isIndex
    · obtain ⟨entry, isEntry, rfl⟩ := List.mem_map.mp isProperty
      exact ((((standsIn_memberLines _ required isEntry).behind _).before _).before _).before _
    · cases Option.mem_toList.mp isIndex
      exact (((((StandsIn.refl _).behind _).before _).behind _).before _).before _
  | union members discriminator =>
    refine ⟨depth, standsIn_joined _ _ ?_⟩
    rw [inlineEach_eq]
    exact List.mem_map.mpr ⟨part, mem, rfl⟩
  | intersection members =>
    have operand := (StandsIn.refl (part.inlineAt depth)).parenthesized (part.binding == .union)
    refine ⟨depth, operand.trans (standsIn_joined _ _ ?_)⟩
    rw [operandEach_eq]
    exact List.mem_map.mpr ⟨part, mem, rfl⟩
  | _ => cases mem

/-- The text of every node stands in that of the tree. -/
theorem standsIn_inlineAt (depth : Nat) {tree node : TypeTree} (mem : node ∈ tree.nodes) :
    ∃ deeper, StandsIn (node.inlineAt deeper) (tree.inlineAt depth) := by
  induction tree using inductionOnParts generalizing depth with
  | node attributes kind parts =>
    rw [nodes_node] at mem
    rcases List.mem_cons.mp mem with rfl | further
    · exact ⟨depth, .refl _⟩
    · obtain ⟨part, isPart, mem⟩ := List.mem_flatMap.mp further
      obtain ⟨inner, here⟩ := standsIn_kindAt depth isPart
      obtain ⟨deeper, there⟩ := parts part isPart inner mem
      exact ⟨deeper, there.trans (here.before _)⟩

/-! ## Function types -/

def withNull (nullable : Bool) (text : String) : String :=
  text ++ if nullable then " | null" else ""

theorem inlineAt_eq_withNull (depth : Nat) (attributes : Attributes) {kind : Kind TypeTree}
    (silent : kindListsNull kind = false) :
    inlineAt depth (.node attributes kind) = withNull attributes.nullable (kindAt depth kind) := by
  rw [inlineAt, nullSuffix, silent, Bool.not_false, Bool.and_true, withNull]

theorem inlineAt_custom (depth : Nat) (attributes : Attributes) (text : String) :
    inlineAt depth (.node attributes (.custom text)) = withNull attributes.nullable text :=
  inlineAt_eq_withNull depth attributes rfl

theorem binding_functionType {text : String} (function : Binding.IsFunctionType text)
    (attributes : Attributes) : binding (.node attributes (.custom text)) = .union := by
  rw [binding]
  split
  · rfl
  · exact Binding.ofText_functionType function

theorem kindAt_arrayOfFunctions (depth : Nat) {text : String}
    (function : Binding.IsFunctionType text) (attributes : Attributes) :
    kindAt depth (.array (.node attributes (.custom text))) =
      "(" ++ withNull attributes.nullable text ++ ")[]" := by
  rw [kindAt, binding_functionType function, inlineAt_custom]
  exact String.append_assoc

theorem kindAt_intersectionWithFunction (depth : Nat) {text : String}
    (function : Binding.IsFunctionType text) (attributes : Attributes)
    (before after : List TypeTree) :
    kindAt depth (.intersection (before ++ .node attributes (.custom text) :: after)) =
      " & ".intercalate (operandEach depth before ++
        ("(" ++ withNull attributes.nullable text ++ ")") :: operandEach depth after) := by
  have operands : operandEach depth (before ++ .node attributes (.custom text) :: after) =
      operandEach depth before ++
        ("(" ++ withNull attributes.nullable text ++ ")") :: operandEach depth after := by
    rw [operandEach_eq, List.map_append, List.map_cons, binding_functionType function,
      inlineAt_custom, ← operandEach_eq, ← operandEach_eq]
    rfl
  rw [kindAt, operands, joined, if_neg (by simp)]

theorem kindAt_unionWithFunction (depth : Nat) (text : String) (attributes : Attributes)
    (before after : List TypeTree) (discriminator : Option Discriminator) :
    kindAt depth (.union (before ++ .node attributes (.custom text) :: after) discriminator) =
      " | ".intercalate (inlineEach depth before ++
        withNull attributes.nullable text :: inlineEach depth after) := by
  rw [kindAt, inlineEach_eq, List.map_append, List.map_cons, inlineAt_custom, ← inlineEach_eq,
    ← inlineEach_eq, joined, if_neg (by simp)]

/-- Parentheses close off a function type where it is the item of an array or an operand of an
intersection. As an alternative of a union and in front of `null` it stands bare. What is written
for a node is part of the text of its tree. -/
theorem inline_functionTypes {tree node : TypeTree} (mem : node ∈ tree.nodes) {text : String}
    (function : Binding.IsFunctionType text) (attributes own : Attributes)
    (before after : List TypeTree) (discriminator : Option Discriminator) :
    let operand : TypeTree := .node attributes (.custom text)
    let written := withNull attributes.nullable text
    ∃ depth, StandsIn (node.inlineAt depth) tree.inline ∧
      (node = operand → node.inlineAt depth = written) ∧
      (node = .node own (.array operand) →
        node.inlineAt depth = withNull own.nullable ("(" ++ written ++ ")[]")) ∧
      (node = .node own (.intersection (before ++ operand :: after)) →
        node.inlineAt depth = withNull own.nullable (" & ".intercalate
          (operandEach depth before ++ ("(" ++ written ++ ")") :: operandEach depth after))) ∧
      (node = .node own (.union (before ++ operand :: after) discriminator) →
        node.inlineAt depth = " | ".intercalate
          (inlineEach depth before ++ written :: inlineEach depth after) ++
            nullSuffix own.nullable node.kind) := by
  intro operand written
  obtain ⟨depth, here⟩ := standsIn_inlineAt 0 mem
  refine ⟨depth, here, ?_, ?_, ?_, ?_⟩
  · rintro rfl
    exact inlineAt_custom depth attributes text
  · rintro rfl
    rw [inlineAt_eq_withNull depth own rfl, kindAt_arrayOfFunctions depth function]
  · rintro rfl
    rw [inlineAt_eq_withNull depth own rfl, kindAt_intersectionWithFunction depth function]
  · rintro rfl
    rw [inlineAt, kindAt_unionWithFunction]
    rfl

/-- A list of functions or texts: the brackets of the list do not tell where a function ends. -/
theorem inline_functionTypes_alternative :
    let function : TypeTree := plain (.custom "() => void")
    let node : TypeTree := plain (.union [function, plain (.primitive .string)] none)
    (node ∈ (plain (.array node)).nodes ∧ Binding.IsFunctionType "() => void") ∧
    ∃ depth, StandsIn (node.inlineAt depth) (plain (.array node)).inline ∧
      node.inlineAt depth = "() => void | string" := by
  intro function node
  have mem : node ∈ (plain (.array node)).nodes := List.mem_cons_of_mem _ List.mem_cons_self
  have arrow : Binding.IsFunctionType "() => void" := ⟨['(', ')', ' '], " void".toList, rfl, rfl⟩
  obtain ⟨depth, here, -, -, -, alternative⟩ := inline_functionTypes mem arrow {} {} []
    [plain (.primitive .string)] none
  refine ⟨⟨mem, arrow⟩, depth, here, ?_⟩
  rw [alternative rfl]
  rfl

/-- As an alternative or with `null` behind it, a function type is nowhere in parentheses: what
follows the arrow is all read as its result. -/
theorem function_bare :
    let function : TypeTree := plain (.custom "() => void")
    let union : TypeTree := plain (.union [function, plain (.primitive .string)] none)
    let nullable : TypeTree := function.withNullable true
    Binding.IsFunctionType "() => void" ∧
    union.inline = "() => void | string" ∧
    ¬ "(() => void)".toList <:+: union.inline.toList ∧
    nullable.inline = "() => void | null" ∧
    ¬ "(() => void)".toList <:+: nullable.inline.toList := by
  intro function union nullable
  refine ⟨⟨['(', ')', ' '], " void".toList, rfl, rfl⟩, ?_, ?_, ?_, ?_⟩ <;> decide

end TypeTree

end SchemaTypes
