import SchemaTypes.Proofs.TypeTree.CustomType
import SchemaTypes.Proofs.TypeTree.Function

/-! # The binding of custom types

A custom type is classified by one pass over its text that counts the open brackets. The text of a
type expression leaves as many brackets open as it finds, and never fewer on the way, so inside
brackets it is passed over. Outside of them only the bars, ampersands and arrows of the outermost
form are seen.
-/

namespace SchemaTypes

open Text

namespace Binding

variable {tokens more : List String} {depth depth' depth'' : Int}
  {found found' found'' : Binding}

/-! ## Reading tokens -/

/-- Reading a text of the tokens leads from one place to another. -/
def Leads (tokens : List String) (depth : Int) (found : Binding) (depth' : Int) (found' : Binding) :
    Prop :=
  ∀ text, Spaced tokens text → ∀ rest,
    ofChars depth found (text ++ rest) = ofChars depth' found' rest

/-- Reading a text of the tokens decides that it is a union, whatever follows. -/
def Decides (tokens : List String) (depth : Int) (found : Binding) : Prop :=
  ∀ text, Spaced tokens text → ∀ rest, ofChars depth found (text ++ rest) = .union

theorem isIdle_of_isBlank {c : Char} (blank : isBlank c) : isIdle c :=
  isIdle_of_not_mem (not_mem_of_all_not (by decide) blank)

theorem ofChars_blanks {blanks : List Char} (areBlank : blanks.all isBlank) (rest : List Char) :
    ofChars depth found (blanks ++ rest) = ofChars depth found rest :=
  ofChars_idle (List.all_eq_true.mpr fun c mem =>
    isIdle_of_isBlank (List.all_eq_true.mp areBlank c mem)) rest

theorem leads_nil (depth : Int) (found : Binding) : Leads [] depth found depth found :=
  fun _ spaced rest => ofChars_blanks spaced.blank_of_nil rest

theorem leads_cons {token : String}
    (bare : ∀ rest, ofChars depth found (token.toList ++ rest) = ofChars depth' found' rest)
    (further : Leads tokens depth' found' depth'' found'') :
    Leads (token :: tokens) depth found depth'' found'' := by
  intro text spaced rest
  obtain ⟨blanks, back, areBlank, rfl, spaced'⟩ := spaced.of_cons
  rw [List.append_assoc, ofChars_blanks areBlank, List.append_assoc, bare, further back spaced']

theorem decides_cons {token : String}
    (bare : ∀ rest, ofChars depth found (token.toList ++ rest) = .union) :
    Decides (token :: tokens) depth found := by
  intro text spaced rest
  obtain ⟨blanks, back, areBlank, rfl, -⟩ := spaced.of_cons
  rw [List.append_assoc, ofChars_blanks areBlank, List.append_assoc, bare]

theorem Leads.append (first : Leads tokens depth found depth' found')
    (second : Leads more depth' found' depth'' found'') :
    Leads (tokens ++ more) depth found depth'' found'' := by
  intro text spaced rest
  obtain ⟨front, back, rfl, left, right⟩ := spaced.of_append
  rw [List.append_assoc, first front left, second back right]

theorem Leads.decides (first : Leads tokens depth found depth' found')
    (second : Decides more depth' found') : Decides (tokens ++ more) depth found := by
  intro text spaced rest
  obtain ⟨front, back, rfl, left, right⟩ := spaced.of_append
  rw [List.append_assoc, first front left, second back right]

theorem Decides.append (first : Decides tokens depth found) (more : List String) :
    Decides (tokens ++ more) depth found := by
  intro text spaced rest
  obtain ⟨front, back, rfl, left, -⟩ := spaced.of_append
  rw [List.append_assoc, first front left]

/-! ## The tokens -/

theorem leads_idle {token : String} (idle : token.toList.all isIdle) :
    Leads [token] depth found depth found :=
  leads_cons (ofChars_idle idle) (leads_nil _ _)

theorem leads_opening {opening : String} (opens : opening ∈ ["(", "<", "[", "\x7b"]) :
    Leads [opening] depth found (depth + 1) found := by
  refine leads_cons (fun rest => ?_) (leads_nil _ _)
  simp only [List.mem_cons, List.not_mem_nil, or_false] at opens
  rcases opens with rfl | rfl | rfl | rfl <;> rfl

theorem leads_closing {closing : String} (closes : closing ∈ [")", ">", "]", "\x7d"]) :
    Leads [closing] depth found (depth - 1) found := by
  refine leads_cons (fun rest => ?_) (leads_nil _ _)
  simp only [List.mem_cons, List.not_mem_nil, or_false] at closes
  rcases closes with rfl | rfl | rfl | rfl <;> rfl

theorem ofChars_bar (rest : List Char) :
    ofChars depth found ('|' :: rest) = if depth = 0 then .union else ofChars depth found rest := by
  simp [ofChars, isOpening, isClosing]

theorem ofChars_ampersand (rest : List Char) :
    ofChars depth found ('&' :: rest) =
      ofChars depth (if depth = 0 then .intersection else found) rest := by
  by_cases outside : depth = 0 <;> simp [ofChars, isOpening, isClosing, outside]

/-- Inside brackets neither bars and ampersands nor arrows count. -/
theorem leads_mark {mark : String} (isMark : mark ∈ ["|", "&", "=>"]) (inside : 0 < depth) :
    Leads [mark] depth found depth found := by
  have deep : depth ≠ 0 := by omega
  refine leads_cons (fun rest => ?_) (leads_nil _ _)
  simp only [List.mem_cons, List.not_mem_nil, or_false] at isMark
  rcases isMark with rfl | rfl | rfl
  · exact (ofChars_bar rest).trans (if_neg deep)
  · exact (ofChars_ampersand rest).trans (by rw [if_neg deep])
  · exact if_neg deep

theorem decides_bar (found : Binding) : Decides ["|"] 0 found :=
  decides_cons fun rest => (ofChars_bar rest).trans (if_pos rfl)

theorem decides_arrow (found : Binding) : Decides ["=>"] 0 found :=
  decides_cons fun _ => if_pos rfl

theorem leads_ampersand (found : Binding) : Leads ["&"] 0 found 0 .intersection :=
  leads_cons ofChars_ampersand (leads_nil _ _)

/-! ## Texts that are passed over -/

theorem leads_flatMap {α : Type} {items : List α} {tokens : α → List String}
    (each : ∀ item ∈ items, Leads (tokens item) depth found depth found) :
    Leads (items.flatMap tokens) depth found depth found := by
  induction items with
  | nil => exact leads_nil _ _
  | cons item items ih =>
    rw [List.forall_mem_cons] at each
    exact each.1.append (ih each.2)

theorem leads_intercalate {separator : List String} {parts : List (List String)}
    (between : Leads separator depth found depth found)
    (each : ∀ part ∈ parts, Leads part depth found depth found) :
    Leads (separator.intercalate parts) depth found depth found := by
  induction parts with
  | nil => exact leads_nil _ _
  | cons first further ih =>
    rw [List.forall_mem_cons] at each
    cases further with
    | nil => rw [List.intercalate_singleton]; exact each.1
    | cons second further =>
      rw [List.intercalate_cons_cons]
      exact (each.1.append between).append (ih each.2)

theorem leads_name {name : String} (isName : IsIdentifier name) :
    Leads [name] depth found depth found :=
  leads_idle (List.all_eq_true.mpr fun c mem =>
    isIdle_of_isNameChar (List.all_eq_true.mp isName.2.2 c mem))

/-! ## Texts of a binding -/

/-- What reading a text of the tokens outside all brackets does if it has the binding. -/
def Outside (tokens : List String) : Binding → Prop
  | .atom => ∀ found, Leads tokens 0 found 0 found
  | .intersection => ∀ found, Leads tokens 0 found 0 .intersection
  | .union => ∀ found, Decides tokens 0 found

/-- Texts of the tokens are passed over inside brackets, and outside of them they have the
binding. -/
structure Scans (tokens : List String) (binding : Binding) : Prop where
  inside : ∀ {depth : Int} (found : Binding), 0 < depth → Leads tokens depth found depth found
  outside : Outside tokens binding

theorem scans_atom
    (passed : ∀ (depth : Int) (found : Binding), 0 ≤ depth → Leads tokens depth found depth found) :
    Scans tokens .atom where
  inside found deep := passed _ found (Int.le_of_lt deep)
  outside found := passed 0 found (Int.le_refl 0)

theorem Scans.passed (scans : Scans tokens .atom) (found : Binding) (notBelow : 0 ≤ depth) :
    Leads tokens depth found depth found := by
  rcases Int.lt_or_eq_of_le notBelow with deep | rfl
  · exact scans.inside found deep
  · exact scans.outside found

theorem Scans.append (first : Scans tokens .atom) (second : Scans more .atom) :
    Scans (tokens ++ more) .atom :=
  scans_atom fun _ found notBelow => (first.passed found notBelow).append
    (second.passed found notBelow)

theorem scans_brackets {opening closing : String} (opens : opening ∈ ["(", "<", "[", "\x7b"])
    (closes : closing ∈ [")", ">", "]", "\x7d"])
    (inside : ∀ (depth : Int) (found : Binding), 0 < depth → Leads tokens depth found depth found) :
    Scans (opening :: tokens ++ [closing]) .atom := by
  refine scans_atom fun depth found notBelow => ?_
  have back : Leads [closing] (depth + 1) found (depth + 1 - 1) found := leads_closing closes
  rw [Int.add_sub_cancel] at back
  exact ((leads_opening opens).append (inside (depth + 1) found (by omega))).append back

theorem Scans.enclosed {binding : Binding} (scans : Scans tokens binding) (needed : Bool) :
    Scans (CustomType.enclosed needed tokens) (if needed then .atom else binding) := by
  cases needed with
  | false => exact scans
  | true => exact scans_brackets (by decide) (by decide) fun _ => scans.inside

/-- Bars outside of brackets make a union of whatever stands between them. -/
theorem scans_union {first second : List String} {further : List (List String)}
    (each : ∀ part ∈ first :: second :: further, ∃ binding, Scans part binding) :
    Scans (["|"].intercalate (first :: second :: further)) .union where
  inside found deep := leads_intercalate (leads_mark (by decide) deep) fun part mem =>
    (each part mem).elim fun _ scans => scans.inside found deep
  outside found := by
    obtain ⟨binding, scans⟩ := each first List.mem_cons_self
    rw [List.intercalate_cons_cons]
    refine Decides.append ?_ _
    cases binding with
    | atom => exact (scans.outside found).decides (decides_bar found)
    | intersection => exact (scans.outside found).decides (decides_bar .intersection)
    | union => exact (scans.outside found).append _

theorem Outside.goesOn {binding : Binding} (outside : Outside tokens binding)
    (goesOn : binding ≠ .union) (found : Binding) : ∃ found', Leads tokens 0 found 0 found' := by
  cases binding with
  | atom => exact ⟨found, outside found⟩
  | intersection => exact ⟨.intersection, outside found⟩
  | union => exact absurd rfl goesOn

theorem Outside.stays {binding : Binding} (outside : Outside tokens binding)
    (goesOn : binding ≠ .union) : Leads tokens 0 .intersection 0 .intersection := by
  cases binding with
  | atom => exact outside .intersection
  | intersection => exact outside .intersection
  | union => exact absurd rfl goesOn

/-- Ampersands outside of brackets make an intersection if no operand is a union. -/
theorem scans_intersection {first second : List String} {further : List (List String)}
    (each : ∀ part ∈ first :: second :: further, ∃ binding ≠ .union, Scans part binding) :
    Scans (["&"].intercalate (first :: second :: further)) .intersection where
  inside found deep := leads_intercalate (leads_mark (by decide) deep) fun part mem =>
    (each part mem).elim fun _ operand => operand.2.inside found deep
  outside found := by
    rw [List.forall_mem_cons] at each
    obtain ⟨⟨binding, goesOn, scans⟩, others⟩ := each
    obtain ⟨found', leads⟩ := scans.outside.goesOn goesOn found
    rw [List.intercalate_cons_cons]
    -- From the first ampersand on, it is an intersection that has been found.
    refine (leads.append (leads_ampersand found')).append ?_
    refine leads_intercalate (leads_ampersand .intersection) fun part mem => ?_
    obtain ⟨_, goesOn, scans⟩ := others part mem
    exact scans.outside.stays goesOn

theorem scans_function {parameters result : List String} {binding : Binding}
    (list : Scans ("(" :: parameters ++ [")"]) .atom) (scans : Scans result binding) :
    Scans ("(" :: parameters ++ ")" :: "=>" :: result) .union := by
  have apart : "(" :: parameters ++ ")" :: "=>" :: result =
      ("(" :: parameters ++ [")"]) ++ (["=>"] ++ result) := by
    simp only [List.cons_append, List.append_assoc, List.nil_append]
  rw [apart]
  exact {
    inside := fun found deep => (list.inside found deep).append
      ((leads_mark (by decide) deep).append (scans.inside found deep))
    outside := fun found => (list.outside found).decides ((decides_arrow found).append result) }

/-- The binding that a text of the tokens is found to have. -/
theorem Scans.ofText {binding : Binding} (scans : Scans tokens binding) {text : String}
    (spaced : Spaced tokens text.toList) : ofText text = binding := by
  rw [Binding.ofText, ← List.append_nil text.toList]
  cases binding with
  | atom => exact scans.outside .atom _ spaced []
  | intersection => exact scans.outside .atom _ spaced []
  | union => exact scans.outside .atom _ spaced []

/-- A text inside brackets might as well not be there. -/
theorem Scans.ofText_between {binding : Binding} (scans : Scans tokens binding)
    {front text back : String} (spaced : Spaced tokens text.toList)
    (deep : 0 < openBrackets front.toList) (noArrow : front.toList.getLast? ≠ some '=') :
    Binding.ofText (front ++ text ++ back) = Binding.ofText (front ++ back) := by
  have meets (rest : List Char) : Meets front.toList rest := fun last => absurd last noArrow
  simp only [Binding.ofText, String.toList_append, List.append_assoc]
  rcases ofChars_front 0 .atom front.toList with union | ⟨found, goesOn⟩
  · rw [union _ (meets _), union _ (meets _)]
  · rw [goesOn _ (meets _), goesOn _ (meets _)]
    exact scans.inside found (by omega) _ spaced back.toList

end Binding

namespace CustomType

open Binding

variable {depth : Int} {found : Binding}

/-! ## Names and keys -/

theorem leads_dottedName (name : DottedName) : Leads name.tokens depth found depth found :=
  (leads_name name.first.property).append <| leads_flatMap fun identifier _ =>
    (leads_idle (by decide : ".".toList.all isIdle)).append (leads_name identifier.property)

theorem leads_label (label : Label) : Leads label.tokens depth found depth found := by
  refine (leads_name label.name.property).append ?_
  cases label.optional with
  | false => exact leads_nil _ _
  | true => exact leads_idle (by decide)

theorem leads_colon : Leads [":"] depth found depth found := leads_idle (by decide)

theorem leads_comma : Leads [","] depth found depth found := leads_idle (by decide)

theorem leads_memberKey (key : MemberKey) (notBelow : 0 ≤ depth) :
    Leads key.tokens depth found depth found := by
  cases key with
  | property label => exact leads_label label
  | index name type =>
    refine Scans.passed (scans_brackets (by decide) (by decide) fun _ _ _ => ?_) found notBelow
    exact (leads_name name.property).append (leads_colon.append (leads_dottedName type))

theorem leads_memberEnd (ending : MemberEnd) : Leads ending.tokens depth found depth found := by
  cases ending with
  | semicolon => exact leads_idle (by decide)
  | comma => exact leads_comma
  | blank => exact leads_nil _ _

/-! ## The forms of expressions -/

/-- Texts of the expression are found to have the binding of its outermost form. -/
def IsScanned (type : CustomType) : Prop := Scans type.tokens type.binding

/-- What stands between commas or operators is an expression or one in parentheses. -/
theorem scans_tokensEach (needed : CustomType → Bool) {types : List CustomType}
    (each : ∀ type ∈ types, type.IsScanned) :
    ∀ part ∈ tokensEach needed types,
      ∃ type, Scans part (if needed type then .atom else type.binding) := by
  rw [tokensEach_eq, List.forall_mem_map]
  exact fun type mem => ⟨type, (each type mem).enclosed (needed type)⟩

theorem leads_listed {types : List CustomType} (each : ∀ type ∈ types, type.IsScanned)
    (deep : 0 < depth) :
    Leads ([","].intercalate (tokensEach (fun _ => false) types)) depth found depth found :=
  leads_intercalate leads_comma fun part mem =>
    (scans_tokensEach _ each part mem).elim fun _ scans => scans.inside found deep

theorem isScanned_name (dotted : DottedName) : (CustomType.name dotted).IsScanned :=
  scans_atom fun _ _ _ => leads_dottedName dotted

theorem isScanned_generic (dotted : DottedName) {argument : CustomType} {further : List CustomType}
    (each : ∀ type ∈ argument :: further, type.IsScanned) :
    (generic dotted argument further).IsScanned := by
  show Scans (dotted.tokens ++ "<" ::
    [","].intercalate (tokensEach (fun _ => false) (argument :: further)) ++ [">"]) .atom
  rw [List.append_assoc]
  exact (scans_atom fun _ _ _ => leads_dottedName dotted).append
    (scans_brackets (by decide) (by decide) fun _ _ deep => leads_listed each deep)

theorem isScanned_array {item : CustomType} (scans : item.IsScanned) :
    (array item).IsScanned := by
  have atom : Scans (enclosed (item.binding != .atom) item.tokens) .atom := by
    have closed := Scans.enclosed scans (item.binding != .atom)
    by_cases already : item.binding = .atom <;> simpa [already] using closed
  have brackets : Scans ["[", "]"] .atom :=
    scans_brackets (by decide) (by decide) fun _ _ _ => leads_nil _ _
  exact atom.append brackets

theorem isScanned_tuple {items : List CustomType} (each : ∀ type ∈ items, type.IsScanned) :
    (tuple items).IsScanned :=
  scans_brackets (by decide) (by decide) fun _ _ deep => leads_listed each deep

theorem isScanned_object {members : List (MemberKey × CustomType × MemberEnd)}
    (each : ∀ member ∈ members, member.2.1.IsScanned) : (object members).IsScanned := by
  show Scans ("\x7b" :: memberTokens members ++ ["\x7d"]) .atom
  rw [memberTokens_eq]
  refine scans_brackets (by decide) (by decide) fun depth found deep => leads_flatMap ?_
  intro member mem
  exact ((leads_memberKey member.1 (Int.le_of_lt deep)).append
    (leads_colon.append ((each member mem).inside found deep))).append (leads_memberEnd _)

theorem isScanned_parenthesized {inner : CustomType} (scans : inner.IsScanned) :
    (parenthesized inner).IsScanned :=
  scans_brackets (by decide) (by decide) fun _ => scans.inside

theorem isScanned_union {first second : CustomType} {further : List CustomType}
    (each : ∀ type ∈ first :: second :: further, type.IsScanned) :
    (union first second further).IsScanned :=
  scans_union fun part mem =>
    (scans_tokensEach isFunction each part mem).elim fun _ scans => ⟨_, scans⟩

theorem isScanned_intersection {first second : CustomType} {further : List CustomType}
    (each : ∀ type ∈ first :: second :: further, type.IsScanned) :
    (intersection first second further).IsScanned := by
  refine scans_intersection fun part mem => ?_
  obtain ⟨type, scans⟩ := scans_tokensEach (fun type => type.binding == .union) each part mem
  refine ⟨_, ?_, scans⟩
  by_cases union : type.binding = .union <;> simp [union]

theorem isScanned_function {parameters : List (Label × CustomType)} {result : CustomType}
    (each : ∀ parameter ∈ parameters, parameter.2.IsScanned) (scans : result.IsScanned) :
    (function parameters result).IsScanned := by
  show Scans ("(" :: [","].intercalate (parameterTokens parameters) ++
    ")" :: "=>" :: result.tokens) .union
  rw [parameterTokens_eq]
  refine scans_function (scans_brackets (by decide) (by decide) fun depth found deep => ?_) scans
  refine leads_intercalate leads_comma (List.forall_mem_map.mpr fun parameter mem => ?_)
  exact (leads_label parameter.1).append
    (leads_colon.append ((each parameter mem).inside found deep))

mutual

theorem isScanned : ∀ type : CustomType, type.IsScanned
  | .name dotted => isScanned_name dotted
  | .generic dotted argument further =>
    isScanned_generic dotted (List.forall_mem_cons.mpr ⟨isScanned argument, isScanned_each further⟩)
  | .array item => isScanned_array (isScanned item)
  | .tuple items => isScanned_tuple (isScanned_each items)
  | .object members => isScanned_object (isScanned_members members)
  | .parenthesized inner => isScanned_parenthesized (isScanned inner)
  | .union first second further => isScanned_union (List.forall_mem_cons.mpr
      ⟨isScanned first, List.forall_mem_cons.mpr ⟨isScanned second, isScanned_each further⟩⟩)
  | .intersection first second further => isScanned_intersection (List.forall_mem_cons.mpr
      ⟨isScanned first, List.forall_mem_cons.mpr ⟨isScanned second, isScanned_each further⟩⟩)
  | .function parameters result =>
    isScanned_function (isScanned_parameters parameters) (isScanned result)

theorem isScanned_each : ∀ types : List CustomType, ∀ type ∈ types, type.IsScanned
  | [] => List.forall_mem_nil _
  | type :: types => List.forall_mem_cons.mpr ⟨isScanned type, isScanned_each types⟩

theorem isScanned_members : ∀ members : List (MemberKey × CustomType × MemberEnd),
    ∀ member ∈ members, member.2.1.IsScanned
  | [] => List.forall_mem_nil _
  | (_, type, _) :: members => List.forall_mem_cons.mpr ⟨isScanned type, isScanned_members members⟩

theorem isScanned_parameters : ∀ parameters : List (Label × CustomType),
    ∀ parameter ∈ parameters, parameter.2.IsScanned
  | [] => List.forall_mem_nil _
  | (_, type) :: parameters =>
    List.forall_mem_cons.mpr ⟨isScanned type, isScanned_parameters parameters⟩

end

/-- A text of an expression, however it is spaced, is found to have the binding of the outermost
form. Inside brackets the text might as well not be there. -/
theorem ofText_spaced (type : CustomType) {text : String}
    (spaced : Spaced type.tokens text.toList) :
    Binding.ofText text = type.binding ∧
      ∀ front back : String, 0 < openBrackets front.toList → front.toList.getLast? ≠ some '=' →
        Binding.ofText (front ++ text ++ back) = Binding.ofText (front ++ back) :=
  ⟨type.isScanned.ofText spaced,
    fun _ _ deep noArrow => type.isScanned.ofText_between spaced deep noArrow⟩

/-- A function with a parameter, alone and as what a list is of. -/
theorem ofText_spaced_callback :
    let named (name : String) (isName : IsIdentifier name) : CustomType :=
      .name { first := ⟨name, isName⟩ }
    let callback : CustomType := .function
      [({ name := ⟨"a", by decide⟩ }, named "string" (by decide))] (named "void" (by decide))
    Spaced callback.tokens "(a: string) => void".toList ∧
      0 < openBrackets "Array<".toList ∧ "Array<".toList.getLast? ≠ some '=' ∧
      Binding.ofText "(a: string) => void" = .union ∧
      Binding.ofText ("Array<" ++ "(a: string) => void" ++ ">") =
        Binding.ofText ("Array<" ++ ">") := by
  intro named callback
  have spaced : Spaced callback.tokens "(a: string) => void".toList :=
    .token "(" <| .token "a" <| .token ":" <| .blank rfl <| .token "string" <| .token ")" <|
      .blank rfl <| .token "=>" <| .blank rfl <| .token "void" .nil
  obtain ⟨alone, between⟩ := ofText_spaced callback spaced
  have deep : 0 < openBrackets "Array<".toList := by decide
  have noArrow : "Array<".toList.getLast? ≠ some '=' := by decide
  exact ⟨spaced, deep, noArrow, alone, between "Array<" ">" deep noArrow⟩

end CustomType

end SchemaTypes
