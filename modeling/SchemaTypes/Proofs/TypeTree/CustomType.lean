import Mathlib.Data.List.Basic
import SchemaTypes.Text.Blank
import SchemaTypes.Proofs.TypeTree.Expression

/-! # Type expressions of custom types

Custom types are given as text. The type expressions here are names, generic applications, arrays,
tuples, objects, unions, intersections and function types, with parentheses where one of them could
not stand in another. String literals are not among them. The text of an expression is any text of
its tokens, with any white space between them.
-/

namespace SchemaTypes

open Text

/-- The tokens are those of a text in order, with any white space around them. -/
inductive Text.Spaced : List String → List Char → Prop where
  | nil : Spaced [] []
  | blank {tokens : List String} {text : List Char} {c : Char} (isBlank : isBlank c)
    (further : Spaced tokens text) : Spaced tokens (c :: text)
  | token {tokens : List String} {text : List Char} (token : String)
    (further : Spaced tokens text) : Spaced (token :: tokens) (token.toList ++ text)

namespace Text.Spaced

variable {tokens first second : List String} {text : List Char}

theorem blank_of_nil (spaced : Spaced [] text) : text.all isBlank := by
  generalize none : [] = tokens at spaced
  induction spaced with
  | nil => rfl
  | blank isBlank _ ih => rw [List.all_cons, isBlank, ih none, Bool.and_true]
  | token => cases none

theorem of_cons {token : String} (spaced : Spaced (token :: tokens) text) :
    ∃ blanks rest, blanks.all isBlank ∧ text = blanks ++ (token.toList ++ rest) ∧
      Spaced tokens rest := by
  generalize same : token :: tokens = all at spaced
  induction spaced with
  | nil => cases same
  | @blank _ _ c isBlank _ ih =>
    obtain ⟨blanks, rest, areBlank, rfl, further⟩ := ih same
    exact ⟨c :: blanks, rest, by rw [List.all_cons, isBlank, areBlank, Bool.and_true], rfl, further⟩
  | @token _ rest _ further =>
    obtain ⟨rfl, rfl⟩ := List.cons.inj same
    exact ⟨[], rest, rfl, rfl, further⟩

theorem behind (spaced : Spaced tokens text) {blanks : List Char}
    (areBlank : blanks.all isBlank) : Spaced tokens (blanks ++ text) := by
  induction blanks with
  | nil => exact spaced
  | cons c blanks ih =>
    rw [List.all_cons, Bool.and_eq_true] at areBlank
    exact .blank areBlank.1 (ih areBlank.2)

theorem of_append (spaced : Spaced (first ++ second) text) :
    ∃ front back, text = front ++ back ∧ Spaced first front ∧ Spaced second back := by
  induction first generalizing text with
  | nil => exact ⟨[], text, rfl, .nil, spaced⟩
  | cons token first ih =>
    obtain ⟨blanks, rest, areBlank, rfl, further⟩ := spaced.of_cons
    obtain ⟨front, back, rfl, left, right⟩ := ih further
    exact ⟨blanks ++ (token.toList ++ front), back, by simp only [List.append_assoc],
      (Spaced.token token left).behind areBlank, right⟩

end Text.Spaced

abbrev Identifier := { name : String // IsIdentifier name }

/-- An identifier, or several with dots between them. -/
structure DottedName where
  first : Identifier
  further : List Identifier := []

def DottedName.tokens (name : DottedName) : List String :=
  name.first.val :: name.further.flatMap fun identifier => [".", identifier.val]

/-- The name of a property or a parameter, with a question mark if it may be missing. -/
structure Label where
  name : Identifier
  optional : Bool := false

def Label.tokens (label : Label) : List String :=
  label.name.val :: if label.optional then ["?"] else []

/-- What stands in front of the colon of an object's member: the name of a property, or the key of
all further ones in brackets. -/
inductive MemberKey where
  | property (label : Label)
  | index (name : Identifier) (type : DottedName)

def MemberKey.tokens : MemberKey → List String
  | property label => label.tokens
  | index name type => "[" :: name.val :: ":" :: type.tokens ++ ["]"]

/-- What ends a member of an object. White space alone is enough behind the last one and at the end
of a line. -/
inductive MemberEnd where
  | semicolon
  | comma
  | blank

def MemberEnd.tokens : MemberEnd → List String
  | semicolon => [";"]
  | comma => [","]
  | blank => []

/-- A type expression. A generic application has an argument at least, and a union or intersection
two members. -/
inductive CustomType where
  | name (dotted : DottedName)
  | generic (dotted : DottedName) (argument : CustomType) (further : List CustomType)
  | array (item : CustomType)
  | tuple (items : List CustomType)
  | object (members : List (MemberKey × CustomType × MemberEnd))
  | parenthesized (inner : CustomType)
  | union (first second : CustomType) (further : List CustomType)
  | intersection (first second : CustomType) (further : List CustomType)
  | function (parameters : List (Label × CustomType)) (result : CustomType)

namespace CustomType

/-- The binding of an expression, by its outermost form. -/
def binding : CustomType → Binding
  | .union .. => .union
  | .function .. => .union
  | .intersection .. => .intersection
  | _ => .atom

def isFunction : CustomType → Bool
  | .function .. => true
  | _ => false

def enclosed (needed : Bool) (tokens : List String) : List String :=
  if needed then "(" :: tokens ++ [")"] else tokens

mutual

/-- The tokens of an expression. The item of an array stands in parentheses unless it is an atom, a
member of an intersection if it binds as a union, and a member of a union if it is a function. -/
def tokens : CustomType → List String
  | .name dotted => dotted.tokens
  | .generic dotted argument further =>
    dotted.tokens ++ "<" ::
      [","].intercalate (argument.tokens :: tokensEach (fun _ => false) further) ++ [">"]
  | .array item => enclosed (item.binding != .atom) item.tokens ++ ["[", "]"]
  | .tuple items => "[" :: [","].intercalate (tokensEach (fun _ => false) items) ++ ["]"]
  | .object members => "\x7b" :: memberTokens members ++ ["\x7d"]
  | .parenthesized inner => "(" :: inner.tokens ++ [")"]
  | .union first second further =>
    ["|"].intercalate (enclosed first.isFunction first.tokens ::
      enclosed second.isFunction second.tokens :: tokensEach isFunction further)
  | .intersection first second further =>
    ["&"].intercalate (enclosed (first.binding == .union) first.tokens ::
      enclosed (second.binding == .union) second.tokens ::
        tokensEach (fun type => type.binding == .union) further)
  | .function parameters result =>
    "(" :: [","].intercalate (parameterTokens parameters) ++ ")" :: "=>" :: result.tokens

def tokensEach (needed : CustomType → Bool) : List CustomType → List (List String)
  | [] => []
  | type :: types => enclosed (needed type) type.tokens :: tokensEach needed types

def memberTokens : List (MemberKey × CustomType × MemberEnd) → List String
  | [] => []
  | (key, type, ending) :: members =>
    key.tokens ++ ":" :: type.tokens ++ ending.tokens ++ memberTokens members

def parameterTokens : List (Label × CustomType) → List (List String)
  | [] => []
  | (label, type) :: parameters =>
    (label.tokens ++ ":" :: type.tokens) :: parameterTokens parameters

end

theorem tokensEach_eq (needed : CustomType → Bool) (types : List CustomType) :
    tokensEach needed types = types.map fun type => enclosed (needed type) type.tokens := by
  induction types with
  | nil => rfl
  | cons type types ih => rw [tokensEach, ih, List.map_cons]

theorem memberTokens_eq (members : List (MemberKey × CustomType × MemberEnd)) :
    memberTokens members = members.flatMap fun member =>
      member.1.tokens ++ ":" :: member.2.1.tokens ++ member.2.2.tokens := by
  induction members with
  | nil => rfl
  | cons member members ih => rw [memberTokens, ih, List.flatMap_cons]

theorem parameterTokens_eq (parameters : List (Label × CustomType)) :
    parameterTokens parameters =
      parameters.map fun parameter => parameter.1.tokens ++ ":" :: parameter.2.tokens := by
  induction parameters with
  | nil => rfl
  | cons parameter parameters ih => rw [parameterTokens, ih, List.map_cons]

end CustomType

end SchemaTypes
