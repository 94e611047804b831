import Mathlib.Data.List.TakeWhile
import SchemaTypes.TypeTree.Precedence
import SchemaTypes.Proofs.Text.Blank
import SchemaTypes.Proofs.Text.Comment
import SchemaTypes.Proofs.Text.Quoted

/-! # The alternatives of a text

A type is cut into alternatives at each bar that stands outside brackets, string literals and
comments. A text is closed if it ends outside of everything that begins in it, and whole if moreover
it has no bar to be cut at. Closed texts with bars between them have the alternatives of all of
them.
-/

namespace SchemaTypes.Text

inductive Within where
  | code
  /-- Behind a slash, which may begin a comment. -/
  | slash
  | comment
  /-- In a comment, behind an asterisk. -/
  | star
  | quoted
  /-- In a string literal, behind a backslash. -/
  | escaped
deriving DecidableEq

/-- A place in a text: the number of open brackets, and what else is open. -/
structure Spot where
  depth : Nat
  within : Within
deriving DecidableEq

namespace Spot

def outside : Spot := ⟨0, .code⟩

/-- The place behind a character outside comments and string literals. -/
def behindCode (spot : Spot) (c : Char) : Spot :=
  if c = '"' then ⟨spot.depth, .quoted⟩
  else if c = '/' then ⟨spot.depth, .slash⟩
  else if Binding.isOpening c then ⟨spot.depth + 1, .code⟩
  else if Binding.isClosing c then ⟨spot.depth - 1, .code⟩
  else ⟨spot.depth, .code⟩

def behind (spot : Spot) (c : Char) : Spot :=
  match spot.within with
  | .code => spot.behindCode c
  | .slash => if c = '*' then ⟨spot.depth, .comment⟩ else spot.behindCode c
  | .comment => ⟨spot.depth, if c = '*' then .star else .comment⟩
  | .star => ⟨spot.depth, if c = '/' then .code else if c = '*' then .star else .comment⟩
  | .quoted => ⟨spot.depth, if c = '"' then .code else if c = '\\' then .escaped else .quoted⟩
  | .escaped => ⟨spot.depth, .quoted⟩

def after (spot : Spot) (cs : List Char) : Spot := cs.foldl behind spot

def cuts (spot : Spot) (c : Char) : Bool :=
  c == '|' && spot.depth == 0 && (spot.within == .code || spot.within == .slash)

def pieces (spot : Spot) : List Char → List (List Char)
  | [] => [[]]
  | c :: cs =>
    if spot.cuts c then [] :: pieces (spot.behind c) cs
    else (pieces (spot.behind c) cs).modifyHead (c :: ·)

end Spot

/-- The alternatives of a type, without the white space around them. -/
def alternatives (text : String) : List String :=
  (Spot.outside.pieces text.toList).map fun piece => String.ofList (trim piece)

example : alternatives "\x7b a: \"|\" | b \x7d | (c | d)[] | null" =
    ["\x7b a: \"|\" | b \x7d", "(c | d)[]", "null"] := by decide

/-! ## Cutting a text that is put together -/

namespace Spot

variable {spot next last : Spot} {cs ds : List Char} {c : Char}

theorem after_append (spot : Spot) (cs ds : List Char) :
    spot.after (cs ++ ds) = (spot.after cs).after ds :=
  List.foldl_append

theorem pieces_ne_nil (spot : Spot) (cs : List Char) : spot.pieces cs ≠ [] := by
  induction cs generalizing spot with
  | nil => exact List.cons_ne_nil _ _
  | cons c cs ih =>
    rw [pieces]
    split
    · exact List.cons_ne_nil _ _
    · obtain ⟨piece, pieces, shape⟩ := List.exists_cons_of_ne_nil (ih (spot.behind c))
      rw [shape]
      exact List.cons_ne_nil _ _

/-- A bar outside of everything parts what is in front of it from what is behind it. -/
theorem pieces_append_bar (closed : spot.after cs = outside) (ds : List Char) :
    spot.pieces (cs ++ '|' :: ds) = spot.pieces cs ++ outside.pieces ds := by
  induction cs generalizing spot with
  | nil =>
    have isOutside : spot = outside := closed
    subst isOutside
    rfl
  | cons c cs ih =>
    have further : (spot.behind c).pieces (cs ++ '|' :: ds) =
        (spot.behind c).pieces cs ++ outside.pieces ds := ih closed
    rw [List.cons_append, pieces, pieces, further]
    split
    · rfl
    · obtain ⟨piece, pieces, shape⟩ :=
        List.exists_cons_of_ne_nil (pieces_ne_nil (spot.behind c) cs)
      rw [shape]
      rfl

/-- A space at the end goes to the last piece. -/
theorem pieces_append_space (spot : Spot) (cs : List Char) :
    ∃ before piece, spot.pieces cs = before ++ [piece] ∧
      spot.pieces (cs ++ [' ']) = before ++ [piece ++ [' ']] := by
  induction cs generalizing spot with
  | nil => exact ⟨[], [], rfl, rfl⟩
  | cons c cs ih =>
    obtain ⟨before, piece, plain, spaced⟩ := ih (spot.behind c)
    rw [List.cons_append, pieces, pieces, plain, spaced]
    split
    · exact ⟨[] :: before, piece, rfl, rfl⟩
    · cases before with
      | nil => exact ⟨[], c :: piece, rfl, rfl⟩
      | cons first before => exact ⟨(c :: first) :: before, piece, rfl, rfl⟩

end Spot

/-! ## Closed and whole texts -/

namespace Spot

/-- From one place to another a text is passed without a cut. -/
inductive Passes : Spot → List Char → Spot → Prop
  | nil (spot : Spot) : Passes spot [] spot
  | cons {spot last : Spot} {c : Char} {cs : List Char} (uncut : spot.cuts c = false)
    (further : Passes (spot.behind c) cs last) : Passes spot (c :: cs) last

namespace Passes

variable {spot next last : Spot} {cs ds : List Char}

theorem append (first : Passes spot cs next) (second : Passes next ds last) :
    Passes spot (cs ++ ds) last := by
  induction first with
  | nil => exact second
  | cons uncut _ ih => exact .cons uncut (ih second)

theorem after (passes : Passes spot cs last) : spot.after cs = last := by
  induction passes with
  | nil => rfl
  | cons _ _ ih => exact ih

theorem pieces (passes : Passes spot cs last) : spot.pieces cs = [cs] := by
  induction passes with
  | nil => rfl
  | cons uncut _ ih =>
    rw [Spot.pieces, uncut, ih]
    rfl

end Passes

end Spot

open Spot

/-- From any depth, a text comes back to it, and inside brackets without a cut. -/
structure Closed (text : String) : Prop where
  after (depth : Nat) : Spot.after ⟨depth, .code⟩ text.toList = ⟨depth, .code⟩
  inside (depth : Nat) : Passes ⟨depth + 1, .code⟩ text.toList ⟨depth + 1, .code⟩

def Whole (text : String) : Prop := ∀ depth, Passes ⟨depth, .code⟩ text.toList ⟨depth, .code⟩

variable {text more : String}

theorem Whole.closed (whole : Whole text) : Closed text :=
  ⟨fun depth => (whole depth).after, fun depth => whole (depth + 1)⟩

theorem Whole.append (first : Whole text) (second : Whole more) : Whole (text ++ more) := by
  intro depth
  rw [String.toList_append]
  exact (first depth).append (second depth)

theorem Closed.append (first : Closed text) (second : Closed more) : Closed (text ++ more) where
  after depth := by rw [String.toList_append, after_append, first.after, second.after]
  inside depth := by
    rw [String.toList_append]
    exact (first.inside depth).append (second.inside depth)

theorem whole_empty : Whole "" := fun _ => .nil _

theorem closed_bar : Closed " | " :=
  ⟨fun _ => rfl, fun _ => .cons rfl (.cons rfl (.cons rfl (.nil _)))⟩

/-- Whatever is closed is whole in brackets. -/
theorem Closed.between {opening closing : String} (closed : Closed text)
    (brackets : (opening, closing) ∈ [("(", ")"), ("[", "]"), ("\x7b", "\x7d")]) :
    Whole (opening ++ text ++ closing) := by
  intro depth
  have both : Passes ⟨depth, .code⟩ opening.toList ⟨depth + 1, .code⟩ ∧
      Passes ⟨depth + 1, .code⟩ closing.toList ⟨depth, .code⟩ := by
    simp only [List.mem_cons, Prod.mk.injEq, List.not_mem_nil, or_false] at brackets
    rcases brackets with ⟨rfl, rfl⟩ | ⟨rfl, rfl⟩ | ⟨rfl, rfl⟩ <;>
      exact ⟨.cons rfl (.nil _), .cons rfl (.nil _)⟩
  rw [String.toList_append, String.toList_append]
  exact (both.1.append (closed.inside depth)).append both.2

def isPlain (c : Char) : Bool :=
  !(c == '|' || c == '"' || c == '/' || Binding.isOpening c || Binding.isClosing c)

theorem whole_of_plain (plain : text.toList.all isPlain) : Whole text := by
  intro depth
  rw [List.all_eq_true] at plain
  generalize text.toList = cs at plain
  induction cs with
  | nil => exact .nil _
  | cons c cs ih =>
    have isPlain := plain c List.mem_cons_self
    simp only [Text.isPlain, Bool.not_or, Bool.and_eq_true, Bool.not_eq_true', beq_eq_false_iff_ne]
      at isPlain
    obtain ⟨⟨⟨⟨noBar, noQuote⟩, noSlash⟩, noOpening⟩, noClosing⟩ := isPlain
    refine .cons (by simp [cuts, noBar]) ?_
    have stays : behind ⟨depth, .code⟩ c = ⟨depth, .code⟩ := by
      simp [behind, behindCode, noQuote, noSlash, noOpening, noClosing]
    rw [stays]
    exact ih fun d mem => plain d (List.mem_cons_of_mem _ mem)

/-- Nothing in a string literal ends it or is cut at. -/
theorem whole_quote (text : String) : Whole (quote text) := by
  intro depth
  have inner (cs : List Char) : Passes ⟨depth, .quoted⟩ (escape cs) ⟨depth, .quoted⟩ := by
    induction cs with
    | nil => exact .nil _
    | cons c cs ih =>
      have one : Passes ⟨depth, .quoted⟩ (escapeChar c) ⟨depth, .quoted⟩ := by
        rcases escapeChar_cases c with ⟨code, written, -⟩ | ⟨written, plain⟩
        · rw [written]
          exact .cons (by simp [cuts]) (.cons (by simp [cuts, behind]) (.nil _))
        · simp only [not_or] at plain
          rw [written]
          refine .cons (by simp [cuts]) ?_
          rw [behind]
          simp only [if_neg plain.1, if_neg plain.2.1]
          exact .nil _
      exact one.append ih
  have opening : Passes ⟨depth, .code⟩ ['"'] ⟨depth, .quoted⟩ := .cons rfl (.nil _)
  have closing : Passes ⟨depth, .quoted⟩ ['"'] ⟨depth, .code⟩ :=
    .cons (by simp [cuts]) (.nil _)
  rw [quote, String.toList_ofList]
  exact opening.append ((inner text.toList).append closing)

/-- A comment goes on until it is closed, which is at its end. -/
theorem passes_comment (depth : Nat) {cs : List Char} (closed : ['*', '/'] <:+ cs)
    (closesLast : ClosesLast cs) :
    Passes ⟨depth, .comment⟩ cs ⟨depth, .code⟩ ∧
      (cs.head? ≠ some '/' → Passes ⟨depth, .star⟩ cs ⟨depth, .code⟩) := by
  induction cs with
  | nil => exact absurd closed (by simp)
  | cons c cs ih =>
    rcases List.suffix_cons_iff.mp closed with whole | further
    · obtain ⟨rfl, rfl⟩ := List.cons.inj whole
      exact ⟨.cons (by simp [cuts]) (.cons (by simp [cuts, behind]) (.nil _)), fun _ =>
        .cons (by simp [cuts]) (.cons (by simp [cuts, behind]) (.nil _))⟩
    · have closesLast' : ClosesLast cs := fun front back same =>
        closesLast (c :: front) back (by rw [same, List.cons_append])
      obtain ⟨inComment, behindStar⟩ := ih further closesLast'
      have goesOn : Passes ⟨depth, if c = '*' then .star else .comment⟩ cs ⟨depth, .code⟩ := by
        split
        · next isStar =>
          -- A slash here would close the comment before its end.
          refine behindStar fun isSlash => ?_
          obtain ⟨rest, rfl⟩ := List.head?_eq_some_iff.mp isSlash
          have none := closesLast [] rest (by rw [isStar]; rfl)
          subst none
          exact absurd further (by decide)
        · exact inComment
      refine ⟨.cons (by simp [cuts]) goesOn, fun noSlash => .cons (by simp [cuts]) ?_⟩
      rw [behind]
      simp only [if_neg fun same => noSlash (congrArg some same)]
      exact goesOn

/-- A comment of its own line is passed over. -/
theorem whole_docComment {indent : String} (spaces : ∀ c ∈ indent.toList, c = ' ')
    (description : Option String) : Whole (docComment indent description) := by
  intro depth
  rcases docComment_cases spaces description with none | ⟨line, isComment, same⟩
  · rw [none]
    exact .nil _
  · obtain ⟨body, shape⟩ := List.isPrefixOf_iff_prefix.mp isComment.starts
    have line_eq : line = line.takeWhile (· == ' ') ++ (commentStart ++ body) := by
      rw [shape, List.takeWhile_append_dropWhile]
    have blanks : Passes ⟨depth, .code⟩ (line.takeWhile (· == ' ')) ⟨depth, .code⟩ := by
      have plain : (String.ofList (line.takeWhile (· == ' '))).toList.all isPlain := by
        refine List.all_eq_true.mpr fun c mem => ?_
        rw [String.toList_ofList] at mem
        have isSpace := eq_of_beq (List.mem_takeWhile_imp (p := (· == ' ')) mem)
        rw [isSpace]
        rfl
      simpa using whole_of_plain plain depth
    have closed : ['*', '/'] <:+ '*' :: ' ' :: body := by
      refine List.suffix_of_suffix_length_le isComment.closed ?_ (by simp)
      rw [line_eq]
      exact ⟨line.takeWhile (· == ' ') ++ ['/', '*'], by simp [commentStart]⟩
    have closesLast : ClosesLast ('*' :: ' ' :: body) := by
      intro front back found
      refine isComment.closesLast (line.takeWhile (· == ' ') ++ ['/', '*'] ++ front) back ?_
      rw [List.append_assoc _ front, ← found]
      conv_lhs => rw [line_eq]
      simp [commentStart]
    have comment : Passes ⟨depth, .code⟩ (commentStart ++ body) ⟨depth, .code⟩ :=
      .cons rfl (.cons rfl (passes_comment depth closed closesLast).1)
    rw [same, line_eq]
    exact (blanks.append comment).append (.cons rfl (.nil _))

/-! ## Alternatives of closed and whole texts -/

theorem alternatives_append (closed : Closed text) (more : String) :
    alternatives (text ++ " | " ++ more) = alternatives text ++ alternatives more := by
  have bar : (text ++ " | " ++ more).toList =
      (text.toList ++ [' ']) ++ '|' :: (' ' :: more.toList) := by
    simp only [String.toList_append, List.append_assoc]
    rfl
  have spaced : outside.after (text.toList ++ [' ']) = outside := by
    rw [after_append, outside, closed.after]
    rfl
  have front : (outside.pieces (' ' :: more.toList)).map (fun piece => String.ofList (trim piece)) =
      alternatives more := by
    have head : outside.pieces (' ' :: more.toList) =
        (outside.pieces more.toList).modifyHead (' ' :: ·) := rfl
    obtain ⟨piece, pieces, shape⟩ := List.exists_cons_of_ne_nil (pieces_ne_nil outside more.toList)
    rw [alternatives, head, shape]
    rfl
  obtain ⟨before, piece, plain, behind⟩ := pieces_append_space outside text.toList
  rw [alternatives, bar, pieces_append_bar spaced, List.map_append, front, behind]
  congr 1
  rw [alternatives, plain]
  simp only [List.map_append, List.map_singleton, trim_append_space]

theorem alternatives_of_whole (whole : Whole text) : alternatives text = [trimmed text] := by
  rw [alternatives, outside, (whole 0).pieces]
  rfl

theorem closed_intercalate {texts : List String} (each : ∀ text ∈ texts, Closed text) :
    Closed (" | ".intercalate texts) :=
  intercalate_of_append whole_empty.closed Closed.append closed_bar each

/-- Closed texts with bars between them have the alternatives of all of them. -/
theorem alternatives_intercalate {texts : List String} (nonempty : texts ≠ [])
    (each : ∀ text ∈ texts, Closed text) :
    alternatives (" | ".intercalate texts) = texts.flatMap alternatives := by
  induction texts with
  | nil => exact absurd rfl nonempty
  | cons text rest ih =>
    rw [List.flatMap_cons]
    by_cases last : rest = []
    · rw [last, String.intercalate_singleton, List.flatMap_nil, List.append_nil]
    · rw [String.intercalate_cons_of_ne_nil last,
        alternatives_append (each text List.mem_cons_self),
        ih last fun text mem => each text (List.mem_cons_of_mem _ mem)]

end SchemaTypes.Text
