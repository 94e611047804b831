import SchemaTypes.Proofs.Expression.Literal

/-! # Objects that read back

The lines of an object follow one another, each for itself: the comment of a property is skipped,
its key stands for its name however it is written, and its type ends with the semicolon.
-/

namespace SchemaTypes

open Lexer TypeExpr

/-- Reading the tokens adds properties to those that are there, and the type of further ones if
there is one. -/
def ReadsRows (tokens : List Token) (entries : List (String × Bool × Structure))
    (index : Option Structure) : Prop :=
  ∃ (properties : List (String × Bool × TypeExpr)) (type : Option TypeExpr),
    (properties.map fun entry => (entry.1, entry.2.1, entry.2.2.normal)) = entries ∧
      type.map normal = index ∧
      ∀ frames outer before rest,
        read frames (.member outer ⟨before, none⟩) (tokens ++ rest) =
          read frames (.member outer ⟨before ++ properties, type⟩) rest

variable {tokens others : List Token} {s : Structure}

theorem read_property {key : Token} {name : String} (h : keyName? key = some name) (missing : Bool)
    (frames : List Frame) (outer : Level) (before : Members) (rest : List Token) :
    read frames (.member outer before)
        (key :: ((if missing then [.question] else []) ++ .colon :: rest)) =
      read (.property outer before name missing :: frames) (.operand {}) rest := by
  have named : (keyName? key).bind (fun name =>
      read (.property outer before name missing :: frames) (.operand {}) rest) =
        read (.property outer before name missing :: frames) (.operand {}) rest := by
    rw [h, Option.bind_some]
  rw [← named]
  cases key with
  | word text => cases missing <;> rfl
  | quoted written => cases missing <;> rfl
  | _ => cases h

theorem readsRows_nil : ReadsRows [] [] none :=
  ⟨[], none, rfl, rfl, fun frames outer before rest => by simp⟩

theorem ReadsRows.cons {key : Token} {name : String} {missing : Bool}
    {entries : List (String × Bool × Structure)} {index : Option Structure}
    (named : keyName? key = some name) (h : Reads .union tokens s)
    (k : ReadsRows others entries index) :
    ReadsRows (key :: ((if missing then [.question] else []) ++ .colon ::
      (tokens ++ .semicolon :: others))) ((name, missing, s) :: entries) index := by
  rcases h with ⟨alternatives, operands, last, rfl, reads⟩
  rcases k with ⟨properties, type, rfl, rfl, goesOn⟩
  refine ⟨(name, missing, Level.close ⟨alternatives, operands⟩ last) :: properties, type, rfl, rfl,
    fun frames outer before rest => ?_⟩
  simp only [List.cons_append, List.append_assoc]
  rw [read_property named, reads]
  calc read (.property outer ⟨before, none⟩ name missing :: frames)
        (.operator ⟨[] ++ alternatives, operands⟩ last) (.semicolon :: (others ++ rest))
    _ = read frames (.member outer
          ⟨before ++ [(name, missing, Level.close ⟨alternatives, operands⟩ last)], none⟩)
        (others ++ rest) := rfl
    _ = _ := by
      rw [goesOn]
      simp

theorem Reads.index (h : Reads .union tokens s) (key : List Char) :
    ReadsRows (.openBracket :: .word key :: .colon :: .word "string".toList :: .closeBracket ::
      .colon :: (tokens ++ [.semicolon])) [] (some s) := by
  rcases h with ⟨alternatives, operands, last, rfl, reads⟩
  refine ⟨[], some (Level.close ⟨alternatives, operands⟩ last), rfl, rfl,
    fun frames outer before rest => ?_⟩
  simp only [List.cons_append, List.append_assoc, List.append_nil]
  calc read frames (.member outer ⟨before, none⟩) (.openBracket :: .word key :: .colon ::
        .word "string".toList :: .closeBracket :: .colon :: (tokens ++ ([.semicolon] ++ rest)))
    _ = read (.index outer ⟨before, none⟩ :: frames) (.operand {})
        (tokens ++ ([.semicolon] ++ rest)) := rfl
    _ = _ := by
      rw [reads]
      rfl

theorem ReadsRows.object {entries : List (String × Bool × Structure)} {index : Option Structure}
    (h : ReadsRows tokens entries index) :
    Reads .atom (.openBrace :: (tokens ++ [.closeBrace])) [[.object entries index]] := by
  rcases h with ⟨properties, type, rfl, rfl, reads⟩
  refine ⟨.object properties type, ?_, fun frames level rest => ?_⟩
  · simp [normal]
  · simp only [List.cons_append, List.append_assoc]
    calc read frames (.operand level) (.openBrace :: (tokens ++ ([.closeBrace] ++ rest)))
      _ = read frames (.member level {}) (tokens ++ ([.closeBrace] ++ rest)) := rfl
      _ = _ := by
        rw [reads]
        rfl

theorem isWordChar_of_isKeyChar {c : Char} (h : Naming.isKeyChar c) : isWordChar c := by
  rw [Naming.isKeyChar] at h
  rw [isWordChar, isNameChar]
  grind

/-- The key of a property is a word or a string literal. -/
theorem propertyKey_cases (name : String) :
    IsWordText (Naming.propertyKey name) ∨ Naming.propertyKey name = Text.quote name := by
  rw [Naming.propertyKey]
  split
  · next bare =>
    rw [Naming.isBareKey] at bare
    split at bare
    · cases bare
    · next chars =>
      rw [Bool.and_eq_true, Bool.and_eq_true, List.all_eq_true] at bare
      refine .inl (List.all_eq_true.mpr fun c mem => isWordChar_of_isKeyChar ?_)
      exact bare.1.2 c (chars ▸ mem)
  · exact .inr rfl

/-- The key of a property stands for its name. -/
theorem lexes_propertyKey (name : String) :
    ∃ key, Lexes (Naming.propertyKey name).toList [key] ∧ keyName? key = some name := by
  rw [Naming.propertyKey]
  by_cases bare : Naming.isBareKey name = true
  · rw [if_pos bare]
    rw [Naming.isBareKey] at bare
    refine ⟨.word name.toList, lexes_word ?_ ?_, ?_⟩
    · intro empty
      simp [empty] at bare
    · cases chars : name.toList with
      | nil => rfl
      | cons first rest =>
        simp only [chars, Bool.and_eq_true, List.all_eq_true] at bare
        exact List.all_eq_true.mpr fun c mem => isWordChar_of_isKeyChar (bare.1.2 c mem)
    · simp [keyName?]
  · rw [if_neg bare]
    refine ⟨_, (whole_quote name).lexes, ?_⟩
    rw [keyName?, Text.unescape?_escape]
    simp

/-! ## Texts -/

/-- A text is read as the rows of an object, some properties and then the type of further ones. -/
def WrittenRows (text : String) (entries : List (String × Bool × Structure))
    (index : Option Structure) : Prop :=
  ∃ tokens, Whole text.toList tokens ∧ ReadsRows tokens entries index

theorem writtenRows_nil : WrittenRows "" [] none := ⟨[], whole_nil, readsRows_nil⟩

theorem whole_semicolon : Whole ";\n".toList [.semicolon] := by
  have mark : Whole [';'] [.semicolon] := whole_of_start rfl
  have lineFeed : Whole ['\n'] [] := whole_of_start rfl
  exact mark.append lineFeed

theorem whole_colon : Whole ": ".toList [.colon] := by
  have mark : Whole [':'] [.colon] := whole_of_start rfl
  have space : Whole [' '] [] := whole_of_start rfl
  exact mark.append space

theorem whole_missing (present : Bool) :
    Whole ((if present then "" else "?") ++ ": ").toList
      ((if !present then [.question] else []) ++ [.colon]) := by
  cases present with
  | false =>
    have mark : Whole ['?'] [.question] := whole_of_start rfl
    exact mark.append whole_colon
  | true => exact whole_colon

theorem WrittenRows.cons {front name type more : String} {present : Bool}
    {entries : List (String × Bool × Structure)} {index : Option Structure}
    (blank : Whole front.toList []) (h : Written .union type s)
    (k : WrittenRows more entries index) :
    WrittenRows (front ++ Naming.propertyKey name ++ (if present then "" else "?") ++ ": " ++
      type ++ ";\n" ++ more) ((name, !present, s) :: entries) index := by
  rcases h with ⟨tokens, lexes, reads⟩
  rcases k with ⟨others, whole, goesOn⟩
  rcases lexes_propertyKey name with ⟨key, lexesKey, named⟩
  have ends : EndsWord ((if present then "" else "?") ++ ": ").toList := by
    cases present <;> rfl
  have toColon := (blank.append_lexes lexesKey).append_whole (whole_missing present) ends
  have toEnd := (toColon.append_lexes lexes).append_whole whole_semicolon rfl
  refine ⟨_, ?_, ReadsRows.cons named reads goesOn⟩
  simpa using toEnd.append whole

theorem Written.index {front type : String} (blank : Whole front.toList [])
    (h : Written .union type s) :
    WrittenRows (front ++ "[key: string]: " ++ type ++ ";\n") [] (some s) := by
  rcases h with ⟨tokens, lexes, reads⟩
  have key : Whole "[key: string]: ".toList
      [.openBracket, .word "key".toList, .colon, .word "string".toList, .closeBracket, .colon] := by
    have opens : Whole "[".toList [.openBracket] := whole_of_start rfl
    have closes : Whole "]".toList [.closeBracket] := whole_of_start rfl
    have name : Lexes "key".toList [.word "key".toList] := lexes_word (by decide) (by decide)
    have string : Lexes "string".toList [.word "string".toList] :=
      lexes_word (by decide) (by decide)
    have inner := (opens.append_lexes name).append_whole whole_colon rfl
    have outer := (inner.append_lexes string).append_whole closes rfl
    exact outer.append whole_colon
  have toEnd := ((blank.append key).append_lexes lexes).append_whole whole_semicolon rfl
  refine ⟨_, ?_, reads.index "key".toList⟩
  simpa using toEnd

theorem writtenObject_nil : Written .atom "\x7b\x7d" [[.object [] none]] := by
  have opens : Whole ['{'] [.openBrace] := whole_of_start rfl
  have closes : Whole ['}'] [.closeBrace] := whole_of_start rfl
  exact ⟨_, (opens.append closes).lexes, readsRows_nil.object⟩

theorem WrittenRows.object {rows indent : String} {entries : List (String × Bool × Structure)}
    {index : Option Structure} (h : WrittenRows rows entries index)
    (blank : Whole indent.toList []) :
    Written .atom ("\x7b\n" ++ rows ++ indent ++ "\x7d") [[.object entries index]] := by
  rcases h with ⟨tokens, whole, reads⟩
  have opens : Whole "\x7b\n".toList [.openBrace] := by
    have mark : Whole ['{'] [.openBrace] := whole_of_start rfl
    have lineFeed : Whole ['\n'] [] := whole_of_start rfl
    exact mark.append lineFeed
  have closes : Whole "\x7d".toList [.closeBrace] := whole_of_start rfl
  have all := opens.append (whole.append (blank.append closes))
  refine ⟨_, ?_, reads.object⟩
  simpa using all.lexes

end SchemaTypes
