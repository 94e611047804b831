import SchemaTypes.TypeTree.Inline
import SchemaTypes.Proofs.Expression.Reader

/-! # Writing that reads back

A text is written for a structure, with some binding, if reading it adds to an open expression what
the structure says: an atom adds one operand, an intersection some operands, and a union some
alternatives as well. Every way of putting texts together is one for the structures too, as long as
no operand binds more weakly than its operator.
-/

namespace SchemaTypes

open Lexer TypeExpr

/-- Reading the tokens goes on from where an operand is expected to behind the last operand of the
structure, whatever is open and whatever follows. -/
def Reads : Binding → List Token → Structure → Prop
  | .atom, tokens, s =>
    ∃ last : TypeExpr, last.normal = s ∧ ∀ frames level rest,
      read frames (.operand level) (tokens ++ rest) = read frames (.operator level last) rest
  | .intersection, tokens, s =>
    ∃ operands last, (TypeExpr.intersection (operands ++ [last])).normal = s ∧
      ∀ frames alternatives before rest,
        read frames (.operand ⟨alternatives, before⟩) (tokens ++ rest) =
          read frames (.operator ⟨alternatives, before ++ operands⟩ last) rest
  | .union, tokens, s =>
    ∃ alternatives operands last, (Level.close ⟨alternatives, operands⟩ last).normal = s ∧
      ∀ frames before rest,
        read frames (.operand ⟨before, []⟩) (tokens ++ rest) =
          read frames (.operator ⟨before ++ alternatives, operands⟩ last) rest

/-- A text is read with a binding as a structure. -/
def Written (binding : Binding) (text : String) (s : Structure) : Prop :=
  ∃ tokens, Lexes text.toList tokens ∧ Reads binding tokens s

variable {binding : Binding} {tokens others : List Token} {s t : Structure}

theorem Reads.operands (h : Reads .atom tokens s) : Reads .intersection tokens s := by
  rcases h with ⟨last, rfl, reads⟩
  refine ⟨[], last, rfl, fun frames alternatives before rest => ?_⟩
  rw [reads, List.append_nil]

theorem Reads.alternatives (h : Reads .intersection tokens s) : Reads .union tokens s := by
  rcases h with ⟨operands, last, rfl, reads⟩
  refine ⟨[], operands, last, ?_, fun frames before rest => ?_⟩
  · exact union_normal _
  · rw [reads, List.append_nil, List.nil_append]

/-- What binds more strongly can stand where a union can. -/
theorem Reads.weaken (h : Reads binding tokens s) : Reads .union tokens s := by
  cases binding with
  | atom => exact h.operands.alternatives
  | intersection => exact h.alternatives
  | union => exact h

theorem Reads.union_self (h : Reads binding tokens s) : Structure.union [s] = s := by
  rcases h.weaken with ⟨alternatives, operands, last, rfl, -⟩
  exact union_normal _

theorem reads_word (text : List Char) : Reads .atom [.word text] [[.leaf (String.ofList text)]] :=
  ⟨.leaf (String.ofList text), rfl, fun _ _ _ => rfl⟩

theorem reads_quoted (written : List Char) :
    Reads .atom [.quoted written] [[.leaf (String.ofList ('"' :: written ++ ['"']))]] :=
  ⟨.leaf (String.ofList ('"' :: written ++ ['"'])), rfl, fun _ _ _ => rfl⟩

theorem Reads.parenthesized (h : Reads .union tokens s) :
    Reads .atom (.openParen :: tokens ++ [.closeParen]) s := by
  rcases h with ⟨alternatives, operands, last, rfl, reads⟩
  refine ⟨_, rfl, fun frames level rest => ?_⟩
  calc read frames (.operand level) (.openParen :: tokens ++ [.closeParen] ++ rest)
    _ = read (.parenthesis level :: frames) (.operand {}) (tokens ++ (.closeParen :: rest)) := by
      rw [List.append_assoc, List.cons_append]
      rfl
    _ = read frames (.operator level (Level.close ⟨alternatives, operands⟩ last)) rest := by
      rw [reads]
      rfl

theorem Reads.array (h : Reads .atom tokens s) :
    Reads .atom (tokens ++ [.openBracket, .closeBracket]) [[.array s]] := by
  rcases h with ⟨item, rfl, reads⟩
  refine ⟨.array item, rfl, fun frames level rest => ?_⟩
  rw [List.append_assoc, reads]
  rfl

theorem Reads.intersection (h : Reads .intersection tokens s) (k : Reads .intersection others t) :
    Reads .intersection (tokens ++ .ampersand :: others) (Structure.intersection [s, t]) := by
  rcases h with ⟨operands, last, rfl, reads⟩
  rcases k with ⟨more, final, rfl, goesOn⟩
  refine ⟨operands ++ last :: more, final, ?_, fun frames alternatives before rest => ?_⟩
  · have flat := @Structure.intersection_append ((operands ++ [last]).map normal)
      ((more ++ [final]).map normal) (by simp) (by simp)
    simpa [normal] using flat
  · calc read frames (.operand ⟨alternatives, before⟩) (tokens ++ .ampersand :: others ++ rest)
      _ = read frames (.operand ⟨alternatives, before ++ operands ++ [last]⟩) (others ++ rest) := by
        rw [List.append_assoc, reads]
        rfl
      _ = read frames (.operator ⟨alternatives, before ++ (operands ++ last :: more)⟩ final)
          rest := by
        rw [goesOn]
        simp

theorem Reads.union (h : Reads .union tokens s) (k : Reads .union others t) :
    Reads .union (tokens ++ .bar :: others) (Structure.union [s, t]) := by
  rcases h with ⟨alternatives, operands, last, rfl, reads⟩
  rcases k with ⟨more, further, final, rfl, goesOn⟩
  refine ⟨Level.alternative ⟨alternatives, operands⟩ last ++ more, further, final, ?_,
    fun frames before rest => ?_⟩
  · have flat := @Structure.union_append
      ((Level.alternative ⟨alternatives, operands⟩ last).map normal)
      ((Level.alternative ⟨more, further⟩ final).map normal)
      (by simp [Level.alternative]) (by simp [Level.alternative])
    simpa [normal, Level.close, Level.alternative] using flat
  · calc read frames (.operand ⟨before, []⟩) (tokens ++ .bar :: others ++ rest)
      _ = read frames (.operand ⟨before ++ Level.alternative ⟨alternatives, operands⟩ last, []⟩)
          (others ++ rest) := by
        rw [List.append_assoc, reads]
        change read frames (.operand ⟨before ++ alternatives ++ _, []⟩) (others ++ rest) = _
        rw [List.append_assoc]
        rfl
      _ = _ := by rw [goesOn, List.append_assoc]

/-! ## Texts -/

theorem Written.weaken {text : String} (h : Written binding text s) : Written .union text s := by
  rcases h with ⟨tokens, lexes, reads⟩
  exact ⟨tokens, lexes, reads.weaken⟩

theorem Written.union_self {text : String} (h : Written binding text s) :
    Structure.union [s] = s := by
  rcases h with ⟨_, _, reads⟩
  exact reads.union_self

theorem Written.operands {text : String} (h : Written .atom text s) :
    Written .intersection text s := by
  rcases h with ⟨tokens, lexes, reads⟩
  exact ⟨tokens, lexes, reads.operands⟩

theorem written_word {word : String} (nonempty : word ≠ "")
    (h : word.toList.all isWordChar) : Written .atom word [[.leaf word]] := by
  have reads := reads_word word.toList
  rw [String.ofList_toList] at reads
  exact ⟨_, lexes_word (by simpa using nonempty) h, reads⟩

theorem written_quote (text : String) :
    Written .atom (Text.quote text) [[.leaf (Text.quote text)]] :=
  ⟨_, (whole_quote text).lexes, reads_quoted _⟩

theorem Written.parenthesized {text : String} (h : Written .union text s) :
    Written .atom ("(" ++ text ++ ")") s := by
  rcases h with ⟨tokens, lexes, reads⟩
  have opens : Whole "(".toList [.openParen] := whole_of_start rfl
  have closes : Whole ")".toList [.closeParen] := whole_of_start rfl
  have whole := (opens.append_lexes lexes).append_whole closes rfl
  refine ⟨_, ?_, reads.parenthesized⟩
  simpa using whole.lexes

/-- A union in parentheses can stand where an operand can. -/
theorem Written.operand {text : String} (h : Written binding text s) :
    Written .intersection (TypeTree.parenthesized (binding == .union) text) s := by
  cases binding with
  | atom => exact h.operands
  | intersection => exact h
  | union => exact h.parenthesized.operands

/-- Parentheses that are not needed do no harm. -/
theorem Written.parenthesizedUnion {text : String} (h : Written binding text s) :
    Written binding (TypeTree.parenthesized (binding == .union) text) s := by
  cases binding with
  | atom => exact h
  | intersection => exact h
  | union => exact h.parenthesized.weaken

/-- Whatever is no atom can stand as one in parentheses. -/
theorem Written.atom {text : String} (h : Written binding text s) :
    Written .atom (TypeTree.parenthesized (binding != .atom) text) s := by
  cases binding with
  | atom => exact h
  | intersection => exact h.weaken.parenthesized
  | union => exact h.parenthesized

theorem Written.array {text : String} (h : Written .atom text s) :
    Written .atom (text ++ "[]") [[.array s]] := by
  rcases h with ⟨tokens, lexes, reads⟩
  have brackets : Whole "[]".toList [.openBracket, .closeBracket] := by
    have opens : Whole ['['] [.openBracket] := whole_of_start rfl
    have closes : Whole [']'] [.closeBracket] := whole_of_start rfl
    exact opens.append closes
  refine ⟨_, ?_, reads.array⟩
  simpa using (lexes.append_whole brackets rfl).lexes

theorem Written.union {text more : String} (h : Written .union text s)
    (k : Written .union more t) :
    Written .union (text ++ " | " ++ more) (Structure.union [s, t]) := by
  rcases h with ⟨tokens, lexes, reads⟩
  rcases k with ⟨others, goesOn, readsOn⟩
  have bar : Whole " | ".toList [.bar] := by
    have space : Whole [' '] [] := whole_of_start rfl
    have mark : Whole ['|'] [.bar] := whole_of_start rfl
    exact space.append (mark.append space)
  have whole := lexes.append_whole bar rfl
  refine ⟨_, ?_, reads.union readsOn⟩
  simpa using whole.append_lexes goesOn

theorem Written.intersection {text more : String} (h : Written .intersection text s)
    (k : Written .intersection more t) :
    Written .intersection (text ++ " & " ++ more) (Structure.intersection [s, t]) := by
  rcases h with ⟨tokens, lexes, reads⟩
  rcases k with ⟨others, goesOn, readsOn⟩
  have ampersand : Whole " & ".toList [.ampersand] := by
    have space : Whole [' '] [] := whole_of_start rfl
    have mark : Whole ['&'] [.ampersand] := whole_of_start rfl
    exact space.append (mark.append space)
  have whole := lexes.append_whole ampersand rfl
  refine ⟨_, ?_, reads.intersection readsOn⟩
  simpa using whole.append_lexes goesOn

/-- Many texts joined by an operator, from two. -/
theorem written_joined {α : Type} {operator : String} {combine : List Structure → Structure}
    {text : α → String} {means : α → Structure}
    (two : ∀ {text more s t}, Written binding text s → Written binding more t →
      Written binding (text ++ operator ++ more) (combine [s, t]))
    (flat : ∀ s {members}, members ≠ [] → combine (s :: members) = combine [s, combine members])
    {items : List α} (nonempty : items ≠ [])
    (single : ∀ item ∈ items, combine [means item] = means item)
    (each : ∀ item ∈ items, Written binding (text item) (means item)) :
    Written binding (operator.intercalate (items.map text)) (combine (items.map means)) := by
  induction items with
  | nil => exact absurd rfl nonempty
  | cons item rest ih =>
    have first := each item List.mem_cons_self
    by_cases more : rest = []
    · subst more
      simpa [single item] using first
    · have others := ih more (fun a mem => single a (List.mem_cons_of_mem _ mem))
        fun a mem => each a (List.mem_cons_of_mem _ mem)
      rw [List.map_cons, List.map_cons, String.intercalate_cons_of_ne_nil (by simpa using more),
        flat _ (by simpa using more)]
      exact two first others

theorem written_union {α : Type} {text : α → String} {means : α → Structure} {items : List α}
    (nonempty : items ≠ []) (each : ∀ item ∈ items, Written .union (text item) (means item)) :
    Written .union (" | ".intercalate (items.map text)) (Structure.union (items.map means)) := by
  exact written_joined Written.union Structure.union_cons nonempty
    (fun item mem => (each item mem).union_self) each

theorem written_intersection {α : Type} {text : α → String} {means : α → Structure}
    {items : List α} (nonempty : items ≠ [])
    (each : ∀ item ∈ items, Written .intersection (text item) (means item)) :
    Written .intersection (" & ".intercalate (items.map text))
      (Structure.intersection (items.map means)) := by
  refine written_joined Written.intersection (fun s members more => ?_) nonempty
    (fun _ _ => rfl) each
  exact Structure.intersection_append (List.cons_ne_nil s []) more

end SchemaTypes
