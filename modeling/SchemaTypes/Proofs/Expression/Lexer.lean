import SchemaTypes.Text.Comment
import SchemaTypes.Proofs.Text.Quoted

/-! # Tokens of type expressions

Text is cut into words, string literals and marks; blanks and block comments separate them. The
lexer goes on character by character, and what it has read so far is its mode. A text that ends in
a word can be followed by anything that is not a part of it, and every other text by anything at
all.
-/

namespace SchemaTypes

inductive Token where
  /-- A name or a number, with its sign. -/
  | word (text : List Char)
  /-- What stands between the quotes of a string literal, as it is written. -/
  | quoted (written : List Char)
  | bar
  | ampersand
  | openParen
  | closeParen
  | openBracket
  | closeBracket
  | openBrace
  | closeBrace
  | colon
  | semicolon
  | question
deriving DecidableEq

namespace Lexer

def mark? : Char → Option Token
  | '|' => some .bar
  | '&' => some .ampersand
  | '(' => some .openParen
  | ')' => some .closeParen
  | '[' => some .openBracket
  | ']' => some .closeBracket
  | '{' => some .openBrace
  | '}' => some .closeBrace
  | ':' => some .colon
  | ';' => some .semicolon
  | '?' => some .question
  | _ => none

def isNameChar (c : Char) : Bool :=
  c.isAlphanum || c == '_' || c == '$' || (128 ≤ c.toNat && !Text.isBlank c)

def isWordChar (c : Char) : Bool := isNameChar c || c == '.' || c == '+' || c == '-'

/-- What has been begun and is to be gone on with. -/
inductive Mode where
  | between
  | word (text : List Char)
  | quoted (written : List Char)
  | escaped (written : List Char)
  | slash
  | comment
  /-- In a comment, behind an asterisk. -/
  | star

def start (c : Char) : Option (List Token × Mode) :=
  if isWordChar c then some ([], .word [c])
  else if Text.isBlank c then some ([], .between)
  else if c = '"' then some ([], .quoted [])
  else if c = '/' then some ([], .slash)
  else (mark? c).map fun token => ([token], .between)

def step (c : Char) : Mode → Option (List Token × Mode)
  | .between => start c
  | .word text =>
    if isWordChar c then some ([], .word (text ++ [c]))
    else (start c).map fun next => (.word text :: next.1, next.2)
  | .quoted written =>
    if c = '"' then some ([.quoted written], .between)
    else if c = '\\' then some ([], .escaped written)
    else if c = '\n' ∨ c = '\r' then none
    else some ([], .quoted (written ++ [c]))
  | .escaped written => some ([], .quoted (written ++ ['\\', c]))
  | .slash => if c = '*' then some ([], .comment) else none
  | .comment => some ([], if c = '*' then .star else .comment)
  | .star => some ([], if c = '/' then .between else if c = '*' then .star else .comment)

def scan : Mode → List Char → Option (List Token)
  | .between, [] => some []
  | .word text, [] => some [.word text]
  | _, [] => none
  | mode, c :: cs =>
    (step c mode).bind fun next => (scan next.2 cs).map fun tokens => next.1 ++ tokens

def tokens? (text : String) : Option (List Token) := scan .between text.toList

/-- Whatever follows a text, its tokens come first. -/
def Whole (text : List Char) (tokens : List Token) : Prop :=
  ∀ rest, scan .between (text ++ rest) = (scan .between rest).map (tokens ++ ·)

def Stops (rest : List Char) : Prop := ∀ c ∈ rest.head?, isWordChar c = false

/-- A text begins with something that is no part of a word. -/
def EndsWord (text : List Char) : Prop := text.head?.any fun c => !isWordChar c

/-- Whatever follows a text and does not go on with its last word, the tokens of the text come
first. -/
def Lexes (text : List Char) (tokens : List Token) : Prop :=
  ∀ rest, Stops rest → scan .between (text ++ rest) = (scan .between rest).map (tokens ++ ·)

variable {text more : List Char} {tokens others : List Token}

theorem scan_cons (mode : Mode) (c : Char) (cs : List Char) :
    scan mode (c :: cs) =
      (step c mode).bind fun next => (scan next.2 cs).map fun tokens => next.1 ++ tokens := by
  cases mode <;> rfl

/-- A character that completes no token only changes the mode. -/
theorem scan_of_step {mode next : Mode} {c : Char} (h : step c mode = some ([], next))
    (cs : List Char) : scan mode (c :: cs) = scan next cs := by
  rw [scan_cons, h, Option.bind_some]
  simp

theorem EndsWord.stops (h : EndsWord more) (rest : List Char) : Stops (more ++ rest) := by
  intro c mem
  cases more with
  | nil => cases h
  | cons first more =>
    cases mem
    simpa [EndsWord] using h

theorem Whole.lexes (h : Whole text tokens) : Lexes text tokens := fun rest _ => h rest

theorem whole_nil : Whole [] [] := by
  intro rest
  simp

theorem Whole.append (h : Whole text tokens) (k : Whole more others) :
    Whole (text ++ more) (tokens ++ others) := by
  intro rest
  rw [List.append_assoc, h, k, Option.map_map]
  simp [Function.comp_def]

theorem Whole.append_lexes (h : Whole text tokens) (k : Lexes more others) :
    Lexes (text ++ more) (tokens ++ others) := by
  intro rest stops
  rw [List.append_assoc, h, k rest stops, Option.map_map]
  simp [Function.comp_def]

/-- Anything may be followed by what ends a word. -/
theorem Lexes.append_whole (h : Lexes text tokens) (k : Whole more others) (ends : EndsWord more) :
    Whole (text ++ more) (tokens ++ others) := by
  intro rest
  rw [List.append_assoc, h _ (ends.stops rest), k, Option.map_map]
  simp [Function.comp_def]

theorem tokens?_of_lexes {text : String} (h : Lexes text.toList tokens) :
    tokens? text = some tokens := by
  have := h [] (by simp [Stops])
  simpa [tokens?, scan] using this

theorem whole_of_start {c : Char} (h : start c = some (tokens, .between)) : Whole [c] tokens := by
  intro rest
  rw [List.singleton_append, scan_cons, step, h, Option.bind_some]

theorem whole_spaces (n : Nat) : Whole (List.replicate n ' ') [] := by
  induction n with
  | zero => exact whole_nil
  | succ n ih =>
    have space : Whole [' '] [] := whole_of_start rfl
    exact space.append ih

theorem scan_word (word rest : List Char) (text : List Char) (h : text.all isWordChar) :
    scan (.word word) (text ++ rest) = scan (.word (word ++ text)) rest := by
  induction text generalizing word with
  | nil => simp
  | cons c text ih =>
    rw [List.all_cons, Bool.and_eq_true] at h
    have goesOn : step c (.word word) = some ([], .word (word ++ [c])) := by rw [step, if_pos h.1]
    rw [List.cons_append, scan_of_step goesOn, ih _ h.2, List.append_assoc, List.singleton_append]

theorem scan_word_stops (word : List Char) {rest : List Char} (h : Stops rest) :
    scan (.word word) rest = (scan .between rest).map ([.word word] ++ ·) := by
  cases rest with
  | nil => rfl
  | cons c rest =>
    have notWord : isWordChar c = false := h c rfl
    rw [scan_cons, scan_cons, step, step, notWord]
    cases start c with
    | none => rfl
    | some next => simp [Function.comp_def]

theorem lexes_word {word : List Char} (nonempty : word ≠ []) (h : word.all isWordChar) :
    Lexes word [.word word] := by
  intro rest stops
  rcases List.exists_cons_of_ne_nil nonempty with ⟨c, cs, rfl⟩
  rw [List.all_cons, Bool.and_eq_true] at h
  have begins : step c .between = some ([], .word [c]) := by rw [step, start, if_pos h.1]
  rw [List.cons_append, scan_of_step begins, scan_word _ _ cs h.2, scan_word_stops _ stops,
    List.singleton_append]

theorem scan_quoted (written rest cs : List Char) :
    scan (.quoted written) (Text.escape cs ++ '"' :: rest) =
      (scan .between rest).map ([.quoted (written ++ Text.escape cs)] ++ ·) := by
  induction cs generalizing written with
  | nil => simp [Text.escape, scan_cons, step]
  | cons c cs ih =>
    rw [Text.escape] at ih
    rw [Text.escape, List.flatMap_cons]
    rcases Text.escapeChar_cases c with ⟨code, isEscaped, -⟩ | ⟨isPlain, plain⟩
    · have slash : step '\\' (.quoted written) = some ([], .escaped written) := rfl
      have behind : step code (.escaped written) = some ([], .quoted (written ++ ['\\', code])) :=
        rfl
      rw [isEscaped, List.append_assoc, List.cons_append, List.singleton_append,
        scan_of_step slash, scan_of_step behind, ih, List.append_assoc]
    · have goesOn : step c (.quoted written) = some ([], .quoted (written ++ [c])) := by
        simp only [not_or] at plain
        simp [step, plain]
      rw [isPlain, List.append_assoc, List.singleton_append, scan_of_step goesOn, ih,
        List.append_assoc]

theorem whole_quote (text : String) :
    Whole (Text.quote text).toList [.quoted (Text.escape text.toList)] := by
  intro rest
  have begins : step '"' .between = some ([], .quoted []) := rfl
  rw [Text.quote, String.toList_ofList, List.append_assoc, List.cons_append, scan_of_step begins]
  exact scan_quoted [] rest text.toList

theorem scan_comment_cons (c : Char) (cs : List Char) :
    scan .comment (c :: cs) = scan (if c = '*' then .star else .comment) cs :=
  scan_of_step rfl cs

theorem scan_star_cons {c : Char} (h : c ≠ '/') (cs : List Char) :
    scan .star (c :: cs) = scan (if c = '*' then .star else .comment) cs := by
  have goesOn : step c .star = some ([], if c = '*' then .star else .comment) := by
    rw [step, if_neg h]
  exact scan_of_step goesOn cs

/-- A guarded text does not end the comment it stands in, neither by itself nor with an asterisk in
front of it unless it starts with a slash. -/
theorem scan_guarded (cs rest : List Char) :
    scan .comment (Text.guardCommentEnd cs ++ ' ' :: rest) = scan .comment rest ∧
      (cs.head? ≠ some '/' →
        scan .star (Text.guardCommentEnd cs ++ ' ' :: rest) = scan .comment rest) := by
  induction cs using Text.guardCommentEnd.induct with
  | case1 cs ih =>
    rw [Text.guardCommentEnd]
    simp only [List.cons_append]
    constructor
    · rw [scan_comment_cons, if_pos rfl, scan_star_cons (by decide), if_neg (by decide),
        scan_comment_cons, if_neg (by decide)]
      exact ih.1
    · intro
      rw [scan_star_cons (by decide), if_pos rfl, scan_star_cons (by decide),
        if_neg (by decide), scan_comment_cons, if_neg (by decide)]
      exact ih.1
  | case2 c cs notEnd ih =>
    have goesOn : scan (if c = '*' then .star else .comment)
        (Text.guardCommentEnd cs ++ ' ' :: rest) = scan .comment rest := by
      by_cases star : c = '*'
      · rw [if_pos star]
        apply ih.2
        intro slash
        rcases List.head?_eq_some_iff.mp slash with ⟨cs, rfl⟩
        exact notEnd cs star rfl
      · rw [if_neg star]
        exact ih.1
    rw [Text.guardCommentEnd, List.cons_append]
    · constructor
      · rw [scan_comment_cons, goesOn]
      · intro notSlash
        rw [scan_star_cons (fun slash => notSlash (congrArg some slash)), goesOn]
    · exact notEnd
  | case3 =>
    constructor
    · exact scan_comment_cons ' ' rest
    · intro
      exact scan_star_cons (by decide) rest

/-- Comments are skipped. -/
theorem whole_comment (cs : List Char) :
    Whole ("/** ".toList ++ Text.guardCommentEnd cs ++ " */\n".toList) [] := by
  intro rest
  have opens : ∀ cs, scan .between ("/** ".toList ++ cs) = scan .comment cs := by
    intro cs
    have slash : step '/' .between = some ([], .slash) := rfl
    have star : step '*' .slash = some ([], .comment) := rfl
    calc scan .between ('/' :: '*' :: '*' :: ' ' :: cs)
      _ = scan .comment ('*' :: ' ' :: cs) := by rw [scan_of_step slash, scan_of_step star]
      _ = scan .star (' ' :: cs) := scan_comment_cons _ _
      _ = scan .comment cs := scan_star_cons (by decide) _
  have closes : scan .comment ("*/\n".toList ++ rest) = scan .between rest := by
    have slash : step '/' .star = some ([], .between) := rfl
    have lineFeed : step '\n' .between = some ([], .between) := rfl
    calc scan .comment ('*' :: '/' :: '\n' :: rest)
      _ = scan .star ('/' :: '\n' :: rest) := scan_comment_cons _ _
      _ = scan .between rest := by rw [scan_of_step slash, scan_of_step lineFeed]
  calc scan .between ("/** ".toList ++ Text.guardCommentEnd cs ++ " */\n".toList ++ rest)
    _ = scan .comment (Text.guardCommentEnd cs ++ ' ' :: ("*/\n".toList ++ rest)) := by
      rw [List.append_assoc, List.append_assoc, opens]
      rfl
    _ = (scan .between rest).map ([] ++ ·) := by
      rw [(scan_guarded cs _).1, closes]
      simp

theorem whole_docComment (n : Nat) (description : Option String) :
    Whole (Text.docComment (String.ofList (List.replicate n ' ')) description).toList [] := by
  rw [Text.docComment]
  cases found : description.bind Text.docLine? with
  | none => exact whole_nil
  | some line =>
    obtain ⟨cs, rfl⟩ : ∃ cs, line = String.ofList (Text.guardCommentEnd cs) := by
      rcases Option.bind_eq_some_iff.mp found with ⟨description, -, isLine⟩
      unfold Text.docLine? at isLine
      split at isLine
      · cases isLine
      · cases isLine
        exact ⟨_, rfl⟩
    have := (whole_spaces n).append (whole_comment cs)
    simpa using this

end Lexer

end SchemaTypes
