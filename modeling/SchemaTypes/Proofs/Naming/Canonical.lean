import Mathlib.Data.List.SplitBy
import SchemaTypes.Proofs.Naming.Words

/-! # Type names are canonical

The type name of any raw name is an identifier that is no keyword and its own type name. It does not
depend on what the words of the raw name stand apart by, and keeps their letters and digits.
-/

namespace SchemaTypes.Naming

/-- The maximal runs of characters that all are letters or digits, or that all are not. -/
def runs (cs : List Char) : List (List Char) :=
  cs.splitBy fun c d => c.isAlphanum == d.isAlphanum

/-- A raw name with one underscore in place of each maximal run of other characters than letters and
digits. -/
def underscored (raw : String) : String :=
  String.ofList ((runs raw.toList).flatMap fun run =>
    if run.all Char.isAlphanum then run else ['_'])

example : underscored "a - b__C!" = "a_b_C_" := by decide

/-! ## Separators -/

/-- Texts that are joined in the same way are so behind anything. -/
theorem joinWords_append_congr {cs ds : List Char}
    (same : ∀ start, joinWords start cs = joinWords start ds) (run : List Char) (start : Bool) :
    joinWords start (run ++ cs) = joinWords start (run ++ ds) := by
  induction run generalizing start with
  | nil => exact same start
  | cons c run ih => rw [List.cons_append, List.cons_append, joinWords, joinWords, ih, ih]

theorem joinWords_separators {run : List Char} (nonempty : run ≠ [])
    (separators : ∀ c ∈ run, c.isAlphanum = false) (start : Bool) (cs : List Char) :
    joinWords start (run ++ cs) = joinWords true cs := by
  induction run generalizing start with
  | nil => exact absurd rfl nonempty
  | cons c run ih =>
    rw [List.forall_mem_cons] at separators
    rw [List.cons_append, joinWords, if_neg (by simp [separators.1])]
    by_cases last : run = []
    · rw [last, List.nil_append]
    · exact ih last separators.2 true

/-- A run has letters and digits only, or none. -/
theorem alike_of_mem_runs {run cs : List Char} (mem : run ∈ runs cs) :
    ∃ kind, ∀ c ∈ run, c.isAlphanum = kind := by
  have alike := (List.isChain_of_mem_splitBy mem).imp fun c d same => beq_iff_eq.mp same
  have pairwise : run.Pairwise fun c d => c.isAlphanum = d.isAlphanum := alike.pairwise
  cases run with
  | nil => exact ⟨true, nofun⟩
  | cons c run =>
    refine ⟨c.isAlphanum, List.forall_mem_cons.mpr ⟨rfl, fun d mem => ?_⟩⟩
    exact ((List.pairwise_cons.mp pairwise).1 d mem).symm

theorem joinWords_flatMap {pieces : List (List Char)} (nonempty : ∀ run ∈ pieces, run ≠ [])
    (alike : ∀ run ∈ pieces, ∃ kind, ∀ c ∈ run, c.isAlphanum = kind) (start : Bool) :
    joinWords start (pieces.flatMap fun run => if run.all Char.isAlphanum then run else ['_']) =
      joinWords start pieces.flatten := by
  induction pieces generalizing start with
  | nil => rfl
  | cons run pieces ih =>
    rw [List.forall_mem_cons] at nonempty alike
    obtain ⟨kind, each⟩ := alike.1
    rw [List.flatMap_cons, List.flatten_cons]
    cases kind with
    | true =>
      rw [if_pos (List.all_eq_true.mpr each)]
      exact joinWords_append_congr (ih nonempty.2 alike.2) run start
    | false =>
      have noWord : ¬ run.all Char.isAlphanum := by
        obtain ⟨c, rest, rfl⟩ := List.exists_cons_of_ne_nil nonempty.1
        simp [each c List.mem_cons_self]
      have underscore : ∀ c ∈ ['_'], c.isAlphanum = false := by simp
      rw [if_neg noWord, joinWords_separators nonempty.1 each,
        joinWords_separators (List.cons_ne_nil _ _) underscore, ih nonempty.2 alike.2]

theorem joinWords_underscored (raw : String) :
    joinWords true (underscored raw).toList = joinWords true raw.toList := by
  rw [underscored, String.toList_ofList]
  refine (joinWords_flatMap (fun run mem => List.ne_nil_of_mem_splitBy mem)
    (fun run mem => alike_of_mem_runs mem) true).trans ?_
  exact congrArg (joinWords true) (List.flatten_splitBy _ _)

/-! ## Letters and digits -/

theorem isUpper_or_isDigit_toUpper {c : Char} (alphanum : c.isAlphanum) :
    c.toUpper.isUpper ∨ c.toUpper.isDigit := by
  rcases (Bool.or_eq_true _ _).mp alphanum with alpha | digit
  · rw [Char.isUpper_toUpper_eq_isAlpha]
    exact .inl alpha
  · by_cases lower : c.isLower
    · rw [Char.isUpper_toUpper_eq_isAlpha, Char.isAlpha, lower, Bool.or_true]
      exact .inl rfl
    · rw [Char.toUpper_eq_of_not_isLower lower]
      exact .inr digit

theorem isUpper_or_isDigit_of_head_joinWords {cs : List Char} {c : Char}
    (first : c ∈ (joinWords true cs).head?) : c.isUpper ∨ c.isDigit := by
  induction cs with
  | nil => cases first
  | cons d cs ih =>
    rw [joinWords] at first
    split at first
    · next alphanum =>
      cases first
      exact isUpper_or_isDigit_toUpper alphanum
    · exact ih first

/-- Joining keeps all letters and digits but for their case. -/
theorem map_toLower_joinWords (start : Bool) (cs : List Char) :
    (joinWords start cs).map Char.toLower = (cs.filter Char.isAlphanum).map Char.toLower := by
  induction cs generalizing start with
  | nil => rfl
  | cons c cs ih =>
    rw [joinWords, List.filter_cons]
    split
    · rw [List.map_cons, List.map_cons, ih]
      cases start
      · rfl
      · rw [if_pos rfl, Char.toLower_toUpper_eq_toLower]
    · exact ih true

theorem joinWords_eq_nil_iff (start : Bool) (cs : List Char) :
    joinWords start cs = [] ↔ cs.any Char.isAlphanum = false := by
  have count := congrArg List.length (map_toLower_joinWords start cs)
  rw [List.length_map, List.length_map] at count
  rw [← List.length_eq_zero_iff, count, List.length_eq_zero_iff, List.filter_eq_nil_iff,
    List.any_eq_false]

/-- A capital or a digit is its own capital. -/
theorem toUpper_of_isUpper_or_isDigit {c : Char} (capital : c.isUpper ∨ c.isDigit) :
    c.toUpper = c := by
  refine Char.toUpper_eq_of_not_isLower fun lower => ?_
  simp only [Char.isUpper, Char.isDigit, Char.isLower, Bool.and_eq_true, decide_eq_true_eq,
    UInt32.le_iff_toNat_le, ge_iff_le] at capital lower
  have a : 'a'.val.toNat = 97 := rfl
  have z : 'Z'.val.toNat = 90 := rfl
  have nine : '9'.val.toNat = 57 := rfl
  omega

/-! ## The spelling -/

/-- A spelling starts with a capital or a digit and goes on with letters and digits. -/
theorem spelling_shape (raw : String) :
    ∃ c cs, spelling raw = c :: cs ∧ (c.isUpper ∨ c.isDigit) ∧ ∀ d ∈ cs, d.isAlphanum := by
  rw [spelling, ← joinWords_words]
  cases joined : joinWords true raw.toList with
  | nil => exact ⟨'U', "nnamed".toList, rfl, .inl rfl, List.all_eq_true.mp rfl⟩
  | cons c cs =>
    have first : c ∈ (joinWords true raw.toList).head? := by
      rw [joined]
      rfl
    refine ⟨c, cs, rfl, isUpper_or_isDigit_of_head_joinWords first, fun d mem => ?_⟩
    have inside : d ∈ joinWords true raw.toList := by
      rw [joined]
      exact List.mem_cons_of_mem c mem
    exact isAlphanum_of_mem_joinWords inside

theorem spelling_congr {raw other : String}
    (same : joinWords true raw.toList = joinWords true other.toList) :
    spelling raw = spelling other := by
  rw [spelling, spelling, ← joinWords_words, ← joinWords_words, same]

/-- A spelling is spelled as it stands, with or without an underscore in front. -/
theorem spelling_pascal (raw : String) : spelling (pascal raw) = spelling raw := by
  obtain ⟨c, cs, shape, first, further⟩ := spelling_shape raw
  have alphanum : c.isAlphanum := by
    rw [Char.isAlphanum, Char.isAlpha]
    rcases first with upper | digit
    · rw [upper, Bool.true_or, Bool.true_or]
    · rw [digit, Bool.or_true]
  have spelled : IsSpelled (String.ofList (spelling raw)) := by
    rw [IsSpelled, String.toList_ofList, shape]
    refine ⟨by simp, List.forall_mem_cons.mpr ⟨alphanum, further⟩, fun d head => ?_⟩
    cases head
    exact toUpper_of_isUpper_or_isDigit first
  have same : joinWords true (pascal raw).toList =
      joinWords true (String.ofList (spelling raw)).toList := by
    rw [pascal_toList, String.toList_ofList]
    split
    · rfl
    · rfl
  rw [spelling_congr same, spelling_of_isSpelled spelled, String.toList_ofList]

theorem dropWhile_pascal (raw : String) :
    (pascal raw).toList.dropWhile (· == '_') = spelling raw := by
  have none := underscore_not_mem_spelling raw
  have drop : (spelling raw).dropWhile (· == '_') = spelling raw := by
    obtain ⟨c, cs, shape, -, -⟩ := spelling_shape raw
    rw [shape] at none ⊢
    refine List.dropWhile_cons_of_neg fun same => none ?_
    rw [← beq_iff_eq.mp same]
    exact List.mem_cons_self
  rw [pascal_toList]
  split
  · rw [List.dropWhile_cons_of_pos (by decide), drop]
  · exact drop

/-! ## Type names -/

/-- Keywords begin with a small letter. -/
theorem isLower_of_head_reserved {name : String} {c : Char} (reserved : isReserved name)
    (first : c ∈ name.toList.head?) : c.isLower := by
  have small : reservedWords.all fun word => word.toList.head?.all Char.isLower := by decide
  have isSmall := List.all_eq_true.mp small name (List.contains_iff_mem.mp reserved)
  rwa [Option.mem_def.mp first, Option.all_some] at isSmall

/-- A type name is an identifier of letters and digits, with an underscore in front of a digit, and
no keyword; it is its own type name; it does not depend on what the words of the raw name stand
apart by; and it has the letters and digits of the raw name, if there are any. -/
theorem pascal_canonical (raw : String) :
    (∃ c cs, (∀ d ∈ cs, d.isAlphanum) ∧
      ((pascal raw).toList = c :: cs ∧ c.isUpper ∨
        (pascal raw).toList = '_' :: c :: cs ∧ c.isDigit)) ∧
    isReserved (pascal raw) = false ∧
    pascal (pascal raw) = pascal raw ∧
    pascal (underscored raw) = pascal raw ∧
    if raw.toList.any Char.isAlphanum then
      ((pascal raw).toList.dropWhile (· == '_')).map Char.toLower =
        (raw.toList.filter Char.isAlphanum).map Char.toLower
    else pascal raw = "Unnamed" := by
  obtain ⟨c, cs, shape, first, further⟩ := spelling_shape raw
  have chars : (pascal raw).toList = if c.isDigit then '_' :: c :: cs else c :: cs := by
    rw [pascal_toList, shape]
    rfl
  have notSmall : c.isLower = false := by
    rw [← toUpper_of_isUpper_or_isDigit first]
    exact Char.isLower_toUpper_eq_false c
  refine ⟨⟨c, cs, further, ?_⟩, ?_, (pascal_eq_iff _ _).mpr (spelling_pascal raw),
    (pascal_eq_iff _ _).mpr (spelling_congr (joinWords_underscored raw)), ?_⟩
  · rw [chars]
    by_cases digit : c.isDigit
    · rw [if_pos digit]
      exact .inr ⟨rfl, digit⟩
    · rw [if_neg digit]
      exact .inl ⟨rfl, first.resolve_right digit⟩
  · refine Bool.eq_false_iff.mpr fun reserved => ?_
    have small (d : Char) (head : d ∈ (pascal raw).toList.head?) : d.isLower :=
      isLower_of_head_reserved reserved head
    rw [chars] at small
    by_cases digit : c.isDigit
    · rw [if_pos digit] at small
      exact absurd (small '_' rfl) (by decide)
    · rw [if_neg digit] at small
      rw [small c rfl] at notSmall
      cases notSmall
  · split
    · next some =>
      rw [dropWhile_pascal, spelling, ← joinWords_words, ← map_toLower_joinWords true]
      split
      · next none => exact absurd some (by simpa using (joinWords_eq_nil_iff true _).mp none)
      · rfl
    · next none =>
      rw [pascal, (joinWords_eq_nil_iff true _).mpr (by simpa using none)]

end SchemaTypes.Naming
