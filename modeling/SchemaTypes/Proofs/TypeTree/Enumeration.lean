import Mathlib
import SchemaTypes.TypeTree.Enumeration
import SchemaTypes.Proofs.Expression.Literal

/-! # The members of an enumeration

A member has a key of capitals, digits and underscores, and the literal of its value. The values
that have a member are those other than `null`, in their order, whatever keys they get. No key is
given twice: counting up finds one that is free, because there are more numbers than taken keys.
-/

namespace SchemaTypes.Enumeration

open SchemaTypes.Json

def isKeyChar (c : Char) : Bool := c.isUpper || c.isDigit || c == '_'

def IsKeyText (text : String) : Prop := ∀ c ∈ text.toList, isKeyChar c

theorem isKeyChar_toUpper {c : Char} (alphanum : c.isAlphanum) : isKeyChar c.toUpper := by
  rw [Char.isAlphanum, Bool.or_eq_true] at alphanum
  rcases alphanum with alpha | digit
  · rw [isKeyChar, Char.isUpper_toUpper_eq_isAlpha, alpha]
    rfl
  · have notLower : ¬ c.isLower := by grind [Char.isLower, Char.isDigit]
    rw [Char.toUpper_eq_of_not_isLower notLower, isKeyChar, digit, Bool.or_true]
    rfl

theorem isKeyChar_of_mem_keyChars {inRun : Bool} {cs : List Char} {c : Char}
    (mem : c ∈ keyChars inRun cs) : isKeyChar c := by
  induction cs generalizing inRun with
  | nil => cases mem
  | cons d cs ih =>
    rw [keyChars] at mem
    split at mem
    · next kept =>
      rcases List.mem_cons.mp mem with rfl | mem
      · rcases Bool.or_eq_true _ _ ▸ kept with alphanum | underscore
        · exact isKeyChar_toUpper alphanum
        · rw [eq_of_beq underscore]
          decide
      · exact ih mem
    · split at mem
      · exact ih mem
      · rcases List.mem_cons.mp mem with rfl | mem
        · decide
        · exact ih mem

/-- A text is a key: it is not empty, has no digit in front, and is made of characters of keys. -/
structure IsKey (text : String) : Prop where
  made : IsKeyText text
  nonempty : text ≠ ""
  front : ∀ c ∈ text.toList.head?, ¬ c.isDigit

theorem isKey_key (value : Value) : IsKey (key value) := by
  rw [key]
  split
  · have made : "EMPTY".toList.all isKeyChar = true := by decide
    exact ⟨List.all_eq_true.mp made, by decide, by simp⟩
  · next d cs chars =>
    have made : ∀ c ∈ d :: cs, isKeyChar c := fun c mem => isKeyChar_of_mem_keyChars (chars ▸ mem)
    by_cases digit : d.isDigit
    · rw [if_pos digit]
      refine ⟨?_, by simp, by simp⟩
      rw [IsKeyText, String.toList_ofList, List.forall_mem_cons]
      exact ⟨by decide, made⟩
    · rw [if_neg digit]
      refine ⟨?_, by simp, by simpa using digit⟩
      rw [IsKeyText, String.toList_ofList]
      exact made

theorem isKeyText_numbered {base : String} (isKey : IsKeyText base) (n : Nat) :
    IsKeyText (numbered base n) := by
  intro c mem
  rw [numbered, String.toList_append, String.toList_append, List.append_assoc, List.mem_append,
    List.mem_append] at mem
  rcases mem with here | underscore | digit
  · exact isKey c here
  · rw [List.mem_singleton.mp underscore]
    decide
  · rw [Nat.toString_eq_repr, Nat.repr_eq_ofList_toDigits, String.toList_ofList] at digit
    rw [isKeyChar, Nat.isDigit_of_mem_toDigits (by decide) (by decide) digit, Bool.or_true]
    rfl

theorem IsKey.numbered {base : String} (isKey : IsKey base) (n : Nat) :
    IsKey (numbered base n) := by
  obtain ⟨c, cs, shape⟩ :=
    List.exists_cons_of_ne_nil (mt String.toList_eq_nil_iff.mp isKey.nonempty)
  have chars : (Enumeration.numbered base n).toList = c :: (cs ++ ("_" ++ toString n).toList) := by
    rw [Enumeration.numbered, String.append_assoc, String.toList_append, shape, List.cons_append]
  refine ⟨isKeyText_numbered isKey.made n, ?_, ?_⟩
  · rw [ne_eq, ← String.toList_eq_nil_iff, chars]
    exact List.cons_ne_nil _ _
  · have front := isKey.front
    rw [shape] at front
    rw [chars]
    exact front

/-! ## Keys that are free -/

theorem numbered_injective (base : String) : Function.Injective (numbered base) := by
  intro m n same
  rw [numbered, numbered, String.append_right_inj] at same
  exact Nat.repr_injective same

theorem numbered_ne (base : String) (n : Nat) : numbered base n ≠ base := by
  intro same
  have length := congrArg String.length same
  rw [numbered, String.length_append, String.length_append, show "_".length = 1 from rfl] at length
  omega

/-- The numbered forms that are looked at cannot all be taken beside the key itself. -/
theorem exists_free {taken : List String} {base : String} (isTaken : base ∈ taken) :
    ∃ n ∈ List.range' 2 taken.length, numbered base n ∉ taken := by
  by_contra! all
  have distinct : (base :: (List.range' 2 taken.length).map (numbered base)).Nodup := by
    rw [List.nodup_cons]
    refine ⟨?_, (List.nodup_range' 1).map (numbered_injective base)⟩
    rw [List.mem_map]
    rintro ⟨n, -, same⟩
    exact numbered_ne base n same
  have inside : base :: (List.range' 2 taken.length).map (numbered base) ⊆ taken := by
    rw [List.cons_subset, List.subset_def, List.forall_mem_map]
    exact ⟨isTaken, all⟩
  -- All of them would be one key more than there are taken keys.
  have tooMany := (List.subperm_of_subset distinct inside).length_le
  rw [List.length_cons, List.length_map, List.length_range'] at tooMany
  omega

/-- A free key is the key itself, or the first numbered form that is free. -/
theorem freeKey_cases (taken : List String) (base : String) :
    (base ∉ taken ∧ freeKey taken base = base) ∨
      base ∈ taken ∧ ∃ n, 2 ≤ n ∧ freeKey taken base = numbered base n ∧
        numbered base n ∉ taken ∧ ∀ m, 2 ≤ m → m < n → numbered base m ∈ taken := by
  rw [freeKey]
  by_cases isTaken : base ∈ taken
  · right
    rw [if_pos (List.contains_iff_mem.mpr isTaken), List.find?_map]
    cases found : (List.range' 2 taken.length).find? _ with
    | none =>
      -- The search always finds something, so the key that stands in for that is never used.
      obtain ⟨n, mem, free⟩ := exists_free isTaken
      have none := List.find?_eq_none.mp found n mem
      simp [free] at none
    | some n =>
      obtain ⟨free, mem, before⟩ := List.find?_range'_eq_some.mp found
      simp only [Function.comp_apply, Bool.not_not, Bool.not_eq_true', List.contains_iff_mem,
        ← Bool.not_eq_true] at free before
      exact ⟨isTaken, n, (List.mem_range'_1.mp mem).1, rfl, free, before⟩
  · exact .inl ⟨isTaken, if_neg (mt List.contains_iff_mem.mp isTaken)⟩

theorem freeKey_not_mem (taken : List String) (base : String) : freeKey taken base ∉ taken := by
  rcases freeKey_cases taken base with ⟨free, same⟩ | ⟨-, n, -, same, free, -⟩ <;> rwa [same]

theorem IsKey.freeKey {base : String} (isKey : IsKey base) (taken : List String) :
    IsKey (freeKey taken base) := by
  rcases freeKey_cases taken base with ⟨-, same⟩ | ⟨-, n, -, same, -, -⟩
  · rwa [same]
  · rw [same]
    exact isKey.numbered n

/-- Counting up from a key and the next number ends in a result: a key that is taken gives way to
the base with that number, and one that is not taken is the result. -/
inductive CountsUp (taken : List String) (base : String) : String → Nat → String → Prop where
  | free {key : String} {next : Nat} : key ∉ taken → CountsUp taken base key next key
  | taken {key result : String} {next : Nat} : key ∈ taken →
      CountsUp taken base (numbered base next) (next + 1) result →
        CountsUp taken base key next result

theorem countsUp_numbered {taken : List String} {base : String} {next n : Nat} (le : next ≤ n)
    (free : numbered base n ∉ taken)
    (before : ∀ m, next ≤ m → m < n → numbered base m ∈ taken) :
    CountsUp taken base (numbered base next) (next + 1) (numbered base n) := by
  induction le using Nat.decreasingInduction with
  | self => exact .free free
  | of_succ next lt ih =>
    exact .taken (before next le_rfl lt) (ih fun m le => before m (Nat.le_of_succ_le le))

/-- Counting up from a key and two comes to an end, with the free key. -/
theorem countsUp_freeKey (taken : List String) (base : String) :
    CountsUp taken base base 2 (freeKey taken base) := by
  rcases freeKey_cases taken base with ⟨free, same⟩ | ⟨isTaken, n, le, same, free, before⟩
  · rw [same]
    exact .free free
  · rw [same]
    exact .taken isTaken (countsUp_numbered le free before)

/-! ## Members -/

/-- One member is made of a value other than `null`, and no member of `null`. -/
theorem members_cons (taken : List String) (value : Value) (values : List Value) :
    members taken (value :: values) =
      if value.isNull then members taken values
      else (freeKey taken (key value), value.literal) ::
        members (taken ++ [freeKey taken (key value)]) values := by
  cases value <;> rfl

/-- The literals of the members, in their order. -/
theorem members_literals (taken : List String) (values : List Value) :
    (members taken values).map (·.2) =
      (values.filter fun value => !value.isNull).map Value.literal := by
  induction values generalizing taken with
  | nil => rfl
  | cons value values ih =>
    rw [members_cons]
    by_cases null : value.isNull <;> simp [null, ih]

theorem isKey_of_mem_members {taken : List String} {values : List Value}
    {member : String × String} (mem : member ∈ members taken values) : IsKey member.1 := by
  induction values generalizing taken with
  | nil => cases mem
  | cons value values ih =>
    rw [members_cons] at mem
    split at mem
    · exact ih mem
    · rcases List.mem_cons.mp mem with rfl | mem
      · exact (isKey_key value).freeKey taken
      · exact ih mem

/-- No member has a key that is taken. -/
theorem not_mem_of_mem_members {taken : List String} {values : List Value}
    {member : String × String} (mem : member ∈ members taken values) : member.1 ∉ taken := by
  induction values generalizing taken with
  | nil => cases mem
  | cons value values ih =>
    rw [members_cons] at mem
    split at mem
    · exact ih mem
    · rcases List.mem_cons.mp mem with rfl | mem
      · exact freeKey_not_mem taken (key value)
      · exact fun isTaken => ih mem (List.mem_append_left _ isTaken)

theorem nodup_members (taken : List String) (values : List Value) :
    ((members taken values).map (·.1)).Nodup := by
  induction values generalizing taken with
  | nil => exact List.nodup_nil
  | cons value values ih =>
    rw [members_cons]
    split
    · exact ih taken
    · rw [List.map_cons, List.nodup_cons]
      refine ⟨fun again => ?_, ih _⟩
      obtain ⟨member, mem, same⟩ := List.mem_map.mp again
      exact not_mem_of_mem_members mem (same ▸ List.mem_append_right _ (List.mem_singleton.mpr rfl))

/-- Each key is counted up from that of its value, past the keys that were taken before and those of
the members in front. -/
theorem countsUp_members {taken : List String} {values : List Value} {place : Nat}
    {member : String × String} {value : Value}
    (here : (members taken values)[place]? = some member)
    (of : (values.filter fun value => !value.isNull)[place]? = some value) :
    CountsUp (taken ++ ((members taken values).map (·.1)).take place) (key value) (key value) 2
      member.1 := by
  induction values generalizing taken place with
  | nil => cases here
  | cons first values ih =>
    rw [members_cons] at here ⊢
    by_cases null : first.isNull
    · rw [if_pos null] at here ⊢
      rw [List.filter_cons_of_neg (by simpa using null)] at of
      exact ih here of
    · rw [if_neg null] at here ⊢
      rw [List.filter_cons_of_pos (by simpa using null)] at of
      cases place with
      | zero =>
        cases here
        cases of
        rw [List.take_zero, List.append_nil]
        exact countsUp_freeKey taken _
      | succ place =>
        have further := ih here of
        rwa [List.append_assoc] at further

theorem literal_of_mem_members {taken : List String} {values : List Value}
    {member : String × String} (mem : member ∈ members taken values) :
    ∃ value ∈ values, !value.isNull ∧ value.literal = member.2 := by
  have listed := List.mem_map_of_mem (f := (·.2)) mem
  rw [members_literals] at listed
  obtain ⟨value, isValue, same⟩ := List.mem_map.mp listed
  exact ⟨value, (List.mem_filter.mp isValue).1, (List.mem_filter.mp isValue).2, same⟩

end SchemaTypes.Enumeration
