import SchemaTypes.Json.Pointer

/-! # Written tokens of pointers

A written token stands for the token it was made from, whatever characters that has, because the
replacements that undo the escapes are made in the opposite order. No written token has a slash, so
that a text of several tokens splits into just these.
-/

namespace SchemaTypes

theorem Text.replaceChar_cons_self (old : Char) (new cs : List Char) :
    replaceChar old new (old :: cs) = new ++ replaceChar old new cs := by
  simp [replaceChar]

theorem Text.replaceChar_cons_of_ne {old c : Char} (h : c ≠ old) (new cs : List Char) :
    replaceChar old new (c :: cs) = c :: replaceChar old new cs := by
  simp [replaceChar, h]

theorem Text.replacePair_pair (first second : Char) (new rest : List Char) :
    replacePair first second new (first :: second :: rest) =
      new ++ replacePair first second new rest := by
  simp [replacePair]

theorem Text.replacePair_cons_of_ne {first c : Char} (h : c ≠ first) (second : Char)
    (new rest : List Char) :
    replacePair first second new (c :: rest) = c :: replacePair first second new rest := by
  cases rest <;> simp [replacePair, h]

theorem Text.replacePair_first_of_ne {second c : Char} (h : c ≠ second) (first : Char)
    (new rest : List Char) :
    replacePair first second new (first :: c :: rest) =
      first :: replacePair first second new (c :: rest) := by
  simp [replacePair, h]

/-- A replacement that leaves no trace has not been made. -/
theorem Text.replacePair_eq_self {first second new : Char} {cs : List Char}
    (absent : new ∉ replacePair first second [new] cs) :
    replacePair first second [new] cs = cs := by
  fun_induction replacePair first second [new] cs with
  | case1 => simp at absent
  | case2 a b rest _ ih => rw [ih fun mem => absent (List.mem_cons_of_mem _ mem)]
  | case3 => rfl

namespace Json.Pointer

open Text

/-- Undoing the slashes leaves the escapes of the tildes. -/
theorem unescape_slashes (token : List Char) :
    replacePair '~' '1' ['/'] (escapeChars token) = replaceChar '~' ['~', '0'] token := by
  rw [escapeChars]
  induction token with
  | nil => rfl
  | cons c cs ih =>
    by_cases tilde : c = '~'
    · subst tilde
      rw [replaceChar_cons_self, List.cons_append, List.cons_append, List.nil_append,
        replaceChar_cons_of_ne (by decide), replaceChar_cons_of_ne (by decide),
        replacePair_first_of_ne (by decide), replacePair_cons_of_ne (by decide), ih]
    · rw [replaceChar_cons_of_ne tilde]
      by_cases slash : c = '/'
      · subst slash
        rw [replaceChar_cons_self, List.cons_append, List.cons_append, List.nil_append,
          replacePair_pair, ih]
        rfl
      · rw [replaceChar_cons_of_ne slash, replacePair_cons_of_ne tilde, ih]

theorem unescape_tildes (token : List Char) :
    replacePair '~' '0' ['~'] (replaceChar '~' ['~', '0'] token) = token := by
  induction token with
  | nil => rfl
  | cons c cs ih =>
    by_cases tilde : c = '~'
    · subst tilde
      rw [replaceChar_cons_self, List.cons_append, List.cons_append, List.nil_append,
        replacePair_pair, ih]
      rfl
    · rw [replaceChar_cons_of_ne tilde, replacePair_cons_of_ne tilde, ih]

/-- A written token stands for the token it was made from. -/
theorem unescapeChars_escapeChars (token : List Char) :
    unescapeChars (escapeChars token) = token := by
  rw [unescapeChars, unescape_slashes, unescape_tildes]

/-- What a written token stands for is how it is written, if nothing in it needs an escape. -/
theorem unescapeChars_eq_self {written : List Char} (tilde : '~' ∉ unescapeChars written)
    (slash : '/' ∉ unescapeChars written) : unescapeChars written = written := by
  have tildes := replacePair_eq_self tilde
  rw [unescapeChars, tildes] at slash ⊢
  exact replacePair_eq_self slash

theorem slash_not_mem_escapeChars (token : List Char) : '/' ∉ escapeChars token := by
  intro mem
  rcases List.mem_flatMap.mp mem with ⟨c, -, mem⟩
  by_cases slash : c = '/'
  · simp [slash] at mem
  · rw [if_neg slash, List.mem_singleton] at mem
    exact slash mem.symm

theorem escapeChars_ne_nil {token : List Char} (h : token ≠ []) : escapeChars token ≠ [] := by
  intro empty
  have := unescapeChars_escapeChars token
  rw [empty] at this
  exact h this.symm

end Json.Pointer

theorem Json.Fields.mem_of_get? {name : String} {fields : Fields} {value : Value}
    (found : Fields.get? name fields = some value) : (name, value) ∈ fields := by
  induction fields with
  | nil => cases found
  | cons field rest ih =>
    rcases field with ⟨key, first⟩
    rw [Fields.get?] at found
    by_cases same : key = name
    · rw [if_pos same] at found
      cases found
      rw [same]
      exact List.mem_cons_self
    · rw [if_neg same] at found
      exact List.mem_cons_of_mem _ (ih found)

theorem Json.Fields.get?_map (f : String → Value → Value) (name : String) (fields : Fields) :
    Fields.get? name (fields.map fun field => (field.1, f field.1 field.2)) =
      (Fields.get? name fields).map (f name) := by
  induction fields with
  | nil => rfl
  | cons field rest ih =>
    rcases field with ⟨key, value⟩
    rw [List.map_cons, Fields.get?, Fields.get?, ih]
    split
    · next same => rw [same, Option.map_some]
    · rfl

theorem Json.Fields.get?_filter_ne (dropped name : String) (fields : Fields) :
    Fields.get? name (fields.filter fun field => field.1 != dropped) =
      if name = dropped then none else Fields.get? name fields := by
  induction fields with
  | nil => simp [Fields.get?]
  | cons field rest ih =>
    rcases field with ⟨key, value⟩
    by_cases isDropped : key = dropped
    · rw [List.filter_cons_of_neg (by simpa using isDropped), ih, Fields.get?]
      by_cases same : key = name
      · rw [if_pos (same ▸ isDropped), if_pos (same ▸ isDropped)]
      · rw [if_neg same]
    · rw [List.filter_cons_of_pos (by simpa using isDropped), Fields.get?, Fields.get?, ih]
      by_cases same : key = name
      · subst same
        rw [if_pos rfl, if_neg isDropped, if_pos rfl]
      · rw [if_neg same, if_neg same]

namespace Json.Value

theorem at?_append (value : Value) (front back : Pointer) :
    value.at? (front ++ back) = (value.at? front).bind fun part => part.at? back := by
  induction front generalizing value with
  | nil => rfl
  | cons token front ih =>
    rw [List.cons_append, at?, at?, Option.bind_assoc]
    exact congrArg _ (funext ih)

theorem at?_field (fields : Fields) (name : String) :
    (Value.object fields).at? [name] = Fields.get? name fields := by
  rw [at?, step?]
  exact Option.bind_fun_some _

end Json.Value

end SchemaTypes
