/-! # Type expressions and their structure

What a written type means does not depend on parentheses that could be left out, on unions in
unions and intersections in intersections, on a union or intersection of one member, or on an
alternative `null` that is there already. The structure of an expression is what is left: a list of
alternatives, each of them a list of operands.
-/

namespace SchemaTypes

/-- A type expression. A leaf is a single token. -/
inductive TypeExpr where
  | leaf (token : String)
  | array (item : TypeExpr)
  | union (members : List TypeExpr)
  | intersection (members : List TypeExpr)
  /-- The properties in order, each with whether it may be missing, and the type of further ones. -/
  | object (properties : List (String × Bool × TypeExpr)) (index : Option TypeExpr)

/-- An operand of an intersection. Alternatives are an operand only as a group. -/
inductive Operand where
  | leaf (token : String)
  | array (item : List (List Operand))
  | object (properties : List (String × Bool × List (List Operand)))
      (index : Option (List (List Operand)))
  | group (alternatives : List (List Operand))

/-- The alternatives of a type, each with its operands. -/
abbrev Structure := List (List Operand)

namespace Structure

def isNull : List Operand → Bool
  | [.leaf token] => token == "null"
  | _ => false

/-- Drop every alternative `null` but the first one, or all if there has been one before. -/
def onceNull (seen : Bool) : Structure → Structure
  | [] => []
  | alternative :: rest =>
    if isNull alternative then
      if seen then onceNull true rest else alternative :: onceNull true rest
    else alternative :: onceNull seen rest

/-- What a type brings to an intersection around it. -/
def operands : Structure → List Operand
  | [operands] => operands
  | alternatives => [.group alternatives]

def union : List Structure → Structure
  | [] => [[.leaf "never"]]
  | member :: members => onceNull false (member :: members).flatten

def intersection : List Structure → Structure
  | [] => [[.leaf "unknown"]]
  | [member] => member
  | members => [members.flatMap operands]

theorem onceNull_append (seen : Bool) (s t : Structure) :
    onceNull seen (s ++ t) = onceNull seen s ++ onceNull (seen || s.any isNull) t := by
  induction s generalizing seen with
  | nil => simp [onceNull]
  | cons alternative s ih =>
    by_cases null : isNull alternative
    · cases seen <;> simp [onceNull, null, ih]
    · simp [onceNull, null, ih]

theorem any_onceNull (s : Structure) : (onceNull false s).any isNull = s.any isNull := by
  induction s with
  | nil => rfl
  | cons alternative s ih => by_cases null : isNull alternative <;> simp [onceNull, null, ih]

/-- Whatever `null` has been dropped would have been dropped later. -/
theorem onceNull_onceNull (seen before : Bool) (s : Structure) (h : before → seen) :
    onceNull seen (onceNull before s) = onceNull seen s := by
  induction s generalizing seen before with
  | nil => rfl
  | cons alternative s ih =>
    by_cases null : isNull alternative
    · cases before
      · cases seen <;> simp [onceNull, null, ih]
      · simp [onceNull, null, h rfl, ih]
    · simp [onceNull, null, ih seen before h]

theorem onceNull_flatten_append (s t : Structure) :
    onceNull false (onceNull false s ++ onceNull false t) = onceNull false (s ++ t) := by
  simp only [onceNull_append, any_onceNull, onceNull_onceNull, Bool.false_eq_true, false_implies]

/-- Unions flatten. -/
theorem union_append {members others : List Structure} (h : members ≠ []) (k : others ≠ []) :
    union (members ++ others) = union [union members, union others] := by
  rcases List.exists_cons_of_ne_nil h with ⟨m, ms, rfl⟩
  rcases List.exists_cons_of_ne_nil k with ⟨n, ns, rfl⟩
  simp [union, onceNull_flatten_append]

theorem union_cons (s : Structure) {members : List Structure} (h : members ≠ []) :
    union (s :: members) = union [s, union members] := by
  rcases List.exists_cons_of_ne_nil h with ⟨m, ms, rfl⟩
  simp only [union, List.flatten_cons, List.flatten_nil, List.append_nil]
  rw [onceNull_append, onceNull_append (s := s), onceNull_onceNull _ _ _ (by simp)]

theorem any_union {members : List Structure} (h : members ≠ []) :
    (union members).any isNull = members.any fun member => member.any isNull := by
  rcases List.exists_cons_of_ne_nil h with ⟨m, ms, rfl⟩
  rw [union, any_onceNull, List.any_flatten]

/-- A further `null` changes nothing where it is an alternative already. -/
theorem union_null {s : Structure} (once : union [s] = s) (h : s.any isNull) :
    union [s, [[.leaf "null"]]] = s := by
  simp only [union, List.flatten_cons, List.flatten_nil, List.append_nil] at once ⊢
  rw [onceNull_append, once, h]
  exact List.append_nil s

theorem operands_intersection {members : List Structure} (h : members ≠ []) :
    operands (intersection members) = members.flatMap operands := by
  match members with
  | [] => exact absurd rfl h
  | [member] => simp [intersection]
  | _ :: _ :: _ => rfl

/-- Intersections flatten. -/
theorem intersection_append {members others : List Structure} (h : members ≠ [])
    (k : others ≠ []) :
    intersection (members ++ others) =
      intersection [intersection members, intersection others] := by
  have pair : ∀ s t, intersection [s, t] = [operands s ++ operands t] := by
    intro s t
    simp [intersection]
  have both : intersection (members ++ others) = [(members ++ others).flatMap operands] := by
    rcases List.exists_cons_of_ne_nil h with ⟨m, ms, rfl⟩
    rcases List.exists_cons_of_ne_nil k with ⟨n, ns, rfl⟩
    cases ms <;> rfl
  rw [both, pair, operands_intersection h, operands_intersection k, List.flatMap_append]

end Structure

namespace TypeExpr

mutual

def normal : TypeExpr → Structure
  | .leaf token => [[.leaf token]]
  | .array item => [[.array item.normal]]
  | .union members => Structure.union (normalEach members)
  | .intersection members => Structure.intersection (normalEach members)
  | .object properties index => [[.object (normalProperties properties) (normalIndex index)]]

def normalEach : List TypeExpr → List Structure
  | [] => []
  | expr :: rest => expr.normal :: normalEach rest

def normalProperties : List (String × Bool × TypeExpr) → List (String × Bool × Structure)
  | [] => []
  | (name, missing, expr) :: rest => (name, missing, expr.normal) :: normalProperties rest

def normalIndex : Option TypeExpr → Option Structure
  | none => none
  | some expr => some expr.normal

end

@[simp] theorem normalEach_eq (members : List TypeExpr) :
    normalEach members = members.map normal := by
  induction members with
  | nil => rfl
  | cons expr rest ih => rw [normalEach, ih, List.map_cons]

@[simp] theorem normalProperties_eq (properties : List (String × Bool × TypeExpr)) :
    normalProperties properties =
      properties.map fun entry => (entry.1, entry.2.1, entry.2.2.normal) := by
  induction properties with
  | nil => rfl
  | cons entry rest ih => rw [normalProperties, ih, List.map_cons]

@[simp] theorem normalIndex_eq (index : Option TypeExpr) :
    normalIndex index = index.map normal := by
  cases index <;> rfl

/-- No structure has `null` twice. -/
theorem onceNull_normal (expr : TypeExpr) :
    Structure.onceNull false expr.normal = expr.normal := by
  have single : ∀ alternative, Structure.onceNull false [alternative] = [alternative] := by
    intro alternative
    by_cases null : Structure.isNull alternative <;> simp [Structure.onceNull, null]
  match expr with
  | .leaf token => exact single _
  | .array item => exact single _
  | .object properties index => exact single _
  | .union [] => exact single _
  | .union (member :: members) => exact Structure.onceNull_onceNull _ _ _ (by simp)
  | .intersection [] => exact single _
  | .intersection [member] => exact onceNull_normal member
  | .intersection (_ :: _ :: _) => exact single _

@[simp] theorem union_normal (expr : TypeExpr) : Structure.union [expr.normal] = expr.normal := by
  simpa [Structure.union] using onceNull_normal expr

end TypeExpr

end SchemaTypes
