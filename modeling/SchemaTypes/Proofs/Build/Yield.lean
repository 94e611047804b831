import SchemaTypes.Build.Context

/-! # What an action does to a context

Actions of a builder only add to their context: the result is the same in every context, the names
used are recorded behind those that are there, the findings follow the earlier ones, and the path is
what it was. `Building.Yields` says this of one action, and is kept by every way of putting actions
together. Only the places in the findings depend on the context, and only on its path.
-/

namespace SchemaTypes

open SchemaTypes.Json

namespace Context

def extend (names : List String) (findings : List Finding) (context : Context) : Context :=
  { names.foldl (fun context name => context.record name) context with
    findings := context.findings ++ findings }

theorem foldl_record_path (names : List String) (context : Context) :
    (names.foldl (fun context name => context.record name) context).path = context.path := by
  induction names generalizing context with
  | nil => rfl
  | cons name names ih =>
    rw [List.foldl_cons, ih, record]
    split <;> rfl

/-- The names in use afterwards do not depend on findings and path. -/
theorem foldl_record_used (names : List String) (context other : Context)
    (same : context.used = other.used) :
    (names.foldl (fun context name => context.record name) context).used =
      (names.foldl (fun context name => context.record name) other).used := by
  induction names generalizing context other with
  | nil => exact same
  | cons name names ih =>
    rw [List.foldl_cons, List.foldl_cons]
    apply ih
    rw [record, record, ← same]
    split <;> simp [same]

/-- What has been used is what was used before, and then what is new, each name once. -/
theorem foldl_record_eraseDups (names : List String) (context : Context) :
    (names.foldl (fun context name => context.record name) context).used =
      context.used ++ (names.filter fun name => !context.used.contains name).eraseDups := by
  induction names generalizing context with
  | nil => simp
  | cons name names ih =>
    rw [List.foldl_cons, ih, record]
    split
    · next seen => rw [List.filter_cons_of_neg (by simpa using seen)]
    · next new =>
      have further : names.filter (fun n => !(context.used ++ [name]).contains n) =
          names.filter fun n => !n == name && !context.used.contains n := by
        apply List.filter_congr
        intro n _
        by_cases h : n = name <;> simp [h]
      rw [List.filter_cons_of_pos (by simpa using new), List.eraseDups_cons, List.filter_filter,
        further]
      simp

theorem foldl_record_empty (names : List String) :
    (names.foldl (fun context name => context.record name) ({} : Context)).used =
      names.eraseDups := by
  have all : names.filter (fun name => !({} : Context).used.contains name) = names :=
    List.filter_eq_self.mpr fun _ _ => rfl
  rw [foldl_record_eraseDups, all]
  rfl

@[simp] theorem extend_path (names : List String) (findings : List Finding) (context : Context) :
    (context.extend names findings).path = context.path := foldl_record_path names context

@[simp] theorem extend_findings (names : List String) (findings : List Finding)
    (context : Context) :
    (context.extend names findings).findings = context.findings ++ findings := rfl

@[simp] theorem extend_pointer (names : List String) (findings : List Finding)
    (context : Context) : (context.extend names findings).pointer = context.pointer := by
  rw [pointer, extend_path, pointer]

theorem extend_nil (context : Context) : context.extend [] [] = context := by
  simp [extend]

theorem extend_single (name : String) (context : Context) :
    context.extend [name] [] = context.record name := by
  rw [extend, List.foldl_cons, List.foldl_nil, record]
  split <;> simp

theorem extend_extend (names further : List String) (findings later : List Finding)
    (context : Context) :
    (context.extend names findings).extend further later =
      context.extend (names ++ further) (findings ++ later) := by
  have used := foldl_record_used further (context.extend names findings)
    (names.foldl (fun context name => context.record name) context) rfl
  simp only [extend, foldl_record_path, List.foldl_append, List.append_assoc] at used ⊢
  rw [used]

/-- Within a part of the node at hand nothing else changes. -/
theorem leave_extend_enter (part : Pointer) (names : List String) (findings : List Finding)
    (context : Context) :
    ((context.enter part).extend names findings).leave = context.extend names findings := by
  have used := foldl_record_used names (context.enter part) context rfl
  simp only [extend, leave, foldl_record_path, used]
  simp [enter]

@[simp] theorem enter_pointer (part : Pointer) (context : Context) :
    (context.enter part).pointer = context.pointer ++ part := by
  simp [enter, pointer]

end Context

namespace Building

variable {α β : Type}

/-- In every context the action has the same result and adds the same names, and the same findings
at every place. -/
def Yields (action : Building α) (result : α) (names : List String)
    (findings : Pointer → List Finding) : Prop :=
  ∀ context, action.run context = (result, context.extend names (findings context.pointer))

def result (action : Building α) : α := (action.run {}).1

def findingsAt (action : Building α) (pointer : Pointer) : List Finding :=
  (action.run { path := [pointer] }).2.findings

theorem Yields.result_eq {action : Building α} {a : α} {names : List String}
    {findings : Pointer → List Finding} (h : action.Yields a names findings) :
    action.result = a := by
  rw [result, h]

theorem Yields.findingsAt_eq {action : Building α} {a : α} {names : List String}
    {findings : Pointer → List Finding} (h : action.Yields a names findings) :
    action.findingsAt = findings := by
  funext pointer
  rw [findingsAt, h]
  simp [Context.pointer]

theorem Yields.congr {action : Building α} {a : α} {names others : List String}
    {findings same : Pointer → List Finding} (h : action.Yields a names findings)
    (sameNames : names = others) (sameFindings : ∀ pointer, findings pointer = same pointer) :
    action.Yields a others same := by
  intro context
  rw [h context, sameNames, sameFindings]

theorem yields_pure (a : α) : Yields (pure a) a [] fun _ => [] := by
  intro context
  rw [Context.extend_nil]
  rfl

theorem yields_naming (name : String) (a : α) : Yields (naming name a) a [name] fun _ => [] := by
  intro context
  rw [Context.extend_single]
  rfl

theorem yields_report (combinator : Combinator) :
    Yields (modify (Context.report combinator)) ⟨⟩ [] fun pointer => [⟨pointer, combinator⟩] :=
  fun _ => rfl

theorem Yields.bind {action : Building α} {next : α → Building β} {a : α} {b : β}
    {names further : List String} {findings later : Pointer → List Finding}
    (h : action.Yields a names findings) (k : (next a).Yields b further later) :
    Yields (action >>= next) b (names ++ further)
      fun pointer => findings pointer ++ later pointer := by
  intro context
  rw [StateT.run_bind, h, ← Context.extend_extend]
  exact (k _).trans (by rw [Context.extend_pointer])

theorem Yields.map {action : Building α} {a : α} {names : List String}
    {findings : Pointer → List Finding} (f : α → β) (h : action.Yields a names findings) :
    Yields (f <$> action) (f a) names findings := by
  intro context
  rw [StateT.run_map, h]
  rfl

theorem yields_mapM {action : α → Building β} {result : α → β} {names : α → List String}
    {findings : α → Pointer → List Finding} {as : List α}
    (h : ∀ a ∈ as, (action a).Yields (result a) (names a) (findings a)) :
    Yields (as.mapM action) (as.map result) (as.flatMap names)
      fun pointer => as.flatMap fun a => findings a pointer := by
  induction as with
  | nil => exact yields_pure _
  | cons a as ih =>
    rw [List.mapM_cons]
    have first := h a List.mem_cons_self
    have others := ih fun a mem => h a (List.mem_cons_of_mem _ mem)
    simpa using first.bind (others.map _)

theorem Yields.inside {action : Building α} {a : α} {names : List String}
    {findings : Pointer → List Finding} (part : Pointer) (h : action.Yields a names findings) :
    Yields (Building.inside part action) a names fun pointer => findings (pointer ++ part) := by
  intro context
  have entered := h (context.enter part)
  rw [Context.enter_pointer] at entered
  calc (Building.inside part action).run context
    _ = ((action.run (context.enter part)).1, (action.run (context.enter part)).2.leave) := rfl
    _ = (a, context.extend names (findings (context.pointer ++ part))) := by
      rw [entered, Context.leave_extend_enter]

end Building

end SchemaTypes
