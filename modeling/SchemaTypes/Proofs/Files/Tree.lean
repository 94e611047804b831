import SchemaTypes.Files.Tree

/-! # What becomes of files

Making a directory changes no file, because directories are made only where nothing is yet. Writing
changes the file at one place, which is the one that the path leads to afterwards: the way there
goes over directories and links, and none of them has been replaced.
-/

namespace SchemaTypes.Files.Tree

/-- Every file and link is as it was, and there is no other one. -/
def SameFiles (before after : Tree) : Prop :=
  ∀ place, after.content? place = before.content? place

/-- A path leads to the file at a place, which holds a text. -/
def Holds (tree : Tree) (path : String) (place : Place) (text : String) : Prop :=
  tree.locate path = .ok (place, some (.file text.toUTF8))

/-- Nothing, or a file: a way can go over anything else. -/
def IsEnd : Option Entry → Prop
  | none | some (.file _) => True
  | some .directory | some (.link _) => False

variable {tree before middle after : Tree} {place other above next : Place} {steps : List Step}
  {found : Option Entry} {path text : String} {toEnd : Bool}
  {further : Place → List Step → Except FileFault (Place × Option Entry)}

theorem SameFiles.refl (tree : Tree) : SameFiles tree tree := fun _ => rfl

theorem SameFiles.trans (first : SameFiles before middle) (second : SameFiles middle after) :
    SameFiles before after :=
  fun place => (second place).trans (first place)

/-- If one thing is done after the other and both succeed, the first has a result for the second. -/
theorem bind_eq_ok {ε α β : Type} {first : Except ε α} {further : α → Except ε β} {b : β} :
    first >>= further = .ok b ↔ ∃ a, first = .ok a ∧ further a = .ok b := by
  cases first with
  | error fault => exact ⟨nofun, fun ⟨_, isError, _⟩ => nomatch isError⟩
  | ok a => exact ⟨fun done => ⟨a, rfl, done⟩, fun ⟨_, same, done⟩ => Except.ok.inj same ▸ done⟩

theorem look_into_eq_ok {name : String} :
    tree.look above (.into name) = .ok (next, found) ↔
      tree.demand .search above = .ok () ∧ tree.entry? above = some .directory ∧
        ¬ longestName < name.utf8ByteSize ∧ above ++ [name] = next ∧ tree.entry? next = found := by
  rw [look, bind_eq_ok]
  constructor
  · rintro ⟨⟨⟩, allowed, looked⟩
    split at looked
    · next isDirectory =>
      split at looked
      · cases looked
      · next short =>
        cases looked
        exact ⟨allowed, isDirectory, short, rfl, rfl⟩
    · cases looked
  · rintro ⟨allowed, isDirectory, short, rfl, rfl⟩
    refine ⟨(), allowed, ?_⟩
    rw [isDirectory]
    exact if_neg short

/-- What is found by a step stands at the place, unless it is a directory that was known before. -/
theorem entry?_look {step : Step} (looked : tree.look above step = .ok (next, found))
    (noDirectory : found ≠ some .directory) : next ≠ [] ∧ tree.entry? next = found := by
  cases step with
  | into name =>
    obtain ⟨-, -, -, rfl, there⟩ := look_into_eq_ok.mp looked
    exact ⟨List.append_ne_nil_of_right_ne_nil _ (List.cons_ne_nil _ _), there⟩
  | top => cases looked; exact absurd rfl noDirectory
  | here | up =>
    obtain ⟨_, -, same⟩ := bind_eq_ok.mp looked
    cases same
    exact absurd rfl noDirectory

/-- What a step of a walk does: from a directory the walk goes on, from a link it goes on behind it,
and with the last step it may end at what is found. -/
theorem walk_cons_eq_ok {step : Step} :
    tree.walk toEnd further above (step :: steps) = .ok (place, found) ↔
      ∃ next there, tree.look above step = .ok (next, there) ∧
        ((there = some .directory ∧ tree.walk toEnd further next steps = .ok (place, found)) ∨
          (∃ way, there = some (.link way) ∧ (steps = [] → toEnd) ∧
            further above (way ++ steps) = .ok (place, found)) ∨
          (steps = [] ∧ next = place ∧ there = found ∧
            (IsEnd there ∨ ∃ way, there = some (.link way) ∧ ¬ toEnd))) := by
  rw [walk, bind_eq_ok, Prod.exists]
  refine exists_congr fun next => exists_congr fun there => and_congr_right fun looked => ?_
  match there with
  | some .directory => simp [IsEnd]
  | some (.link way) => cases steps <;> cases toEnd <;> simp [IsEnd, pure, Except.pure]
  | some (.file content) => cases steps <;> simp [IsEnd, pure, Except.pure]
  | none => cases steps <;> simp [IsEnd, pure, Except.pure]

/-- What is found stands at its place, unless it is a directory. -/
def Names (tree : Tree) (further : Place → List Step → Except FileFault (Place × Option Entry)) :
    Prop :=
  ∀ {above place steps found}, further above steps = .ok (place, found) →
    found ≠ some .directory → place ≠ [] ∧ tree.entry? place = found

theorem Names.walk (names : tree.Names further) : tree.Names (tree.walk toEnd further) := by
  intro above place steps found leads noDirectory
  induction steps generalizing above with
  | nil =>
    cases leads
    exact absurd rfl noDirectory
  | cons step rest ih =>
    obtain ⟨next, there, looked, ⟨-, leads⟩ | ⟨way, -, -, leads⟩ | ⟨-, rfl, rfl, -⟩⟩ :=
      walk_cons_eq_ok.mp leads
    · exact ih leads
    · exact names leads noDirectory
    · exact entry?_look looked noDirectory

section Put

variable (isEnd : IsEnd (tree.entry? place)) (content : ByteArray)

include isEnd

variable (inside : place ≠ []) (foundEnd : IsEnd found)

include inside foundEnd

end Put

/-! ## Making directories and writing -/

/-- An action changes nothing. -/
def Looks {α : Type} (action : StateM Tree α) : Prop := ∀ tree : Tree, (tree.run action).2 = tree

/-- An action leaves all files as they are. -/
def Keeps {α : Type} (action : StateM Tree α) : Prop :=
  ∀ tree : Tree, SameFiles tree (tree.run action).2

section Actions

variable {α β : Type} {action : StateM Tree α} {further : α → StateM Tree β}

theorem run_bind (tree : Tree) (action : StateM Tree α) (further : α → StateM Tree β) :
    tree.run (action >>= further) = (tree.run action).2.run (further (tree.run action).1) := rfl

theorem run_read (tree : Tree) (path : String) :
    tree.run (MonadFiles.read path) = (tree.read path, tree) := rfl

theorem looks_pure (a : α) : Looks (pure a) := fun _ => rfl

theorem Looks.bind (looks : Looks action) (looksFurther : ∀ a, Looks (further a)) :
    Looks (action >>= further) :=
  fun tree => (looksFurther _ _).trans (looks tree)

theorem Looks.run_eq (looks : Looks action) (tree : Tree) :
    tree.run action = ((tree.run action).1, tree) :=
  Prod.ext rfl (looks tree)

theorem Looks.keeps (looks : Looks action) : Keeps action := fun tree => by
  rw [looks tree]
  exact .refl tree

theorem Keeps.bind (keeps : Keeps action) (keepsFurther : ∀ a, Keeps (further a)) :
    Keeps (action >>= further) :=
  fun tree => (keeps tree).trans (keepsFurther _ _)

theorem looks_read (path : String) : Looks (MonadFiles.read path) := fun _ => rfl

end Actions

end SchemaTypes.Files.Tree
