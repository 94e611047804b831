import Mathlib.Data.List.Forall2
import SchemaTypes.CommandLine.Program
import SchemaTypes.Proofs.Generation.Order
import SchemaTypes.Proofs.Text.Blank
import SchemaTypes.Proofs.Text.Split
import SchemaTypes.Proofs.Text.Utf8

/-! # Imports from arguments to file

A value of the option for imports names a custom type in front of its first equality sign and gives
its statement behind it. The last value for a name stands in place of what the settings say, and
what the file imports are the statements of the names in use, in the order of their bytes.
-/

namespace SchemaTypes.CommandLine

open Text

/-! ## Single values -/

/-- The custom type that a value names: what stands in front of the first equality sign, without the
white space around it. -/
def importName (value : String) : String :=
  trimmed (String.ofList (value.toList.takeWhile (· != '=')))

def importStatement (value : String) : String :=
  String.ofList ((value.toList.dropWhile (· != '=')).drop 1)

section Values

variable {value name statement : String} {entry : String × String}

theorem parseImport_eq (value : String) :
    parseImport value =
      if '=' ∈ value.toList then
        if importName value = "" then .error .noName
        else .ok (importName value, trimmed (importStatement value))
      else .error (.noStatement value) := by
  rw [parseImport, splitFirst?_eq]
  by_cases marked : '=' ∈ value.toList
  · rw [if_pos marked, if_pos marked]
    rfl
  · rw [if_neg marked, if_neg marked]

theorem parseImport_eq_ok_iff :
    parseImport value = .ok entry ↔
      ('=' ∈ value.toList ∧ importName value ≠ "") ∧
        entry = (importName value, trimmed (importStatement value)) := by
  rw [parseImport_eq]
  by_cases marked : '=' ∈ value.toList
  · rw [if_pos marked]
    by_cases unnamed : importName value = ""
    · rw [if_pos unnamed]
      exact iff_of_false nofun fun given => given.1.2 unnamed
    · rw [if_neg unnamed, Except.ok.injEq, eq_comm, and_iff_right ⟨marked, unnamed⟩]
  · rw [if_neg marked]
    exact iff_of_false nofun fun given => marked given.1.1

/-- A value is accepted exactly if it has an equality sign and something but white space in front of
the first one. -/
theorem parseImport_accepts_iff :
    (∃ entry, parseImport value = .ok entry) ↔
      ∃ front back, value.toList = front ++ '=' :: back ∧ '=' ∉ front ∧
        ∃ c ∈ front, isBlank c = false := by
  simp only [parseImport_eq_ok_iff, exists_and_left, exists_eq, and_true]
  have named : importName value ≠ "" ↔
      ∃ c ∈ value.toList.takeWhile (· != '='), isBlank c = false := by
    rw [importName, Ne, trimmed_eq_empty_iff, String.toList_ofList]
    simp
  constructor
  · rintro ⟨marked, nonempty⟩
    obtain ⟨front, back, whole, unmarked⟩ := List.eq_append_cons_of_mem marked
    rw [named, whole, takeWhile_append_mark unmarked] at nonempty
    exact ⟨front, back, whole, unmarked, nonempty⟩
  · rintro ⟨front, back, whole, unmarked, inside⟩
    rw [named, whole, takeWhile_append_mark unmarked]
    exact ⟨List.mem_append_right _ List.mem_cons_self, inside⟩

theorem mark_not_mem_importName (value : String) : '=' ∉ (importName value).toList := by
  rw [importName, trimmed, String.toList_ofList, String.toList_ofList]
  intro mem
  simpa using List.mem_takeWhile_imp (mem_of_mem_trim mem)

theorem toList_rejoined (name statement : String) :
    (name ++ "=" ++ statement).toList = name.toList ++ '=' :: statement.toList := by
  simp

theorem importName_rejoined (unmarked : '=' ∉ name.toList) (statement : String) :
    importName (name ++ "=" ++ statement) = trimmed name := by
  rw [importName, toList_rejoined, takeWhile_append_mark unmarked, String.ofList_toList]

theorem importStatement_rejoined (unmarked : '=' ∉ name.toList) (statement : String) :
    importStatement (name ++ "=" ++ statement) = statement := by
  rw [importStatement, toList_rejoined, dropWhile_append_mark unmarked, List.drop_one,
    List.tail_cons, String.ofList_toList]

/-- Name and statement of a value, with an equality sign between them, are read as themselves. -/
theorem parseImport_rejoined (accepted : parseImport value = .ok (name, statement)) :
    parseImport (name ++ "=" ++ statement) = .ok (name, statement) := by
  obtain ⟨⟨-, nonempty⟩, same⟩ := parseImport_eq_ok_iff.mp accepted
  obtain ⟨rfl, rfl⟩ := Prod.mk.inj same
  have unmarked := mark_not_mem_importName value
  have isName : trimmed (importName value) = importName value := trimmed_trimmed _
  rw [parseImport_eq_ok_iff, importName_rejoined unmarked, importStatement_rejoined unmarked,
    isName, trimmed_trimmed, toList_rejoined]
  exact ⟨⟨List.mem_append_right _ List.mem_cons_self, nonempty⟩, rfl⟩

end Values

/-! ## Values one after the other -/

/-- The statement of a custom type: that of the last value that names it, and without one that of
the table. -/
def statementOf? (values : List String) (table : ImportTable) (name : String) : Option String :=
  ((values.reverse.find? (importName · = name)).map importStatement).or (table.get? name)

abbrev Accepted (values : List String) (entries : List (String × String)) : Prop :=
  List.Forall₂ (fun value entry => parseImport value = .ok entry) values entries

section Sequence

variable {values : List String} {entries : List (String × String)}

theorem Accepted.entries_eq (accepted : Accepted values entries) :
    entries = values.map fun value => (importName value, trimmed (importStatement value)) := by
  induction accepted with
  | nil => rfl
  | cons first _ ih => rw [List.map_cons, ← ih, ← (parseImport_eq_ok_iff.mp first).2]

/-- In a table that is extended by the values, a name has the statement that it gets from them or
had before, up to white space around it. -/
theorem Accepted.get?_extend (accepted : Accepted values entries) (table : ImportTable)
    (name : String) :
    ((table.extend entries).get? name).map trimmed =
      (statementOf? values table name).map trimmed := by
  have last : entries.reverse.find? (·.1 = name) =
      (values.reverse.find? (importName · = name)).map fun value =>
        (importName value, trimmed (importStatement value)) := by
    rw [accepted.entries_eq, ← List.map_reverse, List.find?_map, Function.comp_def]
  rw [ImportTable.get?_extend, last, statementOf?]
  cases values.reverse.find? (importName · = name) with
  | none => rfl
  | some value =>
    rw [Option.map_some, Option.map_some, Option.map_some, Option.some_or, Option.some_or,
      Option.map_some, Option.map_some, trimmed_trimmed]

def importArgument (value : String) : String :=
  "--import=" ++ value

/-- What stands behind two dashes is a name, and a value behind the first equality sign. -/
theorem shape_long {argument name value : String} {c : Char} {rest : List Char}
    (text : argument.toList = '-' :: '-' :: c :: rest)
    (cut : splitFirst? '=' (String.ofList (c :: rest)) = some (name, value)) :
    Arguments.Shape.of argument = .long name (some value) := by
  simp only [Arguments.Shape.of, text, cut]

theorem shape_importArgument (value : String) :
    Arguments.Shape.of (importArgument value) = .long "import" (some value) := by
  have text : (importArgument value).toList =
      '-' :: '-' :: 'i' :: ("mport".toList ++ '=' :: value.toList) := by
    rw [importArgument, String.toList_append]
    rfl
  refine shape_long text ?_
  rw [← List.cons_append, splitFirst?_eq, String.toList_ofList, if_pos (by simp),
    takeWhile_append_mark (by decide), dropWhile_append_mark (by decide), List.drop_one,
    List.tail_cons, String.ofList_toList]
  rfl

/-- Arguments with accepted values are read into the imports, in their order. -/
theorem Accepted.read (accepted : Accepted values entries) (before : Arguments)
    (further : List String) :
    Arguments.read (before, none) (values.map importArgument ++ further) =
      Arguments.read ({ before with imports := before.imports ++ entries }, none) further := by
  induction accepted generalizing before with
  | nil => rw [List.append_nil, List.map_nil, List.nil_append]
  | @cons value entry values entries first _ ih =>
    have taken : Arguments.readLong (before, none) "import" (some value) =
        .ok ({ before with imports := before.imports ++ [entry] }, none) := by
      change before.assign .imports value >>= _ = _
      rw [Arguments.assign, first]
      rfl
    rw [List.map_cons, List.cons_append, Arguments.read.eq_def]
    dsimp only
    rw [shape_importArgument]
    dsimp only
    rw [taken]
    refine (ih _).trans ?_
    rw [List.append_assoc, List.singleton_append]

end Sequence

/-! ## The file -/

/-- A file begins with what is imported for the names in use: by the last value that names them, and
without one by the settings. -/
theorem Arguments.imports_of_values (arguments : Arguments) (base : Settings) (document : Document)
    {values : List String} (accepted : Accepted values arguments.imports) :
    let settings := arguments.override base
    let file := settings.generate document
    let declared := settings.declared document
    let statement? (name : String) := (statementOf? values base.imports name).map trimmed
    file.text = endingLine (importBlock file.imports declared ++ "\n\n".intercalate declared) ∧
    (file.imports.map utf8).Pairwise (· < ·) ∧
    (∀ text, text ∈ file.imports ↔
      text ≠ "" ∧ ∃ name ∈ file.used, statement? name = some text) ∧
    (∀ uses, (∀ name, name ∈ uses ↔ name ∈ file.used) →
      settings.imports.resolve uses = file.imports) ∧
    (∀ name uses, (statement? name).getD "" = "" →
      settings.imports.resolve (name :: uses) = settings.imports.resolve uses) ∧
    (∀ value, (∃ entry, parseImport value = .ok entry) ↔
      ∃ front back, value.toList = front ++ '=' :: back ∧ '=' ∉ front ∧
        ∃ c ∈ front, isBlank c = false) ∧
    (∀ value name statement, parseImport value = .ok (name, statement) →
      parseImport (name ++ "=" ++ statement) = .ok (name, statement)) ∧
    Command.read ("generate" :: values.map importArgument) =
      .ok (.generate { imports := arguments.imports }) := by
  intro settings file declared statement?
  have isTable : settings.imports = base.imports.extend arguments.imports := rfl
  have isStatement (name : String) :
      (settings.imports.get? name).map trimmed = statement? name :=
    isTable ▸ accepted.get?_extend base.imports name
  have imported : file.imports = settings.imports.resolve file.used := rfl
  refine ⟨settings.generate_text document, ?_, fun text => ?_, fun uses same => ?_,
    fun name uses blank => ?_, fun value => parseImport_accepts_iff,
    fun value name statement => parseImport_rejoined, ?_⟩
  · rw [List.pairwise_map, imported]
    exact (ImportTable.resolve_rising _ _).imp utf8_lt
  · rw [imported, ImportTable.mem_resolve]
    simp only [← isStatement, Option.map_eq_some_iff]
  · exact ImportTable.resolve_congr _ same
  · exact ImportTable.resolve_cons_of_blank ((isStatement name).symm ▸ blank)
  · have read := accepted.read {} []
    rw [List.append_nil] at read
    change (Arguments.read ({}, none) (values.map importArgument)).map Command.generate = _
    rw [read]
    rfl

/-- A name in the settings gets a statement with equality signs and then another one, and a name in
the settings gets a blank one. -/
theorem Arguments.imports_of_values_replaced :
    let base : Settings :=
      { imports := [("Big", "import Big from 'big';"), ("Dayjs", "import Dayjs from 'dayjs';")] }
    let values := ["Dayjs=import X = require('x');", " Dayjs = import D = require('d'); ", "Big= "]
    let arguments : Arguments := { imports :=
      [("Dayjs", "import X = require('x');"), ("Dayjs", "import D = require('d');"), ("Big", "")] }
    let custom (name : String) : Schema := .object [("x-ts-type", .string name)]
    let document := Document.ofValue (.object [("components", .object [("schemas", .object
      [("A", custom "Dayjs"), ("B", custom "Big"), ("C", custom "Date"), ("D", custom "Dayjs")])])])
    Accepted values arguments.imports ∧
    ((arguments.override base).generate document).used = ["Dayjs", "Big", "Date"] ∧
    "import D = require('d');" ∈ ((arguments.override base).generate document).imports ∧
    "import Big from 'big';" ∉ ((arguments.override base).generate document).imports ∧
    (arguments.override base).imports.resolve ["Date", "Dayjs", "Dayjs", "Big"] =
      ((arguments.override base).generate document).imports ∧
    Command.read ("generate" :: values.map importArgument) =
      .ok (.generate { imports := arguments.imports }) := by
  intro base values arguments custom document
  have accepted : Accepted values arguments.imports :=
    .cons (by decide +kernel) (.cons (by decide +kernel) (.cons (by decide +kernel) .nil))
  have used : ((arguments.override base).generate document).used = ["Dayjs", "Big", "Date"] := by
    decide +kernel
  obtain ⟨-, -, imported, anyUses, -, -, -, read⟩ :=
    arguments.imports_of_values base document accepted
  refine ⟨accepted, used, (imported _).mpr ⟨by decide, "Dayjs", ?_, ?_⟩, fun mem => ?_,
    anyUses _ fun name => ?_, read⟩
  · rw [used]
    decide
  · decide +kernel
  · obtain ⟨-, name, isUsed, found⟩ := (imported _).mp mem
    rw [used] at isUsed
    revert name
    decide +kernel
  · rw [used]
    simp only [List.mem_cons, List.not_mem_nil]
    tauto

end SchemaTypes.CommandLine
