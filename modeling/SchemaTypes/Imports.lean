import SchemaTypes.Text.Blank

/-! # Imports

A table gives, for a custom type, the statement that brings it in. The statements for the names in
use are sorted by their characters, and each stands once.
-/

namespace SchemaTypes

/-- The import statements of custom types, each name at most once. -/
abbrev ImportTable := List (String × String)

namespace ImportTable

def get? (name : String) : ImportTable → Option String
  | [] => none
  | (key, statement) :: rest => if key = name then some statement else get? name rest

/-- Give a name a statement, in place of the one that it has. -/
def insert (name statement : String) : ImportTable → ImportTable
  | [] => [(name, statement)]
  | (key, old) :: rest =>
    if key = name then (key, statement) :: rest else (key, old) :: insert name statement rest

/-- A table with further entries, the last of which counts for a name. -/
def extend (table : ImportTable) (entries : List (String × String)) : ImportTable :=
  entries.foldl (fun table entry => table.insert entry.1 entry.2) table

/-- Put a statement into a sorted list of different statements. -/
def insertSorted (statement : String) : List String → List String
  | [] => [statement]
  | other :: rest =>
    if statement = other then other :: rest
    else if statement < other then statement :: other :: rest
    else other :: insertSorted statement rest

/-- The statements for the names in use. A name without a statement, or with a blank one, is taken
to be known everywhere. -/
def resolve (table : ImportTable) (used : List String) : List String :=
  let statements := (used.filterMap fun name => table.get? name).map Text.trimmed
  (statements.filter (· != "")).foldr insertSorted []

end ImportTable

end SchemaTypes
