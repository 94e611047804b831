/-! # Tables

The tables that a TOML text builds up. A table remembers how it came to be, because that decides in
which ways it may grow: a table with a header or in braces is complete as far as dotted keys are
concerned, and one that a dotted key has made cannot be given a header.
-/

namespace SchemaTypes.Toml

inductive Origin where
  /-- By a header of its own. -/
  | header
  /-- By the header of a table in it. -/
  | implied
  /-- By a dotted key. -/
  | dotted
  /-- In braces. -/
  | inline
deriving DecidableEq

/-- What a key stands for. Of numbers and times only the kind is kept. -/
inductive Item where
  | string (text : String)
  | boolean (value : Bool)
  | number
  | time
  | array (items : List Item)
  | table (origin : Origin) (entries : List (String × Item))
  /-- The tables of a header in double brackets. -/
  | tables (rows : List (List (String × Item)))

abbrev Entries := List (String × Item)

namespace Entries

def get? (key : String) : Entries → Option Item
  | [] => none
  | (name, item) :: rest => if name = key then some item else get? key rest

def set (key : String) (item : Item) : Entries → Entries
  | [] => [(key, item)]
  | (name, old) :: rest =>
    if name = key then (name, item) :: rest else (name, old) :: set key item rest

/-- A new entry; none if the key is taken. -/
def add? (key : String) (item : Item) (entries : Entries) : Option Entries :=
  if (entries.get? key).isSome then none else some (entries ++ [(key, item)])

/-- Change the table at the end of a path, where tables that are missing are made. On the way of a
dotted key no table may have a header; of tables in double brackets the last one is meant. -/
def alter? (dotted : Bool) (change : Origin → Entries → Option (Origin × Entries)) :
    List String → Origin → Entries → Option (Origin × Entries)
  | [], origin, entries => change origin entries
  | key :: path, origin, entries =>
    match entries.get? key with
    | none =>
      (alter? dotted change path (if dotted then .dotted else .implied) []).map fun (inner, sub) =>
        (origin, entries.set key (.table inner sub))
    | some (.table inner sub) =>
      if inner = .inline ∨ (dotted ∧ inner = .header) then none else
        (alter? dotted change path inner sub).map fun (inner, sub) =>
          (origin, entries.set key (.table inner sub))
    | some (.tables rows) =>
      (rows.getLast?.bind fun row => alter? dotted change path .header row).map fun (_, row) =>
        (origin, entries.set key (.tables (rows.dropLast ++ [row])))
    | some _ => none

/-- Add an entry under a dotted key. The table that it goes to must be the one where the key stands,
or have been made by dotted keys. -/
def addDotted? (path : List String) (key : String) (item : Item) (origin : Origin)
    (entries : Entries) : Option (Origin × Entries) :=
  entries.alter? true (fun inner sub =>
    if !path.isEmpty && inner != .dotted then none
    else (sub.add? key item).map fun sub => (inner, sub)) path origin

/-- Open the table of a header: a new one, or one that was only implied so far. -/
def openTable? (path : List String) (key : String) (entries : Entries) : Option Entries :=
  (entries.alter? false (fun origin sub =>
    match sub.get? key with
    | none => some (origin, sub.set key (.table .header []))
    | some (.table .implied inner) => some (origin, sub.set key (.table .header inner))
    | some _ => none) path .header).map (·.2)

def openRow? (path : List String) (key : String) (entries : Entries) : Option Entries :=
  (entries.alter? false (fun origin sub =>
    match sub.get? key with
    | none => some (origin, sub.set key (.tables [[]]))
    | some (.tables rows) => some (origin, sub.set key (.tables (rows ++ [[]])))
    | some _ => none) path .header).map (·.2)

end Entries

end SchemaTypes.Toml
