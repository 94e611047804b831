import SchemaTypes.Files.Actions

/-! # Trees of files

All files from the root on, what each of them holds, and the directory in which a program runs. A
file holds bytes, which need not be a text. A link stands for what is at the end of another way, or
for nothing if there is nothing. The system can refuse any access, and then says why in its own
words. A file has one place.
-/

namespace SchemaTypes.Files

/-- The names on the way from the root. -/
abbrev Place := List String

inductive Entry where
  | file (content : ByteArray)
  | directory
  /-- The way goes from the directory of the link, unless it begins at the root. It ends with the
  step `here` if it is written with a slash at its end. -/
  | link (way : List Step)

inductive Access where
  /-- To what is in a directory. -/
  | search
  /-- To a directory that gets something new. -/
  | add
  /-- To what a file or directory holds. -/
  | read
  /-- To a file that gets other content. -/
  | write
deriving DecidableEq

structure Tree where
  /-- Files and directories at their places. The root is not listed. -/
  entries : List (Place × Entry)
  workingDirectory : Place := []
  /-- The accesses that the system refuses, with its words for that. -/
  refusals : List ((Access × Place) × String) := []

namespace Tree

def entry? (tree : Tree) (place : Place) : Option Entry :=
  if place.isEmpty then some .directory else tree.entries.lookup place

/-- The file or the link at a place. -/
def content? (tree : Tree) (place : Place) : Option Entry :=
  match tree.entry? place with
  | some .directory => none
  | entry => entry

def put (place : Place) (entry : Entry) (tree : Tree) : Tree :=
  { tree with entries := (place, entry) :: tree.entries.filter fun old => old.1 != place }

/-- Put something at a place, with directories on the way to it. -/
def add (place : Place) (entry : Entry) (tree : Tree) : Tree :=
  let above := (List.range (place.length - 1)).map fun n => place.take (n + 1)
  (above.foldl (fun tree place => tree.put place .directory) tree).put place entry

def demand (tree : Tree) (access : Access) (place : Place) : Except FileFault Unit :=
  match tree.refusals.lookup (access, place) with
  | some words => .error (.other words)
  | none => .ok ()

/-! ## Following a path -/

def longestName : Nat := 255

def longestPath : Nat := 4095

/-- Where a step leads to from a directory, and what is there. Only the last step of a path may lead
to something that is not there yet. -/
def look (tree : Tree) (place : Place) : Step → Except FileFault (Place × Option Entry)
  | .top => .ok ([], some .directory)
  | .here => do
    tree.demand .search place
    return (place, some .directory)
  | .up => do
    tree.demand .search place
    -- The root is its own parent.
    return (place.dropLast, some .directory)
  | .into name => do
    tree.demand .search place
    match tree.entry? place with
    | some .directory =>
      if longestName < name.utf8ByteSize then .error .nameTooLong
      else return (place ++ [name], tree.entry? (place ++ [name]))
    | _ => .error .notFound

/-- Go on from a directory, and behind a link as `further` says. A link at the end of the way is
followed only if that is asked for. -/
def walk (tree : Tree) (toEnd : Bool)
    (further : Place → List Step → Except FileFault (Place × Option Entry)) (place : Place) :
    List Step → Except FileFault (Place × Option Entry)
  | [] => .ok (place, some .directory)
  | step :: rest => do
    match ← tree.look place step with
    | (next, some .directory) => tree.walk toEnd further next rest
    | (next, some (.link way)) =>
      if rest.isEmpty && !toEnd then return (next, some (.link way))
      else further place (way ++ rest)
    | (next, some (.file content)) =>
      if rest.isEmpty then return (next, some (.file content)) else .error .notDirectory
    | (next, none) => if rest.isEmpty then return (next, none) else .error .notFound

/-- Go on from a directory over less than `links` links. -/
def follow (tree : Tree) (toEnd : Bool) :
    (links : Nat) → Place → List Step → Except FileFault (Place × Option Entry)
  | 0, _, _ => .error .tooManyLinks
  | links + 1, place, steps => tree.walk toEnd (tree.follow toEnd links) place steps

def atSteps (tree : Tree) (toEnd : Bool) (steps : List Step) :
    Except FileFault (Place × Option Entry) :=
  if steps.isEmpty then .error .notFound else tree.follow toEnd 41 tree.workingDirectory steps

/-- The steps of a path that the system takes. -/
def stepsOf (path : String) : Except FileFault (List Step) :=
  if path.toList.contains '\x00' then .error .nulInName
  else if longestPath < path.utf8ByteSize then .error .nameTooLong
  else .ok (steps path)

/-- Where a path leads to, and what is there. A slash at the end of a path makes it that of a
directory. -/
def locate (tree : Tree) (path : String) : Except FileFault (Place × Option Entry) := do
  match ← tree.atSteps true (← stepsOf path) with
  | (place, some (.file content)) =>
    if endsInSlash path then .error .notDirectory else return (place, some (.file content))
  | found => return found

/-! ## Looking -/

def currentDirectory (tree : Tree) : Except FileFault String :=
  match tree.entry? tree.workingDirectory with
  | some .directory => .ok ("/" ++ "/".intercalate tree.workingDirectory)
  | _ => .error .notFound

def isFile (tree : Tree) (path : String) : Bool :=
  match tree.locate path with
  | .ok (_, some (.file _)) => true
  | _ => false

def isDirectory (tree : Tree) (path : String) : Bool :=
  match tree.locate path with
  | .ok (_, some .directory) => true
  | _ => false

def read (tree : Tree) (path : String) : Except FileFault String := do
  match ← tree.locate path with
  | (_, none) => .error .notFound
  | (place, some (.file content)) =>
    tree.demand .read place
    match String.fromUTF8? content with
    | some text => return text
    | none => .error .notText
  | (place, some _) =>
    tree.demand .read place
    .error .isDirectory

/-! ## Changing -/

def makeDirectory (tree : Tree) (path : String) : Except FileFault Tree := do
  match ← tree.atSteps false (← stepsOf path) with
  | (_, some _) => .error .alreadyExists
  | (place, none) =>
    tree.demand .add place.dropLast
    return tree.put place .directory

def write (tree : Tree) (path text : String) : Except FileFault Tree := do
  let steps ← stepsOf path
  if endsInSlash path then
    -- The system gets as far as the directory in which the path names something.
    let _ ← tree.atSteps true (steps.dropLast ++ steps.getLast?.toList.map Step.inPlace)
    .error .isDirectory
  else
    match ← tree.atSteps true steps with
    | (place, some (.file _)) =>
      tree.demand .write place
      return tree.put place (.file text.toUTF8)
    | (_, some _) => .error .isDirectory
    | (place, none) =>
      tree.demand .add place.dropLast
      return tree.put place (.file text.toUTF8)

/-- Change a tree, which stays as it is if that fails. -/
def attempt (change : Tree → Except FileFault Tree) : StateM Tree (Except FileFault Unit) :=
  fun tree =>
    match change tree with
    | .ok after => (.ok (), after)
    | .error fault => (.error fault, tree)

instance : MonadFiles (StateM Tree) where
  currentDirectory tree := (tree.currentDirectory, tree)
  isFile path tree := (tree.isFile path, tree)
  isDirectory path tree := (tree.isDirectory path, tree)
  read path tree := (tree.read path, tree)
  makeDirectory path := attempt fun tree => tree.makeDirectory path
  write path text := attempt fun tree => tree.write path text

def run {α : Type} (tree : Tree) (action : StateM Tree α) : α × Tree := action tree

end Tree

end SchemaTypes.Files
