import SchemaTypes.Files.Path
import SchemaTypes.Failure

/-! # Actions on files

What a program asks of the system that keeps its files. A program is written over these actions, and
so it is one and the same for the files of the machine and for a tree of files.
-/

namespace SchemaTypes.Files

/-- The actions on files that a program is made of. Each says what has come of it. -/
class MonadFiles (m : Type → Type) where
  currentDirectory : m (Except FileFault String)
  isFile (path : String) : m Bool
  isDirectory (path : String) : m Bool
  read (path : String) : m (Except FileFault String)
  /-- Make a directory where there is nothing yet, in a directory that is there. -/
  makeDirectory (path : String) : m (Except FileFault Unit)
  /-- Give a file a text, in a directory that is there. -/
  write (path text : String) : m (Except FileFault Unit)

section

variable {m : Type → Type} [Monad m] [MonadFiles m]

/-- A directory that could not be made is no fault if it is there. -/
def unlessThere (path : String) (fault : FileFault) : m (Except FileFault Unit) := do
  if ← MonadFiles.isDirectory path then return .ok ()
  return .error fault

/-- Make a directory unless it is there, with those above it. -/
def makeDirectories (path : String) : m (Except FileFault Unit) := do
  if _ : path = "" then return .ok ()
  match ← MonadFiles.makeDirectory path with
  | .ok () => return .ok ()
  | .error .notFound =>
    match ← makeDirectories (parent path) with
    | .error fault => return .error fault
    | .ok () =>
      match ← MonadFiles.makeDirectory path with
      | .ok () => return .ok ()
      | .error fault => unlessThere path fault
  | .error fault => unlessThere path fault
termination_by path.length
decreasing_by exact length_parent_lt ‹_›

end

end SchemaTypes.Files
