import SchemaTypes.CommandLine.Program

/-! # The program on the files of the machine

The actions on files, done with files: only here is anything read, written or printed. What the
system says of a file becomes a fault.
-/

namespace SchemaTypes.CommandLine

open SchemaTypes.Files

/-- The codes of the same error on different systems may differ in their sign. -/
def isCode (number code : UInt32) : Bool := code = number ∨ code = -number

def faultOf : IO.Error → FileFault
  | .noFileOrDirectory .. => .notFound
  | .alreadyExists .. => .alreadyExists
  | .inappropriateType _ code _ => if isCode 21 code then .isDirectory else .notDirectory
  | error@(.invalidArgument _ code _) =>
    if isCode 36 code then .nameTooLong
    else if isCode 40 code then .tooManyLinks
    else .other (toString error)
  | error => .other (toString error)

/-- The result of an action on a file, or the fault that ended it. -/
def attempt {α : Type} (action : IO α) : IO (Except FileFault α) := do
  match ← action.toBaseIO with
  | .ok a => return .ok a
  | .error error => return .error (faultOf error)

def readFile (path : String) : IO (Except FileFault String) := do
  match ← attempt (IO.FS.readBinFile path) with
  | .error fault => return .error fault
  | .ok bytes =>
    match String.fromUTF8? bytes with
    | some text => return .ok text
    | none => return .error .notText

instance : MonadFiles IO where
  currentDirectory := do return (← attempt IO.currentDir).map toString
  isFile path := do
    -- A file that cannot be read is there all the same.
    match ← readFile path with
    | .ok _ | .error .notText | .error (.other _) => return true
    | .error _ => return false
  isDirectory path := do
    match ← readFile path with
    | .error .isDirectory => return true
    | _ => return false
  read := readFile
  makeDirectory path := attempt (IO.FS.createDir path)
  write path text := attempt (IO.FS.writeFile path text)

def Report.print (report : Report) : IO Unit := do
  IO.print report.output
  for warning in report.warnings do
    IO.eprintln ("WARN " ++ warning)
  if let some message := report.message then
    IO.eprintln message

end SchemaTypes.CommandLine

open SchemaTypes.CommandLine in
def main (arguments : List String) : IO UInt32 := do
  let report ← run arguments
  report.print
  return report.exit.toUInt32
