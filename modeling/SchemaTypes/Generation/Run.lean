import SchemaTypes.Generation.Basic
import SchemaTypes.Settings.Reader
import SchemaTypes.Files.Tree

/-! # Runs from file to file

A run reads the input, checks the version of the document, generates the types and writes them to
the output. No file is written before everything else has succeeded; only directories that were
made for it may be left behind by a failure. What does not stop the run is told as a warning, in the
order in which it comes up.
-/

namespace SchemaTypes

open SchemaTypes.Files

def isRemote (source : String) : Bool :=
  ["http://", "https://"].any fun scheme => scheme.toList.isPrefixOf source.toList

/-- What a run yields without writing anything. -/
structure Draft where
  warnings : List String
  result : Except Failure String

namespace Settings

def draft (settings : Settings) (document : Document) : Draft :=
  let generation := settings.generate document
  let found := generation.findings.map Finding.message
  match document.validate with
  | .ok () => ⟨found, .ok generation.text⟩
  | .error failure =>
    if settings.strictValidation then ⟨[], .error failure⟩
    else ⟨(failure.message ++ "; continuing") :: found, .ok generation.text⟩

end Settings

/-- What a run has told on the way, and its text or the reason for there being none. -/
structure Run where
  warnings : List String
  result : Except Failure String

/-- A run that ended before anything was told or written. -/
def Run.stopped (failure : Failure) : Run := ⟨[], .error failure⟩

section

variable {m : Type → Type} [Monad m] [MonadFiles m]

def Document.load (source : String) : m (Except Failure Document) := do
  if isRemote source then return .error (.document source .remote)
  match ← MonadFiles.read source with
  | .error fault => return .error (.document source (.unreadable fault))
  | .ok text => return Document.parse text source

def prepareOutput (path : String) : m (Except Failure Unit) := do
  match ← makeDirectories (parent path) with
  | .error fault => return .error (.output (parent path) fault)
  | .ok () => return .ok ()

/-- Write a text to a path, whose directory is made where it is missing. -/
def publish (path text : String) : m (Except Failure Unit) := do
  match ← prepareOutput path with
  | .error failure => return .error failure
  | .ok () =>
    match ← MonadFiles.write path text with
    | .error fault => return .error (.output path fault)
    | .ok () => return .ok ()

namespace Settings

/-- What a run does with the document that it has read. -/
def deliver (settings : Settings) (output : String) (document : Document) : m Run := do
  let draft := settings.draft document
  match draft.result with
  | .error failure => return ⟨draft.warnings, .error failure⟩
  | .ok text => return ⟨draft.warnings, (← publish output text).map fun () => text⟩

def run (settings : Settings) : m Run := do
  match settings.paths with
  | .error failure => return .stopped failure
  | .ok (input, output) =>
    match ← Document.load input with
    | .error failure => return .stopped failure
    | .ok document => settings.deliver output document

def load (path : String) : m (Except Failure Settings) := do
  match ← MonadFiles.read path with
  | .error fault => return .error (.settings path (.unreadable fault))
  | .ok text =>
    match ofToml? text with
    | some settings => return .ok settings
    | none => return .error (.settings path .malformed)

/-- The settings of a directory: those of its file of settings, if there is one. -/
def discover (directory : String) : m (Except Failure Settings) := do
  let path := inDirectory directory fileName
  if ← MonadFiles.isFile path then load path else return .ok {}

end Settings

end

end SchemaTypes
