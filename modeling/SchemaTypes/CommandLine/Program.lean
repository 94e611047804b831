import SchemaTypes.CommandLine.Arguments
import SchemaTypes.Generation.Run

/-! # The program

The program that writes TypeScript declarations for the schemas of an OpenAPI document. The settings
of a run are those of a file, over which the arguments have the last word. What the program tells
ends up in its exit code, its output, its warnings and one closing message.
-/

namespace SchemaTypes.CommandLine

open SchemaTypes.Files

/-- Settings under the last word of the arguments. -/
def Arguments.override (arguments : Arguments) (settings : Settings) : Settings :=
  let declarations := settings.declarations
  { settings with
    input := arguments.input.or settings.input
    output := arguments.output.or settings.output
    affixes := ⟨arguments.front.getD settings.affixes.front,
      arguments.back.getD settings.affixes.back⟩
    declarations := {
      exported := declarations.exported && !arguments.noExport
      style := arguments.style.getD declarations.style
      enumsAsUnions := declarations.enumsAsUnions || arguments.enumsAsUnions }
    strictValidation := settings.strictValidation && !arguments.lenient
    imports := settings.imports.extend arguments.imports }

structure Report where
  /-- 0 for success, 1 for a failure, 2 for arguments that are not understood. -/
  exit : UInt8
  output : String := ""
  /-- The closing message, if there is one. -/
  message : Option String := none
  warnings : List String := []

def versionText : String := "openapi-ts 0.2.0\n"

def helpText : String :=
  "Generate TypeScript types from OpenAPI schemas\n\n" ++
    "Usage: openapi-ts [OPTIONS] <COMMAND>\n\n" ++
    "Commands:\n" ++
    "  generate  Generate TypeScript declarations from an OpenAPI document\n" ++
    "  version   Print the version\n"

/-- The message for a failure. Failures of a run with known output name it; a file that could not be
written is followed by the reason once more. -/
def failureMessage (output : Option String) (failure : Failure) : String :=
  let task := match output with
    | some path => "generating " ++ path ++ ": "
    | none => ""
  let reason := match failure with
    | .output _ fault => ": " ++ fault.message
    | _ => ""
  "Error: " ++ task ++ failure.message ++ reason

def successMessage (output : String) : String := "Types generated successfully to " ++ output

/-- The report of what has come of a run, whose output is known once its settings are. -/
def Report.ofResult (output : Option String) (warnings : List String) :
    Except Failure String → Report
  | .ok _ => { exit := 0, message := output.map successMessage, warnings := warnings }
  | .error failure =>
    { exit := 1, message := some (failureMessage output failure), warnings := warnings }

section

variable {m : Type → Type} [Monad m] [MonadFiles m]

/-- The settings of the file that the arguments name, or else those of the working directory. -/
def Arguments.loadSettings (arguments : Arguments) : m (Except Failure Settings) := do
  match arguments.settings with
  | some path => Settings.load path
  | none =>
    match ← MonadFiles.currentDirectory with
    | .error fault => return .error (.workingDirectory fault)
    | .ok directory => Settings.discover directory

def Arguments.run (arguments : Arguments) : m Report := do
  match ← arguments.loadSettings with
  | .error failure => return .ofResult none [] (.error failure)
  | .ok settings =>
    let settings := arguments.override settings
    match settings.paths with
    | .error failure => return .ofResult none [] (.error failure)
    | .ok (_, output) =>
      let run ← settings.run
      return .ofResult (some output) run.warnings run.result

end

def Stop.report : Stop → Report
  | .help => { exit := 0, output := helpText }
  | .version => { exit := 0, output := versionText }
  | .misuse => { exit := 2 }
  | .importFault fault => { exit := 2, message := some fault.message }

def run {m : Type → Type} [Monad m] [MonadFiles m] (arguments : List String) : m Report :=
  match Command.read arguments with
  | .error stop => return stop.report
  | .ok .version => return { exit := 0, output := versionText }
  | .ok (.generate arguments) => arguments.run

end SchemaTypes.CommandLine
